import Stratus.Diagnosis.Locator

/-!
What went wrong in a run of a tool, where the description has its cause, and what to do about it.
-/
namespace Stratus

inductive Severity where
  | error | warning | info
deriving DecidableEq

def Severity.word : Severity → String
  | error => "error"
  | warning => "warning"
  | info => "info"

def Severity.ofWord (s : String) : Severity :=
  if s == "warning" then .warning else if s == "info" then .info else .error

structure Diagnosis where
  severity : Severity := .error
  message : String
  place : Option Place := none
  suggestion : Option String := none
  details : Option String := none

namespace Diagnosis

def general (blockType message : String) : Diagnosis :=
  { message, place := some (.fixed (.start blockType)) }

def location? (locator : Locator) (d : Diagnosis) : Option Location := d.place.map locator.resolve

def record (locator : Locator) (d : Diagnosis) : Data := .map [
  ("severity", .str d.severity.word), ("message", .str d.message),
  ("source_location", .ofOption ((d.location? locator).map Location.record)),
    ("suggestion", .ofText? d.suggestion),
  ("details", .ofText? d.details)]

def ofRecord (d : Data) : Diagnosis where
  severity := .ofWord (d.textField "severity")
  message := d.textField "message"
  place := match d.field "location" with
    | .map m => some (.fixed (.ofResourceRecord (.map m)))
    | _ => none
  suggestion := (d.field "suggestion").str?

def firstOf : List (Tracing (Option Diagnosis)) → Tracing (Option Diagnosis)
  | [] => return none
  | attempt :: rest => do
    match ← attempt with
    | some d => return some d
    | none => firstOf rest

end Diagnosis

end Stratus
