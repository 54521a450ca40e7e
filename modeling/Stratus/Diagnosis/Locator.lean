import Stratus.Diagnosis.SourceMap

/-!
Looking up where a resource is described. The map of a file also finds a resource by one of its
parameters; a table knows only the names it was given.
-/
namespace Stratus

/-- A place that a report points to: an entry of the map, which look-ups may still enrich, or a
location of its own. -/
inductive Place where
  | mapped (key : String)
  | fixed (location : Location)

structure Locator where
  path : String
  entries : Assoc Location
  isTable : Bool := false

/-- Work that reads files, looks up places and can fail; notes made before a failure stay. -/
abbrev Tracing := ReaderT Disk (ExceptT Fault (StateM Locator))

namespace Locator

def ofFile (disk : Disk) (path : String) : Outcome Locator := do
  return { path, entries := SourceMap.ofText path (← disk.readText path) }

def ofTable (path : String) (table : Assoc Location) : Locator :=
  { path, entries := table, isTable := true }

def resolve (l : Locator) : Place → Location
  | .mapped key => (Assoc.get? l.entries key).getD (.start "")
  | .fixed location => location

def place (l : Locator) (key : String) : Place :=
  match l.isTable, Assoc.get? l.entries key with
  | true, some location => .fixed location
  | _, _ => .mapped key

/-- The entry for an identifier, or else the first one for a part of it. -/
def keyFor? (l : Locator) (id : String) : Option String :=
  if Assoc.contains l.entries id then some id
  else if l.isTable then none
  else l.entries.keys.find? (Text.startsWith · (id ++ "."))

/-- Under which name the first line of a block is noted, for the resources whose block is shown. -/
def startKey? (id : String) : Option String :=
  if Text.startsWith id "aws_vpc.vpc" then some "vpc_start_line"
  else if Text.startsWith id "aws_instance." then some "instance_start_line"
  else none

def withContext (content startKey : String) (l : Location) : Location :=
  let start := (((Assoc.get? l.metadata startKey).bind Data.int?).getD l.line).toNat
  let lines := ((Text.feedLines content).take l.line.toNat).drop (start - 1)
  { l with metadata := Assoc.set l.metadata "block_context" (.str (String.join lines)) }

def find? (id : String) : Tracing (Option Place) := do
  let l ← get
  match l.keyFor? id with
  | none => return none
  | some key =>
    match l.isTable, startKey? id, Assoc.get? l.entries key with
    | false, some startKey, some location =>
      let content ← (← read).readText l.path
      set { l with entries := Assoc.set l.entries key (withContext content startKey location) }
    | _, _, _ => pure ()
    return some (l.place key)

def param? (id param : String) : Tracing (Option Place) := do
  let l ← get
  let key := id ++ "." ++ param
  return if Assoc.contains l.entries key then some (l.place key) else none

def valued? (l : Locator) (kind value : String) : Option Place :=
  let start := if kind == "vpc" then some "aws_vpc.vpc."
    else if kind == "instance" then some "aws_instance." else none
  start.bind fun start =>
    (l.entries.find? fun (key, location) =>
      Text.startsWith key start && ((Assoc.get? location.metadata "value").any (· == .str value))).map
        fun (key, _) => l.place key

def locate (p : Place) : Tracing Location := do return (← get).resolve p

end Locator

end Stratus
