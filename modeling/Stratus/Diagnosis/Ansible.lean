import Stratus.Diagnosis.Basic

/-!
Messages of the configuration tool, explained by the configuration block.
-/
namespace Stratus.Diagnosis.Ansible

open Text Text.Piece

def explain (terms : List String) (before : String) (kind : ResourceKind)
    (headline suggestion : String → String) (message : String) : Tracing (Option Diagnosis) := do
  if !containsAny (lower message) terms then return none
  let some subject := Pattern.first (text before :: grab solid) message | return none
  let some place ← Locator.find? "configuration/main" | return none
  let location ← Locator.locate place
  return some {
    message := headline subject
    place := some (.fixed ⟨location.line, location.column, "configuration",
      .resource (some kind) none, []⟩)
    suggestion := some (suggestion subject)
    details := some ("Original error: " ++ message) }

def package : String → Tracing (Option Diagnosis) :=
  explain ["package"] "package " .configuration (fun name => s!"Failed to install package '{name}'")
    fun name => s!"Verify package name '{name}' is correct and available in the repository"

def service : String → Tracing (Option Diagnosis) :=
  explain ["service"] "service " .service (fun name => s!"Service operation failed for '{name}'")
    fun name => s!"Check if service '{name}' is properly configured"

def file : String → Tracing (Option Diagnosis) :=
  explain ["file", "directory", "permission"] "path: " .configuration
    (fun path => s!"File operation failed for '{path}'")
    fun _ => "Check file paths and permissions in your configuration block"

/-- A package that lacks another one, where the location knows the packages. -/
def dependency (message : String) : Tracing (Option Diagnosis) := do
  if !contains (lower message) "dependency" then return none
  let some [package, dependency] := Pattern.search
    (text "package " :: grab solid ++ text " requires " :: grab solid) message | return none
  let some place ← Locator.find? "configuration/packages" | return none
  let packages := Assoc.getD (← Locator.locate place).metadata "packages" .null
  if !packages.holds then return none
  let current ← (packages.elements >>= Data.joinTexts ", " : Outcome String)
  return some {
    message := s!"Package '{package}' requires dependency '{dependency}'"
    place
    suggestion := some s!"Add '{dependency}' to your packages list"
    details := some ("Current packages: " ++ current) }

def ofMessage (message : String) : Tracing (Option Diagnosis) :=
  firstOf [package message, service message, file message]

end Stratus.Diagnosis.Ansible
