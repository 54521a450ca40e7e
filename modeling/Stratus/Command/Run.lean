import Stratus.Command.Options
import Stratus.Command.Project

/-!
The command line of the program. A line that cannot be understood ends with code 2; the full set of
commands first sets up its own directory and asks for the tools that it needs.
-/
namespace Stratus.Command

open Text (coloured)
open Job

inductive Group where
  | basic | full
deriving DecidableEq

inductive Name where
  | help | convert | plan | apply | destroy | init | completion
deriving DecidableEq

def Name.ofWord? (g : Group) : String → Option Name
  | "help" => some .help
  | "convert" => some .convert
  | "plan" => some .plan
  | "apply" => some .apply
  | "destroy" => some .destroy
  | "init" => if g == .full then some .init else none
  | "completion" => if g == .full then some .completion else none
  | _ => none

def Name.takesPath : Name → Bool
  | .convert | .plan | .apply | .destroy => true
  | _ => false

def helpOption : OptionSpec := { name := "--help" }

def Name.options : Name → List OptionSpec
  | .convert | .plan => [helpOption, { name := "--iac-path", takesValue := true }]
  | .apply | .destroy =>
    [helpOption, { name := "--iac-path", takesValue := true }, { name := "--auto-approve" }]
  | _ => [helpOption]

def Group.options : Group → List OptionSpec
  | .basic => [helpOption]
  | .full => [helpOption, { name := "--debug" }, { name := "--no-debug" }, { name := "--version" }]

def misunderstood : Nat := 2

def startProject : Job Nat := do
  if (← disk).holds "IaC" then
    echo (coloured .red "Error: IaC directory already exists")
    return 1
  changeDisk (·.makeDir "IaC")
  write "service.cloud" Wording.template
  echo (coloured .green "\n✓ Initialized new .cloud project!")
  Wording.started.forM echo
  return 0

def complete : Job Unit := do
  let shell := ((Text.split (← get).shell "/").getLast?).getD ""
  let script? := if shell == "bash" then some Wording.bashCompletion
    else if shell == "zsh" then some Wording.zshCompletion else none
  match script? with
  | none => echo ("Shell completion not supported for " ++ shell)
  | some script =>
    echo script
    echo s!"\n# Add this to your ~/.{shell}rc:"
    echo "# source <(cloud completion)"

/-- Whether there is something at a path that was given; only a directory may be named with a slash
at the end. -/
def isThere (disk : Disk) (path : String) : Bool :=
  path != "" && disk.holds path && (!Text.endsWith path "/" || disk.isDir path)

def Name.runOn (path dir : String) (approve : Bool) : Name → Job Project.Status
  | .convert => Project.convert path dir
  | .plan => Project.plan path dir
  | .apply => Project.apply path dir approve
  | .destroy => Project.destroy path dir approve
  | _ => return .done

/-- Runs a command on the words that follow its name. The code of a command on a path does not
depend on its status. -/
def Name.run (c : Name) (words : List String) : Job Nat := do
  let some options := Options.parse c.options true words | return misunderstood
  if options.has "--help" then return 0
  let dir := options.valueD "--iac-path" "./IaC"
  let approve := options.has "--auto-approve"
  match c.takesPath, options.arguments with
  | true, [path] =>
    if !isThere (← disk) path then return misunderstood
    let _ ← c.runOn path dir approve
    return 0
  | false, [] =>
    match c with
    | .init => startProject
    | .completion =>
      complete
      return 0
    | _ =>
      Wording.help.forM echo
      return 0
  | _, _ => return misunderstood

def ownDirectory : String := Path.join Disk.workingDirectory ".cloud"

def defaultSettings : Data := .map [
  ("default_iac_path", .str "./IaC"), ("auto_approve", .bool false), ("colors", .bool true),
    ("log_level", .str "INFO")]

def writeSettings : Job Unit := do
  changeDisk (·.makeDir ownDirectory)
  let path := Path.join ownDirectory "config.yaml"
  if !(← disk).holds path then writeDocuments path {} [defaultSettings]

def openLog : Job Unit := do
  let dir := Path.join ownDirectory "logs"
  changeDisk (·.makeDir dir)
  let path := Path.join dir "cloud.log"
  if !(← disk).isFile path then write path ""

def tools : List (String × List String) := [
  ("terraform", ["terraform", "--version"]), ("kubectl", ["kubectl", "version", "--client"]),
  ("ansible", ["ansible", "--version"]), ("ansible-playbook", ["ansible-playbook", "--version"])]

def works (command : List String) : Job Bool := do
  try
    runChecked (words command)
    return true
  catch _ => return false

def missingTools : Job (List String) := do
  let missing ← tools.filterM fun tool => return !(← works tool.2)
  return missing.map (·.1)

def setUp (debug : Bool) : Job Bool := do
  try
    writeSettings
    openLog
    let missing ← missingTools
    if !missing.isEmpty then
      echo (coloured .red "\nMissing required dependencies:")
      missing.forM fun tool => echo ("  • " ++ tool)
      echo "\nPlease install the missing dependencies and try again."
      return false
    if debug then echo (coloured .yellow "Debug mode enabled")
    return true
  catch fault =>
    echo (coloured .red ("\nError during initialization: " ++ fault.message))
    return false

def looksLikeOption (word : String) : Bool := (word.toList.head?).any fun c => !Text.isAlphanumeric c

def version : String := "Cloudscript CLI v1.0.0"

/-- Runs a command line and answers the code with which the program ends. In place of a command a
word that looks like an option asks for help. -/
def run (g : Group) (words : List String) : Job Nat := do
  if words.isEmpty then return 0
  let some options := Options.parse g.options false words | return misunderstood
  match options.firstOf ["--help", "--version"] with
  | some "--version" =>
    echo version
    return 0
  | some _ => return 0
  | none =>
    let word :: rest := options.arguments | return misunderstood
    let some command := Name.ofWord? g word | return if looksLikeOption word then 0 else misunderstood
    let ready ← if g == .full then
        setUp (options.lastOf ["--debug", "--no-debug"] == some "--debug")
      else pure true
    if ready then command.run rest else return 1

end Stratus.Command
