import Stratus.Data.Access
import Stratus.Json.Reader
import Stratus.Json.Writer
import Stratus.Text.Glob
import Stratus.Text.Pattern
import Stratus.World.Disk
import Stratus.World.Document

/-!
References to files in generated configurations. A text that holds one stands for the content of a
file beside the description; the first reference of a text decides.
-/
namespace Stratus.FileReference

open Text Text.Piece

def pattern : Pattern :=
  [text "$\x7bfile(", .maybe '\\', text "\""] ++ grab (upTo '"' 1) ++ [.maybe '\\', text "\")\x7d"]

def name? (s : String) : Option String := Pattern.first pattern s

/-- The content that a reference stands for: the text of a configuration file, JSON in one line, or
any other text with its escapes. -/
def content? (disk : Disk) (description name : String) : Option String := do
  let path := Path.join (Path.parent description) name
  let text ← (disk.readText path).toOption
  if Path.suffix path == ".conf" then return text
  match Json.read text with
  | .ok d => return Json.write .spaced d
  | .error _ => return jsonEscaped text

def inResource (disk : Disk) (description s : String) : String :=
  match (name? s).bind (content? disk description) with
  | some content => if content == "" then s else content
  | none => s

def inPlaybook (disk : Disk) (description s : String) : String :=
  match name? s with
  | none => s
  | some name =>
    match content? disk description name with
    | none => s
    | some content =>
      if endsWith name ".conf" then content else "\"" ++ replace content "\"" "\\\"" ++ "\""

def mapTexts (f : String → String) : Data → Data := Data.mapTexts (fun _ => f) false

def changed (before after : Data) : Bool := Json.write .compact before != Json.write .compact after

/-- Updates a file by what its content becomes; a file that cannot be read or written stays. -/
def updateFile (read : String → Outcome Data) (step : Data → Data) (write : Data → String)
    (path : String) (disk : Disk) : Disk :=
  match disk.readText path >>= read with
  | .error _ => disk
  | .ok before =>
    let after := step before
    if changed before after then ((disk.write path (write after)).toOption).getD disk else disk

def matching (disk : Disk) (dir pattern : String) : List String :=
  ((disk.entries dir).filter (globMatches pattern)).map (Path.join dir)

def documents (d : Data) : List Data := (d.list?).getD []

def resolveAll (format : DocumentFormat) (dir description : String) (disk : Disk) : Disk :=
  let disk := (matching disk dir "*.tf.json").foldl (fun disk path =>
    updateFile Json.read (mapTexts (inResource disk description))
      (Json.write .indented) path disk) disk
  let resources := (matching disk dir "*.yml").filter fun path => Path.name path != "playbook.yml"
  let disk := resources.foldl (fun disk path =>
    updateFile (fun text => .list <$> format.readAll text) (mapTexts (inResource disk description))
      (fun d => format.write {} (documents d)) path disk) disk
  updateFile format.read (mapTexts (inPlaybook disk description)) (fun d => format.write {} [d])
    (Path.join dir "playbook.yml") disk

/-- The description file at a path: the file itself, or one in a directory, if its name ends so. -/
def description? (disk : Disk) (path : String) : Option String :=
  if disk.isFile path then if Path.suffix path == ".cloud" then some (Path.shown path) else none
  else (matching disk path "*.cloud").head?

end Stratus.FileReference
