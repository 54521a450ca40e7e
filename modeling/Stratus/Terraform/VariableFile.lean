import Stratus.Data.Access
import Stratus.Json.Reader
import Stratus.Json.Writer
import Stratus.World.Disk

/-! A file with an empty value for each variable of a Terraform file, beside that file. -/
namespace Stratus.Terraform

def valuesPath (path : String) : String :=
  match (Text.split path "/").dropLast with
  | [] => "vars.json"
  | parts => "/".intercalate (parts ++ ["vars.json"])

/-- The contents of a Terraform file, if they can be read; those of a file in the native language
are given. -/
def fileContents? (d : Disk) (path : String) (native : Data) : Option Data :=
  if !d.isFile path then none
  else if Text.endsWith path ".tf.json" then (d.readText path >>= Json.read).toOption
  else if Text.endsWith path ".tf" then some native
  else none

/-- Writes the file of values, if there is any variable and the place is free for a file. -/
def writeValues (d : Disk) (path : String) (native : Data) : Outcome Disk :=
  match fileContents? d path native with
  | none => .ok d
  | some contents => do
    let declared ← contents.getD "variable" (.map [])
    if !declared.holds then return d
    let values := (← declared.keys).map fun name => (name, Data.str "")
    return (d.write (valuesPath path) (Json.write .indented (.map values))).toOption.getD d

end Stratus.Terraform
