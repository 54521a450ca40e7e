import Stratus.Data.Access
import Stratus.World.Disk

/-!
Entering a key pair into the instances of an infrastructure configuration.
-/
namespace Stratus.KeyPair

def mapInstances (type : String) (f : Data → Outcome Data) (config : Data) : Outcome Data := do
  if !(← config.has "resource") then return config
  let resources ← (← config.item "resource").entries
  let resources ← resources.mapM fun (t, rs) => do
    if t != type then return (t, rs)
    let entries ← rs.entriesFor (if type == "aws_instance" then "values" else "items")
    return (t, Data.map (← Assoc.mapValuesM f entries))
  config.put "resource" (.map resources)

def nameOf (key : String) : Data := .str (Text.replace (Path.stem key) ".pem" "")

def nameKey (key : String) : Data → Outcome Data :=
  mapInstances "aws_instance" fun d => d.put "key_name" (nameOf key)

def withTag (tag : String) (tags : Data) : Outcome Data := do
  if ← tags.has tag then return tags else tags.push (.str tag)

def enterKey (user publicKey : String) (d : Data) : Outcome Data := do
  let _ ← d.get "name"
  let d ← if ← d.has "metadata" then pure d else d.put "metadata" (.map [])
  let metadata ← (← d.item "metadata").put "ssh-keys" (.str (user ++ ":" ++ publicKey))
  let d ← d.put "metadata" metadata
  let tags ← if ← d.has "tags" then d.item "tags" else pure (.list [])
  d.put "tags" (← withTag "http-server" tags >>= withTag "https-server")

def publicKeyOf (disk : Disk) (key : String) : Outcome String := do
  let path := Path.withSuffix (Path.join Disk.workingDirectory key) ".pub"
  if !disk.holds path then throw (.publicKeyMissing path)
  return Text.strip (← disk.readText path)

def enter (disk : Disk) (config : Data) (key provider user : String) : Outcome Data := do
  match provider with
  | "aws" => nameKey key config
  | "google" =>
    mapInstances "google_compute_instance" (enterKey user (← publicKeyOf disk key)) config
  | _ => return config

end Stratus.KeyPair
