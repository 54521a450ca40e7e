import Stratus.World.Session

/-!
The key pair with which instances are reached: kept in a directory of its own, and with the cloud
service where the provider keeps public keys itself.
-/
namespace Stratus.Keys

open Job

def keyName : String := "cloud-cli-key"

def directory (dir : String) : String := Path.join dir ".keys"

def privateKey (dir : String) : String := Path.join (directory dir) keyName

def publicKey (dir : String) : String := Path.join (directory dir) (keyName ++ ".pub")

def generate (dir : String) : Job Unit := do
  let disk ← disk
  if disk.holds (privateKey dir) && disk.holds (publicKey dir) then return
  runChecked (words ["ssh-keygen", "-t", "rsa", "-b", "2048", "-f", privateKey dir, "-N", ""])
  requireFile (privateKey dir)
  requireFile (publicKey dir)

def create (dir : String) : Job Unit := do
  let pair ← aws "create_key_pair" [("KeyName", .str keyName)]
  match ← pair.item "KeyMaterial" with
  | .str text => write (Path.withSuffix (privateKey dir) ".pem") text
  | d => throw (.badArguments s!"data must be str, not {d.kind}")

/-- Uses the pair that the cloud service has, unless its private half is not here. -/
def claim (dir : String) : Job Unit := do
  let found ← aws "describe_key_pairs"
    [("Filters", .list [.map [("Name", .str "key-name"), ("Values", .texts [keyName])]])]
  if (← found.item "KeyPairs").holds then
    if (← disk).holds (privateKey dir) then return
    let _ ← aws "delete_key_pair" [("KeyName", .str keyName)]
  create dir

def setUp (dir : String) (region : Data) (provider : String) : Job String := do
  changeDisk (·.makeDir (directory dir))
  match provider with
  | "aws" =>
    awsClient "ec2" [("region_name", region)]
    try claim dir catch fault => throw (.failure ("Failed to setup key pair: " ++ fault.message))
  | "google" => generate dir
  | other => throw (.providerUnsupported other)
  return keyName

def publicText (dir : String) : Job String := do
  if (← disk).holds (publicKey dir) then return Text.strip (← readText (publicKey dir))
  throw (.publicKeyMissing (publicKey dir))

def removeFile (path : String) : Job Unit := changeDisk fun d =>
  if d.isFile path then .ok (d.remove path)
    else if d.isDir path then .error (.isDirectory path) else .ok d

def cleanUp (dir : String) : Job Unit := do
  for suffix in [".pem", "", ".pub"] do
    removeFile (Path.withSuffix (privateKey dir) suffix)
  changeDisk fun d => if d.isDir (directory dir) then d.removeDir (directory dir) else .ok d

end Stratus.Keys
