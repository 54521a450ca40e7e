import Stratus.Command.Run

/-!
The program on the working directory. No other program is started from here, so every tool counts as
missing; the tree of a configuration is expected as JSON in `tree.json`.
-/
namespace Stratus.Program

/-- All texts below a directory, by their paths from the working directory. -/
partial def readTexts (dir : String) : IO (Assoc String) := do
  let here ← IO.currentDir
  let mut texts : Assoc String := []
  for entry in ← (here / dir).readDir do
    let path := Path.join dir entry.fileName
    if ← entry.path.isDir then texts := texts ++ (← readTexts path)
    else
      try texts := texts ++ [(path, ← IO.FS.readFile entry.path)]
      catch _ => pure ()
  return texts

partial def readInput (input : IO.FS.Stream) : IO String := do
  let line ← input.getLine
  if line == "" then return ""
  return line ++ (← readInput input)

/-- A session in which no tool answers. -/
def session (texts : Assoc String) (input shell : String) : Session where
  disk := Disk.ofFiles texts
  locator := .ofTable "" []
  script := List.replicate 1000 { missing := true }
  typed := Session.linesTyped input
  shell := shell
  tree := ((Assoc.get? texts "tree.json").bind fun text => (Json.read text).toOption).getD .null

def writeTexts (before after : Disk) : IO Unit := do
  for (path, text) in after.files do
    if Assoc.get? before.files path != some text then
      IO.FS.createDirAll (Path.parent path)
      IO.FS.writeFile path text

end Stratus.Program

open Stratus in
def main (args : List String) : IO UInt32 := do
  let texts ← Program.readTexts ""
  let input ← Program.readInput (← IO.getStdin)
  let shell := (← IO.getEnv "SHELL").getD ""
  let before := Program.session texts input shell
  let (result, after) := (Command.run .full args).perform before
  for text in after.printed do IO.println text
  Program.writeTexts before.disk after.disk
  match result with
  | .ok code => return code.toUInt32
  | .error fault =>
    IO.eprintln fault.message
    return 1
