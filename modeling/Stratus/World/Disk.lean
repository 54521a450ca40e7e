import Stratus.Fault
import Stratus.World.Path

/-!
A file system as a value: texts by path, and directories, which are those made on purpose and those
that hold files. Paths are taken from the working directory.
-/
namespace Stratus

structure Disk where
  files : Assoc String := []
  made : List String := []
deriving Inhabited

namespace Disk

def workingDirectory : String := "/work"

def parentsFrom : List String → List String → List String
  | _, [] | _, [_] => []
  | above, part :: rest => "/".intercalate (above ++ [part]) :: parentsFrom (above ++ [part]) rest

def parents (path : String) : List String := (parentsFrom [] (Text.split path "/")).filter (· != "")

/-- Parts without steps up, as far as there is something to step up from. -/
def resolveUp : List String → List String → List String
  | done, [] => done.reverse
  | d :: done, ".." :: rest =>
    if d == ".." then resolveUp (".." :: d :: done) rest else resolveUp done rest
  | done, part :: rest => resolveUp (part :: done) rest

/-- The name under which a path is kept: relative to the working directory where it is below it. -/
def normal (path : String) : String :=
  let parts := resolveUp [] (Path.parts path)
  if !Path.isAbsolute path then "/".intercalate parts
  else match parts with
    | "work" :: rest => "/".intercalate rest
    | parts => "/" ++ "/".intercalate parts

def absolute (path : String) : String := Path.join workingDirectory (normal path)

def isFile (d : Disk) (path : String) : Bool := Assoc.contains d.files (normal path)

def isDir (d : Disk) (path : String) : Bool :=
  let p := normal path
  p == "" || d.made.contains p || (d.files.any fun f => (parents f.1).contains p) ||
    d.made.any fun m => (parents m).contains p

def holds (d : Disk) (path : String) : Bool := d.isFile path || d.isDir path

def read (d : Disk) (path : String) : Outcome String :=
  match Assoc.get? d.files (normal path) with
  | some text => .ok text
  | none => if d.isDir path then .error (.isDirectory path) else .error (.noFile path)

def readText (d : Disk) (path : String) : Outcome String := Text.withUnixNewlines <$> d.read path

def put (d : Disk) (path text : String) : Disk :=
  { d with files := Assoc.set d.files (normal path) text }

def puts (d : Disk) (files : Assoc String) : Disk :=
  files.foldl (fun d file => d.put file.1 file.2) d

def write (d : Disk) (path text : String) : Outcome Disk :=
  let p := normal path
  if d.isDir p then .error (.isDirectory path)
  else match (parents p).getLast? with
    | some parent => if d.isDir parent then .ok (d.put p text) else .error (.noFile path)
    | none => .ok (d.put p text)

def remove (d : Disk) (path : String) : Disk :=
  let p := normal path
  { files := Assoc.erase d.files p, made := d.made ++ (parents p).filter fun q =>
    !d.made.contains q }

def rename (d : Disk) (path target : String) : Outcome Disk := do
  let text ← d.read path
  return (d.remove path).put target text

def makeDir (d : Disk) (path : String) : Outcome Disk :=
  let p := normal path
  if d.isFile p then .error (.fileExists path)
  else .ok (if d.isDir p then d else { d with made := d.made ++ [p] })

def isIn (dir entry : String) : Bool := normal (Path.parent entry) == normal dir && entry != ""

def entries (d : Disk) (dir : String) : List String :=
  let all := d.files.keys ++ d.made
  let paths := all.flatMap fun p => parents p ++ [p]
  ((paths.filter (isIn dir)).map Path.name).eraseDups

def removeDir (d : Disk) (path : String) : Outcome Disk :=
  if d.entries path != [] then .error (.directoryNotEmpty path)
  else .ok { d with made := (d.made ++ parents (normal path)).filter (· != normal path) }

def ofFiles (files : Assoc String) : Disk := files.foldl (fun d f => d.put f.1 f.2) {}

end Disk

end Stratus
