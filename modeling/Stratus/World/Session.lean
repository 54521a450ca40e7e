import Stratus.Diagnosis.Basic
import Stratus.Json.Reader
import Stratus.World.Document

/-!
Runs against the world outside. Commands and cloud services answer from prepared replies, files are
on a disk that is a value, and what a run did before a failure stays done.
-/
namespace Stratus

structure Reply where
  out : String := ""
  err : String := ""
  code : Int := 0
  /-- How many more lines of each output are there, each time the command is found running. -/
  looks : List (Nat × Nat) := []
  missing : Bool := false
  creates : Assoc String := []

namespace Console

def opensTag (c : Char) : Bool := c.isLower || c == '#' || c == '/' || c == '@'

def untagged (text : String) : Bool :=
  text.toList.all (·.toNat < 128) && (text.toList.zip text.toList.tail).all fun (a, b) =>
    a != '[' || !opensTag b

end Console

/-- Where lines with style tags are printed. A line may be refused for its tags, but not one that
has none behind its heading; of the latter, the jobs below leave out those of fixed words. -/
structure Console where
  refusal? : String → Option String
  plain : ∀ heading ∈ ["[blue]CLOUD:[/blue] ", "[yellow]CLOUD:[/yellow] ",
    "[red]CLOUD ERROR:[/red] "],
    ∀ text, Console.untagged text = true → refusal? (heading ++ text) = none

def Console.lenient : Console := ⟨fun _ => none, fun _ _ _ _ => rfl⟩

structure Session where
  disk : Disk := {}
  locator : Locator
  script : List Reply := []
  answers : Assoc (List Data) := []
  password : String := ""
  typed : List String := []
  shell : String := ""
  console : Console := .lenient
  format : DocumentFormat := {}
  /-- What the reader of configurations makes of a configuration text. -/
  tree : Data := .null
  log : List Data := []
  /-- The infrastructure file as it was logged last. -/
  seen : Data := .null
  changes : List String := []
  errors : List Diagnosis := []
  printed : List String := []

namespace Session

def linesTyped (input : String) : List String :=
  (Text.feedLines (Text.withUnixNewlines input)).map fun line => Text.replace line "\n" ""

def watched : String := "IaC/main.tf.json"

/-- Logs what is asked of the world, after the infrastructure file if it changed since. -/
def noted (s : Session) (entry : List Data) : Session :=
  let now := Data.ofText? (s.disk.read watched).toOption
  let log := if now == s.seen then s.log else s.log ++ [.list [.str "main.tf.json", now]]
  { s with seen := now, log := log ++ [.list entry] }

def nextReply (s : Session) : Reply := s.script.headD {}

def asked (s : Session) (manner : String) (argv : List Data) : Session :=
  { s.noted [.str manner, .texts (argv.map Data.text)] with
    script := s.script.drop 1
    disk := s.disk.puts s.nextReply.creates }

def answerTo (s : Session) (operation : String) : Outcome Data :=
  let answer := (Assoc.getD s.answers operation []).headD (.map [])
  match answer.field? "client_error" with
  | some code => .error (.serviceRefused code.text operation)
  | none => .ok answer

def consulted (s : Session) (operation : String) (arguments : Assoc Data) : Session :=
  { s.noted [.str "aws", .str operation, .map arguments] with
    answers := Assoc.set s.answers operation ((Assoc.getD s.answers operation []).drop 1) }

end Session

/-- A run; its failures keep what it did. -/
abbrev Job := ExceptT Fault (StateM Session)

namespace Job

/-- Runs a job in a session; the session afterwards holds all that was done, also where the job
failed. -/
def perform {α : Type} (job : Job α) (s : Session) : Outcome α × Session :=
  StateT.run (ExceptT.run job) s

def step {α : Type} (f : Session → Outcome α × Session) : Job α := ExceptT.mk f

def emit (change : String) : Job Unit := modify fun s => { s with changes := s.changes ++ [change] }

def report (d : Diagnosis) : Job Unit := modify fun s => { s with errors := s.errors ++ [d] }

def reportAny (d : Option Diagnosis) : Job Unit := d.forM report

/-- Prints a line with style tags, which fails if the console refuses it. -/
def say (line : String) : Job Unit := do
  match (← get).console.refusal? line with
  | some reason => throw (.badMarkup reason)
  | none => pure ()

def tell (text : String) : Job Unit := say ("[blue]CLOUD:[/blue] " ++ text)

def warn (text : String) : Job Unit := say ("[yellow]CLOUD:[/yellow] " ++ text)

def alarm (text : String) : Job Unit := say ("[red]CLOUD ERROR:[/red] " ++ text)

def announce (change : String) : Job Unit := do
  tell change
  emit change

def enter (change : String) : Job Unit := do
  emit change
  tell change

def note (entry : List Data) : Job Unit := modify (·.noted entry)

def ask (manner : String) (argv : List Data) : Job Reply := step fun s =>
  (if s.nextReply.missing then .error (.noFile (argv.headD .null).text)
    else .ok s.nextReply, s.asked manner argv)

def words (argv : List String) : List Data := argv.map .str

def start (argv : List String) : Job Reply := ask "Popen" (words argv)

def run (argv : List Data) : Job Reply := ask "run" argv

def refuseFailure (argv : List Data) (reply : Reply) : Job Unit :=
  if reply.code == 0 then pure () else throw (.commandFailed argv reply.code)

def runChecked (argv : List Data) : Job Unit := do refuseFailure argv (← run argv)

def outputOf (argv : List String) : Job String := do
  let reply ← ask "check_output" (words argv)
  refuseFailure (words argv) reply
  return reply.out

def sleep (seconds : Int) : Job Unit := note [.str "sleep", .int seconds]

def awsSession (settings : Assoc Data) : Job Unit := note [.str "aws session", .map settings]

def awsClient (name : String) (settings : Assoc Data) : Job Unit :=
  note [.str "aws client", .str name, .map settings]

/-- Asks a cloud service, which takes the next answer for the operation. -/
def aws (operation : String) (arguments : Assoc Data) : Job Data := step fun s =>
  (s.answerTo operation, s.consulted operation arguments)

def echo (text : String) : Job Unit := modify fun s => { s with printed := s.printed ++ [text] }

def typedLine : Job String := do
  let s ← get
  match s.typed with
  | [] => throw .inputEnded
  | line :: rest =>
    set { s with typed := rest }
    return line

def disk : Job Disk := return (← get).disk

def readText (path : String) : Job String := do (← disk).readText path

def readJson (path : String) : Job Data := do Json.read (← readText path)

def changeDisk (f : Disk → Outcome Disk) : Job Unit := step fun s =>
  match f s.disk with
  | .ok disk => (.ok (), { s with disk })
  | .error fault => (.error fault, s)

def write (path text : String) : Job Unit := changeDisk (·.write path text)

def removeIfThere (path : String) : Job Unit :=
  changeDisk fun d => .ok (if d.isFile path then d.remove path else d)

/-- Sets the mode of a file, which has to be there. -/
def requireFile (path : String) : Job Unit := do
  if (← disk).holds path then pure () else throw (.noFile path)

def trace {α : Type} (t : Tracing α) : Job α := step fun s =>
  let (result, locator) := (t.run s.disk).run.run s.locator
  (result, { s with locator })

/-- Runs a part with changes and troubles of its own, which it answers; a failure drops them. -/
def separately (body : Job Unit) : Job (List String × List Diagnosis) := do
  let outer ← get
  set { outer with changes := [], errors := [] }
  let restore : Job (List String × List Diagnosis) := modifyGet fun s =>
    ((s.changes, s.errors), { s with changes := outer.changes, errors := outer.errors })
  try
    body
    restore
  catch fault =>
    let _ ← restore
    throw fault

def take (part : List String × List Diagnosis) : Job Unit := modify fun s =>
  { s with changes := s.changes ++ part.1, errors := s.errors ++ part.2 }

def readDocument (path : String) : Job Data := do (← get).format.read (← readText path)

def writeDocuments (path : String) (layout : Layout) (docs : List Data) : Job Unit := do
  write path ((← get).format.write layout docs)

def filled (lines : List String) : List String := (lines.map Text.strip).filter (· != "")

def linesOf (out : String) : List String := filled (Text.feedLines out)

def inTurn (onOut onErr : String → Job Unit) : List String → List String → Job Unit
  | [], [] => pure ()
  | o :: out, [] => do onOut o; inTurn onOut onErr out []
  | [], e :: err => do onErr e; inTurn onOut onErr [] err
  | o :: out, e :: err => do onOut o; onErr e; inTurn onOut onErr out err

/-- Follows both outputs of a command. Blank lines keep their turn but are passed over. -/
def follow (onOut onErr : String → Job Unit) (reply : Reply) : Job Unit :=
  let unlessBlank (f : String → Job Unit) (line : String) : Job Unit :=
    let line := Text.strip line
    if line == "" then pure () else f line
  inTurn (unlessBlank onOut) (unlessBlank onErr) (Text.feedLines reply.out)
    (Text.feedLines reply.err)

/-- Follows both outputs of a command while it runs, at each look what is there by then; what comes
after the last look is not read. -/
def watch (onOut onErr : String → Job Unit) : List (Nat × Nat) → List String → List String → Job Unit
  | [], _, _ => pure ()
  | (n, m) :: looks, out, err => do
    (filled (out.take n)).forM onOut
    (filled (err.take m)).forM onErr
    watch onOut onErr looks (out.drop n) (err.drop m)

end Job

end Stratus
