import Stratus.Text.Split

/-!
Command lines as options and arguments. An option starts with a dash; its value is the next word, or
what follows an equals sign. After two dashes alone everything is an argument.
-/
namespace Stratus

structure OptionSpec where
  name : String
  takesValue : Bool := false

structure Options where
  given : List (String × String) := []
  arguments : List String := []

namespace Options

def add (name value : String) (o : Options) : Options := { o with given := (name, value) :: o.given }

def addArgument (word : String) (o : Options) : Options := { o with arguments := word :: o.arguments }

def isOption (word : String) : Bool := Text.startsWith word "-" && word != "-"

def nameAndValue (word : String) : String × Option String :=
  if Text.contains word "=" then
    let name := Text.before word "="
    (name, some (Text.drop (name.length + 1) word))
  else (word, none)

/-- A command line after an option that waits for its value. Unless options and arguments may be
`mixed`, the first argument ends the options. -/
def parseAfter (specs : List OptionSpec) (mixed : Bool) : Option String → List String → Option Options
  | none, [] => some {}
  | some _, [] => none
  | some name, value :: rest => (parseAfter specs mixed none rest).map (add name value)
  | none, word :: rest =>
    if word == "--" then some { arguments := rest }
    else if isOption word then
      let (name, attached) := nameAndValue word
      match specs.find? (·.name == name), attached with
      | some ⟨_, true⟩, some value => (parseAfter specs mixed none rest).map (add name value)
      | some ⟨_, true⟩, none => parseAfter specs mixed (some name) rest
      | some ⟨_, false⟩, none => (parseAfter specs mixed none rest).map (add name "")
      | _, _ => none
    else if mixed then (parseAfter specs mixed none rest).map (addArgument word)
    else some { arguments := word :: rest }

def parse (specs : List OptionSpec) (mixed : Bool) (words : List String) : Option Options :=
  parseAfter specs mixed none words

def has (o : Options) (name : String) : Bool := o.given.any (·.1 == name)

def valueD (o : Options) (name fallback : String) : String :=
  ((o.given.reverse.find? (·.1 == name)).map (·.2)).getD fallback

def firstOf (o : Options) (names : List String) : Option String :=
  (o.given.map (·.1)).find? names.contains

def lastOf (o : Options) (names : List String) : Option String :=
  (o.given.reverse.map (·.1)).find? names.contains

end Options

end Stratus
