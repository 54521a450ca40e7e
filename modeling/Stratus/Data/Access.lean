import Stratus.Fault
import Stratus.Text.Case
import Stratus.Text.Split

/-!
Reading data whose shape is not known beforehand. Each operation says which kinds it works on and
fails with the fault of a wrong shape on the others.
-/
namespace Stratus.Data

def refuse {α : Type} (d : Data) (member : String) : Outcome α := .error (.noMember d.kind member)

/-- Entries of a map, asked for through an operation that only maps have. -/
def entriesFor (d : Data) (member : String) : Outcome (Assoc Data) :=
  match d with
  | map entries => .ok entries
  | _ => d.refuse member

def entries (d : Data) : Outcome (Assoc Data) := d.entriesFor "items"

def keys (d : Data) : Outcome (List String) := (·.map (·.1)) <$> d.entriesFor "keys"

def values (d : Data) : Outcome (List Data) := (·.map (·.2)) <$> d.entriesFor "values"

def getD (d : Data) (key : String) (fallback : Data) : Outcome Data :=
  (Assoc.getD · key fallback) <$> d.entriesFor "get"

def get (d : Data) (key : String) : Outcome Data := d.getD key null

def strFor (d : Data) (member : String) : Outcome String :=
  match d with
  | str s => .ok s
  | _ => d.refuse member

def lower (d : Data) : Outcome String := Text.lower <$> d.strFor "lower"

def split (d : Data) (sep : String) : Outcome (List String) := (Text.split · sep) <$> d.strFor "split"

/-- Membership of a text: a key of a map, an element of a list, or a part of a text. -/
def has (d : Data) (key : String) : Outcome Bool :=
  match d with
  | map entries => .ok (Assoc.contains entries key)
  | list items => .ok (items.any (same (str key)))
  | str s => .ok (Text.contains s key)
  | _ => .error (.notAContainer d.kind)

def hashable : Data → Bool
  | list _ | map _ => false
  | _ => true

def item (d : Data) (key : String) : Outcome Data :=
  match d with
  | map entries =>
    match Assoc.get? entries key with
    | some v => .ok v
    | none => .error (.missingKey (str key))
  | list _ => .error (.badIndex "list" "str")
  | str _ => .error (.badIndex "str" "str")
  | _ => .error (.notSubscriptable d.kind)

def first (d : Data) : Outcome Data :=
  match d with
  | list (x :: _) => .ok x
  | list [] => .error (.indexOutOfRange "list")
  | str s =>
    match s.toList with
    | c :: _ => .ok (str (String.singleton c))
    | [] => .error (.indexOutOfRange "string")
  | map _ => .error (.missingKey (int 0))
  | _ => .error (.notSubscriptable d.kind)

/-- What a walk over a value visits: elements, characters or keys. -/
def elements (d : Data) : Outcome (List Data) :=
  match d with
  | list items => .ok items
  | str s => .ok (s.toList.map fun c => str (String.singleton c))
  | map entries => .ok (entries.map fun e => str e.1)
  | _ => .error (.notIterable d.kind)

def size (d : Data) : Outcome Nat :=
  match d with
  | list items => .ok items.length
  | str s => .ok s.length
  | map entries => .ok entries.length
  | _ => .error (.badArguments s!"object of type '{d.kind}' has no len()")

def put (d : Data) (key : String) (value : Data) : Outcome Data :=
  match d with
  | map entries => .ok (map (Assoc.set entries key value))
  | list _ => .error (.badIndex "list" "str")
  | _ => .error (.notAssignable d.kind)

def push (d value : Data) : Outcome Data :=
  match d with
  | list items => .ok (list (items ++ [value]))
  | _ => d.refuse "append"

def extendWith (items : List Data) (d : Data) : Outcome (List Data) := (items ++ ·) <$> d.elements

def pairAt (index : Nat) (d : Data) : Outcome (Data × Data) := do
  let items ← match d with
    | list items => .ok items
    | str _ | map _ => d.elements
    | _ => .error (.badArguments
      s!"cannot convert dictionary update sequence element #{index} to a sequence")
  match items with
  | [k, v] => .ok (k, v)
  | items => .error (.badPairs index items.length)

def keyText (d : Data) : Outcome String :=
  match d with
  | str s => .ok s
  | null => .ok "null"
  | bool b => .ok (if b then "true" else "false")
  | d => if d.hashable then .ok d.text else .error (.unhashable d.kind)

/-- Entries that a map takes over from a value: those of a map, or a sequence of pairs. -/
def updateWith (m : Assoc Data) (d : Data) : Outcome (Assoc Data) :=
  match d with
  | map entries => .ok (Assoc.update m entries)
  | list _ | str _ => do
    (← d.elements).zipIdx.foldlM (fun acc (x, i) => do
      let (k, v) ← pairAt i x
      return Assoc.set acc (← k.keyText) v) m
  | _ => .error (.notIterable d.kind)

def copied (d : Data) : Outcome Data :=
  match d with
  | map _ | list _ => .ok d
  | _ => d.refuse "copy"

def pop (d : Data) (key : String) (fallback : Data) : Outcome (Data × Data) :=
  match d with
  | map entries => .ok (Assoc.getD entries key fallback, map (Assoc.erase entries key))
  | list _ => .error (.badArguments "pop expected at most 1 argument, got 2")
  | _ => d.refuse "pop"

def joinTexts (sep : String) (items : List Data) : Outcome String := do
  let parts ← items.zipIdx.mapM fun (d, i) =>
    match d with
    | str s => .ok s
    | d => .error (.badJoin i d.kind)
  .ok (sep.intercalate parts)

/-- Whether a key of a table whose keys are texts is a given value; values that cannot be keys fail.
-/
def asKey? (d : Data) : Outcome (Option String) :=
  match d with
  | str s => .ok (some s)
  | d => if d.hashable then .ok none else .error (.unhashable d.kind)

mutual

/-- Texts changed, each by whether it stands under a key. -/
def mapTexts (f : Bool → String → String) (keyed : Bool) : Data → Data
  | str s => str (f keyed s)
  | list items => list (mapItems f items)
  | map entries => map (mapEntries f entries)
  | d => d

def mapItems (f : Bool → String → String) : List Data → List Data
  | [] => []
  | d :: rest => mapTexts f false d :: mapItems f rest

def mapEntries (f : Bool → String → String) : List (String × Data) → List (String × Data)
  | [] => []
  | (k, d) :: rest => (k, mapTexts f true d) :: mapEntries f rest

end

end Stratus.Data
