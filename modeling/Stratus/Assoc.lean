/-!
Entries in insertion order. Writing an existing key keeps its place, a new key goes to the end.
-/
namespace Stratus

abbrev Assoc (α : Type u) := List (String × α)

namespace Assoc

variable {α : Type u} {β : Type v}

def get? : Assoc α → String → Option α
  | [], _ => none
  | (k, v) :: rest, key => if k == key then some v else get? rest key

def getD (m : Assoc α) (key : String) (fallback : α) : α := (get? m key).getD fallback

def contains (m : Assoc α) (key : String) : Bool := (get? m key).isSome

def set : Assoc α → String → α → Assoc α
  | [], key, value => [(key, value)]
  | (k, v) :: rest, key, value =>
    if k == key then (k, value) :: rest else (k, v) :: set rest key value

def erase : Assoc α → String → Assoc α
  | [], _ => []
  | (k, v) :: rest, key => if k == key then rest else (k, v) :: erase rest key

def keys (m : Assoc α) : List String := m.map (·.1)

def values (m : Assoc α) : List α := m.map (·.2)

/-- Writes the entries of `n` over those of `m`, in order. -/
def update (m n : Assoc α) : Assoc α := n.foldl (fun acc e => set acc e.1 e.2) m

/-- Reads pairs as writes, so that the last value of a repeated key stands at its first place. -/
def ofPairs (pairs : List (String × α)) : Assoc α := update [] pairs

def setDefault (m : Assoc α) (key : String) (value : α) : Assoc α :=
  if contains m key then m else set m key value

def mapValues (f : α → β) (m : Assoc α) : Assoc β := m.map fun e => (e.1, f e.2)

def mapValuesM {f : Type v → Type w} [Monad f] (act : α → f β) (m : Assoc α) : f (Assoc β) :=
  m.mapM fun e => (e.1, ·) <$> act e.2

end Assoc

end Stratus
