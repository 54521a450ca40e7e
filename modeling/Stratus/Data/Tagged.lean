import Stratus.Data.Shown

/-!
Values in a form that any reader of JSON keeps apart: a floating-point number is given by its
text, and a map by the list of its entries.
-/
namespace Stratus.Data

def tag (name : String) (d : Data) : Data := map [(name, d)]

mutual

def tagged : Data → Data
  | float x => tag "float" (str (FloatLayout.shown.write x))
  | list items => list (taggedItems items)
  | map entries => tag "map" (list (taggedEntries entries))
  | d => d

def taggedItems : List Data → List Data
  | [] => []
  | d :: rest => tagged d :: taggedItems rest

def taggedEntries : List (String × Data) → List Data
  | [] => []
  | (k, d) :: rest => list [str k, tagged d] :: taggedEntries rest

end

mutual

def depth : Data → Nat
  | list items => depthItems items + 1
  | map entries => depthEntries entries + 1
  | _ => 1

def depthItems : List Data → Nat
  | [] => 0
  | d :: rest => max (depth d) (depthItems rest)

def depthEntries : List (String × Data) → Nat
  | [] => 0
  | (_, d) :: rest => max (depth d) (depthEntries rest)

end

end Stratus.Data
