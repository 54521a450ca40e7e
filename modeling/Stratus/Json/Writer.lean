import Stratus.Data.Shown

/-!
Data as JSON text. A layout fixes the gaps between items and behind names and whether each item
stands on a line of its own; empty lists and maps are closed at once.
-/
namespace Stratus.Json

structure Layout where
  /-- Between two items that share a line. -/
  itemGap : String
  nameGap : String
  /-- Spaces per level when every item has its own line. -/
  indent : Option Nat

def Layout.compact : Layout := ⟨",", ":", none⟩

def Layout.spaced : Layout := ⟨", ", ": ", none⟩

def Layout.indented : Layout := ⟨",", ": ", some 2⟩

def Layout.lineStart (layout : Layout) (level : Nat) : String :=
  match layout.indent with
  | some width => "\n" ++ String.ofList (List.replicate (width * level) ' ')
  | none => ""

def Layout.enclose (layout : Layout) (level : Nat) (left right : String)
    (items : List String) : String :=
  if items.isEmpty then left ++ right
  else
    left ++ layout.lineStart (level + 1) ++
      (layout.itemGap ++ layout.lineStart (level + 1)).intercalate items ++
      layout.lineStart level ++ right

mutual

def writeAt (layout : Layout) (level : Nat) : Data → String
  | .null => "null"
  | .bool b => if b then "true" else "false"
  | .int n => toString n
  | .float x => FloatLayout.json.write x
  | .str s => Text.jsonQuoted s
  | .list items => layout.enclose level "[" "]" (writeItems layout (level + 1) items)
  | .map entries => layout.enclose level "\x7b" "\x7d" (writeEntries layout (level + 1) entries)

def writeItems (layout : Layout) (level : Nat) : List Data → List String
  | [] => []
  | d :: rest => writeAt layout level d :: writeItems layout level rest

def writeEntries (layout : Layout) (level : Nat) : List (String × Data) → List String
  | [] => []
  | (k, d) :: rest =>
    (Text.jsonQuoted k ++ layout.nameGap ++ writeAt layout level d) :: writeEntries layout level rest

end

def write (layout : Layout) (d : Data) : String := writeAt layout 0 d

end Stratus.Json
