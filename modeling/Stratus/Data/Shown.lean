import Stratus.Data.Basic
import Stratus.Number.Text
import Stratus.Text.Quoted

/-! Values as shown inside messages: a text stands for itself, and is quoted inside lists and maps.
-/
namespace Stratus.Data

mutual

def shown : Data → String
  | null => "None"
  | bool b => if b then "True" else "False"
  | int n => toString n
  | float x => FloatLayout.shown.write x
  | str s => Text.shown s
  | list items => "[" ++ Text.commas (shownItems items) ++ "]"
  | map entries => "\x7b" ++ Text.commas (shownEntries entries) ++ "\x7d"

def shownItems : List Data → List String
  | [] => []
  | d :: rest => shown d :: shownItems rest

def shownEntries : List (String × Data) → List String
  | [] => []
  | (k, d) :: rest => (Text.shown k ++ ": " ++ shown d) :: shownEntries rest

end

def text : Data → String
  | str s => s
  | d => shown d

end Stratus.Data
