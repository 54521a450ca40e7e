import Stratus.Proofs.Data.Parts
import Stratus.Proofs.Lexer.Scan
import Stratus.Terraform.Reference

/-!
Resolution of references. A text falls into characters and references, and the addresses decide only
what stands for a reference; in values the shape stays.
-/
namespace Stratus.Terraform

open List hiding getD
open Assoc hiding set
open Text

variable {addresses other : Addresses}

variable {c : Char} {cs tail : List Char} {body : List Char} {s : String}

inductive Piece where
  | char (c : Char)
  | reference (name : String)

def piecesFrom : Nat → List Char → List Piece
  | fuel + 1, c :: cs =>
    match referenceAt? (c :: cs) with
    | some (name, rest) => .reference (String.ofList name) :: piecesFrom fuel rest
    | none => .char c :: piecesFrom fuel cs
  | _, _ => []

def pieces (s : String) : List Piece := piecesFrom s.length s.toList

def Piece.written (addresses : Addresses) : Piece → List Char
  | char c => [c]
  | reference name => (resolveName addresses name).toList

theorem resolveText_eq (addresses : Addresses) (s : String) :
    resolveText addresses s = String.ofList ((pieces s).flatMap (Piece.written addresses)) := by
  have step (fuel : Nat) (done cs : List Char) : (resolveFrom addresses fuel done cs).reverse =
      done.reverse ++ (piecesFrom fuel cs).flatMap (Piece.written addresses) := by
    induction fuel generalizing done cs with
    | zero => cases cs <;> simp [resolveFrom, piecesFrom]
    | succ fuel ih =>
      cases cs with
      | nil => simp [resolveFrom, piecesFrom]
      | cons c cs =>
        rw [resolveFrom, piecesFrom]
        cases referenceAt? (c :: cs) with
        | none => simp [ih, Piece.written]
        | some found => simp [ih, Piece.written]
  rw [resolveText, step]
  rfl

theorem resolveName_cases (addresses : Addresses) (name : String) :
    resolveName addresses name = wrapped name ∨ ∃ component address field,
      get? addresses component = some address ∧
        resolveName addresses name = wrapped (address ++ "." ++ field) := by
  unfold resolveName
  split
  · exact .inl rfl
  · split
    · next component path _ =>
        split
        · next address found =>
            split
            · exact .inl rfl
            · exact .inr ⟨component, address, _, found, rfl⟩
        · exact .inl rfl
    · exact .inl rfl

theorem dependencyAddress_cases {d : Data} {address : String}
    (h : dependencyAddress addresses d = .ok address) :
    address = "" ∨ ∃ component, get? addresses component = some address := by
  unfold dependencyAddress at h
  split at h
  · cases h
    exact .inl rfl
  · obtain ⟨parts, _, h⟩ := Outcome.bind_eq_ok h
    split at h
    · next component _ =>
        cases h
        split
        · exact .inl rfl
        · cases found : get? addresses component with
          | none => exact .inl (by rw [getD, found]; rfl)
          | some address => exact .inr ⟨component, by rw [getD, found]; rfl⟩
    · cases h
      exact .inl rfl

theorem referenceAt?_wrapped (clear : '\x7d' ∉ c :: body) (rest : List Char) :
    referenceAt? ('$' :: '\x7b' :: (mark.toList ++ c :: body) ++ '\x7d' :: rest) =
      some (mark.toList ++ c :: body, rest) := by
  have enclosed (d : Char) (mem : d ∈ c :: body) : (d != '\x7d') = true := by
    rw [bne_iff_ne]
    rintro rfl
    exact clear mem
  have start : '$' :: '\x7b' :: (mark.toList ++ c :: body) ++ '\x7d' :: rest =
      ("$\x7b" ++ mark).toList ++ (c :: body ++ '\x7d' :: rest) := by
    simp [String.toList_append]
  have taken : (c :: body ++ '\x7d' :: rest).takeWhile (· != '\x7d') = c :: body := by
    rw [takeWhile_append_of_pos enclosed]
    simp
  have dropped : (c :: body ++ '\x7d' :: rest).dropWhile (· != '\x7d') = '\x7d' :: rest := by
    rw [dropWhile_append_of_pos enclosed]
    simp
  rw [referenceAt?, start, after?_eq_some_iff.mpr rfl]
  simp only [Option.bind_some, taken, dropped]
  rfl

theorem piecesFrom_wrapped {name : String} (clear : '\x7d' ∉ c :: body)
    (spelled : name.toList = mark.toList ++ c :: body) (fuel : Nat) (rest : List Char) :
    piecesFrom (fuel + 1) ((wrapped name).toList ++ rest) = .reference name ::
      piecesFrom fuel rest := by
  have text : (wrapped name).toList ++ rest = '$' :: '\x7b' :: (mark.toList ++ c :: body) ++
      '\x7d' :: rest := by
    simp [wrapped, String.toList_append, spelled]
  have found := referenceAt?_wrapped clear rest
  simp only [cons_append] at found
  rw [text, cons_append, cons_append, piecesFrom, found, ← spelled]
  simp only [String.ofList_toList]

theorem split_kind {kind : String} (clear : '.' ∉ kind.toList) (rest : String) :
    split (mark ++ kind ++ "." ++ rest) "." = "infrastructure" :: kind :: split rest "." := by
  have text : mark ++ kind ++ "." ++ rest = "infrastructure" ++ "." ++ (kind ++ "." ++ rest) := by
    simp only [String.append_assoc]
    rfl
  rw [text, show "." = String.singleton '.' from rfl, split_first (by decide), split_first clear]

theorem split_reference {kind name field : String} (hk : '.' ∉ kind.toList)
    (hn : '.' ∉ name.toList) :
    split (mark ++ kind ++ "." ++ name ++ "." ++ field) "." =
      "infrastructure" :: kind :: name :: split field "." := by
  have text : mark ++ kind ++ "." ++ name ++ "." ++ field = mark ++ kind ++ "." ++
      (name ++ "." ++ field) := by
    simp only [String.append_assoc]
  rw [text, split_kind hk, show "." = String.singleton '.' from rfl, split_first hn]

/-- The third part of a reference names its component; an address that is missing or empty leaves it
as it is. -/
theorem resolveName_of_split {text first second component : String} {path : List String}
    (starts : startsWith text mark = true)
    (parts : split text "." = first :: second :: component :: path) :
    resolveName addresses text =
      if getD addresses component "" = "" then wrapped text
      else wrapped (getD addresses component "" ++ "." ++ if path.isEmpty then "id"
        else ".".intercalate path) := by
  rw [resolveName, starts, parts, getD]
  cases found : get? addresses component with
  | none => simp [found]
  | some address => simp [found]

theorem startsWith_mark (rest : String) : startsWith (mark ++ rest) mark = true := by
  rw [startsWith, String.toList_append, after?_eq_some_iff.mpr rfl]
  rfl

theorem resolveName_reference {kind name : String} (hk : '.' ∉ kind.toList) (hn : '.' ∉ name.toList)
    (field : String) :
    resolveName addresses (mark ++ kind ++ "." ++ name ++ "." ++ field) =
      if getD addresses name "" = "" then wrapped (mark ++ kind ++ "." ++ name ++ "." ++ field)
      else wrapped (getD addresses name "" ++ "." ++ field) := by
  have starts : startsWith (mark ++ kind ++ "." ++ name ++ "." ++ field) mark = true := by
    simpa only [String.append_assoc] using startsWith_mark _
  have pathed : (split field ".").isEmpty = false := by
    rw [show "." = String.singleton '.' from rfl, split_singleton, isEmpty_map,
      isEmpty_eq_false_iff]
    exact splitOn_ne_nil _ _
  have joined : ".".intercalate (split field ".") = field := intercalate_split field '.'
  rw [resolveName_of_split starts (split_reference hk hn), pathed, joined]
  rfl

theorem resolveText_reference {kind name field address : String} (hk : '.' ∉ kind.toList)
    (hn : '.' ∉ name.toList) (clear : '\x7d' ∉ (kind ++ "." ++ name ++ "." ++ field).toList)
    (found : get? addresses name = some address) (given : address ≠ "") :
    resolveText addresses (wrapped (mark ++ kind ++ "." ++ name ++ "." ++ field)) =
      wrapped (address ++ "." ++ field) := by
  obtain ⟨c, body, spelled⟩ : ∃ c body,
  (kind ++ "." ++ name ++ "." ++ field).toList = c :: body := by
    apply exists_cons_of_ne_nil
    simp
  have whole : (mark ++ kind ++ "." ++ name ++ "." ++ field).toList = mark.toList ++ c :: body := by
    rw [← spelled]
    simp [String.toList_append]
  obtain ⟨fuel, size⟩ : ∃ fuel, (wrapped (mark ++ kind ++ "." ++ name ++ "." ++ field)).length =
    fuel + 1 := by
    apply Nat.exists_eq_succ_of_ne_zero
    simp [wrapped, String.length_append]
  have alone := piecesFrom_wrapped (spelled ▸ clear) whole fuel []
  rw [append_nil] at alone
  rw [resolveText_eq, pieces, size, alone, flatMap_cons, Piece.written,
    resolveName_reference hk hn, getD, found]
  simp [given, piecesFrom]

/-- A text that has no reference in it, not even the start of one. -/
def Plain (s : String) : Prop := ¬ "infrastructure".toList <:+: s.toList

instance (s : String) : Decidable (Plain s) := inferInstanceAs (Decidable (¬ _))

/-- The end of a text, or the place where braces may open. -/
def Opens (cs : List Char) : Prop := cs = [] ∨ ∃ rest, cs = '$' :: rest

theorem Opens.prefix_left {cs start word : List Char} (opens : Opens cs) (absent : '$' ∉ word)
    (h : word <+: start ++ cs) : word <+: start := by
  rcases opens with rfl | ⟨rest, rfl⟩
  · rwa [append_nil] at h
  · exact prefix_of_separated absent h

/-- No reference begins in a text without their mark, whatever opens behind it. -/
theorem referenceAt?_of_unmarked (unmarked : ¬ mark.toList <:+: c :: cs)
    (opens : Opens tail) : referenceAt? (c :: cs ++ tail) = none := by
  have braced : after? ("$\x7b" ++ mark).toList (c :: cs ++ tail) = none := by
    cases found : after? ("$\x7b" ++ mark).toList (c :: cs ++ tail) with
    | none => rfl
    | some rest =>
      have text : c :: (cs ++ tail) = '$' :: ('\x7b' :: mark.toList ++ rest) :=
        after?_eq_some_iff.mp found
      have inner : '\x7b' :: mark.toList <+: cs := by
        apply opens.prefix_left (by decide)
        rw [(cons.inj text).2]
        exact prefix_append _ rest
      exact absurd (infix_cons ((suffix_cons _ _).isInfix.trans inner.isInfix)) unmarked
  have bare : after? mark.toList (c :: cs ++ tail) = none := by
    cases found : after? mark.toList (c :: cs ++ tail) with
    | none => rfl
    | some rest =>
      have inner : mark.toList <+: c :: cs := by
        apply opens.prefix_left (by decide)
        rw [after?_eq_some_iff.mp found]
        exact prefix_append _ rest
      exact absurd inner.isInfix unmarked
  rw [referenceAt?, braced, bare]
  rfl

theorem piecesFrom_of_unmarked (unmarked : ¬ mark.toList <:+: cs) (opens : Opens tail) (fuel : Nat) :
    piecesFrom (cs.length + fuel) (cs ++ tail) = cs.map .char ++ piecesFrom fuel tail := by
  induction cs with
  | nil => simp
  | cons c cs ih =>
    have rest := ih fun later => unmarked (infix_cons later)
    have none := referenceAt?_of_unmarked unmarked opens
    rw [cons_append] at none
    rw [length_cons, Nat.add_right_comm, cons_append, piecesFrom, none, rest]
    rfl

theorem Plain.unmarked (plain : Plain s) : ¬ mark.toList <:+: s.toList := fun marked =>
  plain ((prefix_append "infrastructure".toList ['.']).isInfix.trans marked)

theorem resolveText_of_plain (plain : Plain s) (addresses : Addresses) :
    resolveText addresses s = s := by
  have chars := piecesFrom_of_unmarked plain.unmarked (.inl rfl) 0
  rw [Nat.add_zero, String.length_toList, append_nil] at chars
  rw [resolveText_eq, pieces, chars]
  simp [piecesFrom, flatMap_map, Piece.written]

theorem resolveAll_str (addresses : Addresses) (s : String) :
    resolveAll addresses (.str s) = .str (resolveText addresses s) := rfl

theorem resolveEntries_eq (addresses : Addresses) (entries : Assoc Data) :
    resolveEntries addresses entries = mapValues (resolveAll addresses) entries := by
  rw [resolveEntries, Data.mapEntries_eq, Data.mapTexts_keyed, resolveAll]

theorem step?_resolveAll (addresses : Addresses) (d : Data) (step : Data.Step) :
    (resolveAll addresses d).step? step = (d.step? step).map (resolveAll addresses) := by
  cases d with
  | list items =>
    cases step with
    | key name => rfl
    | index i => simp [resolveAll, Data.mapTexts_list, Data.step?]
  | map entries =>
    cases step with
    | key name => simp [resolveAll, Data.mapTexts_map, Data.step?, get?_mapValues]
    | index i => rfl
  | _ => cases step <;> rfl

theorem at?_resolveAll (addresses : Addresses) (d : Data) (path : List Data.Step) :
    (resolveAll addresses d).at? path = (d.at? path).map (resolveAll addresses) := by
  induction path generalizing d with
  | nil => rfl
  | cons step path ih =>
    rw [Data.at?, Data.at?, step?_resolveAll]
    cases d.step? step with
    | none => rfl
    | some inner => exact ih inner

theorem resolveName_congr (same : ∀ name, get? addresses name = get? other name) (name : String) :
    resolveName addresses name = resolveName other name := by
  unfold resolveName
  simp only [same]

theorem dependencyAddress_congr (same : ∀ name, get? addresses name = get? other name) (d : Data) :
    dependencyAddress addresses d = dependencyAddress other d := by
  unfold dependencyAddress getD
  simp only [same]

theorem resolveText_congr (same : ∀ name, get? addresses name = get? other name) :
    resolveText addresses = resolveText other := by
  have written : Piece.written addresses = Piece.written other := by
    funext piece
    cases piece with
    | char c => rfl
    | reference name => exact congrArg String.toList (resolveName_congr same name)
  funext s
  rw [resolveText_eq, resolveText_eq, written]

end Stratus.Terraform
