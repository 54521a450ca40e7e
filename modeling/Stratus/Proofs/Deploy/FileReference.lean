import Stratus.Proofs.Data.Parts
import Stratus.Proofs.Text.Pattern
import Stratus.Deploy.FileReference

/-!
References to files. The first reference of a text decides: the content of the file takes the place
of the whole text. Values keep their shape.
-/
namespace Stratus.FileReference

open Assoc hiding set
open List

open Text (Pattern)
open Text.Pattern Text.Piece

/-- A reference opens with a quote, which may be escaped. -/
def openings : List String := ["$\x7bfile(\"", "$\x7bfile(\\\""]

def closing : String := "\")\x7d"

/-- A text is a reference to the file with a name. -/
def Refers (r name : String) : Prop :=
  name ≠ "" ∧ '"' ∉ name.toList ∧ ∃ opening ∈ openings, r = opening ++ name ++ closing

/-- In a text of three parts the middle one is a reference to a file, and no reference begins before
it. -/
structure Leads (p r q name : String) : Prop where
  refers : Refers r name
  first : ∀ p' r' q' other, p ++ r ++ q = p' ++ r' ++ q' → Refers r' other → p.length ≤ p'.length

def Free (s : String) : Prop := ∀ p r q name, s = p ++ r ++ q → ¬ Refers r name

/-! ### What the pattern matches -/

def named : Pattern := Text.grab (upTo '"' 1) ++ [.maybe '\\', text closing]

theorem fit_closing (rest : List Char) (here : Nat) :
    fit sameChar [.mark, .maybe '\\', text closing] (closing.toList ++ rest) here =
      some ([here], here + 3) := by
  refine fit_mark_iff.mpr ⟨([], here + 3), fit_maybe_iff.mpr (.inr ⟨?_, ?_⟩), rfl⟩
  · intro other same
    cases same
  · exact fit_literal_iff.mpr ⟨rest, rfl, fit_nil_iff.mpr rfl⟩

variable {cs : List Char} {found : List Nat × Nat} {here : Nat} {r s name : String}

theorem lt_length_takeWhile {q : Char → Bool} {rest : List Char} {c : Char} {n : Nat}
    (within : n ≤ (cs.takeWhile q).length)
    (next : cs.drop n = c :: rest) (more : q c = true) : n < (cs.takeWhile q).length := by
  refine lt_of_le_of_ne within fun full => ?_
  have behind : cs.drop (cs.takeWhile q).length = cs.dropWhile q := by
    have split := congrArg (drop (cs.takeWhile q).length)
      (takeWhile_append_dropWhile (p := q) (l := cs))
    rwa [drop_left, eq_comm] at split
  have stop := head?_dropWhile_not q cs
  rw [← behind, ← full, next] at stop
  exact Bool.false_ne_true (stop.symm.trans more)

theorem fit_named_iff : fit sameChar named cs here = some found ↔
    ∃ name rest, name ≠ [] ∧ '"' ∉ name ∧
      cs = name ++ (closing.toList ++ rest) ∧
        found = ([here, here + name.length], here + name.length + 3) := by
  constructor
  · intro fits
    obtain ⟨_, run, rfl⟩ := Pattern.fit_mark_iff.mp fits
    obtain ⟨n, some, within, behind, above⟩ := Pattern.fit_run_iff.mp run
    obtain ⟨_, closes, rfl⟩ := Pattern.fit_mark_iff.mp behind
    rcases Pattern.fit_maybe_iff.mp closes with ⟨_, next, closes⟩ | ⟨-, closes⟩
    · -- The run would have taken the escape as well.
      obtain ⟨rest, rfl, -⟩ := Pattern.fit_literal_iff.mp closes
      have longer := above (n + 1) (Nat.lt_succ_self n) (lt_length_takeWhile within next rfl)
      rw [← drop_drop, next] at longer
      cases longer.symm.trans (fit_closing rest _)
    · obtain ⟨rest, next, ends⟩ := Pattern.fit_literal_iff.mp closes
      cases Pattern.fit_nil_iff.mp ends
      have taken : cs.take n = (cs.takeWhile (· != '"')).take n := by
        conv_lhs => rw [← takeWhile_append_dropWhile (p := (· != '"')) (l := cs)]
        exact take_append_of_le_length within
      have length : (cs.take n).length = n := by
        rw [taken]
        exact length_take_of_le within
      refine ⟨cs.take n, rest, ?_, ?_, ?_, ?_⟩
      · rw [← length_pos_iff, length]
        exact some
      · intro mem
        rw [taken] at mem
        simpa using mem_takeWhile_imp (mem_of_mem_take mem)
      · exact (take_append_drop n cs).symm.trans (congrArg _ next)
      · rw [length]
        rfl
  · rintro ⟨name, rest, filled, clear, rfl, rfl⟩
    have taken : (name ++ (closing.toList ++ rest)).takeWhile (· != '"') = name := by
      rw [takeWhile_append_of_pos]
      · simp [closing]
      · intro c mem
        rw [bne_iff_ne]
        rintro rfl
        exact clear mem
    refine fit_mark_iff.mpr ⟨([here + name.length], here + name.length + 3), ?_, rfl⟩
    refine fit_run_iff.mpr ⟨name.length, length_pos_iff.mpr filled, ?_, ?_, ?_⟩
    · rw [taken]
    · rw [drop_left]
      exact fit_closing rest _
    · intro m more within
      rw [taken] at within
      omega

theorem fit_opening_iff {p : Pattern} :
    fit sameChar (text "$\x7bfile(" :: .maybe '\\' :: text "\"" :: p) cs here = some found ↔
      ∃ opening ∈ openings, ∃ rest, cs = opening.toList ++ rest ∧
        fit sameChar p rest (here + opening.length) = some found := by
  constructor
  · intro fits
    obtain ⟨_, rfl, behind⟩ := fit_literal_iff.mp fits
    rcases fit_maybe_iff.mp behind with ⟨_, rfl, quoted⟩ | ⟨-, quoted⟩
    · obtain ⟨rest, rfl, inside⟩ := fit_literal_iff.mp quoted
      exact ⟨"$\x7bfile(\\\"", by simp [openings], rest, rfl, inside⟩
    · obtain ⟨rest, rfl, inside⟩ := fit_literal_iff.mp quoted
      exact ⟨"$\x7bfile(\"", by simp [openings], rest, rfl, inside⟩
  · rintro ⟨opening, known, rest, rfl, inside⟩
    rcases mem_pair.mp known with rfl | rfl
    · refine fit_literal_iff.mpr ⟨'"' :: rest, rfl, Pattern.fit_maybe_iff.mpr (.inr ⟨?_, ?_⟩)⟩
      · intro other same
        cases same
      · exact Pattern.fit_literal_iff.mpr ⟨rest, rfl, inside⟩
    · refine Pattern.fit_literal_iff.mpr
        ⟨'\\' :: '"' :: rest, rfl, fit_maybe_iff.mpr (.inl ⟨_, rfl, ?_⟩)⟩
      exact fit_literal_iff.mpr ⟨rest, rfl, inside⟩

theorem fit_pattern_iff :
    fit sameChar pattern cs here = some found ↔ ∃ opening ∈ openings, ∃ name : String, ∃ rest,
      name ≠ "" ∧ '"' ∉ name.toList ∧ cs = (opening ++ name ++ closing).toList ++ rest ∧
      found = ([here + opening.length, here + opening.length + name.length],
        here + opening.length + name.length + 3) := by
  rw [show pattern = text "$\x7bfile(" :: .maybe '\\' :: text "\"" :: named from rfl, fit_opening_iff]
  simp only [fit_named_iff]
  constructor
  · rintro ⟨opening, known, _, rfl, name, rest, filled, clear, rfl, rfl⟩
    exact ⟨opening, known, String.ofList name,
      rest, by simpa using filled, by simpa using clear, by simp, by simp⟩
  · rintro ⟨opening, known, name, rest, filled, clear, rfl, rfl⟩
    exact ⟨opening, known, _, by simp, name.toList, rest, by simpa using filled, clear,
      rfl, by rw [String.length_toList]⟩

theorem fit_pattern_eq_none_iff :
    fit sameChar pattern cs here = none ↔ ∀ r name, Refers r name → ¬ r.toList <+: cs := by
  rw [Option.eq_none_iff_forall_not_mem]
  constructor
  · rintro misses r name ⟨filled, clear, opening, known, rfl⟩ ⟨rest, rfl⟩
    exact misses _ (fit_pattern_iff.mpr ⟨opening, known, name, rest, filled, clear, rfl, rfl⟩)
  · intro misses found fits
    obtain ⟨opening, known, name, rest, filled, clear, rfl, -⟩ := fit_pattern_iff.mp fits
    exact misses _ name ⟨filled, clear, opening, known, rfl⟩ ⟨rest, rfl⟩

theorem parts_of_reference (before rest : List Char) (opening name : String) :
    parts (before ++ ((opening ++ name ++ closing).toList ++ rest))
      [before.length + opening.length, before.length + opening.length + name.length] = [name] := by
  have split : before ++ ((opening ++ name ++ closing).toList ++ rest) =
      (before ++ opening.toList) ++ (name.toList ++ (closing.toList ++ rest)) := by simp
  have start : before.length + opening.length = (before ++ opening.toList).length := by
    rw [length_append, String.length_toList]
  simp only [parts]
  rw [split, start, drop_left, Nat.add_sub_cancel_left, ← String.length_toList, take_left,
    String.ofList_toList]

theorem split_of_drop {i : Nat} {rest : List Char} (behind : s.toList.drop i = r.toList ++ rest) :
    s = String.ofList (s.toList.take i) ++ r ++ String.ofList rest := by
  apply String.toList_inj.mp
  simp [← behind]

theorem Leads.misses_before {p q : String} (leads : Leads p r q name) {j : Nat}
    (less : j < p.length) (here : Nat) :
    fit sameChar pattern ((p ++ r ++ q).toList.drop j) here = none := by
  rw [fit_pattern_eq_none_iff]
  rintro r' other refers ⟨rest, behind⟩
  have within := leads.first _ r' _ other (split_of_drop behind.symm) refers
  rw [String.length_ofList, length_take] at within
  omega

theorem name?_eq_some_iff : name? s = some name ↔ ∃ p r q, s = p ++ r ++ q ∧ Leads p r q name := by
  rw [name?, first_eq_some_iff]
  constructor
  · rintro ⟨found, run, cut⟩
    obtain ⟨i, within, -, fits, before⟩ := searchFrom_eq_some_iff.mp run
    obtain ⟨opening, known, name', rest, filled, clear, behind, marks⟩ := fit_pattern_iff.mp fits
    have length : (s.toList.take i).length = i := length_take_of_le within
    have same : name' = name := by
      have named := parts_of_reference (s.toList.take i) rest opening name'
      rw [← behind, take_append_drop, length] at named
      rw [marks, Nat.zero_add, named] at cut
      exact Option.some.inj cut
    subst same
    refine ⟨_, _, _, split_of_drop behind, ⟨filled, clear, opening, known, rfl⟩,
      fun p' r' q' other split refers => ?_⟩
    rw [String.length_ofList, length]
    by_contra less
    refine fit_pattern_eq_none_iff.mp (before p'.length (Nat.lt_of_not_le less)) r' other refers
      ⟨q'.toList, ?_⟩
    rw [split_of_drop behind, split, ← String.length_toList]
    simp
  · rintro ⟨p, r, q, rfl, leads⟩
    obtain ⟨filled, clear, opening, known, rfl⟩ := leads.refers
    have behind : (p ++ (opening ++ name ++ closing) ++ q).toList =
        p.toList ++ ((opening ++ name ++ closing).toList ++ q.toList) := by simp
    have within : p.length ≤ (p ++ (opening ++ name ++ closing) ++ q).toList.length := by
      rw [behind, length_append, String.length_toList]
      exact Nat.le_add_right _ _
    have dropped : (p ++ (opening ++ name ++ closing) ++ q).toList.drop p.length =
        (opening ++ name ++ closing).toList ++ q.toList := by
      rw [behind, ← String.length_toList, drop_left]
    refine ⟨_, searchFrom_of_first within
      (fit_pattern_iff.mpr ⟨opening, known, name, q.toList, filled, clear, dropped, rfl⟩)
      fun j less => leads.misses_before less _, ?_⟩
    rw [behind, Nat.zero_add, ← String.length_toList, parts_of_reference]
    rfl

theorem exists_leads {p q : String} (refers : Refers r name) :
    ∃ p' r' q' first, p ++ r ++ q = p' ++ r' ++ q' ∧ Leads p' r' q' first := by
  classical
  have some : ∃ n p' r' q' first, p ++ r ++ q = p' ++ r' ++ q' ∧ Refers r' first ∧ p'.length = n :=
    ⟨p.length, p, r, q, name, rfl, refers, rfl⟩
  obtain ⟨p', r', q', first, split, refers, length⟩ := Nat.find_spec some
  refine ⟨p', r', q', first, split, refers, fun p'' r'' q'' other split' refers' => ?_⟩
  rw [length]
  exact Nat.find_min' some ⟨p'', r'', q'', other, split.trans split', refers', rfl⟩

theorem name?_eq_none_iff : name? s = none ↔ Free s := by
  constructor
  · rintro none p r q name rfl refers
    obtain ⟨p', r', q', first, split, leads⟩ := exists_leads (p := p) (q := q) refers
    cases none.symm.trans (name?_eq_some_iff.mpr ⟨p', r', q', split, leads⟩)
  · intro free
    cases found : name? s with
    | none => rfl
    | some name =>
      obtain ⟨p, r, q, split, leads⟩ := name?_eq_some_iff.mp found
      exact absurd leads.refers (free p r q name split)

/-! ### What becomes of a text -/

/-- The first reference of a text names a file with a content. -/
def Loads (disk : Disk) (description s content : String) : Prop :=
  ∃ p r q name, s = p ++ r ++ q ∧ Leads p r q name ∧ content? disk description name = some content

/-- A text that loads a content becomes that content, unless it is empty; all other texts stay. -/
def Becomes (disk : Disk) (description s t : String) : Prop :=
  (Loads disk description s t ∧ t ≠ "") ∨
    ((∀ content, Loads disk description s content → content = "") ∧ t = s)

section Texts

variable {disk : Disk} {description s content : String}

theorem loads_iff : Loads disk description s content ↔
    (name? s).bind (content? disk description) = some content := by
  simp only [Option.bind_eq_some_iff, name?_eq_some_iff]
  constructor
  · rintro ⟨p, r, q, name, split, leads, loaded⟩
    exact ⟨name, ⟨p, r, q, split, leads⟩, loaded⟩
  · rintro ⟨name, ⟨p, r, q, split, leads⟩, loaded⟩
    exact ⟨p, r, q, name, split, leads, loaded⟩

theorem inResource_of_loads (loads : Loads disk description s content) :
    inResource disk description s = if content = "" then s else content := by
  rw [inResource, loads_iff.mp loads]
  simp

theorem inResource_of_not_loads (idle : ∀ content, ¬ Loads disk description s content) :
    inResource disk description s = s := by
  have none : (name? s).bind (content? disk description) = none :=
    Option.eq_none_iff_forall_not_mem.mpr fun content found => idle content (loads_iff.mpr found)
  rw [inResource, none]

theorem becomes_inResource (disk : Disk) (description s : String) :
    Becomes disk description s (inResource disk description s) := by
  by_cases some : ∃ content, Loads disk description s content
  · obtain ⟨content, loads⟩ := some
    rw [inResource_of_loads loads]
    split
    · next empty =>
        refine .inr ⟨fun other loads' => ?_, rfl⟩
        rw [← empty]
        exact Option.some.inj ((loads_iff.mp loads').symm.trans (loads_iff.mp loads))
    · next filled => exact .inl ⟨loads, filled⟩
  · push Not at some
    exact .inr ⟨fun content loads => absurd loads (some content), inResource_of_not_loads some⟩

theorem inResource_again (free : ∀ content, Loads disk description s content → Free content) :
    inResource disk description (inResource disk description s) = inResource disk description s := by
  rcases becomes_inResource disk description s with ⟨loads, -⟩ | ⟨-, stays⟩
  · refine inResource_of_not_loads ?_
    rintro content ⟨p, r, q, name, split, leads, -⟩
    exact free _ loads p r q name split leads.refers
  · rw [stays, stays]

/-- The content stands for the whole text, so the parts around a reference are kept just if there
are none. -/
theorem mapTexts_keeps_surroundings_iff {p r q name : String} (leads : Leads p r q name)
    (loaded : content? disk description name = some content) (filled : content ≠ "") :
    mapTexts (inResource disk description) (.str (p ++ r ++ q)) = .str (p ++ content ++ q) ↔
      p = "" ∧ q = "" := by
  rw [mapTexts, Data.mapTexts, inResource_of_loads ⟨p, r, q, name, rfl, leads, loaded⟩,
    if_neg filled, Data.str.injEq]
  constructor
  · intro same
    have lengths := congrArg String.length same
    simp only [String.length_append] at lengths
    exact ⟨String.length_eq_zero_iff.mp (by omega), String.length_eq_zero_iff.mp (by omega)⟩
  · rintro ⟨rfl, rfl⟩
    simp

end Texts

namespace Sample

def disk : Disk := { files := [("web.conf", "listen 80;"), ("empty.conf", "")] }

def reference : String := "$\x7bfile(\"web.conf\")\x7d"

theorem refers_reference : Refers reference "web.conf" := by
  refine ⟨by decide, by decide, "$\x7bfile(\"", mem_cons_self, rfl⟩

theorem loads_reference : (name? reference).bind (content? disk "main.cloud") =
    some "listen 80;" := by
  rw [show name? reference = some "web.conf" by cbv]
  rfl

end Sample

theorem mapTexts_keeps_reference_alone : Leads "" Sample.reference "" "web.conf" ∧
    mapTexts (inResource Sample.disk "main.cloud") (.str ("" ++ Sample.reference ++ "")) =
      .str ("" ++ "listen 80;" ++ "") := by
  have leads : Leads "" Sample.reference "" "web.conf" :=
    ⟨Sample.refers_reference, fun _ _ _ _ _ _ => Nat.zero_le _⟩
  exact ⟨leads, (mapTexts_keeps_surroundings_iff leads rfl (by decide)).mpr ⟨rfl, rfl⟩⟩

/-- The text around a reference is lost, though it has no reference itself. -/
theorem surroundings_lost : Refers Sample.reference "web.conf" ∧ Free "server \x7b " ∧ Free " \x7d" ∧
    content? Sample.disk "main.cloud" "web.conf" = some "listen 80;" ∧
    mapTexts (inResource Sample.disk "main.cloud")
      (.str ("server \x7b " ++ Sample.reference ++ " \x7d")) =
      .str "listen 80;" ∧
    "listen 80;" ≠ "server \x7b " ++ "listen 80;" ++ " \x7d" := by
  refine ⟨Sample.refers_reference, name?_eq_none_iff.mp (by cbv), name?_eq_none_iff.mp (by cbv),
    rfl, ?_, by decide⟩
  have loads : Loads Sample.disk "main.cloud"
      ("server \x7b " ++ Sample.reference ++ " \x7d") "listen 80;" := by
    rw [loads_iff, show name? ("server \x7b " ++ Sample.reference ++ " \x7d") =
      some "web.conf" by cbv]
    rfl
  rw [mapTexts, Data.mapTexts, inResource_of_loads loads, if_neg (by decide)]

/-! ### Values -/

/-- Values of the same shape: the same keys, lengths and other values, and texts that are related.
-/
inductive Reshaped (R : String → String → Prop) : Data → Data → Prop where
  | text {s t : String} (related : R s t) : Reshaped R (.str s) (.str t)
  | list {items items' : List Data} (each : List.Forall₂ (Reshaped R) items items') :
      Reshaped R (.list items) (.list items')
  | map {entries entries' : Assoc Data} (keys : keys entries' = keys entries)
      (each : List.Forall₂ (Reshaped R) (values entries) (values entries')) :
      Reshaped R (.map entries) (.map entries')
  | other {d : Data} (scalar : (d.isStr || d.isList || d.isMap) = false) : Reshaped R d d

variable {f : String → String}

theorem reshaped_mapTexts {R : String → String → Prop} (related : ∀ s, R s (f s)) (d : Data) :
    Reshaped R d (mapTexts f d) := by
  unfold mapTexts
  induction d using Data.induct with
  | list items ih =>
    rw [Data.mapTexts_list]
    exact .list (forall₂_map_right_iff.mpr (forall₂_same.mpr ih))
  | map entries ih =>
    rw [Data.mapTexts_map]
    refine .map (keys_mapValues _ entries) ?_
    simp only [values, mapValues, map_map, forall₂_map_left_iff, forall₂_map_right_iff]
    exact forall₂_same.mpr ih
  | scalar d flat flat' =>
    cases d with
    | list => cases flat
    | map => cases flat'
    | str s => exact .text (related s)
    | _ => exact .other rfl

theorem mapTexts_again {d : Data}
    (settled : ∀ leaf ∈ d.leaves, ∀ s, leaf.2 = .str s → f (f s) = f s) :
    mapTexts f (mapTexts f d) = mapTexts f d := by
  rw [mapTexts, Data.mapTexts_mapTexts]
  refine Data.mapTexts_congr fun leaf mem => ?_
  cases text : leaf.2 with
  | str s => exact congrArg Data.str (settled leaf mem s text)
  | _ => rfl

/-- A value keeps its shape, and each text becomes what it has to. If no content that is loaded has
references of its own, a second pass changes nothing. -/
theorem mapTexts_reshapes_and_repeats (disk : Disk) (description : String) (d : Data) :
    Reshaped (Becomes disk description) d (mapTexts (inResource disk description) d) ∧
    ((∀ leaf ∈ d.leaves, ∀ s content, leaf.2 = .str s → Loads disk description s content →
      Free content) →
      mapTexts (inResource disk description) (mapTexts (inResource disk description) d) =
        mapTexts (inResource disk description) d) := by
  refine ⟨reshaped_mapTexts (becomes_inResource disk description) d, fun free => mapTexts_again ?_⟩
  intro leaf mem s text
  exact inResource_again fun content loads => free leaf mem s content text loads

namespace Sample

def value : Data :=
  .map [("ingress", .list [.str reference, .int 1]), ("egress", .str "$\x7bfile(\"empty.conf\")\x7d")]

end Sample

theorem mapTexts_repeats_sample :
    (∀ leaf ∈ Sample.value.leaves, ∀ s content, leaf.2 = .str s →
      Loads Sample.disk "main.cloud" s content → Free content) ∧
    mapTexts (inResource Sample.disk "main.cloud")
      (mapTexts (inResource Sample.disk "main.cloud") Sample.value) =
      mapTexts (inResource Sample.disk "main.cloud") Sample.value := by
  have free : ∀ leaf ∈ Sample.value.leaves, ∀ s content, leaf.2 = .str s →
      Loads Sample.disk "main.cloud" s content → Free content := by
    rintro leaf mem s content text loads
    rw [loads_iff] at loads
    fin_cases mem
    · cases text
      cases Sample.loads_reference.symm.trans loads
      exact name?_eq_none_iff.mp (by cbv)
    · cases text
    · cases text
      rw [show name? "$\x7bfile(\"empty.conf\")\x7d" = some "empty.conf" by cbv] at loads
      cases loads
      exact name?_eq_none_iff.mp (by cbv)
  exact ⟨free, (mapTexts_reshapes_and_repeats Sample.disk "main.cloud" Sample.value).2 free⟩

end Stratus.FileReference
