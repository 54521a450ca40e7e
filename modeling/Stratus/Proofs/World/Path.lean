import Stratus.Proofs.Text.Split
import Stratus.World.Disk

/-!
Paths and the names under which files are kept. A path is its parts and whether it starts at the
root; a name below a directory is a fixed text for the directory, followed by the name.
-/
namespace Stratus

open List Text

namespace Path

/-- A part of a path that is neither empty nor a dot. -/
structure Plain (part : String) : Prop where
  nonempty : part ≠ ""
  no_dot : part ≠ "."
  no_slash : '/' ∉ part.toList

theorem split_slash (s : String) : split s "/" = (s.toList.splitOn '/').map String.ofList :=
  split_singleton s '/'

theorem notMem_of_mem_splitOn {c : Char} {piece cs : List Char} (h : piece ∈ cs.splitOn c) :
    c ∉ piece := by
  induction cs generalizing piece with
  | nil =>
    rw [splitOn_nil, mem_singleton] at h
    simp [h]
  | cons d cs ih =>
    rw [splitOn_cons_eq_if_modifyHead] at h
    obtain ⟨first, rest, pieces⟩ := exists_cons_of_ne_nil (splitOn_ne_nil c cs)
    rw [pieces] at h ih
    split at h
    · rcases mem_cons.mp h with rfl | later
      · exact not_mem_nil
      · exact ih later
    · next other =>
        rw [modifyHead_cons] at h
        rcases mem_cons.mp h with rfl | later
        · have apart : c ≠ d := by
            rintro rfl
            exact other (beq_self_eq_true c)
          exact not_mem_cons_of_ne_of_not_mem apart (ih mem_cons_self)
        · exact ih (mem_cons_of_mem _ later)

variable {part : String}

theorem plain_of_mem_parts {path : String} (h : part ∈ parts path) : Plain part := by
  obtain ⟨mem, kept⟩ := mem_filter.mp h
  simp only [Bool.and_eq_true, bne_iff_ne] at kept
  rw [split_slash] at mem
  obtain ⟨piece, inside, rfl⟩ := mem_map.mp mem
  refine ⟨kept.1, kept.2, ?_⟩
  rw [String.toList_ofList]
  exact notMem_of_mem_splitOn inside

/-! ### Parts of composed paths -/

theorem parts_append (a b : String) : parts (a ++ "/" ++ b) = parts a ++ parts b := by
  have slash : (a ++ "/" ++ b).toList = a.toList ++ '/' :: b.toList := by simp
  unfold parts
  rw [split_slash, split_slash, split_slash, ← filter_append, ← map_append, slash,
    splitOn_append_cons_self]

theorem parts_rooted (path : String) : parts ("/" ++ path) = parts path := by
  have split := parts_append "" path
  rw [String.empty_append] at split
  exact split

theorem parts_of_plain (h : Plain part) : parts part = [part] := by
  unfold parts
  rw [split_slash, splitOn_eq_singleton h.no_slash]
  simp [h.nonempty, h.no_dot]

theorem parts_intercalate {ps : List String} (h : ∀ part ∈ ps, Plain part) :
    parts ("/".intercalate ps) = ps := by
  induction ps with
  | nil => rfl
  | cons part ps ih =>
    have first := parts_of_plain (h part mem_cons_self)
    cases ps with
    | nil => simpa using first
    | cons next ps =>
      rw [String.intercalate_cons_cons, parts_append, first, ih fun part later =>
        h part (mem_cons_of_mem _ later)]
      rfl

theorem isAbsolute_iff {path : String} : isAbsolute path = true ↔ ∃ rest, path = "/" ++ rest := by
  unfold isAbsolute startsWith
  rw [Option.isSome_iff_exists]
  constructor
  · rintro ⟨rest, h⟩
    exact ⟨String.ofList rest, String.toList_inj.mp (by simpa using after?_eq_some_iff.mp h)⟩
  · rintro ⟨rest, rfl⟩
    exact ⟨rest.toList, after?_eq_some_iff.mpr (by simp)⟩

theorem isAbsolute_append {base : String} (h : base ≠ "") (rest : String) :
    isAbsolute (base ++ rest) = isAbsolute base := by
  obtain ⟨c, cs, chars⟩ := exists_cons_of_ne_nil (String.toList_eq_nil_iff.not.mpr h)
  unfold isAbsolute startsWith
  rw [String.toList_append, chars]
  by_cases slash : '/' = c
  · subst slash
    rfl
  · simp [after?, slash]

theorem isAbsolute_of_plain (h : Plain part) : isAbsolute part = false := by
  rw [Bool.eq_false_iff, Ne, isAbsolute_iff]
  rintro ⟨rest, rfl⟩
  exact h.no_slash (by simp)

theorem isAbsolute_intercalate {ps : List String} (h : ∀ part ∈ ps, Plain part) :
    isAbsolute ("/".intercalate ps) = false := by
  cases ps with
  | nil => rfl
  | cons part ps =>
    have first := h part mem_cons_self
    cases ps with
    | nil => simpa using isAbsolute_of_plain first
    | cons next ps =>
      rw [String.intercalate_cons_cons, String.append_assoc, isAbsolute_append first.nonempty,
        isAbsolute_of_plain first]

section OfParts

variable {ps : List String} (h : ∀ part ∈ ps, Plain part)

include h

theorem parts_ofParts (absolute : Bool) : parts (ofParts absolute ps) = ps := by
  unfold ofParts
  split
  · rw [parts_rooted, parts_intercalate h]
  · split
    · next empty =>
        rw [isEmpty_iff.mp empty]
        rfl
    · exact parts_intercalate h

theorem isAbsolute_ofParts (absolute : Bool) : isAbsolute (ofParts absolute ps) = absolute := by
  unfold ofParts
  split
  · next rooted =>
      rw [rooted, isAbsolute_iff]
      exact ⟨_, rfl⟩
  · next relative =>
      rw [Bool.eq_false_iff.mpr relative]
      split
      · rfl
      · exact isAbsolute_intercalate h

end OfParts

theorem join_eq {name : String} (relative : isAbsolute name = false) (base : String) :
    join base name = ofParts (isAbsolute base) (parts base ++ parts name) := by
  unfold join
  rw [relative, Bool.or_false]
  split
  · next empty =>
      rw [beq_iff_eq.mp empty, shown, relative]
      rfl
  · next given =>
      rw [shown, String.append_assoc, isAbsolute_append (by simpa using given),
        ← String.append_assoc, parts_append]

section Join

variable {name : String} (plain : Plain name) (base : String)

include plain

theorem plain_of_mem_parts_join {part : String} (h : part ∈ parts base ++ [name]) : Plain part := by
  rcases mem_append.mp h with before | last
  · exact plain_of_mem_parts before
  · exact mem_singleton.mp last ▸ plain

theorem join_plain : join base name = ofParts (isAbsolute base) (parts base ++ [name]) := by
  rw [join_eq (isAbsolute_of_plain plain), parts_of_plain plain]

theorem parts_join : parts (join base name) = parts base ++ [name] := by
  rw [join_plain plain, parts_ofParts fun _ => plain_of_mem_parts_join plain base]

theorem isAbsolute_join : isAbsolute (join base name) = isAbsolute base := by
  rw [join_plain plain, isAbsolute_ofParts fun _ => plain_of_mem_parts_join plain base]

theorem withSuffix_join {suffix : String} (changed : Plain (stem name ++ suffix)) :
    withSuffix (join base name) suffix = join base (stem name ++ suffix) := by
  have last : Path.name (join base name) = Path.name name := by
    rw [Path.name, Path.name, parts_join plain, parts_of_plain plain]
    simp
  have stems : stem (join base name) = stem name := by
    rw [stem, stem, last]
  rw [withSuffix, stems, parts_join plain, isAbsolute_join plain, dropLast_concat,
    join_plain changed]

end Join

end Path

open Stratus.Path

namespace Disk

/-! ### Steps up -/

/-- Steps up stand at the start only. -/
def Resolved (ps : List String) : Prop := ps.Pairwise fun before part => part = ".." → before = ".."

variable {part name q p : String} {ps done : List String}

theorem resolved_concat : Resolved (ps ++ [part]) ↔
    Resolved ps ∧ (part = ".." → ∀ before ∈ ps, before = "..") := by
  simp only [Resolved, pairwise_append, pairwise_singleton, true_and, mem_singleton, forall_eq]
  exact and_congr_right fun _ =>
    ⟨fun h up before mem => h before mem up, fun h before mem up => h up before mem⟩

theorem resolved_resolveUp (h : Resolved done.reverse) : Resolved (resolveUp done ps) := by
  fun_induction resolveUp done ps with
  | case1 done => exact h
  | case2 d done rest up ih =>
    obtain rfl : d = ".." := by simpa using up
    apply ih
    rw [reverse_cons, resolved_concat]
    refine ⟨h, fun _ before mem => ?_⟩
    rw [reverse_cons, resolved_concat] at h
    rw [reverse_cons, mem_append, mem_singleton] at mem
    exact mem.elim (h.2 rfl before) id
  | case3 d done rest other ih =>
    apply ih
    rw [reverse_cons, resolved_concat] at h
    exact h.1
  | case4 done part rest first ih =>
    apply ih
    rw [reverse_cons, resolved_concat]
    refine ⟨h, ?_⟩
    rintro rfl before mem
    -- A step up is taken here only if there is nothing to step up from.
    cases done with
    | nil => cases mem
    | cons d done => exact (first d done rfl rfl).elim

theorem resolveUp_of_resolved (h : Resolved (done.reverse ++ ps)) :
    resolveUp done ps = done.reverse ++ ps := by
  fun_induction resolveUp done ps with
  | case1 done => exact (append_nil _).symm
  | case2 d done rest up ih =>
    rw [ih (by simpa using h)]
    simp
  | case3 d done rest other ih =>
    have above : d = ".." := by
      refine (pairwise_append.mp h).2.2 d ?_ ".." mem_cons_self rfl
      simp
    exact absurd above (by simpa using other)
  | case4 done part rest first ih =>
    rw [ih (by simpa using h)]
    simp

theorem resolveUp_append (plain : name ≠ "..") :
    resolveUp done (ps ++ [name]) = resolveUp done ps ++ [name] := by
  fun_induction resolveUp done ps with
  | case1 done =>
    rw [nil_append, resolveUp]
    · simp [resolveUp]
    · intro _ _ _ up
      exact plain up
  | case2 d done rest up ih => rw [cons_append, resolveUp, if_pos up, ih]
  | case3 d done rest other ih => rw [cons_append, resolveUp, if_neg other, ih]
  | case4 done part rest first ih => rw [cons_append, resolveUp, ih]; exact first

theorem mem_resolveUp (h : part ∈ resolveUp done ps) :
    part ∈ done ∨ part ∈ ps := by
  fun_induction resolveUp done ps with
  | case1 done => exact .inl (mem_reverse.mp h)
  | case2 d done rest up ih =>
    have found := ih h
    simp only [mem_cons] at found ⊢
    tauto
  | case3 d done rest other ih =>
    have found := ih h
    simp only [mem_cons] at found ⊢
    tauto
  | case4 done part rest first ih =>
    have found := ih h
    simp only [mem_cons] at found ⊢
    tauto

/-! ### Names of files -/

def route (path : String) : List String := resolveUp [] (parts path)

theorem plain_of_mem_route {path : String} (h : part ∈ route path) : Path.Plain part :=
  plain_of_mem_parts ((mem_resolveUp h).resolve_left not_mem_nil)

theorem route_rooted (path : String) : route ("/" ++ path) = route path := by
  rw [route, route, parts_rooted]

theorem resolved_route (path : String) : Resolved (route path) :=
  resolved_resolveUp List.Pairwise.nil

section Normal

variable {path : String}

theorem normal_of_relative (h : isAbsolute path = false) :
    normal path = "/".intercalate (route path) := by
  simp [normal, route, h]

theorem normal_of_working {rest : List String} (h : isAbsolute path = true)
    (there : route path = "work" :: rest) :
    normal path = "/".intercalate rest := by
  rw [route] at there
  simp [normal, h, there]

theorem normal_of_elsewhere (h : isAbsolute path = true) (there : (route path).head? ≠ some "work") :
    normal path = "/" ++ "/".intercalate (route path) := by
  unfold normal
  rw [route] at there ⊢
  simp only [h, Bool.not_true, Bool.false_eq_true, if_false]
  split
  · next rest same => exact absurd (by simp [same]) there
  · rfl

theorem route_intercalate {ps : List String} (plain : ∀ part ∈ ps, Path.Plain part)
    (resolved : Resolved ps) :
    route ("/".intercalate ps) = ps := by
  rw [route, parts_intercalate plain, resolveUp_of_resolved (by simpa using resolved),
    reverse_nil, nil_append]

theorem normal_normal (path : String) : normal (normal path) = normal path := by
  have plain : ∀ part ∈ route path, Path.Plain part := fun part => plain_of_mem_route
  have resolved := resolved_route path
  cases rooted : isAbsolute path with
  | false =>
    rw [normal_of_relative rooted, normal_of_relative (isAbsolute_intercalate plain),
      route_intercalate plain resolved]
  | true =>
    by_cases working : (route path).head? = some "work"
    · obtain ⟨rest, there⟩ := head?_eq_some_iff.mp working
      rw [there] at plain resolved
      have plain (part : String) (mem : part ∈ rest) := plain part (mem_cons_of_mem _ mem)
      have resolved : Resolved rest := resolved.of_cons
      rw [normal_of_working rooted there, normal_of_relative (isAbsolute_intercalate plain),
        route_intercalate plain resolved]
    · have again : isAbsolute ("/" ++ "/".intercalate (route path)) = true :=
        isAbsolute_iff.mpr ⟨_, rfl⟩
      have same : route ("/" ++ "/".intercalate (route path)) = route path := by
        rw [route_rooted, route_intercalate plain resolved]
      rw [normal_of_elsewhere rooted working, normal_of_elsewhere again (by rwa [same]), same]

end Normal

/-! ### Names below a directory -/

/-- Parts of a path, each with the slash behind it. -/
def slashed (ps : List String) : String := String.join (ps.map (· ++ "/"))

/-- The text before the names of the files in a directory. -/
def within (dir : String) : String :=
  if isAbsolute dir then
    if (route dir).head? = some "work" then slashed (route dir).tail else "/" ++ slashed (route dir)
  else slashed (route dir)

/-- A name that leads neither up nor, from the root, to the working directory. -/
structure Name (name : String) : Prop extends Path.Plain name where
  not_up : name ≠ ".."
  not_work : name ≠ "work"

theorem intercalate_concat (ps : List String) (name : String) :
    "/".intercalate (ps ++ [name]) = slashed ps ++ name := by
  induction ps with
  | nil => simp [slashed]
  | cons part ps ih =>
    have step : "/".intercalate (part :: (ps ++ [name])) = part ++ "/" ++
        "/".intercalate (ps ++ [name]) := by
      cases ps with
      | nil => rfl
      | cons next ps => exact String.intercalate_cons_cons
    rw [cons_append, step, ih]
    simp [slashed, String.append_assoc]

section Name

variable {name : String} (h : Name name) (dir : String)

include h

theorem route_join : route (join dir name) = route dir ++ [name] := by
  rw [route, parts_join h.toPlain, resolveUp_append h.not_up, route]

theorem normal_join : normal (join dir name) = within dir ++ name := by
  have rooted := isAbsolute_join h.toPlain dir
  unfold within
  split
  · next absolute =>
      rw [absolute] at rooted
      split
      · next working =>
          obtain ⟨rest, there⟩ := head?_eq_some_iff.mp working
          have below : route (join dir name) = "work" :: (rest ++ [name]) := by
            rw [route_join h, there, cons_append]
          rw [normal_of_working rooted below, intercalate_concat, there, tail_cons]
      · next elsewhere =>
          have below : (route (join dir name)).head? ≠ some "work" := by
            rw [route_join h]
            cases there : route dir with
            | nil => simpa using h.not_work
            | cons part rest =>
              rw [there] at elsewhere
              simpa using elsewhere
          rw [normal_of_elsewhere rooted below, route_join h, intercalate_concat,
            String.append_assoc]
  · next relative =>
      rw [Bool.eq_false_iff.mpr relative] at rooted
      rw [normal_of_relative rooted, route_join h, intercalate_concat]

theorem within_join : within (join dir name) = within dir ++ name ++ "/" := by
  have behind (ps : List String) : slashed (ps ++ [name]) = slashed ps ++ name ++ "/" := by
    simp [slashed, String.append_assoc]
  unfold within
  rw [isAbsolute_join h.toPlain, route_join h]
  cases there : route dir with
  | nil => split <;> simp [h.not_work, slashed, String.append_assoc]
  | cons part rest =>
    rw [cons_append, head?_cons, head?_cons, tail_cons, tail_cons, ← cons_append,
      behind, behind]
    split
    · split <;> simp only [String.append_assoc]
    · rfl

end Name

/-- A name in a directory is not below another one in it. -/
theorem append_slash_ne_normal_join {other : String} (h : Name name) (h' : Name other)
    (dir rest : String) :
    normal (join dir name) ++ "/" ++ rest ≠ normal (join dir other) := by
  intro same
  rw [normal_join h, normal_join h', String.append_assoc, String.append_assoc,
    String.append_right_inj] at same
  apply h'.no_slash
  rw [← same]
  simp

theorem intercalate_append {front back : List String} (first : front ≠ []) (second : back ≠ []) :
    "/".intercalate (front ++ back) = "/".intercalate front ++ "/" ++ "/".intercalate back := by
  induction front with
  | nil => exact absurd rfl first
  | cons part front ih =>
    cases front with
    | nil =>
      obtain ⟨next, rest, rfl⟩ := exists_cons_of_ne_nil second
      rw [singleton_append, String.intercalate_cons_cons]
      simp
    | cons next front =>
      rw [cons_append, cons_append, String.intercalate_cons_cons, ← cons_append,
        ih (cons_ne_nil _ _), String.intercalate_cons_cons]
      simp only [String.append_assoc]

theorem mem_parentsFrom {above : List String} (h : q ∈ parentsFrom above ps) :
    ∃ front back, ps = front ++ back ∧ front ≠ [] ∧ back ≠ [] ∧
      q = "/".intercalate (above ++ front) := by
  fun_induction parentsFrom above ps with
  | case1 => cases h
  | case2 => cases h
  | case3 above part rest more ih =>
    rcases mem_cons.mp h with rfl | later
    · refine ⟨[part], rest, rfl, cons_ne_nil _ _, ?_, rfl⟩
      rintro rfl
      exact more rfl
    · obtain ⟨front, back, rfl, -, left, rfl⟩ := ih later
      exact ⟨part :: front, back, rfl, cons_ne_nil _ _, left, by simp⟩

theorem eq_append_of_mem_parents (h : q ∈ parents p) : ∃ rest, p = q ++ "/" ++ rest := by
  obtain ⟨front, back, parts, first, second, rfl⟩ := mem_parentsFrom (mem_of_mem_filter h)
  refine ⟨"/".intercalate back, ?_⟩
  rw [nil_append, ← intercalate_append first second, ← parts]
  exact (intercalate_split p '/').symm

theorem length_lt_of_mem_parents (h : q ∈ parents p) : q.length < p.length := by
  obtain ⟨rest, rfl⟩ := eq_append_of_mem_parents h
  have slash : "/".length = 1 := rfl
  rw [String.length_append, String.length_append, slash]
  omega

/-! ### Names at a base or below it -/

def Under (base name : String) : Prop := name = base ∨ ∃ rest, name = base ++ "/" ++ rest

theorem under_of_mem_parents (h : q ∈ parents p) : Under q p := .inr (eq_append_of_mem_parents h)

theorem Under.eq_append {base : String} (h : Under base name) : ∃ rest, name = base ++ rest := by
  rcases h with same | ⟨rest, below⟩
  · exact ⟨"", by rw [same, String.append_empty]⟩
  · exact ⟨"/" ++ rest, by rw [below, String.append_assoc]⟩

def Below (dir path : String) : Prop :=
  ∃ rest, normal path = within dir ++ rest ∧ isAbsolute rest = false ∧ (parts rest).head? ≠ some ".."

section Beside

variable {name other : String} (h : Name name) {dir : String}

include h

theorem normal_join_notMem_parents (h' : Name other) :
    normal (join dir name) ∉ parents (normal (join dir other)) := by
  intro above
  obtain ⟨rest, below⟩ := eq_append_of_mem_parents above
  exact append_slash_ne_normal_join h h' dir rest below.symm

/-- Nothing that leads to a name in a directory is below another one in it. -/
theorem not_under_of_mem_parents (h' : Name other) {q : String}
    (above : normal (join dir name) ∈ parents q) :
    ¬ Under q (normal (join dir other)) := by
  obtain ⟨rest, rfl⟩ := eq_append_of_mem_parents above
  intro under
  obtain ⟨more, same⟩ := under.eq_append
  rw [String.append_assoc] at same
  exact append_slash_ne_normal_join h h' dir (rest ++ more) same.symm

theorem below_of_under {path : String} (under : Under (normal (join dir name)) (normal path)) :
    Below dir path := by
  have plain := h.toPlain
  have first : name ≠ "" := plain.nonempty
  rw [normal_join h] at under
  rcases under with same | ⟨rest, below⟩
  · refine ⟨name, same, isAbsolute_of_plain plain, ?_⟩
    rw [parts_of_plain plain]
    simpa using h.not_up
  · refine ⟨name ++ ("/" ++ rest), by rw [below, String.append_assoc, String.append_assoc], ?_, ?_⟩
    · rw [isAbsolute_append first, isAbsolute_of_plain plain]
    · rw [← String.append_assoc, parts_append, parts_of_plain plain]
      simpa using h.not_up

end Beside

end Disk

end Stratus
