import FileRoutes.Proofs.Pattern.Segments
import FileRoutes.Scan
import Mathlib.Data.List.Forall2
import Mathlib.Data.List.Nodup
import Mathlib.Tactic.SplitIfs

/-!
# Records from sights

The record of a page has the page's directories as its pattern (`Scan.PatternOf`), and there is
none when one of the directories has a name that is not UTF-8 or when a placeholder is repeated
(`Scan.Unroutable`): see `Scan.record_cases`.

Collecting fails when some sight does (`Scan.exists_collect_eq_error`).  Otherwise it takes one
record for each sight that adds one (`Scan.forall₂_collect`), and the caller has been asked about
all candidates (`Scan.prefix_asked`, `Scan.asked_eq_of_collect`).
-/

namespace FileRoutes

namespace Scan

/-! ### The record of a page -/

/-- The pattern of a directory: a slash, and the names on the way down with slashes between
them. -/
def PatternOf (dirs : List Name) (pattern : Text) : Prop :=
  ∃ names, List.Forall₂ (fun n t => Utf8.decode? n = some t) dirs names ∧
    pattern = '/' :: joinWith '/' names

/-- Pages in the directory that `dirs` leads to have no record. -/
def Unroutable (dirs : List Name) : Prop :=
  (∃ n ∈ dirs, Utf8.decode? n = none) ∨
    ∃ pattern, PatternOf dirs pattern ∧ ¬(Pattern.names pattern).Nodup

/-- A record says what the page that `names` lead to declares. -/
structure Describes (root : Path) (names : List Name) (r : Record Unit) : Prop where
  source : r.source = root.descend names
  pattern : PatternOf names.dropLast r.pattern
  params : r.params = Pattern.names r.pattern
  isDynamic : r.isDynamic = true ↔ r.params ≠ []
  nodup : r.params.Nodup

theorem mapM_decode?_eq_some {dirs : List Name} {names : List Text} :
    dirs.mapM Utf8.decode? = some names ↔
      List.Forall₂ (fun n t => Utf8.decode? n = some t) dirs names := by
  induction dirs generalizing names with
  | nil => cases names <;> simp
  | cons n dirs ih =>
    rw [List.mapM_cons, Option.bind_eq_bind, Option.bind_eq_some_iff, List.forall₂_cons_left_iff]
    constructor
    · rintro ⟨t, ht, h⟩
      obtain ⟨ts, hts, h⟩ := Option.bind_eq_some_iff.1 h
      exact ⟨t, ts, ht, ih.1 hts, (Option.some.inj h).symm⟩
    · rintro ⟨t, ts, ht, hts, rfl⟩
      exact ⟨t, ht, Option.bind_eq_some_iff.2 ⟨ts, ih.2 hts, rfl⟩⟩

theorem mapM_decode?_eq_none {dirs : List Name} :
    dirs.mapM Utf8.decode? = none ↔ ∃ n ∈ dirs, Utf8.decode? n = none := by
  induction dirs with
  | nil => simp
  | cons n dirs ih =>
    rw [List.mapM_cons]
    cases hn : Utf8.decode? n with
    | none => simp [hn]
    | some t => cases h : dirs.mapM Utf8.decode? <;> simp_all

theorem patternOf?_eq_some {dirs : List Name} {pattern : Text} :
    patternOf? dirs = some pattern ↔ PatternOf dirs pattern := by
  rw [patternOf?, Option.map_eq_some_iff, PatternOf]
  simp only [mapM_decode?_eq_some, eq_comm]

theorem patternOf?_eq_none {dirs : List Name} :
    patternOf? dirs = none ↔ ∃ n ∈ dirs, Utf8.decode? n = none := by
  rw [patternOf?, Option.map_eq_none_iff, mapM_decode?_eq_none]

theorem firstRepeated?_eq_none {before l : List Text} (h : before.Nodup) :
    firstRepeated? before l = none ↔ (before ++ l).Nodup := by
  induction l generalizing before with
  | nil => simp [firstRepeated?, h]
  | cons x l ih =>
    rw [firstRepeated?]
    -- what has gone by keeps being free of repetitions until one is found
    split_ifs with hx
    · have hx : x ∈ before := by simpa using hx
      have hnot : ¬(before ++ x :: l).Nodup := fun h =>
        (List.nodup_append.1 h).2.2 x hx x List.mem_cons_self rfl
      simp [hnot]
    · have hx : x ∉ before := by simpa using hx
      have hnodup : (before ++ [x]).Nodup := by
        simpa [List.nodup_append, h] using fun y hy => ne_of_mem_of_not_mem hy hx
      rw [ih hnodup, List.append_assoc, List.singleton_append]

variable {d : Disk} {root : Path} {names : List Name} {r : Record Unit} {p : Text}

theorem Describes.not_unroutable (h : Describes root names r) : ¬Unroutable names.dropLast := by
  have hp := patternOf?_eq_some.2 h.pattern
  rintro (hnone | ⟨pattern, hp', hrepeat⟩)
  · cases hp.symm.trans (patternOf?_eq_none.2 hnone)
  · obtain rfl := Option.some.inj (hp.symm.trans (patternOf?_eq_some.2 hp'))
    exact hrepeat h.nodup

theorem record_cases (root : Path) (names : List Name) :
    (∃ r, Describes root names r ∧ record root names = .ok r) ∨
      Unroutable names.dropLast ∧ ∃ e, record root names = .error e := by
  cases hpattern : patternOf? names.dropLast with
  | none =>
    exact .inr ⟨.inl (patternOf?_eq_none.1 hpattern), _, by rw [record, hpattern]⟩
  | some pattern =>
    have hp := patternOf?_eq_some.1 hpattern
    cases hrepeat : firstRepeated? [] (Pattern.names pattern) with
    | none =>
      have hnodup := (firstRepeated?_eq_none List.nodup_nil).1 hrepeat
      exact .inl ⟨⟨root.descend names, pattern, ()⟩, ⟨rfl, hp, rfl, Pattern.isDynamic_iff, hnodup⟩,
        by simp only [record, hpattern, hrepeat]⟩
    | some name =>
      refine .inr ⟨.inr ⟨pattern, hp, fun h => ?_⟩, .duplicateParameter pattern name
        (root.descend names), by simp only [record, hpattern, hrepeat]⟩
      cases hrepeat.symm.trans ((firstRepeated?_eq_none List.nodup_nil).2 h)

/-! ### Collecting -/

variable {xs : List Sight} {rs : List (Record Unit)}

theorem exists_collect_eq_error :
    (∃ e, collect d root xs = .error e) ↔ ∃ x ∈ xs, ∃ e, recognize d root x = .error e := by
  induction xs with
  | nil => simp [collect]
  | cons x xs ih =>
    rw [collect, List.exists_mem_cons_iff, ← ih]
    cases recognize d root x with
    | error e => simp
    | ok r => cases collect d root xs <;> simp

theorem collect_cons_eq_ok {x : Sight} :
    collect d root (x :: xs) = .ok rs ↔
      ∃ g rs', recognize d root x = .ok g ∧ collect d root xs = .ok rs' ∧
        rs = g.toList ++ rs' := by
  rw [collect]
  cases recognize d root x with
  | error e => simp
  | ok g => cases collect d root xs <;> simp [eq_comm]

/-- Records come from sights that add them. -/
theorem mem_collect (h : collect d root xs = .ok rs) :
    r ∈ rs ↔ ∃ x ∈ xs, recognize d root x = .ok (some r) := by
  induction xs generalizing rs with
  | nil =>
    obtain rfl := Except.ok.inj h
    simp
  | cons x xs ih =>
    obtain ⟨g, rs', hx, hxs, rfl⟩ := collect_cons_eq_ok.1 h
    rw [List.mem_append, Option.mem_toList, ih hxs, List.exists_mem_cons_iff, hx,
      Except.ok.injEq]

/-- Only files add records. -/
theorem names_of_recognize {x : Sight} (h : recognize d root x = .ok (some r)) :
    ∃ names, x = .file names := by
  cases x with
  | candidate dirs => cases h
  | closed dirs f => cases h
  | file names => exact ⟨names, rfl⟩

/-- **Every sight that adds a record adds its own one.** -/
theorem forall₂_collect (h : collect d root xs = .ok rs) :
    ∃ pages : List (List Name), (pages.map Sight.file).Sublist xs ∧
      (∀ names, names ∈ pages ↔
        .file names ∈ xs ∧ ∃ r, recognize d root (.file names) = .ok (some r)) ∧
      List.Forall₂ (fun names r => .file names ∈ xs ∧
        recognize d root (.file names) = .ok (some r)) pages rs := by
  induction xs generalizing rs with
  | nil =>
    obtain rfl := Except.ok.inj h
    exact ⟨[], .slnil, by simp, .nil⟩
  | cons x xs ih =>
    obtain ⟨g, rs', hx, hxs, rfl⟩ := collect_cons_eq_ok.1 h
    obtain ⟨pages, hsub, hmem, hpages⟩ := ih hxs
    have hpages' : List.Forall₂ (fun names r => .file names ∈ x :: xs ∧
        recognize d root (.file names) = .ok (some r)) pages rs' :=
      hpages.imp fun _ _ h => ⟨List.mem_cons_of_mem x h.1, h.2⟩
    cases g with
    | none =>
      -- a sight that adds nothing is none of the pages
      refine ⟨pages, hsub.cons _, fun names => ?_, hpages'⟩
      rw [hmem, List.mem_cons]
      refine and_congr_left ?_
      rintro ⟨r, hr⟩
      refine ⟨.inr, fun h => h.resolve_left ?_⟩
      rintro rfl
      cases hx.symm.trans hr
    | some r =>
      obtain ⟨names₀, rfl⟩ := names_of_recognize hx
      refine ⟨names₀ :: pages, hsub.cons_cons _, fun names => ?_,
        .cons ⟨List.mem_cons_self, hx⟩ hpages'⟩
      rw [List.mem_cons, List.mem_cons, hmem, Sight.file.injEq]
      by_cases heq : names = names₀
      · simp [heq, hx]
      · simp [heq]

/-! ### Asking -/

theorem candidate?_eq_some {x : Sight} : x.candidate? = some names ↔ x = .candidate names := by
  cases x <;> simp [Sight.candidate?]

theorem mem_filterMap_candidate? :
    names ∈ xs.filterMap Sight.candidate? ↔ .candidate names ∈ xs := by
  simp [List.mem_filterMap, candidate?_eq_some]

theorem prefix_asked : asked d root xs <+: xs.filterMap Sight.candidate? := by
  induction xs with
  | nil => exact List.prefix_rfl
  | cons x xs ih =>
    rw [asked, List.filterMap_eq_flatMap_toList, List.flatMap_cons,
      ← List.filterMap_eq_flatMap_toList]
    refine (List.prefix_append_right_inj _).2 ?_
    split
    · exact List.nil_prefix
    · exact ih

theorem asked_eq_of_collect (h : collect d root xs = .ok rs) :
    asked d root xs = xs.filterMap Sight.candidate? := by
  induction xs generalizing rs with
  | nil => rfl
  | cons x xs ih =>
    obtain ⟨g, rs', hx, hxs, rfl⟩ := collect_cons_eq_ok.1 h
    rw [asked, List.filterMap_eq_flatMap_toList, List.flatMap_cons,
      ← List.filterMap_eq_flatMap_toList, hx]
    simp only [ih hxs]

end Scan

end FileRoutes
