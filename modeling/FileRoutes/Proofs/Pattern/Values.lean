import FileRoutes.Pattern.Values
import Mathlib.Data.List.Nodup
import Mathlib.Tactic.SplitIfs

/-!
# Values given one after another

Values are given by name, one after another, and a later one replaces an earlier one of its name.

* `Values.get?_foldl` : a name has the value that was given to it last.
* `Values.names_foldl` : which names have a value, and in which order they are kept, depends on the
  names alone and not on the values.
* `Values.eq_of_get?` : hence values that were given to the same names in the same order are equal
  as soon as they look equal, and giving each name its final value every time changes nothing
  (`Values.ofList_valueOf`).
-/

namespace FileRoutes

namespace Values

variable {vs ws : Values} {es : List (Text × Text)} {n : Text}

/-- The value of a name, or the empty text if it has none. -/
def valueOf (vs : Values) (name : Text) : Text := (get? vs name).getD []

theorem get?_eq_valueOf (h : get? vs n ≠ none) : get? vs n = some (valueOf vs n) := by
  obtain ⟨v, hv⟩ := Option.ne_none_iff_exists'.1 h
  rw [valueOf, hv, Option.getD_some]

theorem get?_cons (e : Text × Text) (vs : Values) (n : Text) :
    get? (e :: vs) n = if e.1 = n then some e.2 else get? vs n := by
  by_cases h : e.1 = n <;> simp [get?, h]

theorem get?_append (vs ws : Values) (n : Text) :
    get? (vs ++ ws) n = (get? vs n).or (get? ws n) := by
  simp only [get?, List.find?_append, Option.map_or]

theorem names_cons (e : Text × Text) (vs : Values) : names (e :: vs) = e.1 :: names vs := rfl

theorem isSome_get? : (get? vs n).isSome = true ↔ n ∈ names vs := by
  simp [get?, names]

theorem get?_eq_none : get? vs n = none ↔ n ∉ names vs := by
  rw [← isSome_get?, Option.not_isSome_iff_eq_none]

/-- **Of several values that are given to a name, the last one counts.** -/
theorem get?_foldl (es : List (Text × Text)) (vs : Values) (n : Text) :
    get? (es.foldl (fun vs e => insert vs e.1 e.2) vs) n = get? (es.reverse ++ vs) n := by
  induction es generalizing vs with
  | nil => rfl
  | cons e es ih =>
    have hone : get? (insert vs e.1 e.2) n = get? (e :: vs) n := by
      rw [get?_insert, get?_cons]
      simp only [eq_comm]
    rw [List.foldl_cons, ih, get?_append, hone, ← get?_append, List.reverse_cons, List.append_assoc,
      List.singleton_append]

theorem get?_foldl_of_last {before after : List (Text × Text)} (h : n ∉ after.map Prod.fst)
    (value : Text) (vs : Values) :
    get? ((before ++ (n, value) :: after).foldl (fun vs e => insert vs e.1 e.2) vs) n =
      some value := by
  have hnone : get? after.reverse n = none := by
    rwa [get?_eq_none, names, List.map_reverse, List.mem_reverse]
  rw [get?_foldl, List.reverse_append, List.reverse_cons, List.append_assoc, List.append_assoc,
    get?_append, hnone, Option.none_or, List.singleton_append, get?_cons, if_pos rfl]

/-- Values that a function gives to names. -/
theorem get?_foldl_insert (f : Text → Text) (ns : List Text) (vs : Values) (n : Text) :
    get? (ns.foldl (fun vs n => insert vs n (f n)) vs) n =
      if n ∈ ns then some (f n) else get? vs n := by
  induction ns generalizing vs with
  | nil => simp
  | cons m ns ih =>
    rw [List.foldl_cons, ih, get?_insert]
    by_cases hn : n ∈ ns
    · simp [hn]
    · by_cases hm : n = m <;> simp [hn, hm]

theorem mem_names_ofList : n ∈ names (ofList es) ↔ n ∈ es.map Prod.fst := by
  rw [← isSome_get?, ofList, get?_foldl, List.append_nil, isSome_get?, names, List.map_reverse,
    List.mem_reverse]

/-- A name that is given values has a last one. -/
theorem exists_last (h : n ∈ es.map Prod.fst) :
    ∃ before value after, es = before ++ (n, value) :: after ∧ n ∉ after.map Prod.fst := by
  induction es with
  | nil => cases h
  | cons e es ih =>
    by_cases hn : n ∈ es.map Prod.fst
    · obtain ⟨before, value, after, rfl, hafter⟩ := ih hn
      exact ⟨e :: before, value, after, rfl, hafter⟩
    · rw [List.map_cons, List.mem_cons, or_iff_left hn] at h
      exact ⟨[], e.2, es, by rw [h]; rfl, hn⟩

/-! ### The names -/

theorem names_insert (vs : Values) (name value : Text) :
    names (insert vs name value) = if name ∈ names vs then names vs else names vs ++ [name] := by
  induction vs with
  | nil => rfl
  | cons e vs ih =>
    rw [names_cons]
    by_cases h : e.1 = name
    · rw [if_pos (h ▸ List.mem_cons_self), insert, if_pos h, names_cons, h]
    · have hne : ¬name = e.1 := fun h' => h h'.symm
      simp only [insert, if_neg h, names_cons, ih, List.mem_cons, hne, false_or]
      split_ifs <;> rfl

theorem nodup_names_insert (h : (names vs).Nodup) (name value : Text) :
    (names (insert vs name value)).Nodup := by
  rw [names_insert]
  split_ifs with hmem
  · exact h
  · exact List.nodup_append.2 ⟨h, List.nodup_singleton name, by
      rintro n hn _ hname rfl
      exact hmem (List.mem_singleton.1 hname ▸ hn)⟩

/-- Which names have a value does not depend on the values. -/
theorem names_foldl (es : List (Text × Text)) (vs : Values) :
    names (es.foldl (fun vs e => insert vs e.1 e.2) vs) =
      (es.map Prod.fst).foldl (fun ns n => if n ∈ ns then ns else ns ++ [n]) (names vs) := by
  induction es generalizing vs with
  | nil => rfl
  | cons e es ih => rw [List.foldl_cons, ih, names_insert, List.map_cons, List.foldl_cons]

theorem nodup_names_foldl (es : List (Text × Text)) (h : (names vs).Nodup) :
    (names (es.foldl (fun vs e => insert vs e.1 e.2) vs)).Nodup := by
  induction es generalizing vs with
  | nil => exact h
  | cons e es ih => exact ih (nodup_names_insert h e.1 e.2)

theorem names_ofList_congr {es' : List (Text × Text)} (h : es.map Prod.fst = es'.map Prod.fst) :
    names (ofList es) = names (ofList es') := by
  rw [ofList, ofList, names_foldl, names_foldl, h]

/-- Values that keep the same names in the same order are equal if they look equal. -/
theorem eq_of_get? (hnames : names vs = names ws) (hnodup : (names vs).Nodup)
    (hget : ∀ n, get? vs n = get? ws n) : vs = ws := by
  induction vs generalizing ws with
  | nil => exact (List.map_eq_nil_iff.1 hnames.symm).symm
  | cons e vs ih =>
    obtain ⟨e', ws, rfl⟩ : ∃ e' ws', ws = e' :: ws' :=
      List.exists_cons_of_ne_nil (by rintro rfl; cases hnames)
    rw [names_cons, names_cons, List.cons.injEq] at hnames
    obtain ⟨hhead, htail⟩ := hnames
    rw [names_cons, List.nodup_cons] at hnodup
    have hvalue : e.2 = e'.2 := by simpa [get?_cons, hhead] using hget e.1
    have hrest : ∀ n, get? vs n = get? ws n := by
      intro n
      by_cases h : e.1 = n
      · -- the first name occurs no second time
        have hfirst : n ∉ names vs := h ▸ hnodup.1
        rw [get?_eq_none.2 hfirst, get?_eq_none.2 (htail ▸ hfirst)]
      · have hn := hget n
        rwa [get?_cons, get?_cons, if_neg h, if_neg (hhead ▸ h)] at hn
    rw [Prod.ext hhead hvalue, ih htail hnodup.2 hrest]

/-- Only the final value of each name matters: to give it each time is the same. -/
theorem ofList_valueOf (es : List (Text × Text)) :
    ofList (es.map fun e => (e.1, valueOf (ofList es) e.1)) = ofList es := by
  have hnames :
      (es.map fun e => (e.1, valueOf (ofList es) e.1)).map Prod.fst = es.map Prod.fst := by
    rw [List.map_map]
    rfl
  refine eq_of_get? (names_ofList_congr hnames) (nodup_names_foldl _ List.nodup_nil) fun n => ?_
  by_cases hn : n ∈ es.map Prod.fst
  · obtain ⟨before, v, after, hsplit, hafter⟩ := exists_last (hnames.symm ▸ hn)
    have hmem : (n, v) ∈ es.map fun e => (e.1, valueOf (ofList es) e.1) := by simp [hsplit]
    obtain ⟨e, he, hev⟩ := List.mem_map.1 hmem
    obtain ⟨rfl, rfl⟩ := Prod.mk.inj hev
    rw [hsplit, ofList, get?_foldl_of_last hafter, get?_eq_valueOf]
    rwa [ne_eq, get?_eq_none, not_not, mem_names_ofList]
  · rw [get?_eq_none.2 (mem_names_ofList.not.2 hn),
      get?_eq_none.2 (mem_names_ofList.not.2 (hnames.symm ▸ hn))]

end Values

end FileRoutes
