import FileRoutes.Toml.Document
import Mathlib.Data.List.Nodup
import Mathlib.Tactic.SplitIfs

/-!
# Keys of a document

No table of a document gets a key that it has already: values are added under new keys
(`Toml.nodup_addNew`), and going down a path of keys changes the values of keys or adds new ones
(`Toml.nodup_descend`).  So no key stands twice in the entries of a document
(`Toml.nodup_document?`).
-/

namespace FileRoutes

namespace Toml

namespace Entries

/-- The keys of a table, in order. -/
def keys (es : Entries) : List Text := es.map Prod.fst

variable {es : Entries} {k : Text} {v : Value}

theorem keys_cons (e : Text × Value) (es : Entries) : keys (e :: es) = e.1 :: keys es := rfl

theorem get?_cons (e : Text × Value) (es : Entries) (k : Text) :
    get? (e :: es) k = if e.1 = k then some e.2 else es.get? k := by
  rw [get?, List.find?_cons]
  by_cases h : e.1 = k
  · simp [h]
  · simp [h, get?]

theorem get?_eq_none : es.get? k = none ↔ k ∉ es.keys := by
  induction es with
  | nil => simp [get?, keys]
  | cons e es ih =>
    rw [get?_cons, keys_cons, List.mem_cons, not_or, ← ih]
    by_cases h : e.1 = k
    · simp [h]
    · simp [h, Ne.symm h]

theorem nodup_concat (hes : es.keys.Nodup) (hk : es.get? k = none) :
    (es ++ [(k, v)]).keys.Nodup := by
  rw [keys, List.map_append, List.map_singleton, ← keys]
  refine List.nodup_append.2 ⟨hes, List.nodup_singleton k, ?_⟩
  rintro k' hk' _ hlast rfl
  obtain rfl : k' = k := List.mem_singleton.1 hlast
  exact get?_eq_none.1 hk hk'

theorem keys_put (hk : k ∈ es.keys) : (es.put k v).keys = es.keys := by
  induction es with
  | nil => cases hk
  | cons e es ih =>
    rw [put]
    split_ifs with he
    · rw [keys_cons, keys_cons, he]
    · have hk' : k ∈ keys es := (List.mem_cons.1 hk).resolve_left (Ne.symm he)
      rw [keys_cons, keys_cons, ih hk']

theorem nodup_put {w : Value} (hes : es.keys.Nodup) (hk : es.get? k = some w) :
    (es.put k v).keys.Nodup := by
  have hmem : k ∈ es.keys := by
    by_contra hmem
    cases hk.symm.trans (get?_eq_none.2 hmem)
  rwa [keys_put hmem]

theorem nodup_erase (hes : es.keys.Nodup) : (es.erase k).keys.Nodup :=
  hes.sublist (List.filter_sublist.map _)

end Entries

/-! ### Changing a table -/

variable {β : Type} {es : Entries}

/-- The change of a table gives it no key twice. -/
def KeepsKeysApart (f : Origin → Entries → Option (β × Entries)) : Prop :=
  ∀ o es r, f o es = some r → es.keys.Nodup → r.2.keys.Nodup

theorem nodup_addNew {k : Text} {v : Value} {r : Unit × Entries} (h : addNew k v es = some r)
    (hes : es.keys.Nodup) : r.2.keys.Nodup := by
  rw [addNew] at h
  split at h
  case h_1 hk =>
    cases h
    exact Entries.nodup_concat hes hk
  case h_2 => cases h

theorem nodup_addToTables {k : Text} {t : Entries} {r : Unit × Entries}
    (h : Draft.addToTables k t es = some r) (hes : es.keys.Nodup) : r.2.keys.Nodup := by
  rw [Draft.addToTables] at h
  split at h
  case h_1 hk =>
    cases h
    exact Entries.nodup_concat hes hk
  case h_2 hk =>
    cases h
    exact Entries.nodup_put hes hk
  case h_3 => cases h

theorem nodup_takeOver {k : Text} {r : Entries × Entries} (h : Draft.takeOver k es = some r)
    (hes : es.keys.Nodup) : r.2.keys.Nodup := by
  rw [Draft.takeOver] at h
  split at h
  case h_1 =>
    cases h
    exact hes
  case h_2 =>
    cases h
    exact Entries.nodup_erase hes
  case h_3 => cases h

/-- **A change of a table inside a table gives the outer one no key twice.** -/
theorem nodup_descend {enter : Origin → Bool} {made : Origin}
    {f : Origin → Entries → Option (β × Entries)} (hf : KeepsKeysApart f) {path : List Text}
    {o : Origin} {r : β × Entries} (h : descend enter made f path o es = some r)
    (hes : es.keys.Nodup) : r.2.keys.Nodup := by
  cases path with
  | nil => exact hf o es r h hes
  | cons k ks =>
    rw [descend] at h
    split at h
    case h_1 hk =>
      obtain ⟨r', -, rfl⟩ := Option.map_eq_some_iff.1 h
      exact Entries.nodup_concat hes hk
    case h_2 hk =>
      split_ifs at h
      obtain ⟨r', -, rfl⟩ := Option.map_eq_some_iff.1 h
      exact Entries.nodup_put hes hk
    case h_3 hk =>
      split_ifs at h
      obtain ⟨r', -, rfl⟩ := Option.map_eq_some_iff.1 h
      exact Entries.nodup_put hes hk
    case h_4 => cases h

/-! ### Documents -/

/-- The tables of a document in the making have no key twice.  The table of a header counts when it
is put in its place. -/
structure Draft.KeysApart (d : Draft) : Prop where
  root : d.root.keys.Nodup
  current : d.path = [] → d.current.keys.Nodup

namespace Draft.KeysApart

variable {d d' : Draft}

theorem empty : Draft.empty.KeysApart := ⟨List.nodup_nil, fun _ => List.nodup_nil⟩

theorem add {path : List Text} {k : Text} {v : Value} (hd : d.KeysApart)
    (h : d.add path k v = some d') : d'.KeysApart := by
  obtain ⟨es, hes, rfl⟩ := Option.map_eq_some_iff.1 h
  refine ⟨hd.root, fun hpath => ?_⟩
  obtain ⟨r, hr, rfl⟩ := Option.map_eq_some_iff.1 hes
  refine nodup_descend (fun o es r h hes => ?_) hr (hd.current hpath)
  split_ifs at h
  exact nodup_addNew h hes

theorem close (hd : d.KeysApart) (h : d.close = some es) : es.keys.Nodup := by
  rw [Draft.close] at h
  split at h
  case h_1 hpath =>
    cases h
    exact hd.current (List.getLast?_eq_none_iff.1 hpath)
  case h_2 =>
    obtain ⟨r, hr, rfl⟩ := Option.map_eq_some_iff.1 h
    refine nodup_descend (fun o es r h hes => ?_) hr hd.root
    split_ifs at h
    · exact nodup_addToTables h hes
    · exact nodup_addNew h hes

theorem startTable {path : List Text} {many : Bool} (hd : d.KeysApart)
    (h : d.startTable path many = some d') : d'.KeysApart := by
  rw [Draft.startTable] at h
  split at h
  case h_1 root k hroot hlast =>
    have hpath : path ≠ [] := by
      rintro rfl
      cases hlast
    split_ifs at h
    · cases h
      exact ⟨hd.close hroot, fun h => absurd h hpath⟩
    · obtain ⟨r, hr, rfl⟩ := Option.map_eq_some_iff.1 h
      exact ⟨nodup_descend (fun _ _ _ h hes => nodup_takeOver h hes) hr (hd.close hroot),
        fun h => absurd h hpath⟩
  case h_2 => cases h

theorem line {t r : Text} (hd : d.KeysApart) (h : line? d t = some (d', r)) : d'.KeysApart := by
  unfold line? at h
  split at h
  case h_1 =>
    simp only [Option.bind_eq_bind, Option.bind_eq_some_iff] at h
    obtain ⟨_, -, _, -, d'', hstart, h⟩ := h
    cases h
    exact hd.startTable hstart
  case h_2 =>
    obtain ⟨_, -, h⟩ := Option.map_eq_some_iff.1 h
    cases h
    exact hd
  case h_3 =>
    cases h
    exact hd
  case h_4 =>
    cases h
    exact hd
  case h_5 =>
    simp only [Option.bind_eq_bind, Option.bind_eq_some_iff] at h
    obtain ⟨_, -, _, -, d'', hadd, h⟩ := h
    cases h
    exact hd.add hadd

theorem lines {t : Text} (hd : d.KeysApart) (h : lines? d t = some d') : d'.KeysApart := by
  fun_induction lines? d t with
  | case1 =>
    cases h
    exact hd
  | case2 => cases h
  | case3 d t c s _ d'' r hline _ ih => exact ih (hd.line hline) h
  | case4 => cases h

end Draft.KeysApart

/-- **No key of a document is given twice.** -/
theorem nodup_document? {t : Text} (h : document? t = some es) : es.keys.Nodup := by
  unfold document? at h
  dsimp only at h
  split at h
  case h_1 d hlines => exact (Draft.KeysApart.empty.lines hlines).close h
  case h_2 => cases h

end Toml

end FileRoutes
