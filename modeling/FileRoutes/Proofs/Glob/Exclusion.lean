import FileRoutes.Config.Basic
import FileRoutes.Proofs.Glob.Reading
import FileRoutes.Proofs.Path.Components
import FileRoutes.Proofs.Text.Utf8

/-!
# Directories that globs leave out

A list of globs excludes a directory by its path below the root and by its own name.  For globs
without `**` and without a slash in a set, each of them counts in one of the two ways: one without a
slash is about the name alone, and one with slashes is about paths with as many names as it has
pieces (`Glob.fits_path_iff`).  So the wildcards of a glob never reach over a directory
(`Config.exclusion_by_names`).
-/

namespace FileRoutes

variable {t : Text} {ts : List Text} {p : Path} {ns : List Name} {n : Name}

/-! ### Names as texts -/

theorem Utf8.slash_notMem_decodeLossy (hn : Path.slash ∉ n) : '/' ∉ Utf8.decodeLossy n := by
  intro hmem
  have hslash : String.utf8EncodeChar '/' = [Path.slash] := by decide
  have hbytes := Utf8.encodeChar_infix_of_mem_decodeLossy (by decide) hmem
  rw [hslash] at hbytes
  exact hn (hbytes.mem List.mem_cons_self)

theorem Path.splitOn_slashed (hp : p.components = ns.map .name) (hne : ns ≠ []) :
    splitOn '/' p.slashed = ns.map Utf8.decodeLossy := by
  have hnames : p.components.map (fun c => Utf8.decodeLossy c.raw) = ns.map Utf8.decodeLossy := by
    rw [hp, List.map_map]
    rfl
  rw [Path.slashed, hnames]
  refine splitOn_joinWith (by simpa using hne) fun name hname => ?_
  obtain ⟨n, hn, rfl⟩ := List.mem_map.1 hname
  exact Utf8.slash_notMem_decodeLossy (Path.slash_notMem_of_names hp n hn)

theorem Path.lastName_eq (hp : p.components = (ns ++ [n]).map .name) :
    p.lastName = Utf8.decodeLossy n := by
  rw [Path.lastName, Path.fileName?, hp, List.map_append, List.map_singleton,
    List.getLast?_concat]
  rfl

/-! ### Lists of globs -/

theorem compileGlobs_eq_ok {gs : List (List Glob.Token)} :
    compileGlobs ts = .ok gs ↔ List.Forall₂ (fun t g => Glob.ofText t = .ok g) ts gs := by
  induction ts generalizing gs with
  | nil => simp [compileGlobs, eq_comm]
  | cons t ts ih =>
    rw [compileGlobs, List.forall₂_cons_left_iff]
    simp only [← ih]
    cases Glob.ofText t with
    | error reason => simp
    | ok g => cases compileGlobs ts <;> simp [eq_comm]

/-- An element with a property of all before it is the first one, or the first one has the property
and the element stands among the others. -/
theorem exists_split_cons {α : Type} {P : α → Prop} {x y : α} {l : List α} :
    (∃ before after, y :: l = before ++ x :: after ∧ ∀ z ∈ before, P z) ↔
      y = x ∨ P y ∧ ∃ before after, l = before ++ x :: after ∧ ∀ z ∈ before, P z := by
  constructor
  · rintro ⟨_ | ⟨z, before⟩, after, hl, hbefore⟩
    · cases hl
      exact .inl rfl
    · cases hl
      obtain ⟨hz, hbefore⟩ := List.forall_mem_cons.1 hbefore
      exact .inr ⟨hz, before, after, rfl, hbefore⟩
  · rintro (rfl | ⟨hy, before, after, rfl, hbefore⟩)
    · exact ⟨[], l, rfl, nofun⟩
    · exact ⟨y :: before, after, rfl, List.forall_mem_cons.2 ⟨hy, hbefore⟩⟩

theorem exists_compileGlobs :
    (∃ gs, compileGlobs ts = .ok gs) ↔ ∀ t ∈ ts, ∃ g, Glob.ofText t = .ok g := by
  induction ts with
  | nil => simp [compileGlobs]
  | cons t ts ih =>
    rw [List.forall_mem_cons, ← ih, compileGlobs]
    cases Glob.ofText t with
    | error reason => simp
    | ok g => cases compileGlobs ts <;> simp

/-- The glob that is complained about is the first one of the list that is none. -/
theorem compileGlobs_eq_error {reason : Text} : compileGlobs ts = .error ⟨t, reason⟩ ↔
    Glob.ofText t = .error reason ∧
      ∃ before after, ts = before ++ t :: after ∧ ∀ t ∈ before, ∃ g, Glob.ofText t = .ok g := by
  induction ts with
  | nil => simp [compileGlobs]
  | cons t' ts ih =>
    rw [exists_split_cons]
    cases hg : Glob.ofText t' with
    | error reason' =>
      rw [compileGlobs, hg]
      simp only [Except.error.injEq, BadGlob.mk.injEq]
      constructor
      · rintro ⟨rfl, rfl⟩
        exact ⟨hg, .inl rfl⟩
      · rintro ⟨ht, rfl | ⟨⟨g, hg'⟩, -⟩⟩
        · exact ⟨rfl, Except.error.inj (hg.symm.trans ht)⟩
        · cases hg'
    | ok g =>
      have hrest : compileGlobs (t' :: ts) = .error ⟨t, reason⟩ ↔
          compileGlobs ts = .error ⟨t, reason⟩ := by
        rw [compileGlobs, hg]
        cases compileGlobs ts <;> simp
      have hne (ht : Glob.ofText t = .error reason) : t' ≠ t := by
        rintro rfl
        cases hg.symm.trans ht
      rw [hrest, ih]
      refine and_congr_right fun ht => ?_
      simp [hne ht]

/-! ### Single globs -/

/-- **A glob without a slash is about the name of a directory, any other one about the names that
lead to it.** -/
theorem Glob.fits_path_iff {g : List Glob.Token} (ht : Glob.Plain t) (hg : Glob.ofText t = .ok g)
    (hp : p.components = (ns ++ [n]).map .name) :
    (Glob.fits g p.slashed || Glob.fits g p.lastName) = true ↔
      '/' ∉ t ∧ Glob.Matches t (Utf8.decodeLossy n) ∨
      '/' ∈ t ∧ List.Forall₂ Glob.Matches (splitOn '/' t) ((ns ++ [n]).map Utf8.decodeLossy) := by
  have hslash : Path.slash ∉ n := Path.slash_notMem_of_names hp n (by simp)
  rw [Bool.or_eq_true, Glob.fits_eq_covers, Glob.fits_eq_covers, ht.covers_iff hg, ht.covers_iff hg,
    Path.splitOn_slashed hp (by simp), Path.lastName_eq hp,
    splitOn_of_notMem (Utf8.slash_notMem_decodeLossy hslash)]
  obtain ⟨hmem, hsplit⟩ | ⟨piece, r, -, rfl, hsplit⟩ := splitOn_cases '/' t
  · have hpath : List.Forall₂ Glob.Matches [t] ((ns ++ [n]).map Utf8.decodeLossy) →
        Glob.Matches t (Utf8.decodeLossy n) := by
      intro h
      cases ns with
      | nil => simpa using h
      | cons m ns => simp at h
    rw [hsplit]
    constructor
    · rintro (h | h)
      · exact .inl ⟨hmem, hpath h⟩
      · exact .inl ⟨hmem, by simpa using h⟩
    · rintro (⟨-, h⟩ | ⟨h, -⟩)
      · exact .inr (.cons h .nil)
      · exact absurd h hmem
  · have hmem : '/' ∈ piece ++ '/' :: r := List.mem_append_right _ List.mem_cons_self
    constructor
    · rintro (h | h)
      · exact .inr ⟨hmem, h⟩
      · rw [hsplit, List.forall₂_cons, List.forall₂_nil_right_iff] at h
        exact absurd h.2 (splitOn_ne_nil '/' r)
    · rintro (⟨h, -⟩ | ⟨-, h⟩)
      · exact absurd hmem h
      · exact .inl h

theorem excludes_iff {gs : List (List Glob.Token)} (hts : ∀ t ∈ ts, Glob.Plain t)
    (hgs : compileGlobs ts = .ok gs) (hp : p.components = (ns ++ [n]).map .name) :
    excludes gs p = true ↔ ∃ t ∈ ts,
      '/' ∉ t ∧ Glob.Matches t (Utf8.decodeLossy n) ∨
      '/' ∈ t ∧ List.Forall₂ Glob.Matches (splitOn '/' t) ((ns ++ [n]).map Utf8.decodeLossy) := by
  rw [compileGlobs_eq_ok] at hgs
  rw [excludes]
  induction hgs with
  | nil => simp
  | cons hg _ ih =>
    obtain ⟨ht, hts⟩ := List.forall_mem_cons.1 hts
    rw [List.any_cons, Bool.or_eq_true, Glob.fits_path_iff ht hg hp, ih hts,
      List.exists_mem_cons_iff]

/-- **Wildcards never reach over a directory.**  Globs without `**` and without a slash in a set
exclude a directory exactly if one without a slash matches its name, or one with slashes matches the
names that lead to it piece by piece.  So globs without slashes decide by the name alone. -/
theorem Config.exclusion_by_names (c : Config) (h : ∀ t ∈ c.exclude, Glob.Plain t) :
    ∃ exclude, c.exclusion = .ok exclude ∧
      (∀ (p : Path) (ns : List Name) (n : Name), p.components = (ns ++ [n]).map .name →
        (exclude p = true ↔ ∃ t ∈ c.exclude,
          '/' ∉ t ∧ Glob.Matches t (Utf8.decodeLossy n) ∨
          '/' ∈ t ∧
            List.Forall₂ Glob.Matches (splitOn '/' t) ((ns ++ [n]).map Utf8.decodeLossy))) ∧
      ((∀ t ∈ c.exclude, '/' ∉ t) → ∀ (p q : Path) (ns ms : List Name) (n : Name),
        p.components = (ns ++ [n]).map .name → q.components = (ms ++ [n]).map .name →
          exclude p = exclude q) := by
  obtain ⟨gs, hgs⟩ := exists_compileGlobs.2 fun t ht => (h t ht).reads.imp fun _ => And.left
  refine ⟨excludes gs, by rw [Config.exclusion, hgs], fun p ns n hp => excludes_iff h hgs hp, ?_⟩
  intro hslash p q ns ms n hp hq
  rw [Bool.eq_iff_iff, excludes_iff h hgs hp, excludes_iff h hgs hq]
  -- no glob is about the names above the last one
  refine exists_congr fun t => and_congr_right fun ht => ?_
  simp only [hslash t ht, false_and]

/-- A glob for the directories right below `user`, between two that are about a name. -/
theorem Config.exclusion_by_names_belowUser :
    let c : Config := { Config.standard with
      exclude := ["admin".toList, "user/*".toList, "[[]*]".toList] }
    (∀ t ∈ c.exclude, Glob.Plain t) ∧
      ∃ exclude, c.exclusion = .ok exclude ∧ exclude (.ofText "user/new".toList) = true := by
  intro c
  have hplain : ∀ t ∈ c.exclude, Glob.Plain t := by
    intro t ht
    simp only [c, List.mem_cons, List.not_mem_nil, or_false] at ht
    obtain rfl | rfl | rfl := ht
    · exact ⟨by decide, _, rfl, by decide⟩
    · exact ⟨by decide, _, rfl, by decide⟩
    · exact ⟨by decide, _, rfl, by decide⟩
  obtain ⟨exclude, hexclude, hiff, -⟩ := Config.exclusion_by_names c hplain
  have huser : Glob.Matches "user".toList (Utf8.decodeLossy (Utf8.encode "user".toList)) :=
    .of_covers rfl ⟨by decide, by decide⟩ (by decide)
  have hany : Glob.Matches "*".toList (Utf8.decodeLossy (Utf8.encode "new".toList)) :=
    .of_covers rfl ⟨by decide, by decide⟩ (by decide)
  have hp : (Path.ofText "user/new".toList).components =
      ([Utf8.encode "user".toList] ++ [Utf8.encode "new".toList]).map .name := by decide
  exact ⟨hplain, exclude, hexclude, (hiff _ _ _ hp).2
    ⟨"user/*".toList, by decide, .inr ⟨by decide, .cons huser (.cons hany .nil)⟩⟩⟩

end FileRoutes
