import FileRoutes.Disk.Change
import FileRoutes.Proofs.Disk.Put
import Mathlib.Logic.Relation

/-!
# Making directories

A directory is made together with the directories that it lies in.  Whether this succeeds or not,
it makes directories where paths that contain the given one lead to free places, and nothing else
(`Disk.makeAll_makes`).  So the disk grows by new directories along the path (`Disk.NewDirectory`,
`Disk.Makes.changes`) and stays a tree (`Disk.Makes.tree`).
-/

namespace FileRoutes

/-! ### Names in paths -/

theorem mem_joinWith {α : Type} {sep x : α} {p : List α} {ps : List (List α)} (hp : p ∈ ps)
    (hx : x ∈ p) : x ∈ joinWith sep ps := by
  induction ps with
  | nil => cases hp
  | cons q qs ih =>
    cases qs with
    | nil =>
      obtain rfl := List.mem_singleton.1 hp
      exact hx
    | cons r rs =>
      rw [joinWith, List.mem_append, List.mem_cons]
      obtain rfl | hp := List.mem_cons.1 hp
      · exact .inl hx
      · exact .inr (.inr (ih hp))

namespace Path

theorem proper_of_mem_steps {p : Path} {x : Bytes} (hnul : 0 ∉ p.raw) (hx : x ∈ p.steps)
    (hname : NamePiece x) : Name.Proper x := by
  obtain ⟨hpiece, hne⟩ := List.mem_filter.1 hx
  refine ⟨by simpa using hne, hname.ne_dot, hname.ne_dotDot, notMem_of_mem_splitOn hpiece,
    fun h => hnul ?_, hname.short⟩
  -- a byte of a piece is a byte of the path
  rw [← joinWith_splitOn slash p.raw]
  exact mem_joinWith hpiece h

end Path

namespace Disk

variable {d d' : Disk} {paths : List Path} {path : Path} {q : Place}

/-! ### One directory -/

/-- An open directory without anything in it, as it is when it is made. -/
def newDirectory : Node := ⟨.directory, false⟩

theorem make_eq_ok :
    d.make path = .ok d' ↔
      ∃ dir name, d.find false path = .ok (.free dir name) ∧
        d' = d.put (dir ++ [name]) newDirectory := by
  rw [make]
  cases d.find false path with
  | error f => simp
  | ok spot =>
    cases spot with
    | taken p => simp
    | free dir name =>
      simp only [Except.ok.injEq, Spot.free.injEq]
      constructor
      · rintro rfl
        exact ⟨dir, name, ⟨rfl, rfl⟩, rfl⟩
      · rintro ⟨_, _, ⟨rfl, rfl⟩, rfl⟩
        rfl

/-- One of the paths becomes a directory. -/
def MakesOne (paths : List Path) (d d' : Disk) : Prop := ∃ path ∈ paths, d.make path = .ok d'

/-- Some of the paths become directories, one after another. -/
abbrev Makes (paths : List Path) : Disk → Disk → Prop := Relation.ReflTransGen (MakesOne paths)

/-- A directory came up where one of the paths leads. -/
def NewDirectory (paths : List Path) (d d' : Disk) (q : Place) : Prop :=
  d.node? q = none ∧ ∃ path ∈ paths, d'.look path = .ok (q, newDirectory)

theorem NewDirectory.node? (h : NewDirectory paths d d' q) : d'.node? q = some newDirectory := by
  obtain ⟨-, path, -, hlook⟩ := h
  exact (look_eq_ok.1 hlook).2.1

/-- **What making one directory does.** -/
theorem MakesOne.put (h : MakesOne paths d d') :
    ∃ dir name, d.enter dir = .ok () ∧ NewDirectory paths d d' (dir ++ [name]) ∧
      d' = d.put (dir ++ [name]) newDirectory ∧ (d.Linkless → name.Proper) := by
  obtain ⟨path, hpath, hmake⟩ := h
  obtain ⟨dir, name, hfind, rfl⟩ := make_eq_ok.1 hmake
  obtain ⟨-, hnul, -, hway⟩ := find_eq_ok.1 hfind
  obtain ⟨hopen, hname, hnone⟩ := hway.of_free
  have hput := node?_put d (show dir ++ [name] ≠ [] by simp) newDirectory (dir ++ [name])
  rw [if_pos rfl] at hput
  have hgrows : d.Grows (d.put (dir ++ [name]) newDirectory) :=
    grows_put (by simp) fun n hn => by cases hnone.symm.trans hn
  refine ⟨dir, name, hopen, ⟨hnone, path, hpath, ?_⟩, rfl, fun hlinkless => ?_⟩
  · exact hgrows.look_of_find hfind hput (.of_isDirectory rfl) fun _ => rfl
  · exact Path.proper_of_mem_steps hnul (hway.mem_of_free hlinkless) hname

theorem MakesOne.grows (h : MakesOne paths d d') : d.Grows d' := by
  obtain ⟨dir, name, -, ⟨hnone, -⟩, rfl, -⟩ := h.put
  exact grows_put (by simp) fun n hn => by cases hnone.symm.trans hn

theorem MakesOne.linkless (h : MakesOne paths d d') (hd : d.Linkless) : d'.Linkless := by
  obtain ⟨dir, name, -, -, rfl, -⟩ := h.put
  intro p n hn
  rw [node?_put d (by simp)] at hn
  split_ifs at hn
  · exact Option.some.inj hn ▸ .of_isDirectory rfl
  · exact hd p n hn

theorem MakesOne.tree (h : MakesOne paths d d') (hlinkless : d.Linkless) (hd : d.Tree) :
    d'.Tree := by
  obtain ⟨dir, name, hopen, ⟨hnone, -⟩, rfl, hproper⟩ := h.put
  obtain ⟨n, hn, hdir, -⟩ := enter_eq_ok.1 hopen
  exact hd.put (hproper hlinkless) (directoryAt_iff.2 ⟨n, hn, hdir⟩) fun _ _ _ => rfl

/-! ### Several directories -/

theorem Makes.grows (h : Makes paths d d') : d.Grows d' := by
  induction h with
  | refl => exact .refl d
  | tail _ hone ih => exact ih.trans hone.grows

theorem Makes.linkless (h : Makes paths d d') (hd : d.Linkless) : d'.Linkless := by
  induction h with
  | refl => exact hd
  | tail _ hone ih => exact hone.linkless ih

theorem Makes.tree (h : Makes paths d d') (hlinkless : d.Linkless) (hd : d.Tree) : d'.Tree := by
  induction h with
  | refl => exact hd
  | tail hmany hone ih => exact hone.tree (Makes.linkless hmany hlinkless) ih

theorem Makes.places_sublist (h : Makes paths d d') :
    (d.nodes.map Prod.fst).Sublist (d'.nodes.map Prod.fst) := by
  induction h with
  | refl => exact .refl _
  | tail _ hone ih =>
    obtain ⟨dir, name, -, -, rfl, -⟩ := hone.put
    exact ih.trans (places_sublist_put _ _ _)

/-- **Nothing changes except that directories come up along the paths.** -/
theorem Makes.changes (h : Makes paths d d') (q : Place) :
    d'.node? q = d.node? q ∨ NewDirectory paths d d' q := by
  induction h with
  | refl => exact .inl rfl
  | @tail d₁ d₂ _ hone ih =>
    have hgrows := hone.grows
    obtain ⟨dir, name, -, hnew, rfl, -⟩ := hone.put
    by_cases hq : q = dir ++ [name]
    · -- nothing stood at this place so far, so nothing stood there at the start
      subst hq
      obtain h | h := ih
      · exact .inr ⟨h ▸ hnew.1, hnew.2⟩
      · cases hnew.1.symm.trans h.node?
    · rw [node?_put d₁ (by simp), if_neg hq]
      refine ih.imp_right fun h => ⟨h.1, ?_⟩
      obtain ⟨path, hpath, hlook⟩ := h.2
      exact ⟨path, hpath, hgrows.look_directory hlook rfl⟩

theorem makeChain_makes (d : Disk) (paths : List Path) : Makes paths d (d.makeChain paths).2 := by
  induction paths with
  | nil => exact .refl
  | cons path outer ih =>
    have hone {d₁ d₂ : Disk} (h : d₁.make path = .ok d₂) : MakesOne (path :: outer) d₁ d₂ :=
      ⟨path, List.mem_cons_self, h⟩
    have houter : Makes (path :: outer) d (d.makeChain outer).2 :=
      Relation.ReflTransGen.mono
        (fun _ _ ⟨path', h, hmake⟩ => ⟨path', List.mem_cons_of_mem path h, hmake⟩) _ _ ih
    rw [makeChain]
    split
    · exact .refl
    · split
      · rename_i hmake
        exact .single (hone hmake)
      · split
        · rename_i h
          rwa [h] at houter
        · rename_i h
          rw [h] at houter
          split
          · rename_i hmake
            exact .tail houter (hone hmake)
          · exact houter
      · exact .refl

theorem makeAll_makes (d : Disk) (path : Path) : Makes path.ancestors d (d.makeAll path).2 :=
  makeChain_makes d path.ancestors

end Disk

end FileRoutes
