import FileRoutes.Proofs.Disk.Create
import FileRoutes.Proofs.Generation.Outcome

/-!
# What is spared

`Disk.Spares` says what may have happened to a disk at most: some open files have got other
contents, new files have come up at some places, and there are new directories.  Everything else is
as it was, and a tree is still a tree.  Such changes add up (`Disk.Spares.trans`), and each way to
change a disk is one of them: making directories (`Disk.Makes.spares`), putting files
(`Disk.spares_putFiles`) and creating one (`Disk.spares_create`).

A run of a generator rewrites artifacts and nothing else (`Generator.run_spares`).
-/

namespace FileRoutes

/-- The names of the artifacts. -/
def Artifacts.names : List Text := [typesFile, routesFile, indexFile]

theorem Artifacts.map_files (a : Artifacts) : a.files.map Prod.fst = names := rfl

namespace Disk

/-- The place is that of a file with one of the names in the directory `out`. -/
def FileAt (d : Disk) (out : Path) (names : List Text) (p : Place) : Prop :=
  ∃ o, d.OutputAt out o ∧ ∃ name ∈ names, p = o ++ [Utf8.encode name]

/-- Between two disks, files have been rewritten at some places, files have been written or created
at some places where nothing stood, and directories have been made. -/
structure Spares (rewritten created : Place → Prop) (d d' : Disk) : Prop where
  home : d'.home = d.home
  /-- What stood there is still the same, except for the contents of files. -/
  kept : ∀ p n, d.node? p = some n → d'.node? p = some n ∨
    rewritten p ∧ (∃ c, n = newFile c) ∧ ∃ c, d'.node? p = some (newFile c)
  /-- What is new is an empty directory, or a file at one of the places. -/
  new : ∀ p m, d.node? p = none → d'.node? p = some m →
    m = newDirectory ∨ (rewritten p ∨ created p) ∧ ∃ c, m = newFile c
  tree : d.Linkless → d.Tree → d'.Tree

variable {d d' d'' : Disk} {R R' C C' : Place → Prop} {out : Path} {o p : Place}

namespace Spares

theorem refl (d : Disk) : d.Spares R C d :=
  ⟨rfl, fun _ _ h => .inl h, fun _ _ hn hm => (by cases hn.symm.trans hm),
    fun _ htree => htree⟩

theorem mono (h : d.Spares R C d') (hR : ∀ p, R p → R' p) (hC : ∀ p, C p → C' p) :
    d.Spares R' C' d' :=
  ⟨h.home, fun p n hn => (h.kept p n hn).imp_right fun h => ⟨hR p h.1, h.2⟩,
    fun p m hn hm => (h.new p m hn hm).imp_right fun h => ⟨h.1.imp (hR p) (hC p), h.2⟩, h.tree⟩

theorem grows (h : d.Spares R C d') : d.Grows d' := by
  refine ⟨h.home, fun p n hn => ?_⟩
  obtain hm | ⟨-, ⟨c, rfl⟩, c', hm⟩ := h.kept p n hn
  · exact ⟨n, hm, .refl n⟩
  · exact ⟨_, hm, .inr ⟨⟨c, rfl⟩, c', rfl⟩⟩

theorem linkless (h : d.Spares R C d') (hd : d.Linkless) : d'.Linkless := by
  intro p m hm
  cases hn : d.node? p with
  | some n =>
    obtain ⟨k, hk, halike⟩ := h.grows.kept p n hn
    obtain rfl := Option.some.inj (hm.symm.trans hk)
    exact halike.solid (hd p n hn)
  | none =>
    obtain rfl | ⟨-, c, rfl⟩ := h.new p m hn hm
    · exact .of_isDirectory rfl
    · simp [Node.Solid, newFile]

theorem trans (h : d.Spares R C d') (h' : d'.Spares R C d'') : d.Spares R C d'' := by
  refine ⟨h'.home.trans h.home, fun p n hn => ?_, fun p k hn hk => ?_,
    fun hd htree => h'.tree (h.linkless hd) (h.tree hd htree)⟩
  · obtain hm | ⟨hR, hfile, c, hm⟩ := h.kept p n hn
    · exact h'.kept p n hm
    · obtain hk | ⟨-, -, hk⟩ := h'.kept p _ hm
      · exact .inr ⟨hR, hfile, c, hk⟩
      · exact .inr ⟨hR, hfile, hk⟩
  · cases hm : d'.node? p with
    | none => exact h'.new p k hm hk
    | some m =>
      have hnew := h.new p m hn hm
      obtain hsame | ⟨hR, ⟨c, rfl⟩, c', hk'⟩ := h'.kept p m hm
      · obtain rfl := Option.some.inj (hk.symm.trans hsame)
        exact hnew
      · -- a file was rewritten that had come up in between
        obtain rfl := Option.some.inj (hk.symm.trans hk')
        exact .inr ⟨.inl hR, c', rfl⟩

end Spares

/-! ### Places of files -/

theorem FileAt.grows {names : List Text} (h : d.Grows d') (hp : d.FileAt out names p) :
    d'.FileAt out names p := by
  obtain ⟨o, ho, hname⟩ := hp
  exact ⟨o, h.outputAt ho, hname⟩

theorem FileAt.getLast? {names : List Text} (h : d.FileAt out names p) :
    ∃ name ∈ names, p.getLast? = some (Utf8.encode name) := by
  obtain ⟨o, -, name, hname, rfl⟩ := h
  exact ⟨name, hname, by simp⟩

/-! ### Single changes -/

theorem Makes.spares {paths : List Path} (h : Makes paths d d') : d.Spares R C d' := by
  have hgrows := h.grows
  refine ⟨hgrows.home, fun p n hn => .inl ?_, fun p m hn hm => .inl ?_, h.tree⟩
  · obtain hsame | hnew := h.changes p
    · rw [hsame, hn]
    · cases hnew.1.symm.trans hn
  · obtain hsame | hnew := h.changes p
    · cases (hsame.trans hn).symm.trans hm
    · exact Option.some.inj (hm.symm.trans hnew.node?)

/-- **Putting files changes files at their places only.** -/
theorem spares_putFiles {files : List (Text × Text)} (hnames : FileNames files)
    (hwritable : ∀ f ∈ files, d.Writable (filePlace o f)) :
    d.Spares (fun p => ∃ f ∈ files, p = filePlace o f) (fun _ => False) (d.putFiles o files) := by
  refine ⟨(grows_putFiles hnames hwritable).home, fun p n hn => ?_, fun p m hn hm => ?_,
    fun _ htree => tree_putFiles htree hnames hwritable⟩
  all_goals by_cases hp : ∃ f ∈ files, p = filePlace o f
  · obtain ⟨f, hf, rfl⟩ := hp
    exact .inr ⟨⟨f, hf, rfl⟩, (hwritable f hf).replaced n hn, _, node?_putFiles_of_mem hnames hf⟩
  · push Not at hp
    exact .inl ((node?_putFiles_of_ne hp).trans hn)
  · obtain ⟨f, hf, rfl⟩ := hp
    rw [node?_putFiles_of_mem hnames hf] at hm
    exact .inr ⟨.inl ⟨f, hf, rfl⟩, _, (Option.some.inj hm).symm⟩
  · push Not at hp
    cases hm.symm.trans ((node?_putFiles_of_ne hp).trans hn)

/-- **A file is created only where nothing stands, and nothing else changes.** -/
theorem spares_create {path : Path} {content : Bytes} (h : d.create path content = .ok d') :
    d.Spares (fun _ => False) (d'.LeadsTo path) d' := by
  have htree (hd : d.Linkless) (htree : d.Tree) := htree.create hd h
  obtain ⟨q, hnone, hq, rfl, hleads⟩ := leadsTo_create h
  refine ⟨rfl, fun p n hn => .inl ?_, fun p m hn hm => .inr ?_, htree⟩
  · have hp : p ≠ q := fun heq => by cases (heq ▸ hn).symm.trans hnone
    rw [node?_put d hq, if_neg hp, hn]
  · rw [node?_put d hq] at hm
    split_ifs at hm with hp
    · exact ⟨.inr (hp ▸ hleads), content, (Option.some.inj hm).symm⟩
    · cases hn.symm.trans hm

end Disk

/-! ### Generations -/

namespace Generator

variable {M : Type} {g : Generator M} {d d' : Disk}

open Disk

theorem fileAt_of_filePlace {a : Artifacts} {f : Text × Text} {out : Path} {o : Place}
    (hf : f ∈ a.files) (ho : d.OutputAt out o) : d.FileAt out Artifacts.names (filePlace o f) :=
  ⟨o, ho, f.1, a.map_files ▸ List.mem_map_of_mem hf, rfl⟩

/-- **A run rewrites artifacts and nothing else.** -/
theorem run_spares (hd : d.Linkless) :
    d.Spares ((g.run d).2.FileAt g.out Artifacts.names) (fun _ => False) (g.run d).2 := by
  have hmakes := makeAll_makes d g.out
  have hput {d₁ : Disk} {a : Artifacts} {o : Place} {files : List (Text × Text)}
      (hmake : d.makeAll g.out = (.ok (), d₁)) (ho : d₁.OutputAt g.out o)
      (hsub : files.Sublist a.files) (hputs : d₁.Puts g.out o files) :
      d.Spares ((d₁.putFiles o files).FileAt g.out Artifacts.names) (fun _ => False)
        (d₁.putFiles o files) := by
    have hnames := a.fileNames.sublist hsub
    have ho' := (grows_putFiles hnames hputs.writable).outputAt ho
    rw [hmake] at hmakes
    refine hmakes.spares.trans ((spares_putFiles hnames hputs.writable).mono ?_ fun p h => h)
    rintro p ⟨f, hf, rfl⟩
    exact fileAt_of_filePlace (hsub.subset hf) ho'
  have houtcome := g.run_outcome (hd.artifactsSolid g.out)
  generalize g.run d = r at houtcome ⊢
  obtain ⟨answer, d'⟩ := r
  cases houtcome with
  | unread hrender => exact .refl _
  | unmade hrender hmake =>
    rw [hmake] at hmakes
    exact hmakes.spares
  | @unwritten m a d₁ _ o before after f fault hrender hmake ho hfiles hputs hdisk hwrite =>
    subst hdisk
    exact hput hmake ho (hfiles ▸ List.sublist_append_left before (f :: after)) hputs
  | complete hrender hmake ho hputs hreported hdisk =>
    subst hdisk
    exact hput hmake ho (.refl _) hputs

end Generator

end FileRoutes
