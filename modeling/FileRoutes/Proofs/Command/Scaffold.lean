import FileRoutes.Proofs.Generation.Spared
import FileRoutes.Scaffold

/-!
# Creating scaffolds

The files of a scaffold are created where nothing stands, and nothing else happens but that
directories are made for them: `Scaffold.seed_spares`, `Scaffold.seedHelpers_spares`.

A path at which a file was created or kept is planted (`Scaffold.planted_of_seed`): something
stands there, and its directory is in place.  It stays planted as the disk grows, and creating it
again changes nothing (`Scaffold.Planted.seed`, `Scaffold.seedHelpers_of_planted`).
-/

namespace FileRoutes

namespace Scaffold

open Disk

variable {d d₁ d' : Disk} {path out : Path} {o p : Place} {content : Text} {s : Seeded}
  {ss : List Seeded} {f : Text × Text} {files : List (Text × Text)}

/-- The names of the helpers. -/
def helperNames : List Text := helpers.map Prod.fst

/-! ### One file -/

theorem makeParent_makes (d : Disk) (path : Path) :
    ∃ paths, Makes paths d (makeParent d path).2 := by
  rw [makeParent]
  cases path.parent? with
  | none => exact ⟨[], .refl⟩
  | some dir =>
    have hmakes := makeAll_makes d dir
    refine ⟨dir.ancestors, ?_⟩
    simp only
    split_ifs
    · exact .refl
    · generalize d.makeAll dir = r at hmakes ⊢
      obtain ⟨answer, d₁⟩ := r
      cases answer <;> exact hmakes

/-- The directory that was made for a file is there, and need not be made again. -/
theorem makeParent_of_grows (h : makeParent d path = (.ok (), d₁)) (hgrows : d₁.Grows d') :
    makeParent d' path = (.ok (), d') := by
  rw [makeParent] at h ⊢
  cases hparent : path.parent? with
  | none => rfl
  | some dir =>
    simp only [hparent] at h ⊢
    split_ifs at h ⊢ with hraw
    · rfl
    · cases hmake : d.makeAll dir with
      | mk answer d₂ =>
        rw [hmake] at h
        cases answer with
        | error f => cases h
        | ok u =>
          obtain ⟨-, rfl⟩ := Prod.mk.inj h
          obtain ⟨o, ho⟩ := outputAt_makeAll hmake
          simp only [makeAll_of_outputAt (hgrows.outputAt ho)]

/-- How a file is created, kept or refused, in the directory that is made for it. -/
theorem seed_cases (d : Disk) (path : Path) (content : Text) :
    ∃ d₁, (∃ paths, Makes paths d d₁) ∧
      ((∃ e, seed d path content = (.error e, d₁)) ∨
        makeParent d path = (.ok (), d₁) ∧
          d₁.create path (Utf8.encode content) = .error .alreadyExists ∧
            seed d path content = (.ok (.kept path), d₁) ∨
        makeParent d path = (.ok (), d₁) ∧
          ∃ d₂, d₁.create path (Utf8.encode content) = .ok d₂ ∧
            seed d path content = (.ok (.created path), d₂)) := by
  have hmakes := makeParent_makes d path
  rw [seed]
  generalize hparent : makeParent d path = r at hmakes
  obtain ⟨answer, d₁⟩ := r
  refine ⟨d₁, hmakes, ?_⟩
  cases answer with
  | error e => exact .inl ⟨e, rfl⟩
  | ok u =>
    cases hcreate : d₁.create path (Utf8.encode content) with
    | ok d₂ => exact .inr (.inr ⟨rfl, d₂, rfl, by simp only [hcreate]⟩)
    | error f =>
      cases f with
      | alreadyExists => exact .inr (.inl ⟨rfl, rfl, by simp only [hcreate]⟩)
      | _ =>
        simp only [hcreate]
        exact .inl ⟨_, rfl⟩

/-- **A file is created only where nothing stands.** -/
theorem seed_spares (d : Disk) (path : Path) (content : Text) :
    d.Spares (fun _ => False) ((seed d path content).2.LeadsTo path) (seed d path content).2 := by
  obtain ⟨d₁, ⟨paths, hmakes⟩, ⟨e, h⟩ | ⟨-, -, h⟩ | ⟨-, d₂, hcreate, h⟩⟩ :=
    seed_cases d path content
  · rw [h]
    exact hmakes.spares
  · rw [h]
    exact hmakes.spares
  · rw [h]
    exact hmakes.spares.trans (spares_create hcreate)

/-- **The configuration file is created only where nothing stands.** -/
theorem seedConfig_spares (d : Disk) (path : Path) :
    d.Spares (fun _ => False) ((seedConfig d path).2.LeadsTo path) (seedConfig d path).2 :=
  seed_spares d path configTemplate

/-- Something stands where the path leads, and its directory is in place. -/
structure Planted (d : Disk) (path : Path) : Prop where
  parent : makeParent d path = (.ok (), d)
  taken : ∃ p, d.LeadsTo path p
  spelled : (path.endsInSlash && path.endsInName) = false

theorem Planted.grows (hd : d.Linkless) (h : d.Grows d') (hplanted : Planted d path) :
    Planted d' path := by
  obtain ⟨p, hp⟩ := hplanted.taken
  exact ⟨makeParent_of_grows hplanted.parent h, ⟨p, hp.grows hd h⟩, hplanted.spelled⟩

/-- **Creating a file that is planted changes nothing.** -/
theorem Planted.seed (hd : d.Linkless) (h : Planted d path) (content : Text) :
    seed d path content = (.ok (.kept path), d) := by
  obtain ⟨p, hp⟩ := h.taken
  have hcreate : d.create path (Utf8.encode content) = .error .alreadyExists :=
    create_eq_alreadyExists.2 ⟨⟨p, find_of_linkless hd hp⟩, h.spelled⟩
  simp only [Scaffold.seed, h.parent, hcreate]

/-! ### Several files in a directory -/

/-- **Files are created at their places in the directory only.** -/
theorem seedFiles_spares (hd : d.Linkless) (ho : d.OutputAt out o)
    (hnames : ∀ f ∈ files, Name.Proper (Utf8.encode f.1)) :
    d.Spares (fun _ => False) ((seedFiles out files d).2.FileAt out (files.map Prod.fst))
      (seedFiles out files d).2 := by
  induction files generalizing d with
  | nil => exact .refl d
  | cons f files ih =>
    obtain ⟨name, content⟩ := f
    have hone := seed_spares d (out.join (.ofText name)) content
    rw [seedFiles]
    generalize seed d (out.join (.ofText name)) content = r at hone ⊢
    obtain ⟨answer, d₁⟩ := r
    have hd₁ := hone.linkless hd
    have ho₁ := hone.grows.outputAt ho
    have hfile : d.Spares (fun _ => False)
        (d₁.FileAt out ((name, content) :: files |>.map Prod.fst)) d₁ := by
      refine hone.mono (fun p h => h) fun p hp => ⟨o, ho₁, name, List.mem_cons_self, ?_⟩
      exact hp.eq_filePlace hd₁ ho₁ (hnames _ List.mem_cons_self)
    cases answer with
    | error e => exact hfile
    | ok s =>
      have hrest := ih hd₁ ho₁ fun f hf => hnames f (List.mem_cons_of_mem _ hf)
      simp only
      generalize seedFiles out files d₁ = r at hrest ⊢
      obtain ⟨answer, d₂⟩ := r
      have hfiles : d.Spares (fun _ => False)
          (d₂.FileAt out ((name, content) :: files |>.map Prod.fst)) d₂ := by
        refine (hfile.mono (fun p h => h) fun p hp => hp.grows hrest.grows).trans
          (hrest.mono (fun p h => h) ?_)
        rintro p ⟨o, ho, name, hname, hp⟩
        exact ⟨o, ho, name, List.mem_cons_of_mem _ hname, hp⟩
      cases answer <;> exact hfiles

theorem seedFiles_of_planted (hd : d.Linkless)
    (h : ∀ f ∈ files, Planted d (out.join (.ofText f.1))) :
    seedFiles out files d = (.ok (files.map fun f => .kept (out.join (.ofText f.1))), d) := by
  induction files with
  | nil => rfl
  | cons f files ih =>
    obtain ⟨name, content⟩ := f
    obtain ⟨hone, hrest⟩ := List.forall_mem_cons.1 h
    rw [seedFiles, hone.seed hd]
    simp only [ih hrest, List.map_cons]

/-! ### The helpers -/

theorem proper_helpers : ∀ f ∈ helpers, Name.Proper (Utf8.encode f.1) := by decide

/-- **Helpers are created at their places in the output directory only.** -/
theorem seedHelpers_spares (hd : d.Linkless) (out : Path) :
    d.Spares (fun _ => False) ((seedHelpers d out).2.FileAt out helperNames)
      (seedHelpers d out).2 := by
  have hmakes := makeAll_makes d out
  rw [seedHelpers]
  cases hmake : d.makeAll out with
  | mk answer d₁ =>
    rw [hmake] at hmakes
    cases answer with
    | error f => exact hmakes.spares
    | ok u =>
      obtain ⟨o, ho⟩ := outputAt_makeAll hmake
      exact hmakes.spares.trans (seedFiles_spares (hmakes.linkless hd) ho proper_helpers)

/-- The output directory is in place with its helpers. -/
structure Furnished (d : Disk) (out : Path) : Prop where
  output : ∃ o, d.OutputAt out o
  helpers : ∀ f ∈ Scaffold.helpers, Planted d (out.join (.ofText f.1))

theorem Furnished.grows (hd : d.Linkless) (h : d.Grows d') (hout : Furnished d out) :
    Furnished d' out := by
  obtain ⟨o, ho⟩ := hout.output
  exact ⟨⟨o, h.outputAt ho⟩, fun f hf => (hout.helpers f hf).grows hd h⟩

/-- **Creating the helpers again changes nothing.** -/
theorem Furnished.seedHelpers (hd : d.Linkless) (h : Furnished d out) :
    seedHelpers d out =
      (.ok (Scaffold.helpers.map fun f => .kept (out.join (.ofText f.1))), d) := by
  obtain ⟨o, ho⟩ := h.output
  simp only [Scaffold.seedHelpers, makeAll_of_outputAt ho]
  exact seedFiles_of_planted hd h.helpers

end Scaffold

end FileRoutes
