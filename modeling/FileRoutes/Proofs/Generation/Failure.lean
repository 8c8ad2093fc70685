import FileRoutes.Command.Generate
import FileRoutes.Proofs.Generation.Outcome
import Mathlib.Data.Prod.Basic

/-!
# What a failed generation leaves behind

A generation that fails before it writes anything leaves the disk as it is.  One that fails while it
writes has made directories along the output path, and has written the artifacts before the one
that it complains about.  That one and the later ones are what they were, or one of the new
directories has come up in their place: `Command.generate_failed`.

The last case is not an accident.  The output path may go through the place of an artifact and back
out of it, and then making the output directory makes a directory there
(`Command.generate_thereAndBack`).
-/

namespace FileRoutes

namespace Command

open Disk

/-- How a generation fails: what it answers, and the disk that it leaves. -/
inductive Failed (c : Config) (d : Disk) : Failure → Disk → Prop
  /-- The configuration is of no use: the disk is what it was. -/
  | configuration {cause : Error} (generator : c.generator = .error cause) :
      Failed c d (.configuration cause) d
  /-- The pages cannot be read: the disk is what it was. -/
  | pages {g : Generator Unit} {cause : Error} (generator : c.generator = .ok g)
      (render : g.render d = .error cause) : Failed c d (.generation c.root cause) d
  /-- The output directory cannot be made: there may be new directories along its path. -/
  | directory {g : Generator Unit} {m : Manifest Unit} {a : Artifacts} {fault : Fault} {d' : Disk}
      (generator : c.generator = .ok g) (render : g.render d = .ok (m, a))
      (make : d.makeAll c.out = (.error fault, d')) (home : d'.home = d.home)
      (others : ∀ q, d'.node? q = d.node? q ∨ NewDirectory c.out.ancestors d d' q) :
      Failed c d (.generation c.root (.write c.out fault)) d'
  /-- The artifact `f` cannot be written: those before it have their new contents, and nothing else
  has changed but that there may be new directories along the output path. -/
  | artifact {g : Generator Unit} {m : Manifest Unit} {a : Artifacts} {o : Place}
      {before after : List (Text × Text)} {f : Text × Text} {fault : Fault} {d' : Disk}
      (generator : c.generator = .ok g) (render : g.render d = .ok (m, a))
      (output : d'.OutputAt c.out o) (files : a.files = before ++ f :: after)
      (write : d'.write (c.out.join (Path.ofText f.1)) (Utf8.encode f.2) = .error fault)
      (written : ∀ f' ∈ before, d'.Stored c.out o f')
      (unwritten : ∀ f' ∈ f :: after, d'.node? (filePlace o f') = d.node? (filePlace o f') ∨
        NewDirectory c.out.ancestors d d' (filePlace o f'))
      (home : d'.home = d.home)
      (others : ∀ q, (∀ f' ∈ before, q ≠ filePlace o f') →
        d'.node? q = d.node? q ∨ NewDirectory c.out.ancestors d d' q) :
      Failed c d (.generation c.root (.write (c.out.join (Path.ofText f.1)) fault)) d'

variable {c : Config} {d d' : Disk} {g : Generator Unit}

theorem out_of_generator (h : c.generator = .ok g) : g.out = c.out := by
  rw [Config.generator] at h
  split at h
  · exact (Except.ok.inj h) ▸ rfl
  · cases h

/-- A run that fails makes the generation fail in the same way. -/
theorem failed_of_outcome {cause : Error} (hgen : c.generator = .ok g)
    (h : g.Outcome d (.error cause) d') : Failed c d (.generation c.root cause) d' := by
  have hout := out_of_generator hgen
  have hmakes := makeAll_makes d c.out
  cases h with
  | unread hrender => exact .pages hgen hrender
  | unmade hrender hmake =>
    rw [hout] at hmake ⊢
    rw [hmake] at hmakes
    exact .directory hgen hrender hmake hmakes.grows.home hmakes.changes
  | @unwritten m a d₁ _ o before after f fault hrender hmake ho hfiles hputs hdisk hwrite =>
    rw [hout] at hmake ho hputs hwrite ⊢
    rw [hmake] at hmakes
    subst hdisk
    have hnames : FileNames (before ++ f :: after) := hfiles ▸ a.fileNames
    have hbefore := hnames.sublist (List.sublist_append_left before (f :: after))
    have hgrows := grows_putFiles hbefore hputs.writable
    have hothers {q : Place} := hmakes.changes_putFiles hbefore hputs.writable (q := q)
    exact .artifact hgen hrender (hgrows.outputAt ho) hfiles hwrite hputs.stored
      (fun f'' hf'' => hothers fun f' hf' => hnames.filePlace_ne_of_append hf'' hf' o)
      (hgrows.home.trans hmakes.grows.home) fun q => hothers

/-- **A failing generation leaves a predictable disk.** -/
theorem generate_failed {e : Failure} (hsolid : (d.makeAll c.out).2.ArtifactsSolid c.out)
    (h : generate c d = (.error e, d')) : Failed c d e d' := by
  rw [generate] at h
  cases hgen : c.generator with
  | error cause =>
    simp only [hgen, Prod.mk.injEq, Except.error.injEq] at h
    obtain ⟨rfl, rfl⟩ := h
    exact .configuration hgen
  | ok g =>
    have houtcome := g.run_outcome (d := d) (by rwa [out_of_generator hgen])
    simp only [hgen] at h
    cases hrun : g.run d with
    | mk answer d₂ =>
      rw [hrun] at h houtcome
      cases answer with
      | ok s => cases h
      | error cause =>
        obtain ⟨rfl, rfl⟩ : Failure.generation c.root cause = e ∧ d₂ = d' := by simpa using h
        exact failed_of_outcome hgen houtcome

/-- A tree in which a directory stands in the place of the second artifact. -/
def routesBlocked : Disk where
  nodes :=
    let place (names : List String) : Place := names.map fun n => Utf8.encode n.toList
    [(place ["gen"], newDirectory), (place ["gen", "routes.ts"], newDirectory)]
  home := []

/-- The second artifact cannot be written. -/
theorem generate_failed_routesBlocked :
    let c := Config.standard.withOverrides none (some (.ofText "gen".toList))
    let e := Failure.generation c.root (.write (.ofText "gen/routes.ts".toList) .isDirectory)
    ∃ d', generate c routesBlocked = (.error e, d') ∧ Failed c routesBlocked e d' := by
  intro c e
  have h : (generate c routesBlocked).1 = .error e := by decide +kernel
  have hlinkless : routesBlocked.Linkless := linkless_of_nodes (by decide)
  have hfail := Prod.fst_eq_iff.1 h
  exact ⟨_, hfail, generate_failed (hlinkless.artifactsSolid c.out) hfail⟩

/-- A configuration whose output path goes through the place of an artifact and back. -/
def thereAndBack : Config :=
  Config.standard.withOverrides none (some (.ofText "gen/types.ts/..".toList))

/-- The first artifact cannot be written, and a directory has come up in its place. -/
theorem generate_thereAndBack :
    let types : Place := ["gen".toList, Artifacts.typesFile].map Utf8.encode
    Disk.blank.Linkless ∧
      (generate thereAndBack .blank).1 = .error (.generation thereAndBack.root
        (.write (thereAndBack.out.join (.ofText Artifacts.typesFile)) .isDirectory)) ∧
      Disk.blank.node? types = none ∧
      (generate thereAndBack .blank).2.OutputAt thereAndBack.out types.dropLast ∧
      (generate thereAndBack .blank).2.node? types = some newDirectory := by
  refine ⟨linkless_of_nodes (by decide), by decide +kernel, by decide, .inr ⟨newDirectory, ?_, rfl⟩,
    by decide +kernel⟩
  decide +kernel

end Command

end FileRoutes
