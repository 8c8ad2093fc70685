import FileRoutes.Proofs.Generation.Write

/-!
# Outcomes of a generation

A run stops where the first thing goes wrong: at the scan, at the output directory, or at a file.
`Generator.Outcome` says for each of these, and for a run that gets through, what is answered and
what the disk is then.  Every run has an outcome, if no link stands at the place of an artifact
(`Generator.run_outcome`).
-/

namespace FileRoutes

/-- The artifacts have names of their own. -/
theorem Artifacts.fileNames (a : Artifacts) : FileNames a.files := by
  have hproper : ∀ name ∈ [typesFile, routesFile, indexFile],
      Name.Proper (Utf8.encode name) := by decide
  have hnodup : ([typesFile, routesFile, indexFile].map Utf8.encode).Nodup := by decide
  exact ⟨fun f hf => hproper f.1 (List.mem_map_of_mem hf), hnodup⟩

variable {d d' : Disk} {out : Path} {o : Place}

/-- No link stands where an artifact goes. -/
def Disk.ArtifactsSolid (d : Disk) (out : Path) : Prop :=
  ∀ o, d.OutputAt out o → ∀ name ∈ [Artifacts.typesFile, Artifacts.routesFile, Artifacts.indexFile],
    ∀ n, d.node? (o ++ [Utf8.encode name]) = some n → n.Solid

/-- Making the output directory makes no links. -/
theorem Disk.Linkless.artifactsSolid (h : d.Linkless) (out : Path) :
    (d.makeAll out).2.ArtifactsSolid out :=
  fun _ _ _ _ n hn => (makeAll_makes d out).linkless h _ n hn

theorem Disk.ArtifactsSolid.files (h : d.ArtifactsSolid out) (ho : d.OutputAt out o)
    (a : Artifacts) : ∀ f ∈ a.files, ∀ n, d.node? (filePlace o f) = some n → n.Solid :=
  fun f hf => h o ho f.1 (List.mem_map_of_mem (f := Prod.fst) hf)

/-- A disk with nothing on it. -/
def Disk.blank : Disk := ⟨[], []⟩

namespace Generator

variable {M : Type} {g : Generator M}

/-- What a run answers and what the disk is then. -/
inductive Outcome (g : Generator M) (d : Disk) : Except Error Summary → Disk → Prop
  /-- The pages cannot be read: nothing is written. -/
  | unread {e : Error} (render : g.render d = .error e) : Outcome g d (.error e) d
  /-- The output directory cannot be made. -/
  | unmade {m : Manifest M} {a : Artifacts} {fault : Fault} {d' : Disk}
      (render : g.render d = .ok (m, a)) (make : d.makeAll g.out = (.error fault, d')) :
      Outcome g d (.error (.write g.out fault)) d'
  /-- An artifact cannot be written: those before it are on the disk. -/
  | unwritten {m : Manifest M} {a : Artifacts} {d₁ d' : Disk} {o : Place}
      {before after : List (Text × Text)} {f : Text × Text} {fault : Fault}
      (render : g.render d = .ok (m, a)) (make : d.makeAll g.out = (.ok (), d₁))
      (output : d₁.OutputAt g.out o) (files : a.files = before ++ f :: after)
      (puts : d₁.Puts g.out o before) (disk : d' = d₁.putFiles o before)
      (write : d'.write (g.out.join (Path.ofText f.1)) (Utf8.encode f.2) = .error fault) :
      Outcome g d (.error (.write (g.out.join (Path.ofText f.1)) fault)) d'
  /-- All artifacts are on the disk. -/
  | complete {m : Manifest M} {a : Artifacts} {d₁ d' : Disk} {o : Place} {ws : List WrittenFile}
      (render : g.render d = .ok (m, a)) (make : d.makeAll g.out = (.ok (), d₁))
      (output : d₁.OutputAt g.out o) (puts : d₁.Puts g.out o a.files)
      (reported : List.Forall₂ (Reported d₁ g.out o) a.files ws)
      (disk : d' = d₁.putFiles o a.files) :
      Outcome g d (.ok ⟨m.statics.length, m.dynamics.length, ws⟩) d'

/-- **Every run has an outcome.** -/
theorem run_outcome (hsolid : (d.makeAll g.out).2.ArtifactsSolid g.out) :
    g.Outcome d (g.run d).1 (g.run d).2 := by
  rw [run]
  cases hrender : g.render d with
  | error e => exact .unread hrender
  | ok r =>
    obtain ⟨m, a⟩ := r
    simp only [writeArtifacts]
    cases hmake : d.makeAll g.out with
    | mk made d₁ =>
      cases made with
      | error fault => exact .unmade hrender hmake
      | ok u =>
        rw [hmake] at hsolid
        obtain ⟨o, ho⟩ := Disk.outputAt_makeAll hmake
        obtain ⟨ws, hws, hreported, hputs⟩ |
            ⟨before, f, after, fault, hfiles, hws, hwrite, hputs⟩ :=
          writeFiles_cases a.fileNames ho (hsolid.files ho a)
        · simp only [hws]
          exact .complete hrender hmake ho hputs hreported rfl
        · simp only [hws]
          exact .unwritten hrender hmake ho hfiles hputs rfl hwrite

end Generator

end FileRoutes
