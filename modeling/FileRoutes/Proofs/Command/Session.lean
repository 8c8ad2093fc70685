import FileRoutes.Command.Run
import FileRoutes.Proofs.Command.Scaffold
import FileRoutes.Proofs.Generation.Failure
import FileRoutes.Proofs.Watch.Gates

/-!
# Files of the user

A project is changed by commands and by watchers that react to triggers, one after another
(`Act.performAll`).  Each of them goes by a configuration (`Act.config?`) that comes from the
command line, from a file that the command may just have created, or from the standard settings.
The locations of a command are any paths: what a command line asks for (`Command.run`) is a command
at locations that texts spell.

Whatever it does, and however it fails, it rewrites the artifacts of its output directory at most,
and creates the helpers and the configuration file only where nothing stands (`Act.perform_spares`).
So everything else on the disk is spared by all that happens (`Act.performAll_spares`,
`Act.session_spares`).
-/

namespace FileRoutes

open Disk

/-- The configuration that a command goes by.  Setting up a project has none if the configuration
file cannot be created. -/
def Command.configOf? (name? : Option CommandName) (l : Locations) (d : Disk) : Option Config :=
  match name? with
  | some .init =>
    match Scaffold.seedConfig d l.config with
    | (.ok _, d') => some (resolveConfig d' l).1
    | (.error _, _) => none
  | _ => some (resolveConfig d l).1

/-- What changes a project. -/
inductive Act where
  /-- A command is run, at whatever locations. -/
  | command (name? : Option CommandName) (l : Command.Locations)
  /-- A watcher with a configuration reacts to a trigger at one of some gates. -/
  | trigger (c : Config) (g : Gates) (gate : Nat)
  deriving DecidableEq, Repr

namespace Act

/-- The disk after an act. -/
def perform : Act → Disk → Disk
  | .command name? l, d => (Command.runAt name? l d).disk
  | .trigger c g gate, d => (Watch.regenerate c g gate d).disk

/-- The disk after some acts, one after another. -/
def performAll (as : List Act) (d : Disk) : Disk := as.foldl (fun d a => a.perform d) d

/-- The configuration that an act goes by.  A trigger that is dropped has none. -/
def config? : Act → Disk → Option Config
  | .command name? l, d => Command.configOf? name? l d
  | .trigger c g gate, _ => if (g.tryBegin gate).isSome then some c else none

/-- On `d'`, the place is that of an artifact of the act that began on `d`. -/
def Rewrites (a : Act) (d d' : Disk) (p : Place) : Prop :=
  ∃ c, a.config? d = some c ∧ d'.FileAt c.out Artifacts.names p

/-- On `d'`, the place is that of a helper of the act that began on `d`, or the configuration file
leads to it, and the act sets up a project. -/
def Creates (a : Act) (d d' : Disk) (p : Place) : Prop :=
  ∃ l, a = .command (some .init) l ∧
    ((∃ c, a.config? d = some c ∧ d'.FileAt c.out Scaffold.helperNames p) ∨ d'.LeadsTo l.config p)

/-- The place is that of an artifact of one of the acts. -/
def Rewritten (as : List Act) (d : Disk) (p : Place) : Prop :=
  ∃ before a after, as = before ++ a :: after ∧
    a.Rewrites (performAll before d) (performAll as d) p

/-- The place is that of a helper or a configuration file of one of the acts that set up a
project. -/
def Created (as : List Act) (d : Disk) (p : Place) : Prop :=
  ∃ before a after, as = before ++ a :: after ∧
    a.Creates (performAll before d) (performAll as d) p

end Act

/-! ### Commands -/

namespace Command

variable {name? : Option CommandName} {l : Locations} {d : Disk}

theorem generate_spares (hd : d.Linkless) (c : Config) :
    d.Spares ((generate c d).2.FileAt c.out Artifacts.names) (fun _ => False)
      (generate c d).2 := by
  rw [generate]
  cases hgen : c.generator with
  | error e => exact .refl d
  | ok g =>
    have hrun := g.run_spares hd
    rw [out_of_generator hgen] at hrun
    simp only
    generalize g.run d = r at hrun ⊢
    obtain ⟨answer, d'⟩ := r
    cases answer <;> exact hrun

theorem disk_runGenerate (c : Config) (d : Disk) : (runGenerate c d).disk = (generate c d).2 := by
  rw [runGenerate]
  generalize generate c d = r
  obtain ⟨answer, d'⟩ := r
  cases answer <;> rfl

theorem disk_runAt_of_ne_init (h : name? ≠ some .init) (l : Locations) (d : Disk) :
    (runAt name? l d).disk = (generate (resolveConfig d l).1 d).2 := by
  unfold runAt
  split
  · exact absurd rfl h
  · exact disk_runGenerate _ _

theorem configOf?_of_init {s : Seeded} {d₁ : Disk}
    (hseed : Scaffold.seedConfig d l.config = (.ok s, d₁)) :
    configOf? (some .init) l d = some (resolveConfig d₁ l).1 := by
  simp only [configOf?, hseed]

theorem configOf?_of_ne_init (h : name? ≠ some .init) (l : Locations) (d : Disk) :
    configOf? name? l d = some (resolveConfig d l).1 := by
  unfold configOf?
  split
  · exact absurd rfl h
  · rfl

/-- How setting up a project goes: it stops at the configuration file, at the helpers, or
generates. -/
theorem runInit_cases (l : Locations) (d : Disk) :
    (∃ e d₁, Scaffold.seedConfig d l.config = (.error e, d₁) ∧
      (runInit l d).result = .error (.configFile e) ∧ (runInit l d).disk = d₁) ∨
    ∃ s d₁ c about, Scaffold.seedConfig d l.config = (.ok s, d₁) ∧
      resolveConfig d₁ l = (c, about) ∧
      ((∃ e d₂, Scaffold.seedHelpers d₁ c.out = (.error e, d₂) ∧
        (runInit l d).result = .error (.helperFiles e) ∧ (runInit l d).disk = d₂) ∨
      ∃ ss d₂, Scaffold.seedHelpers d₁ c.out = (.ok ss, d₂) ∧
        (runInit l d).result = (runGenerate c d₂).result ∧
        (runInit l d).disk = (runGenerate c d₂).disk) := by
  rw [runInit]
  cases Scaffold.seedConfig d l.config with
  | mk answer d₁ =>
    cases answer with
    | error e => exact .inl ⟨e, d₁, rfl, rfl, rfl⟩
    | ok s =>
      cases hresolve : resolveConfig d₁ l with
      | mk c about =>
        refine .inr ⟨s, d₁, c, about, rfl, hresolve, ?_⟩
        simp only [hresolve]
        cases hhelpers : Scaffold.seedHelpers d₁ c.out with
        | mk answer d₂ =>
          cases answer with
          | error e => exact .inl ⟨e, d₂, rfl, rfl, rfl⟩
          | ok ss =>
            refine .inr ⟨ss, d₂, rfl, ?_, ?_⟩
            all_goals
              simp only
              cases (runGenerate c d₂).result <;> rfl

end Command

/-! ### Single acts -/

namespace Act

variable {d d' : Disk} {p : Place} {a : Act} {as : List Act}

/-- **Setting up a project rewrites artifacts, and creates files where nothing stands.** -/
theorem init_spares (hd : d.Linkless) (l : Command.Locations) :
    d.Spares (Rewrites (.command (some .init) l) d (Command.runInit l d).disk)
      (Creates (.command (some .init) l) d (Command.runInit l d).disk)
      (Command.runInit l d).disk := by
  have hseed := Scaffold.seedConfig_spares d l.config
  obtain ⟨e, d₁, hconfig, -, hdisk⟩ | ⟨s, d₁, c, about, hconfig, hresolve, hrest⟩ :=
    Command.runInit_cases l d
  · rw [hconfig] at hseed
    rw [hdisk]
    exact hseed.mono (fun p h => h.elim) fun p hp => ⟨l, rfl, .inr hp⟩
  · -- the helpers and the artifacts go to the output directory of the configuration that was read
    have hc : config? (.command (some .init) l) d = some c := by
      rw [config?, Command.configOf?_of_init hconfig, hresolve]
    rw [hconfig] at hseed
    have hd₁ := hseed.linkless hd
    have hhelpers := Scaffold.seedHelpers_spares hd₁ c.out
    obtain ⟨e, d₂, hhelp, -, hdisk⟩ | ⟨ss, d₂, hhelp, -, hdisk⟩ := hrest
    · rw [hhelp] at hhelpers
      rw [hdisk]
      refine (hseed.mono (fun p h => h.elim) fun p hp => ?_).trans
        (hhelpers.mono (fun p h => h.elim) fun p hp => ⟨l, rfl, .inl ⟨c, hc, hp⟩⟩)
      exact ⟨l, rfl, .inr (hp.grows hd₁ hhelpers.grows)⟩
    · rw [hhelp] at hhelpers
      have hgenerate := Command.generate_spares (hhelpers.linkless hd₁) c
      rw [hdisk, Command.disk_runGenerate]
      refine ((hseed.mono (fun p h => h.elim) fun p hp => ?_).trans
        (hhelpers.mono (fun p h => h.elim) fun p hp => ?_)).trans
          (hgenerate.mono (fun p hp => ⟨c, hc, hp⟩) fun p h => h.elim)
      · have hgrows := hhelpers.grows.trans hgenerate.grows
        exact ⟨l, rfl, .inr (hp.grows hd₁ hgrows)⟩
      · exact ⟨l, rfl, .inl ⟨c, hc, hp.grows hgenerate.grows⟩⟩

/-- **An act rewrites artifacts, and creates files where nothing stands.** -/
theorem perform_spares (hd : d.Linkless) (a : Act) :
    d.Spares (a.Rewrites d (a.perform d)) (a.Creates d (a.perform d)) (a.perform d) := by
  cases a with
  | command name? l =>
    by_cases hinit : name? = some .init
    · subst hinit
      exact init_spares hd l
    · have hc : config? (.command name? l) d = some (Command.resolveConfig d l).1 :=
        Command.configOf?_of_ne_init hinit l d
      rw [perform, Command.disk_runAt_of_ne_init hinit]
      exact (Command.generate_spares hd _).mono (fun p hp => ⟨_, hc, hp⟩) fun p h => h.elim
  | trigger c g gate =>
    cases hbegin : g.tryBegin gate with
    | none =>
      rw [perform, Traffic.regenerate_of_busy hbegin]
      exact .refl d
    | some r =>
      have hc : config? (.trigger c g gate) d = some c := by rw [config?, hbegin]; rfl
      rw [perform, (Traffic.regenerate_of_free hbegin).1]
      exact (Command.generate_spares hd c).mono (fun p hp => ⟨c, hc, hp⟩) fun p h => h.elim

/-! ### Several acts -/

theorem performAll_concat (as : List Act) (a : Act) (d : Disk) :
    performAll (as ++ [a]) d = a.perform (performAll as d) := by
  rw [performAll, List.foldl_append]
  rfl

theorem Rewrites.grows {d'' : Disk} (h : d'.Grows d'') (hp : a.Rewrites d d' p) :
    a.Rewrites d d'' p := by
  obtain ⟨c, hc, hfile⟩ := hp
  exact ⟨c, hc, hfile.grows h⟩

theorem Creates.grows {d'' : Disk} (hd' : d'.Linkless) (h : d'.Grows d'')
    (hp : a.Creates d d' p) : a.Creates d d'' p := by
  obtain ⟨l, ha, ⟨c, hc, hfile⟩ | hconfig⟩ := hp
  · exact ⟨l, ha, .inl ⟨c, hc, hfile.grows h⟩⟩
  · exact ⟨l, ha, .inr (hconfig.grows hd' h)⟩

/-- **Acts rewrite their artifacts, and create files where nothing stands.** -/
theorem performAll_spares (hd : d.Linkless) (as : List Act) :
    d.Spares (Rewritten as d) (Created as d) (performAll as d) := by
  induction as using List.reverseRecOn with
  | nil => exact .refl d
  | append_singleton as a ih =>
    have hd' := ih.linkless hd
    have hlast := perform_spares hd' a
    have hgrows := hlast.grows
    rw [← performAll_concat] at hlast hgrows
    refine (ih.mono ?_ ?_).trans (hlast.mono ?_ ?_)
    · rintro p ⟨before, b, after, rfl, hp⟩
      exact ⟨before, b, after ++ [a], by simp, hp.grows hgrows⟩
    · rintro p ⟨before, b, after, rfl, hp⟩
      exact ⟨before, b, after ++ [a], by simp, hp.grows hd' hgrows⟩
    · exact fun p hp => ⟨as, a, [], rfl, hp⟩
    · exact fun p hp => ⟨as, a, [], rfl, hp⟩

theorem Rewritten.getLast? (h : Rewritten as d p) :
    ∃ name ∈ Artifacts.names, p.getLast? = some (Utf8.encode name) := by
  obtain ⟨-, a, -, -, c, -, hfile⟩ := h
  exact hfile.getLast?

/-- **Nothing damages a file of the user.**  On a disk without links, whatever commands are run and
whatever watchers react to, whether they succeed or fail: nothing goes away, files keep their
contents except for the artifacts of the output directories, and new files are artifacts, helpers
and configuration files.  A file without the name of an artifact keeps its content in any case. -/
theorem session_spares (hd : d.Linkless) (before after : List Act) :
    (performAll before d).Spares (Rewritten after (performAll before d))
        (Created after (performAll before d)) (performAll (before ++ after) d) ∧
      ∀ p n, (performAll before d).node? p = some n →
        (∀ name ∈ Artifacts.names, p.getLast? ≠ some (Utf8.encode name)) →
          (performAll (before ++ after) d).node? p = some n := by
  have hd' := (performAll_spares hd before).linkless hd
  have hspares := performAll_spares hd' after
  have happend : performAll (before ++ after) d = performAll after (performAll before d) :=
    List.foldl_append
  rw [happend]
  refine ⟨hspares, fun p n hn hname => ?_⟩
  obtain hsame | ⟨hp, -⟩ := hspares.kept p n hn
  · exact hsame
  · obtain ⟨name, hmem, hlast⟩ := hp.getLast?
    exact absurd hlast (hname name hmem)

/-- A project with a blank configuration file, in which a file of the user has the name of a
helper. -/
def ownHelper : Disk where
  nodes :=
    let place (names : List String) : Place := names.map fun n => Utf8.encode n.toList
    [(place ["gen"], newDirectory),
      (place ["gen", "build-path.ts"], newFile (Utf8.encode "mine".toList)),
      (place ["routegen.toml"], newFile [])]
  home := []

/-- Setting up the project writes artifacts next to the file, and leaves it alone. -/
theorem session_spares_ownHelper :
    let init : Act := .command (some .init)
      ⟨none, some (.ofText "gen".toList), .ofText Arguments.standardConfig⟩
    let gen (name : Text) : Place := ["gen".toList, name].map Utf8.encode
    (performAll [init] ownHelper).node? (gen Scaffold.buildPathFile) =
        some (newFile (Utf8.encode "mine".toList)) ∧
      ((performAll [init] ownHelper).node? (gen Artifacts.typesFile)).isSome = true := by
  intro init gen
  have hlinkless : ownHelper.Linkless := linkless_of_nodes (by decide)
  obtain ⟨-, hkept⟩ := session_spares hlinkless [] [init]
  exact ⟨hkept _ _ (by decide) (by decide), by decide +kernel⟩

end Act

end FileRoutes
