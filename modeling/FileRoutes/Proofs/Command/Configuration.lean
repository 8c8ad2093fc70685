import FileRoutes.Proofs.Command.Session
import FileRoutes.Proofs.Config.Reading

/-!
# Configurations of commands

A command goes by the settings that its configuration file gives, or, if the file gives none, by
the standard ones; the locations of the command line come before either
(`Command.resolveConfig_usable`).  Since a file with a glob that is none gives no settings, there is
always a generator for them: no command fails because of its configuration
(`Command.runAt_ne_configuration`).
-/

namespace FileRoutes

open Disk

namespace Config

variable {t : Text} {c : Config} {d : Disk} {path : Path}

theorem Says.globs (h : Says t c) : ∀ g ∈ c.exclude, ∃ ts, Glob.ofText g = .ok ts := by
  obtain _ | ⟨-, -, -, hglobs⟩ := h
  · exact nofun
  · exact hglobs

theorem Loads.globs (h : Loads d path c) : ∀ g ∈ c.exclude, ∃ ts, Glob.ofText g = .ok ts := by
  obtain _ | ⟨-, ht⟩ := h
  · exact nofun
  · exact ht.globs

/-- There is a generator for settings exactly if their globs are such. -/
theorem exists_generator :
    (∃ g, c.generator = .ok g) ↔ ∀ g ∈ c.exclude, ∃ ts, Glob.ofText g = .ok ts := by
  rw [← exists_compileGlobs, generator, exclusion]
  cases compileGlobs c.exclude <;> simp

end Config

namespace Command

variable {d : Disk} {l : Locations} {c : Config}

theorem resolveConfig_of_loads (h : Config.Loads d l.config c) :
    resolveConfig d l = (c.withOverrides l.root? l.out?, []) := by
  rw [resolveConfig, h.load]

theorem resolveConfig_of_refuses {fault : ConfigFault} (h : Config.Refuses d l.config fault) :
    resolveConfig d l =
      (Config.standard.withOverrides l.root? l.out?, configLine (.config l.config fault)) := by
  rw [resolveConfig, h.load]

theorem exists_generator_resolveConfig (d : Disk) (l : Locations) :
    ∃ g, (resolveConfig d l).1.generator = .ok g := by
  rw [Config.exists_generator]
  obtain ⟨c, hc⟩ | ⟨fault, hfault⟩ := Config.loads_or_refuses d l.config
  · rw [resolveConfig_of_loads hc]
    exact hc.globs
  · rw [resolveConfig_of_refuses hfault]
    exact nofun

theorem generate_ne_configuration (h : ∃ g, c.generator = .ok g) (d : Disk) (e : Error) :
    (generate c d).1 ≠ .error (.configuration e) := by
  obtain ⟨g, hg⟩ := h
  rw [generate, hg]
  simp only
  obtain ⟨answer, d'⟩ := g.run d
  cases answer <;> simp

theorem result_runGenerate (c : Config) (d : Disk) :
    (runGenerate c d).result = (generate c d).1.map fun _ => () := by
  rw [runGenerate]
  obtain ⟨answer, d'⟩ := generate c d
  cases answer <;> rfl

theorem runGenerate_ne_configuration (h : ∃ g, c.generator = .ok g) (d : Disk) (e : Error) :
    (runGenerate c d).result ≠ .error (.configuration e) := by
  have hne := generate_ne_configuration h d e
  rw [result_runGenerate]
  cases hanswer : (generate c d).1 with
  | error f => simpa [Except.map, hanswer] using hne
  | ok s => simp [Except.map]

/-- **No command fails because of its configuration.** -/
theorem runAt_ne_configuration (name? : Option CommandName) (l : Locations) (d : Disk)
    (e : Error) : (runAt name? l d).result ≠ .error (.configuration e) := by
  unfold runAt
  split
  · obtain ⟨e', d₁, -, hfail, -⟩ | ⟨s, d₁, c, about, -, hresolve, hrest⟩ := runInit_cases l d
    · simp [hfail]
    obtain ⟨e', d₂, -, hfail, -⟩ | ⟨ss, d₂, -, hgenerate, -⟩ := hrest
    · simp [hfail]
    · have hgen := exists_generator_resolveConfig d₁ l
      rw [hresolve] at hgen
      rw [hgenerate]
      exact runGenerate_ne_configuration hgen d₂ e
  · exact runGenerate_ne_configuration (exists_generator_resolveConfig d l) d e

end Command

end FileRoutes
