import FileRoutes.Command.Generate
import FileRoutes.Watch.Gate

/-!
# Regenerating

A watcher generates anew when something changed, unless a generation is running already.
-/

namespace FileRoutes

namespace Watch

/-- What a trigger leaves behind. -/
structure Reaction where
  output : Text
  /-- The line about a failure, if the generation failed. -/
  failure? : Option Text
  gates : Gates
  disk : Disk

/-- The line about a generation that failed. -/
def failureLine (f : Failure) : Text :=
  "❌ Failed to regenerate: ".toList ++ f.message

/-- React to a trigger at a gate: generate while holding its permit, or do nothing if the gate is
busy. -/
def regenerate (c : Config) (g : Gates) (gate : Nat) (d : Disk) : Reaction :=
  match g.tryBegin gate with
  | none => ⟨[], none, g, d⟩
  | some (permit, g) =>
    let opening := Command.line "⚙ Regenerating routes...".toList
    match Command.generate c d with
    | (.ok s, d') => ⟨opening ++ Command.report s, none, g.release permit, d'⟩
    | (.error f, d') => ⟨opening, some (failureLine f), g.release permit, d'⟩

end Watch

end FileRoutes
