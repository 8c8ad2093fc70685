import FileRoutes.Text.Split

/-!
# Gates

A gate lets at most one generation run at a time.  A generation holds a permit while it runs; a
request that finds the gate busy is dropped, not queued.  Copies of a gate share one busy flag
and form a family; gates of different families know nothing of each other.

* `Gates` holds the flags, one for each family, and the family of each gate;
* `Desk` also keeps permits under names, one permit to a name.
-/

namespace FileRoutes

/-- A permit to run, by the family that issued it. -/
abbrev Permit := Nat

/-- Some gates. -/
structure Gates where
  /-- The busy flag of each family. -/
  busy : List Bool
  /-- The family of each gate. -/
  family : List Nat
  deriving DecidableEq, Repr

namespace Gates

variable (g : Gates)

/-- One gate, which is free. -/
def single : Gates := ⟨[false], [0]⟩

/-- The family is busy. -/
def isBusy (f : Nat) : Bool := g.busy.getD f false

/-- A permit of the family of a gate, unless it is busy. -/
def tryBegin (gate : Nat) : Option (Permit × Gates) :=
  match g.family[gate]? with
  | none => none
  | some f => if g.isBusy f then none else some (f, { g with busy := g.busy.set f true })

/-- Give a permit back. -/
def release (p : Permit) : Gates := { g with busy := g.busy.set p false }

/-- Another gate of the family of a gate. -/
def copy (gate : Nat) : Gates :=
  match g.family[gate]? with
  | none => g
  | some f => { g with family := g.family ++ [f] }

/-- A gate of a new family. -/
def add : Gates := ⟨g.busy ++ [false], g.family ++ [g.busy.length]⟩

end Gates

/-- Some gates, and the permits that are held, by name. -/
structure Desk where
  gates : Gates
  held : List (Text × Permit)
  deriving DecidableEq, Repr

namespace Desk

variable (d : Desk)

/-- One free gate, and no permits. -/
def single : Desk := ⟨.single, []⟩

/-- The permit under a name. -/
def permit? (name : Text) : Option Permit := (d.held.find? fun e => e.1 = name).map Prod.snd

/-- Give back the permit under a name, if there is one. -/
def drop (name : Text) : Bool × Desk :=
  match d.permit? name with
  | none => (false, d)
  | some p => (true, ⟨d.gates.release p, d.held.filter fun e => e.1 ≠ name⟩)

/-- Ask a gate for a permit, and keep it under a name in place of the one that was there. -/
def begin (gate : Nat) (name : Text) : Bool × Desk :=
  match d.gates.tryBegin gate with
  | none => (false, d)
  | some (p, gates) =>
    let d' := (drop { d with gates } name).2
    (true, { d' with held := d'.held ++ [(name, p)] })

end Desk

end FileRoutes
