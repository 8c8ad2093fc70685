import FileRoutes.Watch.Regenerate
import Mathlib.Data.List.Induction
import Mathlib.Data.Multiset.Filter
import Mathlib.Logic.Relation

/-!
# At most one generation at a time

Gates and permits are used from several sides at once, so what happens is an interleaving of single
steps (`Traffic.Step`): gates are made and copied, a permit is handed out, a live permit is given
back.  Each step concerns one family of gates.

* `Traffic.Sound` is the invariant: the busy flags are those of the families that have a live
  permit, and no family has two.  Every step preserves it (`Traffic.Step.sound`), and so does every
  run (`Traffic.Reachable.sound`).
* `Traffic.Orderly` is what follows for whoever uses the gates, watchers among them.
* What happens at a desk is an interleaving of such steps (`Desk.sound_run`): a permit that takes
  the name of another one is handed out, and then the other one is given back.
* `Traffic.reachable_orderly` puts this together.
-/

namespace FileRoutes

namespace Gates

variable {g g' : Gates} {gate f p : Nat}

theorem isBusy_iff : g.isBusy f = true ↔ g.busy[f]? = some true := by
  rw [isBusy, List.getD_eq_getElem?_getD]
  cases g.busy[f]? <;> simp

theorem isBusy_add : g.add.isBusy f = g.isBusy f := by
  rw [Bool.eq_iff_iff, isBusy_iff, isBusy_iff, add]
  obtain h | h | h := Nat.lt_trichotomy f g.busy.length
  · rw [List.getElem?_append_left h]
  · simp [h]
  · rw [List.getElem?_eq_none (by simp; omega), List.getElem?_eq_none (by omega)]

theorem isBusy_copy : (g.copy gate).isBusy f = g.isBusy f := by
  rw [copy]
  split <;> rfl

theorem family_copy (h : g.family[gate]? = some f) :
    (g.copy gate).family = g.family ++ [f] := by
  rw [copy, h]

theorem isBusy_release : (g.release p).isBusy f = (decide (f ≠ p) && g.isBusy f) := by
  rw [Bool.eq_iff_iff, Bool.and_eq_true, isBusy_iff, isBusy_iff, release]
  by_cases h : f = p
  · simp [h, List.getElem?_set]
  · simp [List.getElem?_set_ne (Ne.symm h), h]

theorem tryBegin_eq_some :
    g.tryBegin gate = some (p, g') ↔
      g.family[gate]? = some p ∧ g.isBusy p = false ∧
        g' = { g with busy := g.busy.set p true } := by
  rw [tryBegin]
  cases g.family[gate]? with
  | none => simp
  | some f =>
    simp only [Option.some.injEq]
    constructor
    · intro h
      split_ifs at h with hf
      obtain ⟨rfl, rfl⟩ := Prod.mk.inj (Option.some.inj h)
      exact ⟨rfl, by simpa using hf, rfl⟩
    · rintro ⟨rfl, hf, rfl⟩
      simp [hf]

/-- A gate hands out a permit exactly when its family is not busy. -/
theorem isSome_tryBegin (h : g.family[gate]? = some f) :
    (g.tryBegin gate).isSome = true ↔ g.isBusy f = false := by
  cases hf : g.isBusy f <;> simp [tryBegin, h, hf]

/-- A copy of a gate hands out a permit exactly when the gate does. -/
theorem isSome_tryBegin_copy (h : g.family[gate]? = some f) :
    ((g.copy gate).tryBegin g.family.length).isSome = (g.tryBegin gate).isSome := by
  have hcopy : (g.copy gate).family[g.family.length]? = some f := by
    rw [family_copy h, List.getElem?_concat_length]
  rw [Bool.eq_iff_iff, isSome_tryBegin hcopy, isSome_tryBegin h, isBusy_copy]

/-- A gate that was just made hands out a permit. -/
theorem isSome_tryBegin_add : (g.add.tryBegin g.family.length).isSome = true := by
  have hadd : g.add.family[g.family.length]? = some g.busy.length := List.getElem?_concat_length
  rw [isSome_tryBegin hadd, isBusy_add, isBusy, List.getD_eq_getElem?_getD,
    List.getElem?_eq_none (Nat.le_refl _), Option.getD_none]

/-- Handing out a permit makes its family busy, and no other one. -/
theorem isBusy_grant (hlen : p < g.busy.length) :
    Gates.isBusy { g with busy := g.busy.set p true } f = true ↔ f = p ∨ g.isBusy f = true := by
  rw [isBusy_iff, isBusy_iff]
  by_cases h : f = p
  · simp [h, hlen]
  · simp [List.getElem?_set_ne (Ne.symm h), h]

/-- Giving back a permit that was just handed out puts the flags back. -/
theorem release_tryBegin (h : g.tryBegin gate = some (p, g')) : g'.release p = g := by
  obtain ⟨-, hp, rfl⟩ := tryBegin_eq_some.1 h
  have hset : g.busy.set p false = g.busy := by
    by_cases hlen : p < g.busy.length
    · have hget : g.busy[p] = false := by
        simpa [isBusy, List.getD_eq_getElem?_getD, hlen] using hp
      rw [← hget, List.set_getElem_self]
    · exact List.set_eq_of_length_le (Nat.not_lt.1 hlen)
  simp [release, hset]

end Gates

/-- Gates, and the permits that are live, by family. -/
structure Traffic where
  gates : Gates
  live : Multiset Permit

namespace Traffic

/-- No gates, and no permits. -/
def start : Traffic := ⟨⟨[], []⟩, 0⟩

/-- One thing happens that concerns the family `f`. -/
inductive Step (f : Nat) : Traffic → Traffic → Prop
  /-- A gate of a new family is made. -/
  | add {t : Traffic} (new : f = t.gates.busy.length) : Step f t ⟨t.gates.add, t.live⟩
  /-- A gate of the family is copied. -/
  | copy {t : Traffic} {gate : Nat} (family : t.gates.family[gate]? = some f) :
      Step f t ⟨t.gates.copy gate, t.live⟩
  /-- A gate of the family hands out a permit. -/
  | grant {t : Traffic} {gate : Nat} {gates : Gates}
      (granted : t.gates.tryBegin gate = some (f, gates)) :
      Step f t ⟨gates, f ::ₘ t.live⟩
  /-- A live permit of the family is given back. -/
  | release {t : Traffic} (live : f ∈ t.live) : Step f t ⟨t.gates.release f, t.live.erase f⟩

/-- Things happen one after another that concern some families. -/
abbrev Run (families : Nat → Prop) : Traffic → Traffic → Prop :=
  Relation.ReflTransGen fun t t' => ∃ f, families f ∧ Step f t t'

/-- It can come to this. -/
def Reachable (t : Traffic) : Prop := Run (fun _ => True) start t

/-! ### The invariant -/

/-- The flags tell which families have a live permit, and no family has two. -/
structure Sound (t : Traffic) : Prop where
  family_lt : ∀ f ∈ t.gates.family, f < t.gates.busy.length
  busy_iff : ∀ f, t.gates.isBusy f = true ↔ f ∈ t.live
  nodup : t.live.Nodup

variable {t t' : Traffic} {f : Nat}

theorem sound_start : start.Sound :=
  ⟨by simp [start], by simp [start, Gates.isBusy], by simp [start]⟩

/-- **Every step preserves the invariant.** -/
theorem Step.sound (hstep : Step f t t') (h : t.Sound) : t'.Sound := by
  cases hstep with
  | add =>
    refine ⟨fun f' hf' => ?_, fun f' => ?_, h.nodup⟩
    · simp only [Gates.add, List.mem_append, List.mem_singleton, List.length_append,
        List.length_singleton] at hf' ⊢
      obtain hf' | rfl := hf'
      · exact Nat.lt_succ_of_lt (h.family_lt f' hf')
      · exact Nat.lt_succ_self _
    · rw [Gates.isBusy_add, h.busy_iff]
  | copy hfamily =>
    refine ⟨fun f' hf' => ?_, fun f' => ?_, h.nodup⟩
    · simp only [Gates.copy, hfamily, List.mem_append, List.mem_singleton] at hf' ⊢
      obtain hf' | rfl := hf'
      · exact h.family_lt f' hf'
      · exact h.family_lt f' (List.mem_of_getElem? hfamily)
    · rw [Gates.isBusy_copy, h.busy_iff]
  | grant hgrant =>
    obtain ⟨hfamily, hfree, rfl⟩ := Gates.tryBegin_eq_some.1 hgrant
    have hlen := h.family_lt f (List.mem_of_getElem? hfamily)
    -- the family was not busy, so it had no live permit
    have hlive : f ∉ t.live := fun hf => by simp [(h.busy_iff f).2 hf] at hfree
    refine ⟨by simpa using h.family_lt, fun f' => ?_, Multiset.nodup_cons.2 ⟨hlive, h.nodup⟩⟩
    rw [Multiset.mem_cons, ← h.busy_iff, Gates.isBusy_grant hlen]
  | release =>
    refine ⟨by simpa [Gates.release] using h.family_lt, fun f' => ?_, h.nodup.erase f⟩
    rw [Gates.isBusy_release, Multiset.Nodup.mem_erase_iff h.nodup, ← h.busy_iff]
    simp

/-- **Every run preserves the invariant.** -/
theorem Reachable.sound (h : Reachable t) : t.Sound := by
  induction h with
  | refl => exact sound_start
  | tail _ hstep ih =>
    obtain ⟨f, -, hstep⟩ := hstep
    exact hstep.sound ih

theorem Reachable.step (h : Reachable t) (hstep : Step f t t') : Reachable t' :=
  Relation.ReflTransGen.tail h ⟨f, trivial, hstep⟩

/-! ### Other families -/

/-- A family looks the same: its gates, its flag and its live permits. -/
structure SameFamily (f : Nat) (t t' : Traffic) : Prop where
  gates : ∀ gate : Nat, t'.gates.family[gate]? = some f ↔ t.gates.family[gate]? = some f
  busy : t'.gates.isBusy f = t.gates.isBusy f
  live : t'.live.count f = t.live.count f

theorem SameFamily.trans {t'' : Traffic} (h : SameFamily f t t') (h' : SameFamily f t' t'') :
    SameFamily f t t'' :=
  ⟨fun gate => (h'.gates gate).trans (h.gates gate), h'.busy.trans h.busy, h'.live.trans h.live⟩

/-- A gate behind the others is one of the family only if it was made for it. -/
theorem getElem?_concat_of_ne {l : List Nat} {f' gate : Nat} (h : f ≠ f') :
    (l ++ [f'])[gate]? = some f ↔ l[gate]? = some f := by
  obtain hlt | hlt | hlt := Nat.lt_trichotomy gate l.length
  · rw [List.getElem?_append_left hlt]
  · simp [hlt, Ne.symm h]
  · rw [List.getElem?_eq_none (by simp; omega), List.getElem?_eq_none (by omega)]

/-- **A step that concerns another family changes nothing for this one.** -/
theorem Step.sameFamily {f' : Nat} (hstep : Step f' t t') (hne : f ≠ f') : SameFamily f t t' := by
  cases hstep with
  | add hnew => exact ⟨fun gate => getElem?_concat_of_ne (hnew ▸ hne), Gates.isBusy_add, rfl⟩
  | copy hfamily =>
    refine ⟨fun gate => ?_, Gates.isBusy_copy, rfl⟩
    simp only [Gates.family_copy hfamily]
    exact getElem?_concat_of_ne hne
  | grant hgrant =>
    obtain ⟨-, -, rfl⟩ := Gates.tryBegin_eq_some.1 hgrant
    refine ⟨fun gate => .rfl, ?_, Multiset.count_cons_of_ne hne _⟩
    simp [Gates.isBusy, List.getD_eq_getElem?_getD, List.getElem?_set_ne (Ne.symm hne)]
  | release =>
    exact ⟨fun gate => .rfl, by simp [Gates.isBusy_release, hne], Multiset.count_erase_of_ne hne _⟩

theorem Run.sameFamily (h : Run (· ≠ f) t t') : SameFamily f t t' := by
  induction h with
  | refl => exact ⟨fun _ => .rfl, rfl, rfl⟩
  | tail _ hstep ih =>
    obtain ⟨f', hne, hstep⟩ := hstep
    exact ih.trans (hstep.sameFamily hne.symm)

/-! ### What follows -/

/-- What whoever uses the gates can rely on. -/
structure Orderly (t : Traffic) : Prop where
  /-- A copy of a gate is one more gate of its family, and hands out a permit when the gate does. -/
  copied : ∀ gate f, t.gates.family[gate]? = some f →
    (t.gates.copy gate).family = t.gates.family ++ [f] ∧
      ((t.gates.copy gate).tryBegin t.gates.family.length).isSome = (t.gates.tryBegin gate).isSome
  /-- A gate that is made has a family of its own, and hands out a permit. -/
  added : ∃ f, f ∉ t.gates.family ∧ t.gates.add.family = t.gates.family ++ [f] ∧
    (t.gates.add.tryBegin t.gates.family.length).isSome = true
  /-- No family has two live permits. -/
  atMostOne : ∀ f, t.live.count f ≤ 1
  /-- A flag is set while a permit of the family is live. -/
  busy : ∀ f, t.gates.isBusy f = true ↔ t.live.count f = 1
  /-- A gate hands out a permit exactly when its family has no live one. -/
  granted : ∀ gate f, t.gates.family[gate]? = some f →
    ((t.gates.tryBegin gate).isSome = true ↔ t.live.count f = 0)
  /-- Once a permit is given back, every gate of its family hands out the next one; a generation
  that is under way holds one from its grant to its release. -/
  released : ∀ gate, ∀ f ∈ t.live, t.gates.family[gate]? = some f →
    ((t.gates.release f).tryBegin gate).isSome = true
  /-- Whatever happens to other families, a family looks the same. -/
  independent : ∀ f t', Run (· ≠ f) t t' → SameFamily f t t'
  /-- A trigger that finds the permit elsewhere does nothing. -/
  dropped : ∀ c gate f d, t.gates.family[gate]? = some f → f ∈ t.live →
    Watch.regenerate c t.gates gate d = ⟨[], none, t.gates, d⟩
  /-- A trigger that gets the permit generates, and has given it back when it is done, whether the
  generation succeeds or fails. -/
  completed : ∀ c gate f d, t.gates.family[gate]? = some f → f ∉ t.live →
    (Watch.regenerate c t.gates gate d).disk = (Command.generate c d).2 ∧
      (Watch.regenerate c t.gates gate d).gates = t.gates ∧
        ((Watch.regenerate c t.gates gate d).gates.tryBegin gate).isSome = true

theorem regenerate_of_busy {c : Config} {g : Gates} {gate : Nat} {d : Disk}
    (h : g.tryBegin gate = none) : Watch.regenerate c g gate d = ⟨[], none, g, d⟩ := by
  rw [Watch.regenerate, h]

theorem regenerate_of_free {c : Config} {g g' : Gates} {gate p : Nat} {d : Disk}
    (h : g.tryBegin gate = some (p, g')) :
    (Watch.regenerate c g gate d).disk = (Command.generate c d).2 ∧
      (Watch.regenerate c g gate d).gates = g := by
  rw [Watch.regenerate, h]
  cases Command.generate c d with
  | mk answer d' => cases answer <;> exact ⟨rfl, Gates.release_tryBegin h⟩

theorem Sound.count_le_one (h : t.Sound) (f : Nat) : t.live.count f ≤ 1 :=
  Multiset.nodup_iff_count_le_one.1 h.nodup f

/-- The flag of the next family stands behind those of the families that have gates. -/
theorem Sound.length_notMem (h : t.Sound) : t.gates.busy.length ∉ t.gates.family := fun hmem =>
  absurd (h.family_lt _ hmem) (Nat.lt_irrefl _)

theorem Sound.isSome_tryBegin {gate : Nat} (h : t.Sound)
    (hfamily : t.gates.family[gate]? = some f) :
    (t.gates.tryBegin gate).isSome = true ↔ f ∉ t.live := by
  rw [Gates.isSome_tryBegin hfamily, ← h.busy_iff, Bool.not_eq_true]

theorem Sound.orderly (h : t.Sound) : t.Orderly where
  copied gate f hfamily := ⟨Gates.family_copy hfamily, Gates.isSome_tryBegin_copy hfamily⟩
  added := ⟨_, h.length_notMem, rfl, Gates.isSome_tryBegin_add⟩
  atMostOne := h.count_le_one
  busy f := by
    rw [h.busy_iff, ← Multiset.one_le_count_iff_mem]
    have := h.count_le_one f
    omega
  granted gate f hfamily := by rw [h.isSome_tryBegin hfamily, Multiset.count_eq_zero]
  released gate f hf hfamily := by
    have hfamily' : (t.gates.release f).family[gate]? = some f := hfamily
    rw [Gates.isSome_tryBegin hfamily', Gates.isBusy_release]
    simp
  independent f t' hrun := hrun.sameFamily
  dropped c gate f d hfamily hf := by
    refine regenerate_of_busy (Option.not_isSome_iff_eq_none.1 ?_)
    rw [h.isSome_tryBegin hfamily]
    exact not_not_intro hf
  completed c gate f d hfamily hf := by
    have hsome := (h.isSome_tryBegin hfamily).2 hf
    obtain ⟨⟨p, g'⟩, hbegin⟩ := Option.isSome_iff_exists.1 hsome
    obtain ⟨hdisk, hgates⟩ := regenerate_of_free (c := c) (d := d) hbegin
    exact ⟨hdisk, hgates, hgates.symm ▸ hsome⟩

end Traffic

/-! ### Desks -/

/-- What can be asked of a desk. -/
inductive Desk.Request where
  | add
  | copy (gate : Nat)
  | begin (gate : Nat) (name : Text)
  | drop (name : Text)
  deriving DecidableEq, Repr

namespace Desk

/-- The desk after a request. -/
def apply (d : Desk) : Request → Desk
  | .add => { d with gates := d.gates.add }
  | .copy gate => { d with gates := d.gates.copy gate }
  | .begin gate name => (d.begin gate name).2
  | .drop name => (d.drop name).2

/-- The desk after some requests. -/
def run (d : Desk) (rs : List Request) : Desk := rs.foldl apply d

/-- The gates and the live permits of a desk. -/
def traffic (d : Desk) : Traffic := ⟨d.gates, (d.held.map Prod.snd : List Permit)⟩

/-- Every name holds one permit. -/
def NamesOnce (d : Desk) : Prop := (d.held.map Prod.fst).Nodup

variable {d : Desk} {name : Text} {p : Permit}

/-- The permit under a name, in front of those under other names. -/
theorem held_perm (hd : d.NamesOnce) (h : d.permit? name = some p) :
    d.held.Perm ((name, p) :: d.held.filter fun e => e.1 ≠ name) := by
  obtain ⟨gates, held⟩ := d
  simp only [NamesOnce, permit?] at hd h ⊢
  induction held with
  | nil => cases h
  | cons e es ih =>
    rw [List.map_cons, List.nodup_cons] at hd
    by_cases he : e.1 = name
    · obtain rfl : e = (name, p) := by
        rw [List.find?_cons_of_pos (by simpa using he)] at h
        exact Prod.ext he (Option.some.inj h)
      have hrest : (es.filter fun e => e.1 ≠ name) = es := by
        refine List.filter_eq_self.2 fun e' he' => ?_
        have hne : e'.1 ≠ name := fun heq => hd.1 (List.mem_map.2 ⟨e', he', heq⟩)
        simpa using hne
      rw [List.filter_cons_of_neg (by simp), hrest]
    · rw [List.find?_cons_of_neg (by simpa using he)] at h
      rw [List.filter_cons_of_pos (by simpa using he)]
      exact ((ih hd.2 h).cons e).trans (.swap _ _ _)

theorem drop_of_none (h : d.permit? name = none) : d.drop name = (false, d) := by
  rw [drop, h]

/-- Dropping a permit gives it back. -/
theorem traffic_drop (hd : d.NamesOnce) (h : d.permit? name = some p) :
    p ∈ d.traffic.live ∧
      (d.drop name).2.traffic = ⟨d.gates.release p, d.traffic.live.erase p⟩ := by
  have hlive : d.traffic.live = p ::ₘ (d.drop name).2.traffic.live := by
    rw [drop, h]
    exact Multiset.coe_eq_coe.2 ((held_perm hd h).map Prod.snd)
  rw [hlive, Multiset.erase_cons_head]
  refine ⟨Multiset.mem_cons_self p _, ?_⟩
  rw [drop, h]
  rfl

theorem begin_of_none {gate : Nat} (h : d.gates.tryBegin gate = none) :
    d.begin gate name = (false, d) := by
  rw [begin, h]

/-- A permit that was handed out is kept, and then the one that had its name is given back. -/
theorem traffic_begin {gate : Nat} {gates : Gates} (h : d.gates.tryBegin gate = some (p, gates)) :
    (d.begin gate name).2.traffic =
      ⟨(drop { d with gates } name).2.gates,
        p ::ₘ (drop { d with gates } name).2.traffic.live⟩ := by
  rw [begin, h]
  refine congrArg (Traffic.mk _) (Multiset.coe_eq_coe.2 ?_)
  rw [List.map_append]
  exact List.perm_append_singleton _ _

theorem isSome_begin {gate : Nat} : (d.begin gate name).1 = (d.gates.tryBegin gate).isSome := by
  rw [begin]
  cases d.gates.tryBegin gate <;> rfl

/-- The names are used once, and it can come to what the desk has. -/
structure Sound (d : Desk) : Prop where
  names : d.NamesOnce
  reachable : d.traffic.Reachable

theorem NamesOnce.drop (hd : d.NamesOnce) (name : Text) :
    (d.drop name).2.NamesOnce ∧ name ∉ (d.drop name).2.held.map Prod.fst := by
  rw [Desk.drop]
  cases h : d.permit? name with
  | some p => exact ⟨hd.sublist (List.filter_sublist.map _), by simp⟩
  | none =>
    refine ⟨hd, fun hmem => ?_⟩
    obtain ⟨e, he, hname⟩ := List.mem_map.1 hmem
    rw [permit?, Option.map_eq_none_iff, List.find?_eq_none] at h
    exact h e he (by simpa using hname)

theorem Sound.drop (hd : d.Sound) (name : Text) : (d.drop name).2.Sound := by
  refine ⟨(hd.names.drop name).1, ?_⟩
  cases h : d.permit? name with
  | none =>
    rw [drop_of_none h]
    exact hd.reachable
  | some p =>
    obtain ⟨hlive, htraffic⟩ := traffic_drop hd.names h
    rw [htraffic]
    exact hd.reachable.step (.release hlive)

/-- **Taking the name of another permit is two steps.** -/
theorem Sound.begin (hd : d.Sound) (gate : Nat) (name : Text) : (d.begin gate name).2.Sound := by
  cases h : d.gates.tryBegin gate with
  | none =>
    rw [begin_of_none h]
    exact hd
  | some r =>
    obtain ⟨p, gates⟩ := r
    have hnames : NamesOnce { d with gates } := hd.names
    obtain ⟨hrest, hname⟩ := hnames.drop name
    refine ⟨?_, ?_⟩
    · rw [NamesOnce, Desk.begin, h, List.map_append]
      exact List.nodup_append_comm.1 (List.nodup_cons.2 ⟨hname, hrest⟩)
    · have hgranted := hd.reachable.step (.grant h)
      rw [traffic_begin h]
      cases hheld : d.permit? name with
      | none => rwa [drop_of_none (d := ⟨gates, d.held⟩) hheld]
      | some q =>
        obtain ⟨hlive, htraffic⟩ := traffic_drop hnames hheld
        have hlive : q ∈ d.traffic.live := hlive
        have hgates : (Desk.drop { d with gates } name).2.gates = gates.release q :=
          congrArg Traffic.gates htraffic
        have hrest : (Desk.drop { d with gates } name).2.traffic.live = d.traffic.live.erase q :=
          congrArg Traffic.live htraffic
        rw [hgates, hrest, ← Multiset.erase_cons_tail_of_mem hlive]
        exact hgranted.step (.release (Multiset.mem_cons_of_mem hlive))

theorem Sound.apply (hd : d.Sound) (r : Request) : (d.apply r).Sound := by
  cases r with
  | add => exact ⟨hd.names, hd.reachable.step (.add rfl)⟩
  | copy gate =>
    cases h : d.gates.family[gate]? with
    | none =>
      have hsame : d.gates.copy gate = d.gates := by rw [Gates.copy, h]
      rw [Desk.apply, hsame]
      exact hd
    | some f => exact ⟨hd.names, hd.reachable.step (.copy h)⟩
  | begin gate name => exact hd.begin gate name
  | drop name => exact hd.drop name

theorem sound_single : single.Sound := by
  have hadd : Traffic.Step 0 .start single.traffic := .add rfl
  exact ⟨List.nodup_nil, .single ⟨0, trivial, hadd⟩⟩

/-- **What happens at a desk is a run of single steps.** -/
theorem sound_run (rs : List Request) : (single.run rs).Sound := by
  induction rs using List.reverseRecOn with
  | nil => exact sound_single
  | append_singleton rs r ih =>
    rw [run, List.foldl_append]
    exact ih.apply r

end Desk

/-- **At most one generation is in flight, and gates never get stuck.**  Whatever happens to gates
and permits, in any interleaving, and so after any requests at a desk: copies of a gate are of its family, and a new gate is not; the flag of
a family is set exactly while it has a live permit, it never has two, its gates hand one out exactly
when it has none, and other families do not matter. -/
theorem Traffic.reachable_orderly :
    (∀ t : Traffic, t.Reachable → t.Orderly) ∧
      ∀ rs : List Desk.Request, (Desk.single.run rs).traffic.Reachable ∧
        ∀ gate name f, (Desk.single.run rs).gates.family[gate]? = some f →
          (((Desk.single.run rs).begin gate name).1 = true ↔
            (Desk.single.run rs).traffic.live.count f = 0) := by
  have horderly (t : Traffic) (h : t.Reachable) : t.Orderly := h.sound.orderly
  refine ⟨horderly, fun rs => ?_⟩
  have hreachable := (Desk.sound_run rs).reachable
  refine ⟨hreachable, fun gate name f hfamily => ?_⟩
  rw [Desk.isSome_begin]
  exact (horderly _ hreachable).granted gate f hfamily

/-- A permit that takes the name of another family's one frees that family. -/
theorem Traffic.reachable_orderly_replaced :
    let d := Desk.single.run [.add, .copy 0, .begin 2 ['a'], .begin 1 ['a']]
    d.gates.busy = [false, true] ∧ ((d.begin 0 ['b']).1 = true ↔ d.traffic.live.count 0 = 0) ∧
      d.traffic.Orderly := by
  intro d
  obtain ⟨horderly, hdesk⟩ := Traffic.reachable_orderly
  obtain ⟨hreachable, hbegin⟩ := hdesk [.add, .copy 0, .begin 2 ['a'], .begin 1 ['a']]
  exact ⟨by decide, hbegin 0 ['b'] 0 (by decide), horderly _ hreachable⟩

end FileRoutes
