import FileRoutes.Proofs.Disk.Tree
import FileRoutes.Proofs.Path.Descend

/-!
# Resolving paths that go down

When a path leads to a directory and the directories below it are open, going down from it through
names leads to the place with these names (`Disk.look_descend`), whatever links the path itself
goes through.  The only other obstacle is the length of the path (`Disk.look_descend_of_long`).

So what lies below is listed and read by its path as it stands at its place
(`Disk.list_descend`, `Disk.read_descend`).
-/

namespace FileRoutes

namespace Disk

variable {d : Disk} {p : Place} {ns : List Name}

/-- Every directory on the way down from `p` through `ns` is open, the last one excepted. -/
def OpenWay (d : Disk) (p : Place) (ns : List Name) : Prop :=
  ∀ q x r, ns = q ++ x :: r → d.enter (p ++ q) = .ok ()

theorem enter_eq_ok {p : Place} :
    d.enter p = .ok () ↔ ∃ n, d.node? p = some n ∧ n.isDirectory = true ∧ n.locked = false := by
  unfold enter
  split
  · simp [*]
  · rename_i n hn
    split
    · split <;> simp [*]
    · simp [*]

theorem OpenWay.tail {x : Name} (h : d.OpenWay p (x :: ns)) : d.OpenWay (p ++ [x]) ns :=
  fun q y r hq => by
    rw [List.append_assoc]
    exact h (x :: q) y r (by rw [hq]; rfl)

/-! ### Walks -/

section Walks

variable {onLink : Place → List Bytes → Except Fault Spot}

/-- The first step of a walk that arrives somewhere does not depend on the other steps: it leads
to another place, or into a link. -/
theorem walkWith_cons {p₀ : Place} {piece : Bytes} {rest : List Bytes}
    (h : d.walkWith onLink true p₀ (piece :: rest) = .ok (.taken p)) :
    (∃ p₁, ∀ s, d.walkWith onLink true p₀ (piece :: s) = d.walkWith onLink true p₁ s) ∨
      ∃ p₁ ps, ∀ s, d.walkWith onLink true p₀ (piece :: s) = onLink p₁ (ps ++ s) := by
  cases henter : d.enter p₀ with
  | error f => simp [walkWith, henter] at h
  | ok =>
    by_cases hdot : piece = Path.dot
    · exact .inl ⟨p₀, fun s => by simp [walkWith, henter, hdot]⟩
    by_cases hdots : piece = Path.dotDot
    · have hne : Path.dotDot ≠ Path.dot := by decide
      exact .inl ⟨p₀.dropLast, fun s => by simp [walkWith, henter, hdots, hne]⟩
    by_cases hlen : maxNameLength < piece.length
    · simp [walkWith, henter, hdot, hdots, hlen] at h
    cases hn : d.node? (p₀ ++ [piece]) with
    | none =>
      simp only [walkWith, henter, hdot, hdots, hlen, hn, if_false] at h
      split at h <;> cases h
    | some n =>
      obtain ⟨entry, locked⟩ := n
      cases entry with
      | link target =>
        by_cases hraw : target.raw = []
        · simp [walkWith, henter, hdot, hdots, hlen, hn, hraw] at h
        · exact .inr ⟨target.origin p₀, target.linkSteps, fun s => by
            simp [walkWith, henter, hdot, hdots, hlen, hn, hraw]⟩
      | file content =>
        exact .inl ⟨p₀ ++ [piece], fun s => by simp [walkWith, henter, hdot, hdots, hlen, hn]⟩
      | directory =>
        exact .inl ⟨p₀ ++ [piece], fun s => by simp [walkWith, henter, hdot, hdots, hlen, hn]⟩

/-- A walk goes on from where it arrives. -/
theorem walkWith_append {s₂ : List Bytes} {r : Except Fault Spot}
    (hlink : ∀ p' s, onLink p' s = .ok (.taken p) → onLink p' (s ++ s₂) = r)
    (hr : d.walkWith onLink true p s₂ = r) {p₀ : Place} {s₁ : List Bytes}
    (h : d.walkWith onLink true p₀ s₁ = .ok (.taken p)) :
    d.walkWith onLink true p₀ (s₁ ++ s₂) = r := by
  induction s₁ generalizing p₀ with
  | nil =>
    obtain rfl : p₀ = p := by simpa [walkWith] using h
    exact hr
  | cons piece rest ih =>
    rw [List.cons_append]
    -- the first step leads on whatever follows, so it may be taken with and without `s₂`
    obtain ⟨p₁, hstep⟩ | ⟨p₁, ps, hstep⟩ := walkWith_cons h
    · rw [hstep] at h ⊢
      exact ih h
    · rw [hstep] at h ⊢
      rw [← List.append_assoc]
      exact hlink _ _ h

/-- A walk along names arrives at the place with these names. -/
theorem walkWith_names (hopen : d.OpenWay p ns) (hns : ∀ x ∈ ns, x.Proper) {n : Node}
    (hn : d.node? (p ++ ns) = some n) (hlink : ∀ t, n.entry ≠ .link t) :
    d.walkWith onLink true p ns = .ok (.taken (p ++ ns)) := by
  induction ns generalizing p with
  | nil => simp [walkWith]
  | cons x ns ih =>
    have hx := hns x List.mem_cons_self
    have henter : d.enter p = .ok () := by simpa using hopen [] x ns rfl
    -- what stands at the first name is no link: either it is the last one or an open directory
    obtain ⟨m, hm, hmlink⟩ : ∃ m, d.node? (p ++ [x]) = some m ∧ ∀ t, m.entry ≠ .link t := by
      cases ns with
      | nil => exact ⟨n, hn, hlink⟩
      | cons y ns =>
        obtain ⟨m, hm, hdir, -⟩ := enter_eq_ok.1 (hopen [x] y ns rfl)
        exact ⟨m, hm, fun t ht => by simp [Node.isDirectory, ht] at hdir⟩
    have hrest := ih hopen.tail (fun y hy => hns y (List.mem_cons_of_mem x hy)) (by simpa using hn)
    rw [walkWith, henter]
    simp only [if_neg hx.ne_dot, if_neg hx.ne_dotDot, if_neg (Nat.not_lt.2 hx.short), hm]
    obtain ⟨entry, locked⟩ := m
    cases entry with
    | link t => exact absurd rfl (hmlink t)
    | file content => simpa using hrest
    | directory => simpa using hrest

end Walks

theorem walk_names (hopen : d.OpenWay p ns) (hns : ∀ x ∈ ns, x.Proper) {n : Node}
    (hn : d.node? (p ++ ns) = some n) (hlink : ∀ t, n.entry ≠ .link t) (links : Nat) :
    d.walk true links p ns = .ok (.taken (p ++ ns)) := by
  cases links with
  | zero => exact walkWith_names hopen hns hn hlink
  | succ links => exact walkWith_names hopen hns hn hlink

/-- Links only use up their number: a walk that arrives goes on, whatever number is left. -/
theorem walk_append {s₂ : List Bytes} {r : Except Fault Spot}
    (hr : ∀ links, d.walk true links p s₂ = r) {links : Nat} {p₀ : Place} {s₁ : List Bytes}
    (h : d.walk true links p₀ s₁ = .ok (.taken p)) : d.walk true links p₀ (s₁ ++ s₂) = r := by
  induction links generalizing p₀ s₁ with
  | zero => exact walkWith_append (fun _ _ h => by cases h) (hr 0) h
  | succ links ih => exact walkWith_append (fun _ _ h => ih h) (hr (links + 1)) h

/-! ### Looking, listing and reading -/

variable {root : Path} {n₀ : Node}

theorem find_eq_of_look (h : d.look root = .ok (p, n₀)) :
    root.raw ≠ [] ∧ 0 ∉ root.raw ∧ root.raw.length ≤ maxPathLength ∧
      d.walk true maxLinks (root.origin d.home) root.steps = .ok (.taken p) ∧
        d.node? p = some n₀ := by
  unfold look at h
  split at h
  · cases h
  · cases h
  · rename_i q hfind
    split at h
    · cases h
    · rename_i m hm
      split at h
      · cases h
      · obtain ⟨rfl, rfl⟩ := Prod.mk.inj (Except.ok.inj h)
        unfold find at hfind
        split_ifs at hfind with h₁ h₂ h₃
        exact ⟨h₁, h₂, Nat.not_lt.1 h₃, hfind, hm⟩

/-- **Going down a path leads to the place below.** -/
theorem look_descend (hroot : d.look root = .ok (p, n₀)) (hopen : d.OpenWay p ns)
    (hns : ∀ x ∈ ns, x.Proper) {n : Node} (hn : d.node? (p ++ ns) = some n)
    (hlink : ∀ t, n.entry ≠ .link t) (hlen : (root.descend ns).raw.length ≤ maxPathLength) :
    d.look (root.descend ns) = .ok (p ++ ns, n) := by
  obtain ⟨hraw, hnul, -, hwalk, hp⟩ := find_eq_of_look hroot
  have hext := Path.extends_descend hraw hns
  by_cases hne : ns = []
  · subst hne
    rw [List.append_nil] at hn ⊢
    rw [Path.descend_nil, hroot, Option.some.inj (hp.symm.trans hn)]
  · -- the walk along the root arrives at `p`, and goes on from there along the names
    have hfind : d.find true (root.descend ns) = .ok (.taken (p ++ ns)) := by
      rw [find, if_neg hext.raw_ne_nil, if_neg (mt hext.nul.1 hnul), if_neg (Nat.not_lt.2 hlen),
        hext.steps, Path.origin, hext.isAbsolute]
      exact walk_append (walk_names hopen hns hn hlink) hwalk
    rw [look, hfind]
    simp only [hn, Path.endsInSlash_descend hraw hns hne, Bool.false_eq_true, false_and, if_false]

/-- A path that has become too long leads nowhere. -/
theorem look_descend_of_long (hroot : d.look root = .ok (p, n₀)) (hns : ∀ x ∈ ns, x.Proper)
    (hlen : maxPathLength < (root.descend ns).raw.length) :
    d.look (root.descend ns) = .error .nameTooLong := by
  obtain ⟨hraw, hnul, -, -, -⟩ := find_eq_of_look hroot
  have hext := Path.extends_descend hraw hns
  have hfind : d.find true (root.descend ns) = .error .nameTooLong := by
    rw [find, if_neg hext.raw_ne_nil, if_neg (mt hext.nul.1 hnul), if_pos hlen]
  rw [look, hfind]

/-- A directory below is listed unless it is locked or its path is too long. -/
theorem list_descend (hroot : d.look root = .ok (p, n₀)) (hopen : d.OpenWay p ns)
    (hns : ∀ x ∈ ns, x.Proper) {n : Node} (hn : d.node? (p ++ ns) = some n)
    (hdir : n.isDirectory = true) :
    d.list (root.descend ns) =
      if maxPathLength < (root.descend ns).raw.length then .error .nameTooLong
      else if n.locked then .error .accessDenied else .ok (d.inside (p ++ ns)) := by
  split_ifs with hlen hlock
  · rw [list, look_descend_of_long hroot hns hlen]
  all_goals
    have hlink : ∀ t, n.entry ≠ .link t := fun t ht => by simp [Node.isDirectory, ht] at hdir
    rw [list, look_descend hroot hopen hns hn hlink (Nat.not_lt.1 hlen)]
    simp [hdir, hlock]

/-- A file below is read unless it is locked or its path is too long. -/
theorem read_descend (hroot : d.look root = .ok (p, n₀)) (hopen : d.OpenWay p ns)
    (hns : ∀ x ∈ ns, x.Proper) {n : Node} (hn : d.node? (p ++ ns) = some n) {content : Bytes}
    (hfile : n.entry = .file content) :
    d.read (root.descend ns) =
      if maxPathLength < (root.descend ns).raw.length then .error .nameTooLong
      else if n.locked then .error .accessDenied else .ok content := by
  split_ifs with hlen hlock
  · rw [read, look_descend_of_long hroot hns hlen]
  all_goals
    have hlink : ∀ t, n.entry ≠ .link t := fun t ht => by rw [hfile] at ht; cases ht
    rw [read, look_descend hroot hopen hns hn hlink (Nat.not_lt.1 hlen)]
    simp [hfile, hlock]

end Disk

end FileRoutes
