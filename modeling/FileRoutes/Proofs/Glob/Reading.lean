import FileRoutes.Proofs.Glob.Names
import Mathlib.Tactic.SplitIfs

/-!
# The grammar of globs

A glob without two stars in a row spells one item after another (`Glob.Spells`), and the reader
finds these items and no others (`Glob.read_eq_ok_iff`).

When no set of the glob holds a slash, its slashes separate it: what stands between two of them is a
glob of its own, and the items of the whole are those of the pieces with slashes between them
(`Glob.Plain.exists_pieces`).  So such a glob covers a text exactly if the pieces of the one match
the pieces of the other (`Glob.Plain.covers_iff`).
-/

namespace FileRoutes

namespace Glob

variable {k : Token} {ts us : List Token} {t u : Text} {fresh : Bool}

/-! ### What a glob spells -/

/-- The text spells the item. -/
inductive SpellsItem : Text → Token → Prop where
  | char {c : Char} : c ≠ '*' → c ≠ '?' → c ≠ '[' → SpellsItem [c] (.char c)
  | any : SpellsItem ['?'] .any
  | run : SpellsItem ['*'] .run
  | inside {c : Char} {body : Text} : c ≠ '!' → ']' ∉ body →
      SpellsItem ('[' :: c :: (body ++ [']'])) (.inside (members (c :: body)))
  | outside {c : Char} {body : Text} : ']' ∉ body →
      SpellsItem ('[' :: '!' :: c :: (body ++ [']'])) (.outside (members (c :: body)))

/-- The text spells the items, one after another, and no two stars stand in a row. -/
inductive Spells : Text → List Token → Prop where
  | nil : Spells [] []
  | cons {u t : Text} {k : Token} {ts : List Token} :
      SpellsItem u k → (k = .run → t.head? ≠ some '*') → Spells t ts → Spells (u ++ t) (k :: ts)

/-- The set that some characters between brackets spell. -/
def setOf (negated : Bool) (chars : Text) : Token :=
  if negated then .outside (members chars) else .inside (members chars)

/-! ### Reading -/

theorem cons_eq_ok {r : Except Text (List Token)} :
    cons k r = .ok ts ↔ ∃ us, r = .ok us ∧ ts = k :: us := by
  cases r with
  | ok us => simp [cons, eq_comm]
  | error e => simp [cons]

/-- A set ends at the first `]` behind its first character. -/
theorem read_set {negated : Bool} {chars body : Text} (hbody : ']' ∉ body) :
    read (.set negated chars) (body ++ ']' :: t) =
      cons (setOf negated (chars.reverse ++ body)) (read (.item false) t) := by
  induction body generalizing chars with
  | nil => rw [List.nil_append, List.append_nil, read, if_pos rfl, setOf]
  | cons c body ih =>
    rw [List.mem_cons, not_or] at hbody
    rw [List.cons_append, read, if_neg (Ne.symm hbody.1), ih hbody.2, List.reverse_cons,
      List.append_assoc, List.singleton_append]

theorem read_set_of_notMem {negated : Bool} {chars : Text} (ht : ']' ∉ t) :
    read (.set negated chars) t = .error openSet := by
  induction t generalizing chars with
  | nil => rw [read]
  | cons c t ih =>
    rw [List.mem_cons, not_or] at ht
    rw [read, if_neg (Ne.symm ht.1), ih ht.2]

/-- The reader goes on behind an item that is spelled. -/
theorem read_append (hitem : SpellsItem u k) (hrun : k = .run → t.head? ≠ some '*') :
    read (.item fresh) (u ++ t) = cons k (read (.item (k = .char '/')) t) := by
  cases hitem with
  | char hstar _ hset => simp [read, hstar, hset]
  | any => simp [read]
  | run =>
    cases t with
    | nil => rfl
    | cons c t =>
      have hc : c ≠ '*' := by simpa using hrun rfl
      simp [read, hc]
  | inside hc hbody => simp [read, hc, read_set hbody, setOf]
  | outside hbody => simp [read, read_set hbody, setOf]

/-- What is spelled is read. -/
theorem Spells.read (h : Spells t ts) : read (.item fresh) t = .ok ts := by
  induction h generalizing fresh with
  | nil => rfl
  | @cons u t k ts hitem hrun _ ih =>
    rw [read_append hitem hrun]
    exact cons_eq_ok.2 ⟨ts, ih, rfl⟩

/-- What is read begins with an item that is spelled. -/
theorem exists_item_of_read {c : Char} (ht : ¬ ['*', '*'] <:+: c :: t)
    (h : read (.item fresh) (c :: t) = .ok ts) :
    ∃ u k r, c :: t = u ++ r ∧ SpellsItem u k ∧ (k = .run → r.head? ≠ some '*') := by
  by_cases hstar : c = '*'
  · subst hstar
    refine ⟨['*'], .run, t, rfl, .run, fun _ hhead => ?_⟩
    obtain ⟨r, rfl⟩ := List.head?_eq_some_iff.1 hhead
    exact ht (List.prefix_append ['*', '*'] r).isInfix
  by_cases hany : c = '?'
  · subst hany
    exact ⟨['?'], .any, t, rfl, .any, nofun⟩
  by_cases hset : c = '['
  · subst hset
    cases t with
    | nil => simp [read] at h
    | cons c t =>
      by_cases hnot : c = '!'
      · subst hnot
        cases t with
        | nil => simp [read] at h
        | cons c t =>
          have hclose : ']' ∈ t := by
            by_contra hclose
            simp [read, read_set_of_notMem hclose] at h
          obtain ⟨body, r, rfl, hbody⟩ := List.eq_append_cons_of_mem hclose
          exact ⟨'[' :: '!' :: c :: (body ++ [']']), _, r, by simp, .outside hbody, nofun⟩
      · have hclose : ']' ∈ t := by
          by_contra hclose
          simp [read, hnot, read_set_of_notMem hclose] at h
        obtain ⟨body, r, rfl, hbody⟩ := List.eq_append_cons_of_mem hclose
        exact ⟨'[' :: c :: (body ++ [']']), _, r, by simp, .inside hnot hbody, nofun⟩
  · exact ⟨[c], .char c, t, rfl, .char hstar hany hset, nofun⟩

theorem SpellsItem.ne_nil (h : SpellsItem u k) : u ≠ [] := by
  cases h <;> exact List.cons_ne_nil _ _

/-- **The reader finds what a glob spells**, if it has no two stars in a row. -/
theorem read_eq_ok_iff (ht : ¬ ['*', '*'] <:+: t) :
    read (.item fresh) t = .ok ts ↔ Spells t ts := by
  refine ⟨fun h => ?_, Spells.read⟩
  -- what stands behind an item is shorter
  induction hn : t.length using Nat.strongRecOn generalizing t ts fresh with
  | _ n ih =>
    subst hn
    cases t with
    | nil =>
      cases h
      exact .nil
    | cons c t =>
      obtain ⟨u, k, r, heq, hitem, hrun⟩ := exists_item_of_read ht h
      have hlength : r.length < (c :: t).length := by
        have hu := List.length_pos_iff.2 hitem.ne_nil
        rw [heq, List.length_append]
        omega
      rw [heq] at ht h ⊢
      have hr : ¬ ['*', '*'] <:+: r := fun hr => ht (hr.trans (List.suffix_append u r).isInfix)
      rw [read_append hitem hrun] at h
      obtain ⟨us, hus, rfl⟩ := cons_eq_ok.1 h
      exact .cons hitem hrun (ih r.length hlength hr hus rfl)

/-! ### Pieces of a glob -/

/-- The character itself is written in the set. -/
def Member.Names (c : Char) : Member → Prop
  | .single a => a = c
  | .range a b => a = c ∨ b = c

instance (c : Char) : (m : Member) → Decidable (m.Names c)
  | .single a => inferInstanceAs (Decidable (a = c))
  | .range a b => inferInstanceAs (Decidable (a = c ∨ b = c))

/-- The members of the set that an item is. -/
def Token.set : Token → List Member
  | .inside ms | .outside ms => ms
  | _ => []

/-- No slash is written in a set. -/
def NoSlashInSets (ts : List Token) : Prop := ∀ k ∈ ts, ∀ m ∈ k.set, ¬ m.Names '/'

instance (ts : List Token) : Decidable (NoSlashInSets ts) :=
  inferInstanceAs (Decidable (∀ k ∈ ts, ∀ m ∈ k.set, ¬ m.Names '/'))

/-- The text of a glob without `**` and without a slash in a set. -/
structure Plain (t : Text) : Prop where
  no_stars : ¬ ['*', '*'] <:+: t
  reads : ∃ ts, ofText t = .ok ts ∧ NoSlashInSets ts

/-- The text spells a glob for the name. -/
def Matches (t name : Text) : Prop := ∃ ts, ofText t = .ok ts ∧ Describes ts name

/-- Every character of a set is written in one of its members, except for the dashes of ranges. -/
theorem exists_names_of_mem {c : Char} (hc : c ≠ '-') (h : c ∈ t) :
    ∃ m ∈ members t, m.Names c := by
  fun_induction members t with
  | case1 a b r ih =>
    rw [List.mem_cons, List.mem_cons, List.mem_cons] at h
    obtain rfl | rfl | rfl | h := h
    · exact ⟨_, List.mem_cons_self, .inl rfl⟩
    · exact absurd rfl hc
    · exact ⟨_, List.mem_cons_self, .inr rfl⟩
    · obtain ⟨m, hm, hname⟩ := ih h
      exact ⟨m, List.mem_cons_of_mem _ hm, hname⟩
  | case2 a r _ ih =>
    obtain rfl | h := List.mem_cons.1 h
    · exact ⟨_, List.mem_cons_self, rfl⟩
    · obtain ⟨m, hm, hname⟩ := ih h
      exact ⟨m, List.mem_cons_of_mem _ hm, hname⟩
  | case3 => cases h

namespace SpellsItem

theorem ne_pieces (h : SpellsItem u k) : k ≠ .pieces := by
  rintro rfl
  cases h

theorem eq_slash (h : SpellsItem u (.char '/')) : u = ['/'] := by
  cases h
  rfl

theorem slash_notMem (h : SpellsItem u k) (hk : k ≠ .char '/')
    (hset : ∀ m ∈ k.set, ¬ m.Names '/') : '/' ∉ u := by
  have hchars {chars : Text} (h : ∀ m ∈ members chars, ¬ m.Names '/') : '/' ∉ chars := by
    intro hmem
    obtain ⟨m, hm, hname⟩ := exists_names_of_mem (by decide) hmem
    exact h m hm hname
  cases h with
  | @char c =>
    rw [List.mem_singleton]
    rintro rfl
    exact hk rfl
  | any => decide
  | run => decide
  | inside => simpa using hchars hset
  | outside => simpa using hchars hset

end SpellsItem

/-- **The slashes of a glob separate it**, if no set holds one: its pieces are globs, and its items
are those of the pieces with slashes between them. -/
theorem Spells.exists_pieces (h : Spells t ts) (hsets : NoSlashInSets ts) :
    ∃ gs, List.Forall₂ Spells (splitOn '/' t) gs ∧ (∀ g ∈ gs, OnePiece g) ∧
      ts = joinWith (.char '/') gs := by
  have hnil : OnePiece [] := ⟨List.not_mem_nil, List.not_mem_nil⟩
  induction h with
  | nil => exact ⟨[[]], .cons .nil .nil, List.forall_mem_singleton.2 hnil, rfl⟩
  | @cons u t k ts hitem hrun _ ih =>
    obtain ⟨hset, hsets⟩ := List.forall_mem_cons.1 hsets
    obtain ⟨gs, hgs, hone, rfl⟩ := ih hsets
    obtain ⟨p, ps, hsplit⟩ := List.exists_cons_of_ne_nil (splitOn_ne_nil '/' t)
    rw [hsplit] at hgs
    by_cases hk : k = .char '/'
    · subst hk
      obtain rfl := hitem.eq_slash
      refine ⟨[] :: gs, ?_, List.forall_mem_cons.2 ⟨hnil, hone⟩, ?_⟩
      · rw [List.singleton_append, splitOn, if_pos rfl, hsplit]
        exact .cons .nil hgs
      · cases hgs
        exact (joinWith_nil_cons _ (List.cons_ne_nil _ _)).symm
    · obtain _ | ⟨hp, hps⟩ := hgs
      obtain ⟨hone, hones⟩ := List.forall_mem_cons.1 hone
      have hhead (hrun' : k = .run) : p.head? ≠ some '*' := by
        intro hstar
        obtain ⟨r, rfl⟩ := prefix_of_splitOn hsplit
        exact hrun hrun' (by rw [List.head?_append, hstar]; rfl)
      rw [splitOn_append_of_notMem (hitem.slash_notMem hk hset) hsplit]
      exact ⟨_, .cons (.cons hitem hhead hp) hps,
        List.forall_mem_cons.2 ⟨onePiece_cons.2 ⟨⟨hk, hitem.ne_pieces⟩, hone⟩, hones⟩,
        (joinWith_consFirst _ k (List.cons_ne_nil _ _)).symm⟩

theorem Matches.of_covers {name : Text} (hts : ofText t = .ok ts) (hone : OnePiece ts)
    (h : covers ts name = true) : Matches t name :=
  ⟨ts, hts, ((covers_piece hone).1 h).2⟩

theorem forall₂_matches {pieces names : List Text} {gs : List (List Token)}
    (h : List.Forall₂ (fun piece g => ofText piece = .ok g) pieces gs) :
    List.Forall₂ Describes gs names ↔ List.Forall₂ Matches pieces names := by
  induction h generalizing names with
  | nil =>
    cases names <;> simp
  | cons hpiece _ ih =>
    cases names with
    | nil => simp
    | cons n names => simp [ih, Matches, hpiece]

/-- **A glob without `**` and without a slash in a set covers a text exactly if their pieces
match one by one.** -/
theorem Plain.covers_iff (h : Plain t) (hts : ofText t = .ok ts) (s : Text) :
    covers ts s = true ↔ List.Forall₂ Matches (splitOn '/' t) (splitOn '/' s) := by
  obtain ⟨us, hus, hsets⟩ := h.reads
  obtain rfl : ts = us := Except.ok.inj (hts.symm.trans hus)
  obtain ⟨gs, hgs, hone, rfl⟩ := ((read_eq_ok_iff h.no_stars).1 hts).exists_pieces hsets
  have hne : gs ≠ [] := by
    rintro rfl
    exact splitOn_ne_nil '/' t (List.forall₂_nil_right_iff.1 hgs)
  rw [covers_joinWith hone hne]
  exact forall₂_matches (hgs.imp fun _ _ hg => hg.read)

end Glob

end FileRoutes
