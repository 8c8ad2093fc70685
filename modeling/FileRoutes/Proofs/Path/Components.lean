import FileRoutes.Proofs.Path.Descend

/-!
# The parts of a path below

However a path is spelled, a path of names that is joined to it adds its names to the parts
(`Path.components_join`), and so does going down from it through file names
(`Path.components_descend`), so they are what lies below it (`Path.below?_descend`).  What contains
a path with one more name has the parts of the path without it, and is spelled in one way for all
names (`Path.exists_parent?_descend`).

All of this comes from the pieces that a path has in front of what is joined to it
(`Path.Stem`).
-/

namespace FileRoutes

namespace Path

/-- The parts that a first piece and further ones spell. -/
def spelled (first : Bytes) (rest : List Bytes) : List Component :=
  (firstComponent? first false).toList ++ rest.filterMap innerComponent?

/-- These pieces stand in front of everything that is joined to the path. -/
structure Stem (p : Path) (first : Bytes) (rest : List Bytes) : Prop where
  no_slash : ∀ piece ∈ first :: rest, slash ∉ piece
  components : p.components = spelled first rest
  pieces_join : ∀ q : Path, q.isAbsolute = false → (p.join q).pieces = first :: (rest ++ q.pieces)

variable {p q : Path} {n : Name} {ns : List Name} {first : Bytes} {rest : List Bytes}

theorem startsWith_iff : p.startsWith q = true ↔ q.components <+: p.components := by
  rw [startsWith, List.isPrefixOf_iff_prefix]

/-! ### Pieces and parts -/

/-- Only an empty first piece is something else when it stands alone. -/
theorem components_eq_spelled (h : p.pieces = first :: rest) (hne : first ≠ [] ∨ rest ≠ []) :
    p.components = spelled first rest := by
  rw [components, h, spelled]
  cases rest with
  | nil =>
    have hfirst : first ≠ [] := hne.resolve_right fun h => h rfl
    simp [firstComponent?, hfirst]
  | cons piece rest => rfl

theorem innerComponent?_name (hn : n.Proper) : innerComponent? n = some (.name n) := by
  simp [innerComponent?, isIdle, hn.ne_nil, hn.ne_dot, hn.ne_dotDot]

theorem pieces_name (hn : n.Proper) : pieces ⟨n⟩ = [n] := splitOn_of_notMem hn.no_slash

theorem components_name (hn : n.Proper) : components ⟨n⟩ = [.name n] := by
  simp [components, pieces_name hn, firstComponent?, hn.ne_nil, hn.ne_dot, innerComponent?_name hn]

/-! ### Paths of names -/

theorem isAbsolute_of_names (hq : q.components = ns.map .name) : q.isAbsolute = false := by
  rw [isAbsolute, decide_eq_false_iff_not]
  intro hslash
  obtain ⟨l, hl⟩ := List.head?_eq_some_iff.1 hslash
  have hpieces : q.pieces = [] :: splitOn slash l := by rw [pieces, hl, splitOn, if_pos rfl]
  rw [components_eq_spelled hpieces (.inr (splitOn_ne_nil _ _))] at hq
  cases ns <;> simp [spelled, firstComponent?] at hq

/-- In a path of names the first piece counts like the others. -/
theorem inner_pieces_of_names (hq : q.components = ns.map .name) :
    q.pieces.filterMap innerComponent? = ns.map .name := by
  obtain ⟨first, rest, hpieces⟩ := List.exists_cons_of_ne_nil (splitOn_ne_nil slash q.raw)
  have hcomponents : q.components =
      (firstComponent? first rest.isEmpty).toList ++ rest.filterMap innerComponent? := by
    rw [components, pieces, hpieces]
  have hname : ∀ c, firstComponent? first rest.isEmpty = some c → ∃ n, c = .name n := by
    intro c hc
    have hmem : c ∈ q.components := by simp [hcomponents, hc]
    rw [hq] at hmem
    obtain ⟨n, -, rfl⟩ := List.mem_map.1 hmem
    exact ⟨n, rfl⟩
  have hfirst : firstComponent? first rest.isEmpty = innerComponent? first := by
    unfold firstComponent? at hname ⊢
    split_ifs at hname ⊢ with hnil halone hdot
    · simp [hnil, innerComponent?, isIdle]
    · obtain ⟨n, hn⟩ := hname .root rfl
      cases hn
    · obtain ⟨n, hn⟩ := hname .current rfl
      cases hn
    · rfl
  rw [← hq, hcomponents, hfirst, pieces, hpieces]
  cases hinner : innerComponent? first with
  | none => simp [hinner]
  | some c => simp [hinner]

theorem slash_notMem_of_names (hq : q.components = ns.map .name) : ∀ n ∈ ns, slash ∉ n := by
  intro n hn
  have hmem : Component.name n ∈ q.pieces.filterMap innerComponent? := by
    rw [inner_pieces_of_names hq]
    exact List.mem_map_of_mem hn
  obtain ⟨piece, hpiece, hname⟩ := List.mem_filterMap.1 hmem
  unfold innerComponent? at hname
  split_ifs at hname
  · cases hname
  · cases hname
    exact notMem_of_mem_splitOn hpiece

/-! ### Joining -/

theorem exists_stem (hp : p.raw ≠ []) : ∃ first rest, Stem p first rest := by
  by_cases hend : p.raw.getLast? = some slash
  · -- the slash at the end takes the name, so the empty piece behind it goes away
    obtain ⟨l, hl⟩ := List.getLast?_eq_some_iff.1 hend
    obtain ⟨first, rest, hsplit⟩ := List.exists_cons_of_ne_nil (splitOn_ne_nil slash l)
    have hpieces : p.pieces = first :: (rest ++ [[]]) := by
      simp [pieces, hl, splitOn_append_sep, hsplit, splitOn]
    refine ⟨first, rest, fun piece h => notMem_of_mem_splitOn (hsplit ▸ h), ?_, fun q hq => ?_⟩
    · rw [components_eq_spelled hpieces (.inr (by simp))]
      simp [spelled, innerComponent?, isIdle]
    · simp [pieces, join, hq, hl, splitOn_append_sep, hsplit]
  · obtain ⟨first, rest, hsplit⟩ := List.exists_cons_of_ne_nil (splitOn_ne_nil slash p.raw)
    refine ⟨first, rest, fun piece h => notMem_of_mem_splitOn (hsplit ▸ h), ?_, fun q hq => ?_⟩
    · refine components_eq_spelled hsplit ?_
      by_contra hnone
      push Not at hnone
      -- a path that is one empty piece is empty
      have hraw := joinWith_splitOn slash p.raw
      rw [hsplit, hnone.1, hnone.2] at hraw
      exact hp hraw.symm
    · simp [pieces, join, hq, hend, hp, splitOn_append_sep, hsplit]

namespace Stem

variable (h : Stem p first rest)

include h

theorem pieces_join_name (hn : n.Proper) : (p.join ⟨n⟩).pieces = first :: (rest ++ [n]) := by
  rw [h.pieces_join ⟨n⟩ (isAbsolute_name hn), pieces_name hn]

theorem components_join (hq : q.components = ns.map .name) :
    (p.join q).components = p.components ++ ns.map .name := by
  have hpieces := h.pieces_join q (isAbsolute_of_names hq)
  have hne : rest ++ q.pieces ≠ [] := List.append_ne_nil_of_right_ne_nil _ (splitOn_ne_nil _ _)
  rw [components_eq_spelled hpieces (.inr hne), h.components, spelled, spelled,
    List.filterMap_append, inner_pieces_of_names hq, List.append_assoc]

/-- Taking idle pieces away from the end of a path does not change its parts. -/
theorem exists_head?_shrink {b : Path} (hb : b.components = (firstComponent? first false).toList)
    (base : List Path) :
    ∃ q, (shrink (b :: base) first rest.reverse).head? = some q ∧
      q.components = p.components := by
  have hslash := h.no_slash
  rw [h.components]
  clear h
  induction rest using List.reverseRecOn with
  | nil => exact ⟨b, rfl, by simp [hb, spelled]⟩
  | append_singleton rest piece ih =>
    rw [List.reverse_concat, shrink]
    split_ifs with hidle
    · have hspelled : spelled first (rest ++ [piece]) = spelled first rest := by
        simp [spelled, innerComponent?, hidle]
      rw [hspelled]
      refine ih fun x hx => hslash x ?_
      rw [← List.cons_append]
      exact List.mem_append_left _ hx
    · refine ⟨_, rfl, ?_⟩
      rw [List.reverse_cons, List.reverse_reverse]
      exact components_eq_spelled (splitOn_joinWith (by simp) hslash) (.inr (by simp))

/-- What contains a path with one more name does not depend on the name. -/
theorem exists_parent?_join :
    ∃ q, q.components = p.components ∧ ∀ n : Name, n.Proper → (p.join ⟨n⟩).parent? = some q := by
  have hslash : slash ∉ first := h.no_slash first List.mem_cons_self
  obtain ⟨b, base, hb, hbase⟩ : ∃ b base, b.components = (firstComponent? first false).toList ∧
      ∀ n : Name, n.Proper → (p.join ⟨n⟩).ancestors =
        p.join ⟨n⟩ :: (shrink (b :: base) first (n :: rest.reverse)).tail := by
    by_cases hfirst : first = []
    · refine ⟨⟨[slash]⟩, [], by rw [hfirst]; rfl, fun n hn => ?_⟩
      simp [ancestors, h.pieces_join_name hn, hfirst]
    · refine ⟨⟨first⟩, [⟨[]⟩], ?_, fun n hn => ?_⟩
      · rw [components_eq_spelled (splitOn_of_notMem hslash) (.inl hfirst), spelled]
        simp
      · simp [ancestors, h.pieces_join_name hn, hfirst]
  obtain ⟨q, hq, hcomponents⟩ := h.exists_head?_shrink hb base
  refine ⟨q, hcomponents, fun n hn => ?_⟩
  have hidle : isIdle n = false := by simp [isIdle, hn.ne_nil, hn.ne_dot]
  rw [parent?, hbase n hn, shrink, hidle]
  simpa [List.head?_eq_getElem?] using hq

end Stem

/-! ### Going down -/

/-- **A path of names adds its names to the parts of the path that it is joined to.** -/
theorem components_join (hq : q.components = ns.map .name) (p : Path) :
    (p.join q).components = p.components ++ q.components := by
  by_cases hp : p.raw = []
  · have hnil : p.components = [] := by simp [components, pieces, hp, splitOn, firstComponent?]
    simp [join, isAbsolute_of_names hq, hp, hnil]
  · obtain ⟨first, rest, hstem⟩ := exists_stem hp
    rw [hstem.components_join hq, hq]

/-- **Going down through file names adds them to the parts of a path.** -/
theorem components_descend (hp : p.raw ≠ []) (hns : ∀ n ∈ ns, n.Proper) :
    (p.descend ns).components = p.components ++ ns.map .name := by
  induction ns using List.reverseRecOn with
  | nil => simp
  | append_singleton ns n ih =>
    have hns' : ∀ m ∈ ns, m.Proper := fun m hm => hns m (List.mem_append_left _ hm)
    obtain ⟨first, rest, hstem⟩ := exists_stem (extends_descend hp hns').raw_ne_nil
    have hname : Path.components ⟨n⟩ = [n].map .name := components_name (hns n (by simp))
    rw [descend_concat, hstem.components_join hname, ih hns']
    simp

theorem below?_descend (hp : p.raw ≠ []) (hns : ∀ n ∈ ns, n.Proper) :
    (p.descend ns).below? p = some (ns.map .name) := by
  have hcomponents := components_descend hp hns
  have hstarts : (p.descend ns).startsWith p = true := by
    rw [startsWith_iff, hcomponents]
    exact List.prefix_append _ _
  rw [below?, if_pos hstarts, hcomponents, List.drop_left]

/-- **What contains the files below a path has the parts that lead down to them**, and it is the
same path for all of them. -/
theorem exists_parent?_descend (hp : p.raw ≠ []) (hns : ∀ n ∈ ns, n.Proper) :
    ∃ q, q.components = p.components ++ ns.map .name ∧
      ∀ n : Name, n.Proper → (p.descend (ns ++ [n])).parent? = some q := by
  obtain ⟨first, rest, hstem⟩ := exists_stem (extends_descend hp hns).raw_ne_nil
  obtain ⟨q, hq, hparent⟩ := hstem.exists_parent?_join
  refine ⟨q, hq.trans (components_descend hp hns), fun n hn => ?_⟩
  rw [descend_concat]
  exact hparent n hn

end Path

end FileRoutes
