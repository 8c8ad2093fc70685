import FileRoutes.Proofs.Disk.Growth

/-!
# Putting nodes on a disk

Putting a node that stands there already changes nothing (`Disk.put_self`).  The places keep their
order, with at most one new place between them (`Disk.places_sublist_put`), and a tree stays a tree
when the node goes into a directory, and what stood at its place is no directory or stays one
(`Disk.Tree.put`).
-/

namespace FileRoutes

namespace Disk

variable {d : Disk} {p : Place} {n : Node} {es : List (Place × Node)}

/-! ### The list of nodes -/

theorem mem_putNode {e : Place × Node} (h : e ∈ putNode p n es) : e = (p, n) ∨ e ∈ es := by
  induction es with
  | nil => exact .inl (List.mem_singleton.1 h)
  | cons f es ih =>
    rw [putNode] at h
    split_ifs at h
    · exact (List.mem_cons.1 h).imp_right (List.mem_cons_of_mem f)
    · exact List.mem_cons.1 h
    · obtain rfl | h := List.mem_cons.1 h
      · exact .inr List.mem_cons_self
      · exact (ih h).imp_right (List.mem_cons_of_mem f)

theorem places_putNode_of_mem (h : p ∈ es.map Prod.fst) :
    (putNode p n es).map Prod.fst = es.map Prod.fst := by
  induction es with
  | nil => cases h
  | cons e es ih =>
    rw [putNode]
    by_cases he : e.1 = p
    · rw [if_pos he, List.map_cons, List.map_cons, he]
    · have h : p ∈ es.map Prod.fst := (List.mem_cons.1 h).resolve_left (Ne.symm he)
      rw [if_neg he, if_neg (fun hc => hc.2 h), List.map_cons, List.map_cons, ih h]

/-- A new place goes somewhere between the others. -/
theorem places_putNode_of_notMem (h : p ∉ es.map Prod.fst) :
    ∃ l r, es.map Prod.fst = l ++ r ∧ (putNode p n es).map Prod.fst = l ++ p :: r := by
  induction es with
  | nil => exact ⟨[], [], rfl, rfl⟩
  | cons e es ih =>
    rw [List.map_cons, List.mem_cons, not_or] at h
    rw [putNode, if_neg (Ne.symm h.1)]
    split_ifs
    · exact ⟨[], _, rfl, rfl⟩
    · obtain ⟨l, r, hes, hput⟩ := ih h.2
      exact ⟨e.1 :: l, r, by simp [hes], by simp [hput]⟩

/-! ### Disks -/

theorem places_sublist_put (d : Disk) (p : Place) (n : Node) :
    (d.nodes.map Prod.fst).Sublist ((d.put p n).nodes.map Prod.fst) := by
  by_cases h : p ∈ d.nodes.map Prod.fst
  · rw [put, places_putNode_of_mem h]
  · obtain ⟨l, r, hes, hput⟩ := places_putNode_of_notMem (n := n) h
    rw [put, hes, hput]
    exact List.Sublist.append_left (List.sublist_cons_self p r) l

/-- **Putting what stands there already changes nothing.** -/
theorem put_self (hp : p ≠ []) (h : d.node? p = some n) : d.put p n = d := by
  have hput (es : List (Place × Node)) (h : (es.find? fun e => e.1 = p).map Prod.snd = some n) :
      putNode p n es = es := by
    induction es with
    | nil => cases h
    | cons e es ih =>
      rw [putNode]
      by_cases he : e.1 = p
      · obtain rfl : e.2 = n := by simpa [List.find?_cons, he] using h
        rw [if_pos he, ← he]
      · have h : (es.find? fun e => e.1 = p).map Prod.snd = some n := by
          simpa [List.find?_cons, he] using h
        obtain ⟨f, hf, -⟩ := Option.map_eq_some_iff.1 h
        have hmem : p ∈ es.map Prod.fst :=
          List.mem_map.2 ⟨f, List.mem_of_find?_eq_some hf, by simpa using List.find?_some hf⟩
        rw [if_neg he, if_neg (fun hc => hc.2 hmem), ih h]
  rw [node?, if_neg hp] at h
  rw [put, hput _ h]

/-- Directories stay when what is put in their place is one. -/
theorem directoryAt_put {q : Place} (hp : p ≠ [])
    (h : ∀ m, d.node? p = some m → m.isDirectory = true → n.isDirectory = true)
    (hq : d.directoryAt q = true) : (d.put p n).directoryAt q = true := by
  obtain ⟨m, hm, hdir⟩ := directoryAt_iff.1 hq
  refine directoryAt_iff.2 ?_
  rw [node?_put d hp]
  split_ifs with heq
  · exact ⟨n, rfl, h m (heq ▸ hm) hdir⟩
  · exact ⟨m, hm, hdir⟩

/-- **Putting a node with a file name into a directory keeps a tree a tree.** -/
theorem Tree.put {x : Name} (hd : d.Tree) (hx : x.Proper) (hp : d.directoryAt p = true)
    (h : ∀ m, d.node? (p ++ [x]) = some m → m.isDirectory = true → n.isDirectory = true) :
    (d.put (p ++ [x]) n).Tree := by
  have hne : p ++ [x] ≠ [] := by simp
  refine ⟨?_, fun e he => ?_, fun e he => ?_, fun e he => ?_⟩
  · by_cases hmem : p ++ [x] ∈ d.nodes.map Prod.fst
    · rw [Disk.put, places_putNode_of_mem hmem]
      exact hd.nodup
    · obtain ⟨l, r, hes, hput⟩ := places_putNode_of_notMem (n := n) hmem
      rw [Disk.put, hput]
      have hnodup := hd.nodup
      rw [hes] at hnodup hmem
      exact List.nodup_middle.2 (List.nodup_cons.2 ⟨hmem, hnodup⟩)
  · obtain rfl | he := mem_putNode he
    · exact hne
    · exact hd.ne_top e he
  · refine directoryAt_put hne h ?_
    obtain rfl | he := mem_putNode he
    · rwa [List.dropLast_concat]
    · exact hd.inside e he
  · obtain rfl | he := mem_putNode he
    · obtain ⟨m, hm, -⟩ := directoryAt_iff.1 hp
      intro y hy
      obtain hy | hy := List.mem_append.1 hy
      · exact proper_of_node? hd hm y hy
      · exact List.mem_singleton.1 hy ▸ hx
    · exact hd.proper e he

end Disk

end FileRoutes
