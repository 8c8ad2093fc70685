import FileRoutes.Proofs.Disk.Growth
import FileRoutes.Proofs.Scan.Pages

/-!
# Changes that a scan does not notice

A scan that succeeds finds the same records after changes in which nothing goes away, page files
keep their contents, and only open directories and files that are no pages come up
(`Scan.Unnoticed`).  It comes across more, but of what it comes across only page files and closed
directories count (`Scan.counts`, `Scan.collect_filter`), and these are the same in the same order
(`Scan.filter_walk`): a new directory has only new things below it (`Scan.filter_walk_new`).

- `Disk.scan_unnoticed`: the scan after such changes.
- `Disk.scan_unnoticed_of_files`: the scan after changes in which no directory comes up.

The paths of new directories have to be short enough (`Scan.NewPathsFit`), or they cannot be listed.
A root that had not been there may come up with the changes, if its path does not go back with
`..`.
-/

namespace FileRoutes

/-- A list of pairs goes through a function like a longer one of which the other elements add
nothing, when no key occurs twice. -/
theorem flatMap_eq_of_sublist {α β γ : Type} {f g : α × β → List γ} {es es' : List (α × β)}
    (hsub : (es.map Prod.fst).Sublist (es'.map Prod.fst)) (hnodup : (es'.map Prod.fst).Nodup)
    (hsame : ∀ x n m, (x, n) ∈ es → (x, m) ∈ es' → g (x, m) = f (x, n))
    (hnew : ∀ x m, (x, m) ∈ es' → x ∉ es.map Prod.fst → g (x, m) = []) :
    es'.flatMap g = es.flatMap f := by
  induction es' generalizing es with
  | nil =>
    obtain rfl : es = [] := by simpa using hsub
    rfl
  | cons e' es' ih =>
    obtain ⟨x, m⟩ := e'
    obtain ⟨hx, hnodup'⟩ := List.nodup_cons.1 hnodup
    rw [List.flatMap_cons]
    obtain hrest | ⟨r, hr, hrest⟩ := List.sublist_cons_iff.1 hsub
    · -- the element is one of the others
      rw [hnew x m List.mem_cons_self fun h => hx (hrest.subset h), List.nil_append]
      exact ih hrest hnodup' (fun y n k hy hk => hsame y n k hy (List.mem_cons_of_mem _ hk))
        fun y k hk => hnew y k (List.mem_cons_of_mem _ hk)
    · obtain ⟨⟨y, n⟩, es, rfl, hy, rfl⟩ := List.map_eq_cons_iff.1 hr
      obtain rfl : y = x := hy
      rw [List.flatMap_cons, hsame _ n m List.mem_cons_self List.mem_cons_self]
      refine congrArg _ (ih hrest hnodup'
        (fun y n k hy hk => hsame y n k (List.mem_cons_of_mem _ hy) (List.mem_cons_of_mem _ hk))
        fun y k hk hy => hnew y k (List.mem_cons_of_mem _ hk) fun h => ?_)
      obtain rfl | h := List.mem_cons.1 h
      · exact hx (List.mem_map.2 ⟨(_, k), hk, rfl⟩)
      · exact hy h

namespace Disk

/-- The names in a directory, in the order in which it is listed. -/
theorem names_inside (d : Disk) (p : Place) :
    (d.inside p).map Prod.fst = (d.nodes.map Prod.fst).filterMap fun q =>
      if q.dropLast = p then q.getLast? else none := by
  rw [inside, List.map_filterMap, List.filterMap_map]
  refine List.filterMap_congr fun e _ => ?_
  simp only [Function.comp_apply]
  split_ifs
  · cases e.1.getLast? <;> rfl
  · rfl

/-- What lies below a place where nothing stands is missing as well. -/
theorem node?_append_of_none {d : Disk} (hd : d.Tree) {p : Place} (h : d.node? p = none)
    (q : Place) : d.node? (p ++ q) = none := by
  by_cases hq : q = []
  · rwa [hq, List.append_nil]
  cases hn : d.node? (p ++ q) with
  | none => rfl
  | some n =>
    obtain ⟨k, hk, -⟩ := directoryAt_iff.1 (directoryAt_of_append hd hq hn)
    cases h.symm.trans hk

end Disk

namespace Scan

/-- A scan that succeeds does not notice the difference between two disks. -/
structure Unnoticed (d d' : Disk) : Prop where
  grows : d.Grows d'
  places : (d.nodes.map Prod.fst).Sublist (d'.nodes.map Prod.fst)
  /-- Page files keep their contents. -/
  pages : ∀ p n, d.node? p = some n → NamesPage p → d'.node? p = some n
  /-- What is new is an open directory, or no directory and no page. -/
  new : ∀ p m, d.node? p = none → d'.node? p = some m →
    m.isDirectory = true ∧ m.locked = false ∨ m.isDirectory = false ∧ ¬NamesPage p

/-- The new directories that a scan visits have paths that are short enough. -/
def NewPathsFit (d d' : Disk) (root : Path) (exclude : Path → Bool) : Prop :=
  ∀ p n dirs, d'.look root = .ok (p, n) → Visited d' p exclude dirs →
    d.node? (p ++ dirs) = none → (root.descend dirs).raw.length ≤ maxPathLength

/-- What can add a record or an error. -/
def counts : Sight → Bool
  | .candidate _ => false
  | .closed _ _ => true
  | .file names => names.getLast?.any Page.isFileName

theorem namesPage_append {p : Place} {names : List Name} (h : names ≠ []) :
    NamesPage (p ++ names) ↔ NamesPage names := by
  rw [NamesPage, NamesPage, List.getLast?_append_of_ne_nil p h]

variable {d d' : Disk} {root : Path} {exclude : Path → Bool} {p : Place} {n₀ n₀' : Node}
  {dirs : List Name} {levels levels' : Nat} {xs : List Sight} {x : Name} {m n : Node}

/-! ### What counts -/

theorem recognize_of_not_counts {x : Sight} (h : counts x = false) :
    recognize d root x = .ok none := by
  cases x with
  | candidate dirs => rfl
  | closed dirs f => cases h
  | file names =>
    rw [counts] at h
    rw [recognize, h]
    rfl

/-- **Only what counts is collected.** -/
theorem collect_filter : collect d root (xs.filter counts) = collect d root xs := by
  induction xs with
  | nil => rfl
  | cons x xs ih =>
    cases hx : counts x with
    | true => rw [List.filter_cons_of_pos hx, collect, collect, ih]
    | false =>
      rw [List.filter_cons_of_neg (by simp [hx]), ih, collect, recognize_of_not_counts hx]
      cases collect d root xs <;> rfl

theorem collect_congr (h : ∀ x ∈ xs, recognize d root x = recognize d' root x) :
    collect d root xs = collect d' root xs := by
  induction xs with
  | nil => rfl
  | cons x xs ih =>
    rw [collect, collect, h x List.mem_cons_self, ih fun y hy => h y (List.mem_cons_of_mem x hy)]

/-! ### One entry -/

/-- Nothing at a new entry counts, when nothing in a new directory does. -/
theorem filter_walkEntry_new {below : List Name → List Sight}
    (hm : m.isDirectory = true ∨ ¬NamesPage (dirs ++ [x]))
    (hbelow : Entered exclude dirs (x, m) → (below (dirs ++ [x])).filter counts = []) :
    (walkEntry exclude below dirs (x, m)).filter counts = [] := by
  obtain ⟨entry, locked⟩ := m
  cases entry with
  | link t => rfl
  | file c =>
    have hpage : counts (.file (dirs ++ [x])) ≠ true :=
      mt any_isFileName.1 (hm.resolve_left (by simp [Node.isDirectory]))
    simp only [walkEntry]
    rw [List.filter_cons_of_neg hpage, List.filter_nil]
  | directory =>
    simp only [walkEntry]
    split_ifs with hpriv hex
    · rfl
    · rfl
    · rw [List.filter_cons_of_neg (by simp [counts])]
      exact hbelow ⟨rfl, by simpa using hpriv, by simpa using hex⟩

/-- The same counts at an entry before and after. -/
theorem filter_walkEntry {below below' : List Name → List Sight} (halike : n.Alike m)
    (hbelow : Entered exclude dirs (x, n) →
      (below' (dirs ++ [x])).filter counts = (below (dirs ++ [x])).filter counts) :
    (walkEntry exclude below' dirs (x, m)).filter counts =
      (walkEntry exclude below dirs (x, n)).filter counts := by
  obtain rfl | ⟨⟨c, hc⟩, c', hc'⟩ := halike
  · simp only [walkEntry]
    split
    · rfl
    · rfl
    · rename_i hdir
      split_ifs with hpriv hex
      · rfl
      · rfl
      · rw [List.filter_cons_of_neg (by simp [counts]), List.filter_cons_of_neg (by simp [counts])]
        exact hbelow ⟨hdir, by simpa using hpriv, by simpa using hex⟩
  · simp only [walkEntry, hc, hc']

/-! ### Whole walks -/

theorem list_of_visited (hd : d.Tree) (hroot : d.look root = .ok (p, n₀))
    (hopen : ∀ ds, Visited d p exclude ds → ¬Refused d root p ds)
    (hvis : Visited d p exclude dirs) :
    d.list (root.descend dirs) = .ok (d.inside (p ++ dirs)) := by
  have hclear := clear_of_visited hd (fun ds h _ => hopen ds h) hvis
  obtain ⟨href, -⟩ | ⟨-, hlist⟩ := list_of_clear hd hroot hvis.directory hclear
  · exact absurd href (hopen dirs hvis)
  · exact hlist

theorem Entered.visited (hd : d.Tree) (h : Entered exclude dirs (x, n))
    (hvis : Visited d p exclude dirs) (hn : d.node? (p ++ (dirs ++ [x])) = some n) :
    Visited d p exclude (dirs ++ [x]) :=
  (visited_concat hd).2 ⟨hvis, Disk.directoryAt_iff.2 ⟨n, hn, Node.isDirectory_iff.2 h.directory⟩,
    h.not_private, h.not_excluded⟩

section Walks

variable (h : Unnoticed d d') (hd : d.Tree) (hd' : d'.Tree) (hroot' : d'.look root = .ok (p, n₀'))
  (hopen' : ∀ ds, Visited d' p exclude ds → ¬Refused d' root p ds)

include h hd hd' hroot' hopen'

omit hd hd' hroot' hopen' in
theorem new_entry (hn : d.node? (p ++ (dirs ++ [x])) = none)
    (hm : d'.node? (p ++ (dirs ++ [x])) = some m) :
    m.isDirectory = true ∨ ¬NamesPage (dirs ++ [x]) :=
  (h.new _ _ hn hm).imp And.left fun hpage => mt (namesPage_append (by simp)).2 hpage.2

/-- **Nothing in a new directory counts.** -/
theorem filter_walk_new (hvis : Visited d' p exclude dirs) (hnew : d.node? (p ++ dirs) = none) :
    (walk d' root exclude levels dirs).filter counts = [] := by
  induction levels generalizing dirs with
  | zero => rfl
  | succ levels ih =>
    rw [walk, list_of_visited hd' hroot' hopen' hvis]
    simp only [List.filter_flatMap, List.flatMap_eq_nil_iff]
    rintro ⟨x, m⟩ hmem
    have hm := (Disk.mem_inside hd').1 hmem
    rw [List.append_assoc] at hm
    have hx := Disk.node?_append_of_none hd hnew [x]
    rw [List.append_assoc] at hx
    exact filter_walkEntry_new (new_entry h hx hm) fun henter =>
      ih (henter.visited hd' hvis hm) hx

/-- **What counts in a directory is the same before and after.** -/
theorem filter_walk (hroot : d.look root = .ok (p, n₀))
    (hopen : ∀ ds, Visited d p exclude ds → ¬Refused d root p ds)
    (hvis : Visited d p exclude dirs) (hvis' : Visited d' p exclude dirs)
    (hlevels : d.height < (p ++ dirs).length + levels)
    (hlevels' : d'.height < (p ++ dirs).length + levels') :
    (walk d' root exclude levels' dirs).filter counts =
      (walk d root exclude levels dirs).filter counts := by
  induction levels' generalizing levels dirs with
  | zero =>
    obtain ⟨m, hm, -⟩ := Disk.directoryAt_iff.1 hvis'.directory
    exact absurd (Disk.length_le_height hm) (by omega)
  | succ levels' ih =>
    cases levels with
    | zero =>
      obtain ⟨n, hn, -⟩ := Disk.directoryAt_iff.1 hvis.directory
      exact absurd (Disk.length_le_height hn) (by omega)
    | succ levels =>
      rw [walk, walk, list_of_visited hd' hroot' hopen' hvis', list_of_visited hd hroot hopen hvis]
      simp only [List.filter_flatMap]
      have hlen (x : Name) : (p ++ (dirs ++ [x])).length = (p ++ dirs).length + 1 := by
        simp [Nat.add_assoc]
      refine flatMap_eq_of_sublist ?_ (Disk.nodup_inside hd' _) (fun x n m hn hm => ?_)
        fun x m hm hx => ?_
      · rw [Disk.names_inside, Disk.names_inside]
        exact h.places.filterMap _
      · have hn := (Disk.mem_inside hd).1 hn
        have hm := (Disk.mem_inside hd').1 hm
        obtain ⟨m', hm', halike⟩ := h.grows.kept _ _ hn
        obtain rfl := Option.some.inj (hm.symm.trans hm')
        rw [List.append_assoc] at hn hm
        refine filter_walkEntry halike fun henter => ih (henter.visited hd hvis hn) ?_ ?_ ?_
        · obtain rfl := halike.eq_of_isDirectory (Node.isDirectory_iff.2 henter.directory)
          exact henter.visited hd' hvis' hm
        · rw [hlen]
          omega
        · rw [hlen]
          omega
      · have hm := (Disk.mem_inside hd').1 hm
        have hx : d.node? (p ++ dirs ++ [x]) = none := by
          cases hn : d.node? (p ++ dirs ++ [x]) with
          | none => rfl
          | some n =>
            exact absurd (List.mem_map_of_mem (f := Prod.fst) ((Disk.mem_inside hd).2 hn)) hx
        rw [List.append_assoc] at hm hx
        exact filter_walkEntry_new (new_entry h hx hm) fun henter =>
          filter_walk_new h hd hd' hroot' hopen' (henter.visited hd' hvis' hm) hx

end Walks

/-! ### Whole scans -/

section Scans

variable (h : Unnoticed d d') (hd : d.Tree)

include h

/-- A visited directory that stood there before was visited before, and it is the same. -/
theorem Unnoticed.visited_back (hvis : Visited d' p exclude dirs)
    (hn : d.node? (p ++ dirs) = some n) :
    Visited d p exclude dirs ∧ d'.node? (p ++ dirs) = some n := by
  obtain ⟨m, hm, hdir⟩ := Disk.directoryAt_iff.1 hvis.directory
  obtain ⟨m', hm', halike⟩ := h.grows.kept _ _ hn
  obtain rfl := Option.some.inj (hm.symm.trans hm')
  have hndir : n.isDirectory = true := halike.isDirectory.trans hdir
  obtain rfl := halike.eq_of_isDirectory hndir
  exact ⟨⟨Disk.directoryAt_iff.2 ⟨_, hn, hdir⟩, hvis.not_private, hvis.not_excluded⟩, hm⟩

/-- The visited directories can be opened afterwards if they could be before. -/
theorem Unnoticed.not_refused (hopen : ∀ ds, Visited d p exclude ds → ¬Refused d root p ds)
    (hfit : ∀ ds, Visited d' p exclude ds → d.node? (p ++ ds) = none →
      (root.descend ds).raw.length ≤ maxPathLength) (ds : List Name)
    (hvis : Visited d' p exclude ds) : ¬Refused d' root p ds := by
  cases hn : d.node? (p ++ ds) with
  | none =>
    obtain ⟨m, hm, hdir⟩ := Disk.directoryAt_iff.1 hvis.directory
    obtain ⟨-, hlock⟩ | ⟨hndir, -⟩ := h.new _ _ hn hm
    · rw [refused_iff hm, hlock]
      have hlen := hfit ds hvis hn
      simp only [Bool.false_eq_true, or_false]
      omega
    · cases hdir.symm.trans hndir
  | some n =>
    obtain ⟨hvis₀, hn'⟩ := h.visited_back hvis hn
    rw [refused_iff hn', ← refused_iff hn]
    exact hopen ds hvis₀

include hd

/-- What counts in a scan adds the same afterwards. -/
theorem recognize_unnoticed (hroot : d.look root = .ok (p, n₀)) (hdir : n₀.isDirectory = true)
    (hroot' : d'.look root = .ok (p, n₀')) {s : Sight} (hs : s ∈ d.sights root exclude)
    (hcount : counts s = true) : recognize d' root s = recognize d root s := by
  cases s with
  | candidate ds => rfl
  | closed ds f => rfl
  | file names =>
    obtain ⟨hne, -, hclear, n, content, hn, hfile⟩ := (file_mem_sights hd hroot hdir).1 hs
    have hproper := fun y hy => Disk.proper_of_node? hd hn y (List.mem_append_right p hy)
    have hopen := hclear.openWay hd hn
    have hopen' : d'.OpenWay p names := fun q y r hq => h.grows.enter (hopen q y r hq)
    have hn' := h.pages _ n hn ((namesPage_append hne).2 (any_isFileName.1 hcount))
    rw [recognize, recognize, Disk.read_descend hroot' hopen' hproper hn' hfile,
      Disk.read_descend hroot hopen hproper hn hfile]

end Scans

end Scan

namespace Disk

variable {d d' : Disk} {root : Path} {exclude : Path → Bool} {rs : List (Record Unit)}

/-- **A successful scan finds the same records after changes that it does not notice**, if the root
is not a directory that had been there under another path only. -/
theorem scan_unnoticed_of_back (h : Scan.Unnoticed d d') (hd : d.Tree) (hd' : d'.Tree)
    (hback : ∀ p n m, d'.look root = .ok (p, m) → d.node? p = some n → d.look root = .ok (p, n))
    (hfit : Scan.NewPathsFit d d' root exclude) (hscan : d.scan root exclude = .ok rs) :
    d'.scan root exclude = .ok rs := by
  cases hstart : d'.scanStart? root with
  | none =>
    -- the root was no directory before, either
    have hstart₀ : d.scanStart? root = none := by
      cases h₀ : d.scanStart? root with
      | none => rfl
      | some r =>
        obtain ⟨hlook, hdir⟩ := scanStart?_eq_some.1 h₀
        have hlook' := h.grows.look_directory hlook hdir
        cases hstart.symm.trans (scanStart?_eq_some.2 ⟨hlook', hdir⟩)
    rw [scan, sights, hstart₀] at hscan
    rwa [scan, sights, hstart]
  | some r =>
    obtain ⟨p, n₀'⟩ := r
    obtain ⟨hlook', hdir'⟩ := scanStart?_eq_some.1 hstart
    have hp' : d'.directoryAt p = true := directoryAt_iff.2 ⟨n₀', (look_eq_ok.1 hlook').2.1, hdir'⟩
    have hfit' := fun ds => hfit p n₀' ds hlook'
    rw [scan, ← Scan.collect_filter, sights_of_look hlook' hdir']
    cases hp : d.node? p with
    | none =>
      -- the root has come up, so it has only new things below it
      have hstart₀ : d.scanStart? root = none := by
        cases h₀ : d.scanStart? root with
        | none => rfl
        | some r =>
          obtain ⟨hlook, hdir⟩ := scanStart?_eq_some.1 h₀
          obtain rfl : r.1 = p := by
            have heq := (h.grows.look_directory hlook hdir).symm.trans hlook'
            simpa using congrArg Prod.fst (Except.ok.inj heq)
          cases hp.symm.trans (look_eq_ok.1 hlook).2.1
      have hnone : ∀ ds, ¬Scan.Visited d p exclude ds := fun ds hvis => by
        obtain ⟨n, hn, -⟩ := directoryAt_iff.1 hvis.directory
        cases (node?_append_of_none hd hp ds).symm.trans hn
      have hopen' := h.not_refused (fun ds hvis => absurd hvis (hnone ds)) hfit'
      rw [scan, sights, hstart₀] at hscan
      rwa [Scan.filter_walk_new h hd hd' hlook' hopen' (Scan.visited_nil hp')
        (by rwa [List.append_nil])]
    | some n₀ =>
      have hlook := hback p n₀ n₀' hlook' hp
      obtain ⟨m, hm, halike⟩ := h.grows.kept p n₀ hp
      obtain rfl := Option.some.inj ((look_eq_ok.1 hlook').2.1.symm.trans hm)
      have hdir : n₀.isDirectory = true := halike.isDirectory.trans hdir'
      have hp₀ : d.directoryAt p = true := directoryAt_iff.2 ⟨n₀, hp, hdir⟩
      have hopen : ∀ ds, Scan.Visited d p exclude ds → ¬Scan.Refused d root p ds := by
        intro ds hvis href
        obtain ⟨e, he⟩ := (Scan.exists_scan_eq_error hd hlook hdir).2 (.inl ⟨ds, hvis, href⟩)
        cases he.symm.trans hscan
      have hopen' := h.not_refused hopen hfit'
      rw [Scan.filter_walk h hd hd' hlook' hopen' hlook hopen (Scan.visited_nil hp₀)
        (Scan.visited_nil hp') (Nat.lt_add_left _ (Nat.lt_succ_self _))
        (Nat.lt_add_left _ (Nat.lt_succ_self _)), ← sights_of_look hlook hdir]
      rw [scan, ← Scan.collect_filter] at hscan
      rw [← hscan]
      refine Scan.collect_congr fun s hs => ?_
      obtain ⟨hs, hcount⟩ := List.mem_filter.1 hs
      exact Scan.recognize_unnoticed h hd hlook hdir hlook' hs hcount

/-- A path without `..` leads to no directory that had been there under another path only. -/
theorem scan_unnoticed (h : Scan.Unnoticed d d') (hd : d.Tree) (hd' : d'.Tree)
    (hlinkless : d'.Linkless) (hroot : Path.dotDot ∉ root.steps)
    (hfit : Scan.NewPathsFit d d' root exclude) (hscan : d.scan root exclude = .ok rs) :
    d'.scan root exclude = .ok rs :=
  scan_unnoticed_of_back h hd hd' (fun _ _ _ => h.grows.look_back hd hlinkless hroot) hfit hscan

end Disk

end FileRoutes
