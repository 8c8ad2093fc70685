import FileRoutes.Proofs.Scan.Directories
import FileRoutes.Watch.Filter

/-!
# Pages that a watcher looks at

A scan goes into hidden directories, but a watcher does not look into them.  Below the root, outside
the output directory, a watcher looks at exactly the files whose names on the way are not hidden
(`Watch.isIgnored_descend`).  The names of pages are not hidden, so of the pages that a scan finds
there it misses those in hidden directories and no others (`Watch.isIgnored_source`).
-/

namespace FileRoutes

namespace Watch

variable {d : Disk} {root : Path} {exclude : Path → Bool} {rs : List (Record Unit)}
  {r : Record Unit} {ns : List Name}

/-- What lies below the root is of interest when no name on the way is hidden. -/
theorem isIgnored_descend (hroot : root.raw ≠ []) (hns : ∀ n ∈ ns, n.Proper) (out : Path) :
    isIgnored (root.descend ns) root out = false ↔
      (root.descend ns).startsWith out = false ∧ ∀ n ∈ ns, isHidden (.name n) = false := by
  rw [isIgnored, Path.below?_descend hroot hns, Bool.or_eq_false_iff]
  simp only [List.any_map, List.any_eq_false, Function.comp_apply, Bool.not_eq_true]

theorem isHidden_fileName : ∀ n ∈ Page.fileNames, isHidden (.name n) = false := by
  decide

/-- **The pages of a scan that a watcher looks at**: those outside the output directory that no
hidden directory leads to from the root. -/
theorem isIgnored_source (hd : d.Tree) (h : d.scan root exclude = .ok rs) (hr : r ∈ rs)
    (out : Path) :
    ∃ dirs, Scan.RecordIn root dirs r ∧
      (isIgnored r.source root out = false ↔
        r.source.startsWith out = false ∧ ∀ n ∈ dirs, isHidden (.name n) = false) := by
  obtain ⟨dirs, -, -, -, -, hin, -, -⟩ := Scan.exists_recordIn hd h hr
  obtain ⟨page, hpage, hsource⟩ := hin.source
  have hproper : ∀ n ∈ dirs ++ [page], n.Proper := by
    intro n hn
    obtain hn | hn := List.mem_append.1 hn
    · exact hin.proper n hn
    · obtain rfl := List.mem_singleton.1 hn
      exact Scan.proper_of_mem_fileNames n hpage
  refine ⟨dirs, hin, ?_⟩
  rw [hsource, isIgnored_descend hin.root_ne_nil hproper out, List.forall_mem_append,
    List.forall_mem_singleton]
  exact and_congr_right fun _ => and_iff_left (isHidden_fileName page hpage)

/-- A tree with a page in a directory that is not hidden, below one whose name starts with a dot,
and a page in a hidden directory below it. -/
def hiddenPages : Disk where
  nodes :=
    let place (names : List String) : Place := names.map fun n => Utf8.encode n.toList
    let page : Node := ⟨.file (Utf8.encode "defineRoute()".toList), false⟩
    [(place [".work"], ⟨.directory, false⟩),
      (place [".work", "app"], ⟨.directory, false⟩),
      (place [".work", "app", "user"], ⟨.directory, false⟩),
      (place [".work", "app", "user", "page.ts"], page),
      (place [".work", "app", ".well-known"], ⟨.directory, false⟩),
      (place [".work", "app", ".well-known", "page.ts"], page)]
  home := []

/-- A hidden directory above the root does not keep a watcher from looking at a page. -/
theorem isIgnored_source_below_hidden_root :
    let root := Path.ofText "/.work/app".toList
    let out := Path.ofText "/.work/generated".toList
    let page : Record Unit := ⟨Path.ofText "/.work/app/user/page.ts".toList, "/user".toList, ()⟩
    let exclude : Path → Bool := fun q => q = Path.ofText ".well-known".toList
    hiddenPages.scan root exclude = .ok [page] ∧ isIgnored page.source root out = false := by
  intro root out page exclude
  have hscan : hiddenPages.scan root exclude = .ok [page] := rfl
  obtain ⟨dirs, hin, hiff⟩ := isIgnored_source (by decide) hscan List.mem_cons_self out
  have hdirs : dirs = [Utf8.encode "user".toList] := hin.directories.symm.trans rfl
  refine ⟨hscan, hiff.2 ⟨by decide, ?_⟩⟩
  rw [hdirs]
  decide

/-- A scan finds the page in the hidden directory, and a watcher does not look at it. -/
theorem isIgnored_hiddenPages :
    let root := Path.ofText "/.work/app".toList
    let out := Path.ofText "/.work/generated".toList
    let page : Record Unit :=
      ⟨Path.ofText "/.work/app/.well-known/page.ts".toList, "/.well-known".toList, ()⟩
    hiddenPages.Tree ∧ root.isAbsolute = true ∧ out.isAbsolute = true ∧
      (∃ rs, hiddenPages.scan root (fun _ => false) = .ok rs ∧ page ∈ rs) ∧
      page.source.startsWith out = false ∧ isIgnored page.source root out = true := by
  intro root out page
  have hscan : ∃ rs, hiddenPages.scan root (fun _ => false) = .ok rs ∧ page ∈ rs :=
    ⟨[⟨Path.ofText "/.work/app/user/page.ts".toList, "/user".toList, ()⟩, page], rfl,
      List.mem_cons_of_mem _ List.mem_cons_self⟩
  exact ⟨by decide, by decide, by decide, hscan, by decide, by decide⟩

end Watch

end FileRoutes
