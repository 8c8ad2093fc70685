import FileRoutes.Proofs.Generation.Outcome
import FileRoutes.Proofs.Scan.Unnoticed
import Mathlib.Data.Prod.Basic

/-!
# What a successful generation leaves behind

After a run that succeeds, the artifacts hold what is rendered from the pages, and otherwise only
directories along the output path are new.  A scan does not notice these changes, even where the
output directory lies below the root or is the root: artifacts are no pages, and nothing else comes
up in new directories.  So the next run finds everything in place and changes nothing
(`Generator.run_succeeded`).

The one thing that can come between is the limit on the length of paths: a scan lists the new
directories by paths that begin as the root is spelled, and a root can be spelled so long that these
are too long (`Generator.run_longRoot`).
-/

namespace FileRoutes

namespace Path

/-- A path without `..` among its components has no `..` among its steps. -/
theorem dotDot_notMem_steps {p : Path} (h : Component.parent ∉ p.components) :
    dotDot ∉ p.steps := by
  intro hmem
  have hpiece : dotDot ∈ p.pieces := (List.mem_filter.1 hmem).1
  refine h ?_
  rw [components]
  cases hp : p.pieces with
  | nil => simp [hp] at hpiece
  | cons first rest =>
    rw [hp] at hpiece
    rw [List.mem_append]
    obtain rfl | hrest := List.mem_cons.1 hpiece
    · exact .inl (by cases rest.isEmpty <;> decide)
    · exact .inr (List.mem_filterMap.2 ⟨dotDot, hrest, by decide⟩)

end Path

open Disk

/-- Artifacts are no pages. -/
theorem Artifacts.not_namesPage {a : Artifacts} {f : Text × Text} (hf : f ∈ a.files) (o : Place) :
    ¬Scan.NamesPage (filePlace o f) := by
  have hnames : ∀ name ∈ [typesFile, routesFile, indexFile],
      Utf8.encode name ∉ Page.fileNames := by decide
  rintro ⟨name, hname, hlast⟩
  rw [filePlace, List.getLast?_concat] at hlast
  exact hnames f.1 (List.mem_map_of_mem (f := Prod.fst) hf) (Option.some.inj hlast ▸ hname)

/-- **A scan does not notice the artifacts and the directories that are made for them.** -/
theorem Scan.unnoticed_putFiles {d d₁ : Disk} {paths : List Path} {o : Place} {a : Artifacts}
    (h : Makes paths d d₁) (hwritable : ∀ f ∈ a.files, d₁.Writable (filePlace o f)) :
    Unnoticed d (d₁.putFiles o a.files) := by
  have hchanges {q : Place} := h.changes_putFiles a.fileNames hwritable (q := q)
  refine ⟨h.grows.trans (grows_putFiles a.fileNames hwritable),
    h.places_sublist.trans (places_sublist_putFiles d₁ o a.files), ?_, ?_⟩
  · intro p n hn hpage
    have hp : ∀ f ∈ a.files, p ≠ filePlace o f := by
      rintro f hf rfl
      exact Artifacts.not_namesPage hf o hpage
    obtain h | ⟨hnone, -⟩ := hchanges hp
    · rw [h, hn]
    · cases hn.symm.trans hnone
  · intro p m hnone hm
    by_cases hp : ∃ f ∈ a.files, p = filePlace o f
    · obtain ⟨f, hf, rfl⟩ := hp
      rw [node?_putFiles_of_mem a.fileNames hf] at hm
      obtain rfl := Option.some.inj hm
      exact .inr ⟨rfl, Artifacts.not_namesPage hf o⟩
    · push Not at hp
      obtain h | h := hchanges hp
      · cases (hm.symm.trans h).trans hnone
      · obtain rfl := Option.some.inj (hm.symm.trans h.node?)
        exact .inl ⟨rfl, rfl⟩

namespace Generator

variable {M : Type} {g : Generator M} {d d' : Disk}

/-- Rendering depends on the disk through the scan alone. -/
theorem render_eq_of_scan {rs : List (Record Unit)} (h : d.scan g.root g.exclude = .ok rs)
    (h' : d'.scan g.root g.exclude = .ok rs) : g.render d' = g.render d := by
  simp only [render, records, h, h']

theorem scan_of_render {r : Manifest M × Artifacts} (h : g.render d = .ok r) :
    ∃ rs, d.scan g.root g.exclude = .ok rs := by
  rw [render, records] at h
  cases hscan : d.scan g.root g.exclude with
  | error e => simp [hscan] at h
  | ok rs => exact ⟨rs, rfl⟩

/-- A run that finds everything in place changes nothing. -/
theorem run_of_stored {m : Manifest M} {a : Artifacts} {o : Place}
    (hrender : g.render d = .ok (m, a)) (ho : d.OutputAt g.out o)
    (hstored : ∀ f ∈ a.files, d.Stored g.out o f) :
    g.run d = (.ok ⟨m.statics.length, m.dynamics.length,
      a.files.map fun f => ⟨g.out.join (Path.ofText f.1), .unchanged⟩⟩, d) := by
  rw [run, hrender]
  simp only [writeArtifacts, makeAll_of_outputAt ho, writeFiles_of_stored hstored]

/-- What a successful run answers, and what the disk is then. -/
structure Succeeded (g : Generator M) (d : Disk) (s : Summary) (d' : Disk) (m : Manifest M)
    (a : Artifacts) (o : Place) : Prop where
  render : g.render d = .ok (m, a)
  statics : s.statics = m.statics.length
  dynamics : s.dynamics = m.dynamics.length
  output : d'.OutputAt g.out o
  /-- The artifacts hold what was rendered, and their paths lead to them. -/
  stored : ∀ f ∈ a.files, d'.Stored g.out o f
  /-- A file is reported as unchanged exactly when it had held the same bytes. -/
  reported : List.Forall₂ (fun f w => w.path = g.out.join (Path.ofText f.1) ∧
    (w.status = .unchanged ↔
      ∃ locked, d.node? (filePlace o f) = some ⟨.file (Utf8.encode f.2), locked⟩)) a.files s.files
  home : d'.home = d.home
  /-- Nothing else has changed but that there may be new directories along the output path. -/
  others : ∀ q, (∀ f ∈ a.files, q ≠ filePlace o f) →
    d'.node? q = d.node? q ∨ NewDirectory g.out.ancestors d d' q
  /-- The next run finds everything in place. -/
  again : Scan.NewPathsFit d d' g.root g.exclude →
    g.run d' = (.ok ⟨s.statics, s.dynamics,
      a.files.map fun f => ⟨g.out.join (Path.ofText f.1), .unchanged⟩⟩, d')

/-- **A successful run depends on the pages only, and the next one changes nothing.** -/
theorem run_succeeded {s : Summary} (hd : d.Tree) (hlinkless : d.Linkless)
    (hroot : Path.Component.parent ∉ g.root.components) (h : g.run d = (.ok s, d')) :
    ∃ m a o, g.Succeeded d s d' m a o := by
  have hmakes := makeAll_makes d g.out
  have houtcome := g.run_outcome (hlinkless.artifactsSolid g.out)
  rw [h] at houtcome
  cases houtcome with
  | @complete m a d₁ _ o ws hrender hmake ho hputs hreported hdisk =>
    rw [hmake] at hmakes
    have hdisk : d' = d₁.putFiles o a.files := hdisk
    subst hdisk
    have ho' := (grows_putFiles a.fileNames hputs.writable).outputAt ho
    have hunnoticed := Scan.unnoticed_putFiles hmakes hputs.writable
    refine ⟨m, a, o, hrender, rfl, rfl, ho', hputs.stored, ?_, hunnoticed.grows.home,
      fun q hq => hmakes.changes_putFiles a.fileNames hputs.writable hq, fun hfit => ?_⟩
    · refine ((List.forall₂_and_left a.files ws).2 ⟨fun f hf => hf, hreported⟩).imp ?_
      rintro f w ⟨hf, hpath, hstatus⟩
      exact ⟨hpath, hstatus.trans (hmakes.node?_eq_newFile (hputs.writable f hf))⟩
    · -- the scan does not notice, so the same is rendered again
      obtain ⟨rs, hscan⟩ := scan_of_render hrender
      have htree := tree_putFiles (hmakes.tree hlinkless hd) a.fileNames hputs.writable
      have hscan' := scan_unnoticed hunnoticed hd htree
        (linkless_putFiles (hmakes.linkless hlinkless)) (Path.dotDot_notMem_steps hroot) hfit hscan
      exact run_of_stored ((render_eq_of_scan hscan hscan').trans hrender) ho' hputs.stored

/-- The paths of new directories are short enough when all paths below the root are. -/
theorem newPathsFit_of_nodes {root : Path} {exclude : Path → Bool} {p : Place} {n : Node}
    (hlook : d'.look root = .ok (p, n)) (hp : p ≠ [])
    (h : ∀ e ∈ d'.nodes, (root.descend (e.1.drop p.length)).raw.length ≤ maxPathLength) :
    Scan.NewPathsFit d d' root exclude := by
  intro q m dirs hlook' hvis _
  obtain ⟨rfl, -⟩ := Prod.mk.inj (Except.ok.inj (hlook.symm.trans hlook'))
  obtain ⟨k, hk, -⟩ := directoryAt_iff.1 hvis.directory
  rw [node?, if_neg (by simp [hp])] at hk
  obtain ⟨e, he, -⟩ := Option.map_eq_some_iff.1 hk
  have heq : e.1 = p ++ dirs := by simpa using List.find?_some he
  simpa [heq] using h e (List.mem_of_find?_eq_some he)

/-- A tree with one page. -/
def onePage : Disk where
  nodes :=
    let place (names : List String) : Place := names.map fun n => Utf8.encode n.toList
    [(place ["app"], ⟨.directory, false⟩),
      (place ["app", "[id]"], ⟨.directory, false⟩),
      (place ["app", "[id]", "page.ts"], ⟨.file (Utf8.encode "defineRoute()".toList), false⟩)]
  home := []

/-- A generator that writes below its root. -/
def belowRoot : Generator Unit where
  root := .ofText "app".toList
  out := .ofText "app/gen".toList
  exclude _ := false
  payload _ := ()
  order? := none

theorem exists_run_eq (h : (g.run d).1.toOption.isSome = true) :
    ∃ s, g.run d = (.ok s, (g.run d).2) := by
  cases hrun : (g.run d).1 with
  | error e => simp [hrun, Except.toOption] at h
  | ok s => exact ⟨s, Prod.fst_eq_iff.1 hrun⟩

/-- The output directory comes up below the root, and the next run changes nothing. -/
theorem run_succeeded_belowRoot :
    ∃ s d', belowRoot.run onePage = (.ok s, d') ∧ ∃ files, (∀ w ∈ files, w.status = .unchanged) ∧
      belowRoot.run d' = (.ok ⟨s.statics, s.dynamics, files⟩, d') := by
  obtain ⟨s, hrun⟩ : ∃ s, belowRoot.run onePage = (.ok s, (belowRoot.run onePage).2) :=
    exists_run_eq (by decide +kernel)
  obtain ⟨m, a, o, hsucceeded⟩ :=
    run_succeeded (by decide) (linkless_of_nodes (by decide)) (by decide +kernel) hrun
  have hlook : (belowRoot.run onePage).2.look belowRoot.root =
      .ok ([Utf8.encode "app".toList], newDirectory) := by decide +kernel
  have hfit : Scan.NewPathsFit onePage (belowRoot.run onePage).2 belowRoot.root belowRoot.exclude :=
    newPathsFit_of_nodes hlook (by simp) (by decide +kernel)
  refine ⟨s, _, hrun, _, fun w hw => ?_, hsucceeded.again hfit⟩
  obtain ⟨f, -, rfl⟩ := List.mem_map.1 hw
  rfl

/-- A root that is spelled with almost as many bytes as a path may have. -/
def longRoot : Generator Unit where
  root := ⟨Utf8.encode "site".toList ++ (List.replicate 1998 (Utf8.encode "/.".toList)).flatten⟩
  out := .ofText ("site/".toList ++ List.replicate 200 'g')
  exclude _ := false
  payload _ := ()
  order? := none

/-- After the first run there is a directory below the root that the second one cannot list. -/
theorem run_longRoot :
    Disk.blank.Tree ∧ Disk.blank.Linkless ∧ Path.Component.parent ∉ longRoot.root.components ∧
      ∃ s d', longRoot.run .blank = (.ok s, d') ∧ ∃ e, (longRoot.run d').1 = .error e := by
  obtain ⟨s, hrun⟩ : ∃ s, longRoot.run .blank = (.ok s, (longRoot.run .blank).2) :=
    exists_run_eq (by decide +kernel)
  have hagain : (longRoot.run (longRoot.run .blank).2).1.toOption.isNone = true := by
    decide +kernel
  refine ⟨by decide, linkless_of_nodes (by decide), by decide +kernel, s, _, hrun, ?_⟩
  cases h : (longRoot.run (longRoot.run .blank).2).1 with
  | error e => exact ⟨e, rfl⟩
  | ok s => simp [h, Except.toOption] at hagain

end Generator

end FileRoutes
