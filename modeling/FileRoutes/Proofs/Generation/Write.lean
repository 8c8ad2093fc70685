import FileRoutes.Generator
import FileRoutes.Proofs.Disk.Output
import Mathlib.Data.List.Forall2

/-!
# Writing files

Whether a file is written or holds the right bytes already, afterwards the disk has it at its place
(`writeFile_join`): a file that is left alone is one that may as well be put there again.

So writing files one after another puts a beginning of them on the disk (`Disk.putFiles`), all of
them unless some file cannot be written: `writeFiles_cases`.  Files that have been put there are
left alone by the next round (`writeFiles_of_stored`).
-/

namespace FileRoutes

/-- The files have names of their own. -/
structure FileNames (files : List (Text × Text)) : Prop where
  proper : ∀ f ∈ files, Name.Proper (Utf8.encode f.1)
  nodup : (files.map fun f => Utf8.encode f.1).Nodup

namespace Disk

/-- The place of a file in an output directory. -/
def filePlace (o : Place) (f : Text × Text) : Place := o ++ [Utf8.encode f.1]

/-- A file as it is when it is written. -/
def fileNode (f : Text × Text) : Node := newFile (Utf8.encode f.2)

/-- The disk with files put into an output directory. -/
def putFiles (d : Disk) (o : Place) (files : List (Text × Text)) : Disk :=
  files.foldl (fun d f => d.put (filePlace o f) (fileNode f)) d

/-- The path of a file leads to its place, where the file stands. -/
def Stored (d : Disk) (out : Path) (o : Place) (f : Text × Text) : Prop :=
  d.look (out.join (Path.ofText f.1)) = .ok (filePlace o f, fileNode f)

variable {d : Disk} {out : Path} {o : Place} {f : Text × Text} {files : List (Text × Text)}

theorem filePlace_ne_nil (o : Place) (f : Text × Text) : filePlace o f ≠ [] := by simp [filePlace]

theorem fileNode_solid (f : Text × Text) : (fileNode f).Solid := by
  simp [Node.Solid, fileNode, newFile]

end Disk

namespace FileNames

variable {f g : Text × Text} {files : List (Text × Text)}

theorem sublist {files' : List (Text × Text)} (h : FileNames files) (hsub : files'.Sublist files) :
    FileNames files' :=
  ⟨fun g hg => h.proper g (hsub.subset hg), h.nodup.sublist (hsub.map _)⟩

theorem tail (h : FileNames (f :: files)) : FileNames files :=
  h.sublist (List.sublist_cons_self f _)

/-- Files have places of their own. -/
theorem filePlace_ne_of_append {before after : List (Text × Text)} (h : FileNames (before ++ after))
    (hg : g ∈ after) (hf : f ∈ before) (o : Place) : Disk.filePlace o g ≠ Disk.filePlace o f := by
  intro heq
  have hname : Utf8.encode g.1 = Utf8.encode f.1 := by simpa [Disk.filePlace] using heq
  have hnodup := h.nodup
  rw [List.map_append] at hnodup
  exact (List.nodup_append.1 hnodup).2.2 _ (List.mem_map_of_mem hf) _ (List.mem_map_of_mem hg)
    hname.symm

theorem filePlace_ne (h : FileNames (f :: files)) (hg : g ∈ files) (o : Place) :
    Disk.filePlace o g ≠ Disk.filePlace o f := by
  have h : FileNames ([f] ++ files) := h
  exact h.filePlace_ne_of_append hg (List.mem_singleton_self f) o

end FileNames

namespace Disk

variable {d : Disk} {out : Path} {o : Place} {f : Text × Text} {files : List (Text × Text)}

/-! ### Putting files -/

theorem node?_put_file (d : Disk) (o : Place) (f : Text × Text) (q : Place) :
    (d.put (filePlace o f) (fileNode f)).node? q =
      if q = filePlace o f then some (fileNode f) else d.node? q :=
  node?_put d (filePlace_ne_nil o f) (fileNode f) q

theorem node?_putFiles_of_ne {q : Place} (h : ∀ f ∈ files, q ≠ filePlace o f) :
    (d.putFiles o files).node? q = d.node? q := by
  induction files generalizing d with
  | nil => rfl
  | cons f files ih =>
    rw [putFiles, List.foldl_cons, ← putFiles, ih fun g hg => h g (List.mem_cons_of_mem f hg),
      node?_put_file, if_neg (h f List.mem_cons_self)]

theorem node?_putFiles_of_mem (hnames : FileNames files) (hf : f ∈ files) :
    (d.putFiles o files).node? (filePlace o f) = some (fileNode f) := by
  induction files generalizing d with
  | nil => cases hf
  | cons g files ih =>
    rw [putFiles, List.foldl_cons, ← putFiles]
    obtain rfl | hf := List.mem_cons.1 hf
    · rw [node?_putFiles_of_ne fun g hg => (hnames.filePlace_ne hg o).symm, node?_put_file,
        if_pos rfl]
    · exact ih hnames.tail hf

/-- Putting a file in front of others does not get in the way of these. -/
theorem Writable.put {g : Text × Text} (hnames : FileNames (f :: files)) (hg : g ∈ files)
    (hf : d.Writable (filePlace o f)) (h : d.Writable (filePlace o g)) :
    (d.put (filePlace o f) (fileNode f)).Writable (filePlace o g) := by
  refine ⟨(hf.grows_put (Utf8.encode f.2)).enter h.entered, ?_⟩
  rw [node?_put_file, if_neg (hnames.filePlace_ne hg o)]
  exact h.replaced

theorem grows_putFiles (hnames : FileNames files)
    (h : ∀ f ∈ files, d.Writable (filePlace o f)) : d.Grows (d.putFiles o files) := by
  induction files generalizing d with
  | nil => exact .refl d
  | cons f files ih =>
    have hf := h f List.mem_cons_self
    exact (hf.grows_put (Utf8.encode f.2)).trans (ih hnames.tail fun g hg =>
      hf.put hnames hg (h g (List.mem_cons_of_mem f hg)))

theorem linkless_putFiles (hd : d.Linkless) : (d.putFiles o files).Linkless := by
  induction files generalizing d with
  | nil => exact hd
  | cons f files ih =>
    refine ih fun p n hn => ?_
    rw [node?_put_file] at hn
    split_ifs at hn
    · exact Option.some.inj hn ▸ fileNode_solid f
    · exact hd p n hn

theorem places_sublist_putFiles (d : Disk) (o : Place) (files : List (Text × Text)) :
    (d.nodes.map Prod.fst).Sublist ((d.putFiles o files).nodes.map Prod.fst) := by
  induction files generalizing d with
  | nil => exact .refl _
  | cons f files ih => exact (places_sublist_put d _ _).trans (ih _)

theorem tree_putFiles (hd : d.Tree) (hnames : FileNames files)
    (h : ∀ f ∈ files, d.Writable (filePlace o f)) : (d.putFiles o files).Tree := by
  induction files generalizing d with
  | nil => exact hd
  | cons f files ih =>
    have hf := h f List.mem_cons_self
    refine ih ?_ hnames.tail fun g hg => hf.put hnames hg (h g (List.mem_cons_of_mem f hg))
    obtain ⟨n, hn, hdir, -⟩ := enter_eq_ok.1 hf.entered
    rw [filePlace, List.dropLast_concat] at hn
    refine hd.put (hnames.proper f List.mem_cons_self) (directoryAt_iff.2 ⟨n, hn, hdir⟩) ?_
    intro m hm hmdir
    obtain ⟨c, rfl⟩ := hf.replaced m hm
    cases hmdir

/-- **Nothing changes but the files, and the directories that were made for them.** -/
theorem Makes.changes_putFiles {d₁ : Disk} {paths : List Path} (h : Makes paths d d₁)
    (hnames : FileNames files) (hwritable : ∀ f ∈ files, d₁.Writable (filePlace o f)) {q : Place}
    (hq : ∀ f ∈ files, q ≠ filePlace o f) :
    (d₁.putFiles o files).node? q = d.node? q ∨ NewDirectory paths d (d₁.putFiles o files) q := by
  rw [node?_putFiles_of_ne hq]
  refine (h.changes q).imp_right ?_
  rintro ⟨hnone, path, hpath, hlook⟩
  exact ⟨hnone, path, hpath, (grows_putFiles hnames hwritable).look_directory hlook rfl⟩

/-- Making directories does not change what a file holds that can be written. -/
theorem Makes.node?_eq_newFile {d₁ : Disk} {paths : List Path} {p : Place} {content : Bytes}
    (h : Makes paths d d₁) (hwritable : d₁.Writable p) :
    d₁.node? p = some (newFile content) ↔
      ∃ locked, d.node? p = some ⟨.file content, locked⟩ := by
  obtain hsame | hnew := h.changes p
  · rw [← hsame]
    refine ⟨fun hn => ⟨false, hn⟩, fun ⟨locked, hn⟩ => ?_⟩
    obtain ⟨c, hc⟩ := hwritable.replaced _ hn
    obtain ⟨rfl, rfl⟩ : content = c ∧ locked = false := by simpa [newFile] using hc
    exact hn
  · have hnone := hnew.1
    simp [hnew.node?, hnone, newDirectory, newFile]

/-- Files could be put into an output directory, and their paths lead to them. -/
structure Puts (d : Disk) (out : Path) (o : Place) (files : List (Text × Text)) : Prop where
  writable : ∀ f ∈ files, d.Writable (filePlace o f)
  stored : ∀ f ∈ files, (d.putFiles o files).Stored out o f

theorem puts_nil : d.Puts out o [] := ⟨by simp, by simp⟩

/-- Files that are put on the disk behind a file leave it where it is. -/
theorem Puts.cons (hnames : FileNames (f :: files)) (hwritable : d.Writable (filePlace o f))
    (hstored : (d.put (filePlace o f) (fileNode f)).Stored out o f)
    (h : (d.put (filePlace o f) (fileNode f)).Puts out o files) : d.Puts out o (f :: files) := by
  have hgrows := grows_putFiles hnames.tail h.writable
  refine ⟨fun g hg => ?_, fun g hg => ?_⟩
  · obtain rfl | hg := List.mem_cons.1 hg
    · exact hwritable
    · have hreplaced := (h.writable g hg).replaced
      rw [node?_put_file, if_neg (hnames.filePlace_ne hg o)] at hreplaced
      refine ⟨?_, hreplaced⟩
      -- all files go into the same directory
      have hopen := hwritable.entered
      rwa [filePlace, List.dropLast_concat] at hopen ⊢
  · obtain rfl | hg := List.mem_cons.1 hg
    · have hn : (d.putFiles o (g :: files)).node? (filePlace o g) = some (fileNode g) :=
        node?_putFiles_of_mem hnames List.mem_cons_self
      exact hgrows.look hstored hn (fileNode_solid g) (.refl _)
    · exact h.stored g hg

end Disk

/-! ### Writing one file -/

variable {d : Disk} {out : Path} {o : Place} {files : List (Text × Text)}

theorem writeFile_of_read {path : Path} {content : Bytes} (h : d.read path = .ok content) :
    writeFile d path content = .ok (.unchanged, d) := by
  simp [writeFile, h]

theorem writeFile_of_ne {path : Path} {content : Bytes} (h : d.read path ≠ .ok content) :
    writeFile d path content =
      match d.write path content with
      | .ok d' => .ok (.written, d')
      | .error f => .error (.write path f) := by
  rw [writeFile]
  cases hread : d.read path with
  | error f => rfl
  | ok old =>
    have hne : old ≠ content := fun heq => h (heq ▸ hread)
    exact if_neg hne

/-- **A file ends up at its place, or it cannot be written.** -/
theorem writeFile_cases {f : Text × Text} (ho : d.OutputAt out o)
    (hname : Name.Proper (Utf8.encode f.1))
    (hsolid : ∀ n, d.node? (Disk.filePlace o f) = some n → n.Solid) :
    (∃ status, writeFile d (out.join (Path.ofText f.1)) (Utf8.encode f.2) =
        .ok (status, d.put (Disk.filePlace o f) (Disk.fileNode f)) ∧
      (status = .unchanged ↔ d.node? (Disk.filePlace o f) = some (Disk.fileNode f)) ∧
      d.Writable (Disk.filePlace o f) ∧
      (d.put (Disk.filePlace o f) (Disk.fileNode f)).Stored out o f) ∨
      ∃ fault, d.write (out.join (Path.ofText f.1)) (Utf8.encode f.2) = .error fault ∧
        writeFile d (out.join (Path.ofText f.1)) (Utf8.encode f.2) =
          .error (.write (out.join (Path.ofText f.1)) fault) := by
  by_cases hread : d.read (out.join (Path.ofText f.1)) = .ok (Utf8.encode f.2)
  · obtain ⟨hwritable, hn, hlook⟩ := Disk.read_join ho hname hsolid hread
    have hself : d.put (Disk.filePlace o f) (Disk.fileNode f) = d :=
      Disk.put_self (Disk.filePlace_ne_nil o f) hn
    refine .inl ⟨.unchanged, ?_, iff_of_true rfl hn, hwritable, ?_⟩
    · rw [hself, writeFile_of_read hread]
    · rwa [hself]
  · cases hwrite : d.write (out.join (Path.ofText f.1)) (Utf8.encode f.2) with
    | error fault => exact .inr ⟨fault, rfl, by rw [writeFile_of_ne hread, hwrite]⟩
    | ok d' =>
      obtain ⟨rfl, hwritable, hlook⟩ := Disk.write_join ho hname hsolid hwrite
      refine .inl ⟨.written, by rw [writeFile_of_ne hread, hwrite]; rfl, ?_, hwritable, hlook⟩
      -- a file that had been right could have been read
      exact iff_of_false (by simp) fun hn => hread (Disk.read_of_write ho hname hsolid hwrite hn)

/-! ### Writing several files -/

/-- What is told about a file: its path, and whether it was right already. -/
def Reported (d : Disk) (out : Path) (o : Place) (f : Text × Text) (w : WrittenFile) : Prop :=
  w.path = out.join (Path.ofText f.1) ∧
    (w.status = .unchanged ↔ d.node? (Disk.filePlace o f) = some (Disk.fileNode f))

/-- What is told about other files does not depend on a file in front of them. -/
theorem reported_of_put {f : Text × Text} {ws : List WrittenFile} (hnames : FileNames (f :: files))
    (h : List.Forall₂ (Reported (d.put (Disk.filePlace o f) (Disk.fileNode f)) out o) files ws) :
    List.Forall₂ (Reported d out o) files ws := by
  refine ((List.forall₂_and_left files ws).2 ⟨fun g hg => hg, h⟩).imp ?_
  rintro g w ⟨hg, hpath, hstatus⟩
  rw [Disk.node?_put_file, if_neg (hnames.filePlace_ne hg o)] at hstatus
  exact ⟨hpath, hstatus⟩

/-- **Files are put on the disk up to the first that cannot be written.** -/
theorem writeFiles_cases (hnames : FileNames files) (ho : d.OutputAt out o)
    (hsolid : ∀ f ∈ files, ∀ n, d.node? (Disk.filePlace o f) = some n → n.Solid) :
    (∃ ws, writeFiles out files d = (.ok ws, d.putFiles o files) ∧
      List.Forall₂ (Reported d out o) files ws ∧ d.Puts out o files) ∨
      ∃ before f after fault, files = before ++ f :: after ∧
        writeFiles out files d =
          (.error (.write (out.join (Path.ofText f.1)) fault), d.putFiles o before) ∧
        (d.putFiles o before).write (out.join (Path.ofText f.1)) (Utf8.encode f.2) = .error fault ∧
        d.Puts out o before := by
  induction files generalizing d with
  | nil => exact .inl ⟨[], rfl, .nil, Disk.puts_nil⟩
  | cons f files ih =>
    obtain ⟨status, hfile, hstatus, hwritable, hstored⟩ | ⟨fault, hwrite, hfile⟩ :=
      writeFile_cases ho (hnames.proper f List.mem_cons_self) (hsolid f List.mem_cons_self)
    · -- the other files find the disk with this one on it
      have hgrows : d.Grows (d.put (Disk.filePlace o f) (Disk.fileNode f)) :=
        hwritable.grows_put (Utf8.encode f.2)
      have hsolid' : ∀ g ∈ files, ∀ n,
          (d.put (Disk.filePlace o f) (Disk.fileNode f)).node? (Disk.filePlace o g) = some n →
            n.Solid := by
        intro g hg n hn
        rw [Disk.node?_put_file, if_neg (hnames.filePlace_ne hg o)] at hn
        exact hsolid g (List.mem_cons_of_mem f hg) n hn
      obtain ⟨ws, hws, hreported, hputs⟩ | ⟨before, g, after, fault, rfl, hws, hfault, hputs⟩ :=
        ih hnames.tail (hgrows.outputAt ho) hsolid'
      · refine .inl ⟨⟨out.join (Path.ofText f.1), status⟩ :: ws, ?_,
          .cons ⟨rfl, hstatus⟩ (reported_of_put hnames hreported),
          .cons hnames hwritable hstored hputs⟩
        simp only [writeFiles, hfile, hws]
        rfl
      · have hnames' : FileNames (f :: before) :=
          hnames.sublist ((List.sublist_append_left before _).cons_cons f)
        refine .inr ⟨f :: before, g, after, fault, rfl, ?_, hfault,
          .cons hnames' hwritable hstored hputs⟩
        simp only [writeFiles, hfile, hws]
        rfl
    · exact .inr ⟨[], f, files, fault, rfl, by simp only [writeFiles, hfile]; rfl, hwrite,
        Disk.puts_nil⟩

/-- Files that stand at their places are left alone. -/
theorem writeFiles_of_stored (h : ∀ f ∈ files, d.Stored out o f) :
    writeFiles out files d =
      (.ok (files.map fun f => ⟨out.join (Path.ofText f.1), .unchanged⟩), d) := by
  induction files with
  | nil => rfl
  | cons f files ih =>
    have hread : d.read (out.join (Path.ofText f.1)) = .ok (Utf8.encode f.2) :=
      Disk.read_eq_ok.2 ⟨_, h f List.mem_cons_self⟩
    simp only [writeFiles, writeFile_of_read hread,
      ih fun g hg => h g (List.mem_cons_of_mem f hg), List.map_cons]

end FileRoutes
