import FileRoutes.Proofs.Path.Components
import FileRoutes.Proofs.Route.Manifest
import FileRoutes.Proofs.Scan.Pages
import FileRoutes.Proofs.Text.Utf8

/-!
# Routes and directories

The pattern of a page and the directory that the page lies in say the same (`Scan.Locates`): the
pattern is that of the directory, and its segments are the names on the way down from the root.
Names are arbitrary file names and the root may be spelled in any way, but names hold no slash, and
different names are different texts, so no two directories share a pattern
(`Scan.RecordIn.pattern_eq_iff`).

`Disk.scan_directories` puts this together: of the records of a scan, two have the same pattern
exactly when their pages lie in the same directory, and a manifest of them has one route for each
directory with pages.
-/

namespace FileRoutes

namespace Pattern

/-- The directories that a pattern leads through: the names that its segments spell.  Empty
segments stand for no directory. -/
def directories (p : Text) : List Name :=
  ((splitOn '/' p).filter fun s => !s.isEmpty).map Utf8.encode

theorem length_directories (p : Text) : (directories p).length = depth p := by
  rw [directories, List.length_map, depth]

end Pattern

namespace Scan

/-- A record of a page that lies directly in the directory that `dirs` leads to from `root`. -/
structure RecordIn (root : Path) (dirs : List Name) (r : Record Unit) : Prop where
  root_ne_nil : root.raw ≠ []
  proper : ∀ n ∈ dirs, n.Proper
  source : ∃ page ∈ Page.fileNames, r.source = root.descend (dirs ++ [page])
  pattern : PatternOf dirs r.pattern
  nodup : r.params.Nodup

/-- The page of the record lies directly in the directory `q`, and the pattern says so: it is the
pattern of `q`, its segments lead down from `root` to `q`, and there are as many of them as there
are directories on the way. -/
structure Locates (d : Disk) (root q : Path) (r : Record Unit) : Prop where
  parent : r.source.parent? = some q
  pattern : routePattern root q = .ok r.pattern
  components : q.components = root.components ++ (Pattern.directories r.pattern).map .name
  place : ∃ p n₀ page n, d.look root = .ok (p, n₀) ∧
    d.look r.source = .ok (p ++ Pattern.directories r.pattern ++ [page], n)
  depth : q.components.length = root.components.length + r.depth
  nodup : r.params.Nodup

variable {d : Disk} {root q : Path} {exclude : Path → Bool} {dirs dirs' : List Name}
  {r r' : Record Unit} {rs : List (Record Unit)} {pattern : Text}

/-! ### Patterns and names -/

theorem proper_of_mem_fileNames : ∀ n ∈ Page.fileNames, n.Proper := by
  decide

theorem patternOf_iff :
    PatternOf dirs pattern ↔
      ∃ names : List Text, dirs = names.map Utf8.encode ∧ pattern = '/' :: joinWith '/' names := by
  simp only [PatternOf, Utf8.decode?_eq_some]
  simp only [← List.forall₂_map_right_iff (R := Eq) (f := Utf8.encode), List.forall₂_eq_eq_eq]

/-- A text that a file name is written as is a segment: it is not empty and holds no slash. -/
theorem segment_of_proper {t : Text} (h : Name.Proper (Utf8.encode t)) : t ≠ [] ∧ '/' ∉ t := by
  refine ⟨?_, fun hmem => h.no_slash ?_⟩
  · rintro rfl
    exact h.ne_nil rfl
  · rw [Utf8.encode, List.mem_flatMap]
    exact ⟨'/', hmem, by decide⟩

/-- **The directories of a page are read back from its pattern.** -/
theorem directories_eq (hdirs : ∀ n ∈ dirs, n.Proper) (h : PatternOf dirs pattern) :
    Pattern.directories pattern = dirs := by
  obtain ⟨names, rfl, rfl⟩ := patternOf_iff.1 h
  have hsegment : ∀ t ∈ names, t ≠ [] ∧ '/' ∉ t := fun t ht =>
    segment_of_proper (hdirs _ (List.mem_map_of_mem ht))
  rw [Pattern.directories, splitOn, if_pos rfl]
  by_cases hnames : names = []
  · subst hnames
    rfl
  · rw [splitOn_joinWith hnames fun t ht => (hsegment t ht).2]
    have hfilter : names.filter (fun s => !s.isEmpty) = names :=
      List.filter_eq_self.2 fun t ht => by simpa using (hsegment t ht).1
    rw [List.filter_cons_of_neg (by simp), hfilter]

theorem patternOf_unique {pattern' : Text} (h : PatternOf dirs pattern)
    (h' : PatternOf dirs pattern') : pattern = pattern' :=
  Option.some.inj ((patternOf?_eq_some.2 h).symm.trans (patternOf?_eq_some.2 h'))

/-- The pattern of a directory below the root depends on the names that lead down to it only. -/
theorem routePattern_eq_ok (hq : q.components = root.components ++ dirs.map .name)
    (h : PatternOf dirs pattern) : routePattern root q = .ok pattern := by
  have hstarts : q.startsWith root = true := by
    rw [Path.startsWith_iff, hq]
    exact List.prefix_append _ _
  have hnames : (dirs.map Path.Component.name).filterMap Path.Component.name? = dirs := by
    rw [List.filterMap_map]
    exact List.filterMap_some
  rw [routePattern, Path.below?, if_pos hstarts, hq, List.drop_left]
  simp only [Option.getD_some, hnames, patternOf?_eq_some.2 h]

/-! ### Single records -/

theorem exists_recordIn (hd : d.Tree) (h : d.scan root exclude = .ok rs) (hr : r ∈ rs) :
    ∃ dirs p n₀ page n, RecordIn root dirs r ∧ d.look root = .ok (p, n₀) ∧
      d.look r.source = .ok (p ++ dirs ++ [page], n) := by
  obtain ⟨x, hx, hrecord⟩ := (mem_collect h).1 hr
  obtain ⟨names, rfl⟩ := names_of_recognize hrecord
  cases hstart : d.scanStart? root with
  | none =>
    rw [Disk.sights, hstart] at hx
    cases hx
  | some e =>
    obtain ⟨p, n₀⟩ := e
    obtain ⟨hroot, hdir⟩ := Disk.scanStart?_eq_some.1 hstart
    obtain ⟨hne, -, hclear, n, content, hn, hfile⟩ := (file_mem_sights hd hroot hdir).1 hx
    obtain ⟨⟨page, hpage, hlast⟩, -, hdesc, hlook⟩ :=
      recognize_eq_some hd hroot hn hfile hclear hrecord
    obtain ⟨dirs, rfl⟩ := List.getLast?_eq_some_iff.1 hlast
    have hproper := Disk.proper_of_node? hd hn
    refine ⟨dirs, p, n₀, page, n, ⟨(Disk.find_eq_of_look hroot).1, fun m hm => ?_,
      ⟨page, hpage, hdesc.source⟩, ?_, hdesc.nodup⟩, hroot, ?_⟩
    · exact hproper m (by simp [hm])
    · simpa using hdesc.pattern
    · rw [List.append_assoc, hdesc.source]
      exact hlook

namespace RecordIn

variable (h : RecordIn root dirs r)

include h

theorem directories : Pattern.directories r.pattern = dirs := directories_eq h.proper h.pattern

theorem exists_parent? :
    ∃ q, q.components = root.components ++ dirs.map .name ∧
      ∀ r', RecordIn root dirs r' → r'.source.parent? = some q := by
  obtain ⟨q, hq, hparent⟩ := Path.exists_parent?_descend h.root_ne_nil h.proper
  refine ⟨q, hq, fun r' h' => ?_⟩
  obtain ⟨page, hpage, hsource⟩ := h'.source
  rw [hsource]
  exact hparent page (proper_of_mem_fileNames page hpage)

theorem pattern_eq_iff (h' : RecordIn root dirs' r') : r.pattern = r'.pattern ↔ dirs = dirs' := by
  constructor
  · intro heq
    rw [← h.directories, heq, h'.directories]
  · rintro rfl
    exact patternOf_unique h.pattern h'.pattern

/-- Two pages lie in the same directory when the same names lead down to it: as it is spelled and
part by part. -/
theorem parent?_eq_iff (h' : RecordIn root dirs' r') :
    (r.source.parent? = r'.source.parent? ↔ dirs = dirs') ∧
      (r.source.parent?.map Path.components = r'.source.parent?.map Path.components ↔
        dirs = dirs') := by
  obtain ⟨q, hq, hparent⟩ := h.exists_parent?
  obtain ⟨q', hq', hparent'⟩ := h'.exists_parent?
  have hsame : dirs = dirs' → r.source.parent? = r'.source.parent? := by
    rintro rfl
    rw [hparent r h, hparent r' h']
  have hcomponents : r.source.parent?.map Path.components =
      r'.source.parent?.map Path.components → dirs = dirs' := by
    intro heq
    rw [hparent r h, hparent' r' h', Option.map_some, Option.map_some, Option.some.injEq, hq, hq',
      List.append_cancel_left_eq] at heq
    exact List.map_injective_iff.2 (fun _ _ => Path.Component.name.inj) heq
  exact ⟨⟨fun heq => hcomponents (by rw [heq]), hsame⟩,
    ⟨hcomponents, fun heq => by rw [hsame heq]⟩⟩

end RecordIn

/-- **The pattern of a page says which directory the page lies in.** -/
theorem exists_locates (hd : d.Tree) (h : d.scan root exclude = .ok rs) (hr : r ∈ rs) :
    ∃ q, Locates d root q r := by
  obtain ⟨dirs, p, n₀, page, n, hin, hroot, hlook⟩ := exists_recordIn hd h hr
  obtain ⟨q, hq, hparent⟩ := hin.exists_parent?
  refine ⟨q, hparent r hin, routePattern_eq_ok hq hin.pattern, ?_, ⟨p, n₀, page, n, hroot, ?_⟩,
    ?_, hin.nodup⟩
  · rw [hin.directories, hq]
  · rw [hin.directories, hlook]
  · rw [hq, List.length_append, List.length_map, ← hin.directories, Pattern.length_directories]
    rfl

/-- Records have the same pattern exactly when their pages lie in the same directory. -/
theorem pattern_eq_iff_parent? (hd : d.Tree) (h : d.scan root exclude = .ok rs) (hr : r ∈ rs)
    (hr' : r' ∈ rs) :
    (r.pattern = r'.pattern ↔ r.source.parent? = r'.source.parent?) ∧
      (r.pattern = r'.pattern ↔
        r.source.parent?.map Path.components = r'.source.parent?.map Path.components) := by
  obtain ⟨dirs, _, _, _, _, hin, -, -⟩ := exists_recordIn hd h hr
  obtain ⟨dirs', _, _, _, _, hin', -, -⟩ := exists_recordIn hd h hr'
  rw [hin.pattern_eq_iff hin', (hin.parent?_eq_iff hin').1, (hin.parent?_eq_iff hin').2]
  exact ⟨Iff.rfl, Iff.rfl⟩

end Scan

/-! ### Manifests -/

namespace Manifest

variable {M : Type} {d : Disk} {root : Path} {exclude : Path → Bool} {rs : List (Record Unit)}

/-- The directories of the routes of a manifest. -/
theorem exists_directories (hd : d.Tree) (h : d.scan root exclude = .ok rs) {ps : List Text}
    (hnodup : ps.Nodup) (hps : ∀ p, p ∈ ps ↔ p ∈ rs.map Record.pattern) :
    ∃ qs : List Path, qs.Nodup ∧ (∀ q, q ∈ qs ↔ ∃ r ∈ rs, r.source.parent? = some q) ∧
      List.Forall₂ (fun q p => routePattern root q = .ok p) qs ps := by
  -- each pattern has a record, whose directory is that of all records with the pattern
  have hdir : ∀ p ∈ ps, ∃ q, routePattern root q = .ok p ∧
      ∀ r ∈ rs, r.source.parent? = some q ↔ r.pattern = p := by
    intro p hp
    obtain ⟨r, hr, rfl⟩ := List.mem_map.1 ((hps p).1 hp)
    obtain ⟨q, hq⟩ := Scan.exists_locates hd h hr
    refine ⟨q, hq.pattern, fun r' hr' => ?_⟩
    rw [(Scan.pattern_eq_iff_parent? hd h hr' hr).1, hq.parent]
  have : Nonempty Path := ⟨root⟩
  choose! f hf using hdir
  refine ⟨ps.map f, ?_, fun q => ?_, ?_⟩
  · refine hnodup.map_on fun p hp p' hp' heq => ?_
    have hp := (hf p hp).1
    rw [heq, (hf p' hp').1] at hp
    exact (Except.ok.inj hp).symm
  · rw [List.mem_map]
    constructor
    · rintro ⟨p, hp, rfl⟩
      obtain ⟨r, hr, hpattern⟩ := List.mem_map.1 ((hps p).1 hp)
      exact ⟨r, hr, ((hf p hp).2 r hr).2 hpattern⟩
    · rintro ⟨r, hr, hq⟩
      have hp : r.pattern ∈ ps := (hps _).2 (List.mem_map_of_mem hr)
      have hparent := ((hf _ hp).2 r hr).2 rfl
      exact ⟨r.pattern, hp, Option.some.inj (hparent.symm.trans hq)⟩
  · rw [List.forall₂_map_left_iff, List.forall₂_same]
    exact fun p hp => (hf p hp).1

end Manifest

namespace Disk

variable {d : Disk} {root : Path} {exclude : Path → Bool} {rs : List (Record Unit)}

/-- **Routes and page directories correspond one to one.**  The pattern of every record says which
directory its page lies in, two records have the same pattern exactly when their pages lie in the
same directory, and a manifest of the records, in any order and with any payloads, has one route for
each directory with a page. -/
theorem scan_directories (hd : d.Tree) (h : d.scan root exclude = .ok rs) :
    (∀ r ∈ rs, ∃ q, Scan.Locates d root q r) ∧
    (∀ r ∈ rs, ∀ r' ∈ rs,
      (r.pattern = r'.pattern ↔ r.source.parent? = r'.source.parent?) ∧
        (r.pattern = r'.pattern ↔
          r.source.parent?.map Path.components = r'.source.parent?.map Path.components)) ∧
    ∀ (M : Type) (payload : Record Unit → M) (rs' : List (Record M)),
      rs'.Perm (rs.map fun r => r.withExtra (payload r)) →
        (Manifest.ofRecords rs').patterns.Nodup ∧
        ∃ qs : List Path, qs.Nodup ∧ qs.length = (Manifest.ofRecords rs').size ∧
          (∀ q, q ∈ qs ↔ ∃ r ∈ rs, r.source.parent? = some q) ∧
          List.Forall₂ (fun q p => routePattern root q = .ok p) qs
            (Manifest.ofRecords rs').patterns := by
  refine ⟨fun r hr => Scan.exists_locates hd h hr,
    fun r hr r' hr' => Scan.pattern_eq_iff_parent? hd h hr hr', fun M payload rs' hperm => ?_⟩
  have hpatterns : ∀ p, p ∈ (Manifest.ofRecords rs').patterns ↔ p ∈ rs.map Record.pattern := by
    intro p
    rw [Manifest.mem_patterns_ofRecords, (hperm.map Record.pattern).mem_iff, List.map_map]
    rfl
  have hnodup := Manifest.nodup_patterns_ofRecords rs'
  obtain ⟨qs, hqs, hmem, hroutes⟩ := Manifest.exists_directories hd h hnodup hpatterns
  exact ⟨hnodup, qs, hqs, hroutes.length_eq.trans (Manifest.length_patterns _), hmem, hroutes⟩

/-- A tree with two pages in one directory and a page in the directory above it. -/
def pagesSideBySide : Disk where
  nodes :=
    let place (names : List String) : Place := names.map fun n => Utf8.encode n.toList
    let page : Node := ⟨.file (Utf8.encode "defineRoute()".toList), false⟩
    [(place ["app"], ⟨.directory, false⟩),
      (place ["app", "[id]"], ⟨.directory, false⟩),
      (place ["app", "[id]", "page.ts"], page),
      (place ["app", "[id]", "page.tsx"], page),
      (place ["app", "page.js"], page)]
  home := []

/-- The three pages make two routes, in whatever order they come and however the root is spelled. -/
theorem scan_directories_pagesSideBySide :
    let root := Path.ofText "./app/../app/.".toList
    let record (source pattern : String) : Record Unit :=
      ⟨Path.ofText source.toList, pattern.toList, ()⟩
    let rs := [record "./app/../app/./[id]/page.ts" "/[id]",
      record "./app/../app/./[id]/page.tsx" "/[id]", record "./app/../app/./page.js" "/"]
    pagesSideBySide.scan root (fun _ => false) = .ok rs ∧
      (Manifest.ofRecords rs.reverse).size = 2 ∧
      ∃ qs : List Path, qs.Nodup ∧ qs.length = 2 ∧
        ∀ q, q ∈ qs ↔ ∃ r ∈ rs, r.source.parent? = some q := by
  intro root record rs
  have hscan : pagesSideBySide.scan root (fun _ => false) = .ok rs := rfl
  have hsize : (Manifest.ofRecords rs.reverse).size = 2 := rfl
  obtain ⟨-, -, h⟩ := scan_directories (by decide) hscan
  obtain ⟨-, qs, hnodup, hlen, hmem, -⟩ := h Unit Record.extra rs.reverse (List.reverse_perm rs)
  exact ⟨hscan, hsize, qs, hnodup, hlen.trans hsize, hmem⟩

end Disk

end FileRoutes
