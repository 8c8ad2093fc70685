import FileRoutes.Config.Reading
import FileRoutes.Proofs.Glob.Exclusion
import FileRoutes.Proofs.Toml.Keys

/-!
# What a configuration file says

Entries are read one after another, but since no key of a document is given twice, each setting
depends on its own key alone: it is what the value of the key reads as, or the standard one
(`Config.Given`).  A file gives settings as a whole or not at all:

* `Config.Loads` says which settings a file gives;
* `Config.Refuses` says what is wrong with a file that gives none;
* `Config.load_eq_ok` and `Config.load_eq_error` say that these are the answers of `Config.load`.
-/

namespace FileRoutes

theorem Disk.hasPath_of_read {d : Disk} {path : Path} {content : Bytes}
    (h : d.read path = .ok content) : d.hasPath path = true := by
  rw [read] at h
  rw [hasPath]
  split at h
  case h_1 => cases h
  case h_2 hlook => rw [hlook]

namespace Config

variable {es : Toml.Entries} {k : Text} {v : Toml.Value} {c c' c₀ : Config} {reason : Text}

/-! ### Settings -/

section

variable {α : Type} {read : Toml.Value → Except Text α} {x y : α}

/-- A setting is what the value of its key reads as, or `x` where the key is missing. -/
def Setting (es : Toml.Entries) (k : Text) (read : Toml.Value → Except Text α) (x y : α) : Prop :=
  match es.get? k with
  | some v => read v = .ok y
  | none => y = x

theorem setting_nil : Setting [] k read x y ↔ y = x := .rfl

theorem setting_cons {e : Text × Toml.Value} :
    Setting (e :: es) k read x y ↔
      if e.1 = k then read e.2 = .ok y else Setting es k read x y := by
  rw [Setting, Toml.Entries.get?_cons]
  split_ifs with h <;> rfl

/-- Settings can be read from one entry after another, if their keys are apart. -/
theorem setting_cons_iff_exists {e : Text × Toml.Value} (he : e.1 ∉ es.keys) :
    Setting (e :: es) k read x y ↔ ∃ z, Setting [e] k read x z ∧ Setting es k read z y := by
  simp only [setting_cons, setting_nil]
  split_ifs with hk
  · subst hk
    have hnone : es.get? e.1 = none := Toml.Entries.get?_eq_none.2 he
    simp only [Setting, hnone, exists_eq_right']
  · rw [exists_eq_left]

end

/-- Some entries give settings, which are those of `c₀` where the entries say nothing. -/
structure Given (c₀ : Config) (es : Toml.Entries) (c : Config) : Prop where
  root : Setting es "root_dir".toList readPath c₀.root c.root
  out : Setting es "output_dir".toList readPath c₀.out c.out
  exclude : Setting es "exclude".toList readExclude c₀.exclude c.exclude
  sort : Setting es "sort".toList readSort c₀.sort c.sort
  debounce : Setting es "watch".toList readWatch c₀.debounce c.debounce

theorem given_nil : Given c₀ [] c ↔ c = c₀ := by
  constructor
  · rintro ⟨hroot, hout, hexclude, hsort, hdebounce⟩
    cases c
    cases c₀
    simp_all only [setting_nil]
  · rintro rfl
    exact ⟨rfl, rfl, rfl, rfl, rfl⟩

theorem given_cons {e : Text × Toml.Value} (he : e.1 ∉ es.keys) :
    Given c₀ (e :: es) c ↔ ∃ c₁, Given c₀ [e] c₁ ∧ Given c₁ es c := by
  constructor
  · rintro ⟨hroot, hout, hexclude, hsort, hdebounce⟩
    obtain ⟨root, hroot₁, hroot⟩ := (setting_cons_iff_exists he).1 hroot
    obtain ⟨out, hout₁, hout⟩ := (setting_cons_iff_exists he).1 hout
    obtain ⟨exclude, hexclude₁, hexclude⟩ := (setting_cons_iff_exists he).1 hexclude
    obtain ⟨sort, hsort₁, hsort⟩ := (setting_cons_iff_exists he).1 hsort
    obtain ⟨debounce, hdebounce₁, hdebounce⟩ := (setting_cons_iff_exists he).1 hdebounce
    exact ⟨⟨root, out, exclude, sort, debounce⟩, ⟨hroot₁, hout₁, hexclude₁, hsort₁, hdebounce₁⟩,
      ⟨hroot, hout, hexclude, hsort, hdebounce⟩⟩
  · rintro ⟨c₁, h₁, h⟩
    exact ⟨(setting_cons_iff_exists he).2 ⟨_, h₁.root, h.root⟩,
      (setting_cons_iff_exists he).2 ⟨_, h₁.out, h.out⟩,
      (setting_cons_iff_exists he).2 ⟨_, h₁.exclude, h.exclude⟩,
      (setting_cons_iff_exists he).2 ⟨_, h₁.sort, h.sort⟩,
      (setting_cons_iff_exists he).2 ⟨_, h₁.debounce, h.debounce⟩⟩

theorem given_singleton : Given c [(k, v)] c' ↔
    (if k = "root_dir".toList then readPath v = .ok c'.root else c'.root = c.root) ∧
    (if k = "output_dir".toList then readPath v = .ok c'.out else c'.out = c.out) ∧
    (if k = "exclude".toList then readExclude v = .ok c'.exclude else c'.exclude = c.exclude) ∧
    (if k = "sort".toList then readSort v = .ok c'.sort else c'.sort = c.sort) ∧
    (if k = "watch".toList then readWatch v = .ok c'.debounce
      else c'.debounce = c.debounce) := by
  constructor
  · rintro ⟨hroot, hout, hexclude, hsort, hdebounce⟩
    exact ⟨setting_cons.1 hroot, setting_cons.1 hout, setting_cons.1 hexclude,
      setting_cons.1 hsort, setting_cons.1 hdebounce⟩
  · rintro ⟨hroot, hout, hexclude, hsort, hdebounce⟩
    exact ⟨setting_cons.2 hroot, setting_cons.2 hout, setting_cons.2 hexclude,
      setting_cons.2 hsort, setting_cons.2 hdebounce⟩

theorem map_eq_ok {α : Type} {r : Except Text α} {f : α → Config} :
    r.map f = .ok c ↔ ∃ x, r = .ok x ∧ f x = c := by
  cases r <;> simp [Except.map]

/-- One entry gives the setting of its key, and leaves the others alone. -/
theorem set_eq_ok : c.set k v = .ok c' ↔ Given c [(k, v)] c' := by
  obtain ⟨root, out, exclude, sort, debounce⟩ := c
  obtain ⟨root', out', exclude', sort', debounce'⟩ := c'
  rw [given_singleton, set]
  -- the keys differ, so at most one of the settings is read
  by_cases hroot : k = "root_dir".toList
  · simp +decide only [hroot, if_true, if_false, map_eq_ok]
    simp [eq_comm, and_left_comm]
  by_cases hout : k = "output_dir".toList
  · simp +decide only [hout, if_true, if_false, map_eq_ok]
    simp [eq_comm, and_left_comm]
  by_cases hexclude : k = "exclude".toList
  · simp +decide only [hexclude, if_true, if_false, map_eq_ok]
    simp [eq_comm, and_left_comm]
  by_cases hsort : k = "sort".toList
  · simp +decide only [hsort, if_true, if_false, map_eq_ok]
    simp [eq_comm, and_left_comm]
  by_cases hwatch : k = "watch".toList
  · simp +decide only [hwatch, if_true, if_false, map_eq_ok]
    simp [eq_comm, and_left_comm]
  simp only [hroot, hout, hexclude, hsort, hwatch, if_false, Except.ok.injEq, mk.injEq, eq_comm]

/-- **Entries whose keys are apart give settings that depend each on its own key.** -/
theorem ofEntries_eq_ok (hes : es.keys.Nodup) :
    ofEntries c₀ es = .ok c ↔ Given c₀ es c := by
  induction es generalizing c₀ with
  | nil => rw [ofEntries, given_nil, Except.ok.injEq, eq_comm]
  | cons e es ih =>
    obtain ⟨k, v⟩ := e
    obtain ⟨hk, hes⟩ := List.nodup_cons.1 hes
    rw [ofEntries, given_cons hk]
    simp only [← set_eq_ok, ← ih hes]
    cases c₀.set k v with
    | ok c₁ => simp
    | error reason => simp

/-- A value does not fit its key, for a reason. -/
inductive Unfit (v : Toml.Value) (reason : Text) : Text → Prop
  | root (h : readPath v = .error reason) : Unfit v reason "root_dir".toList
  | out (h : readPath v = .error reason) : Unfit v reason "output_dir".toList
  | exclude (h : readExclude v = .error reason) : Unfit v reason "exclude".toList
  | sort (h : readSort v = .error reason) : Unfit v reason "sort".toList
  | debounce (h : readWatch v = .error reason) : Unfit v reason "watch".toList

theorem map_eq_error {α : Type} {r : Except Text α} {f : α → Config} :
    r.map f = .error reason ↔ r = .error reason := by
  cases r <;> simp [Except.map]

theorem set_eq_error : c.set k v = .error reason ↔ Unfit v reason k := by
  constructor
  · intro h
    rw [set] at h
    split_ifs at h with hroot hout hexclude hsort hdebounce
    · exact hroot ▸ .root (map_eq_error.1 h)
    · exact hout ▸ .out (map_eq_error.1 h)
    · exact hexclude ▸ .exclude (map_eq_error.1 h)
    · exact hsort ▸ .sort (map_eq_error.1 h)
    · exact hdebounce ▸ .debounce (map_eq_error.1 h)
  · rintro (h | h | h | h | h)
    all_goals
      rw [set]
      simp +decide only [if_true, if_false, h, Except.map]

/-- Of several values that do not fit, the first one counts. -/
theorem ofEntries_eq_error : ofEntries c es = .error reason ↔
    ∃ k v, Unfit v reason k ∧ ∃ before after, es = before ++ (k, v) :: after ∧
      ∀ e ∈ before, ∀ r, ¬Unfit e.2 r e.1 := by
  induction es generalizing c with
  | nil => simp [ofEntries]
  | cons e es ih =>
    simp only [exists_split_cons]
    rw [ofEntries]
    cases hset : c.set e.1 e.2 with
    | ok c₁ =>
      have hfits (r : Text) : ¬Unfit e.2 r e.1 := by
        intro hr
        cases hset.symm.trans (set_eq_error.2 hr)
      rw [ih]
      refine exists_congr fun k => exists_congr fun v => and_congr_right fun hunfit => ?_
      have hne : e ≠ (k, v) := by
        rintro rfl
        exact hfits reason hunfit
      simp [hne, hfits]
    | error r =>
      constructor
      · intro h
        cases h
        exact ⟨e.1, e.2, set_eq_error.1 hset, .inl rfl⟩
      · rintro ⟨k, v, hunfit, rfl | ⟨hfits, -⟩⟩
        · exact hset.symm.trans (set_eq_error.2 hunfit)
        · exact absurd (set_eq_error.1 hset) (hfits r)

/-! ### Texts -/

/-- A text says what the settings are.  A blank text leaves the standard ones; a document gives
those of its entries, if the globs among them are such. -/
inductive Says (t : Text) : Config → Prop
  | blank (ht : t.all isBlank = true) : Says t standard
  | document {es : Toml.Entries} {c : Config} (ht : t.all isBlank = false)
    (hes : Toml.document? t = some es) (hgiven : Given standard es c)
    (hglobs : ∀ g ∈ c.exclude, ∃ ts, Glob.ofText g = .ok ts) : Says t c

/-- Something is wrong with a text.  The first value that does not fit counts, and if all fit, the
first glob that is none. -/
inductive Misstates (t : Text) : ConfigFault → Prop
  | malformed (ht : t.all isBlank = false) (hes : Toml.document? t = none) : Misstates t .malformed
  | unfit {before after : Toml.Entries} {k : Text} {v : Toml.Value} {reason : Text}
    (ht : t.all isBlank = false) (hes : Toml.document? t = some (before ++ (k, v) :: after))
    (hbefore : ∀ e ∈ before, ∀ r, ¬Unfit e.2 r e.1) (hunfit : Unfit v reason k) :
    Misstates t (.unfit reason)
  | badGlob {es : Toml.Entries} {c : Config} {before after : List Text} {b : BadGlob}
    (ht : t.all isBlank = false) (hes : Toml.document? t = some es) (hgiven : Given standard es c)
    (hexclude : c.exclude = before ++ b.glob :: after)
    (hbefore : ∀ g ∈ before, ∃ ts, Glob.ofText g = .ok ts)
    (hglob : Glob.ofText b.glob = .error b.reason) : Misstates t (.badGlob b)

variable {t : Text} {fault : ConfigFault}

theorem Says.ofText (h : Says t c) : ofText t = .ok c := by
  obtain ht | ⟨ht, hes, hgiven, hglobs⟩ := h
  · rw [Config.ofText, if_pos ht]
  · obtain ⟨gs, hgs⟩ := exists_compileGlobs.2 hglobs
    rw [Config.ofText, if_neg (Bool.eq_false_iff.1 ht), hes]
    simp only [(ofEntries_eq_ok (Toml.nodup_document? hes)).2 hgiven, hgs]

theorem Misstates.ofText (h : Misstates t fault) : ofText t = .error fault := by
  obtain ⟨ht, hes⟩ | ⟨ht, hes, hbefore, hunfit⟩ | ⟨ht, hes, hgiven, hexclude, hbefore, hglob⟩ := h
  all_goals rw [Config.ofText, if_neg (Bool.eq_false_iff.1 ht), hes]
  · simp only [ofEntries_eq_error.2 ⟨_, _, hunfit, _, _, rfl, hbefore⟩]
  · simp only [(ofEntries_eq_ok (Toml.nodup_document? hes)).2 hgiven,
      compileGlobs_eq_error.2 ⟨hglob, _, _, hexclude, hbefore⟩]

theorem says_or_misstates (t : Text) : (∃ c, Says t c) ∨ ∃ fault, Misstates t fault := by
  cases ht : t.all isBlank with
  | true => exact .inl ⟨_, .blank ht⟩
  | false =>
    cases hes : Toml.document? t with
    | none => exact .inr ⟨_, .malformed ht hes⟩
    | some es =>
      cases hc : ofEntries standard es with
      | error reason =>
        obtain ⟨k, v, hunfit, before, after, rfl, hbefore⟩ := ofEntries_eq_error.1 hc
        exact .inr ⟨_, .unfit ht hes hbefore hunfit⟩
      | ok c =>
        have hgiven := (ofEntries_eq_ok (Toml.nodup_document? hes)).1 hc
        cases hgs : compileGlobs c.exclude with
        | ok gs => exact .inl ⟨c, .document ht hes hgiven (exists_compileGlobs.1 ⟨gs, hgs⟩)⟩
        | error b =>
          obtain ⟨hglob, before, after, hexclude, hbefore⟩ := compileGlobs_eq_error.1 hgs
          exact .inr ⟨_, .badGlob ht hes hgiven hexclude hbefore hglob⟩

/-! ### Files -/

/-- The file that a path names gives settings: the standard ones if it is not there, and else those
that its text says. -/
inductive Loads (d : Disk) (path : Path) : Config → Prop
  | absent (h : d.hasPath path = false) : Loads d path standard
  | text {t : Text} {c : Config} (hread : d.read path = .ok (Utf8.encode t)) (ht : Says t c) :
    Loads d path c

/-- The file that a path names gives no settings, because of a fault. -/
inductive Refuses (d : Disk) (path : Path) : ConfigFault → Prop
  | unreadable {f : Fault} (h : d.hasPath path = true) (hread : d.read path = .error f) :
    Refuses d path (.unreadable f)
  | notText {content : Bytes} (hread : d.read path = .ok content)
    (h : ∀ t, content ≠ Utf8.encode t) : Refuses d path .notText
  | text {t : Text} {fault : ConfigFault} (hread : d.read path = .ok (Utf8.encode t))
    (ht : Misstates t fault) : Refuses d path fault

variable {d : Disk} {path : Path}

theorem Loads.load (h : Loads d path c) : load d path = .ok c := by
  obtain h | ⟨hread, ht⟩ := h
  · rw [Config.load, if_neg (Bool.eq_false_iff.1 h)]
  · rw [Config.load, if_pos (Disk.hasPath_of_read hread), hread]
    simp only [Utf8.decode?_encode, ht.ofText]

theorem Refuses.load (h : Refuses d path fault) : load d path = .error (.config path fault) := by
  obtain ⟨hpath, hread⟩ | ⟨hread, h⟩ | ⟨hread, ht⟩ := h
  · rw [Config.load, if_pos hpath, hread]
  · have hnone : Utf8.decode? _ = none :=
      Option.eq_none_iff_forall_ne_some.2 fun t ht => h t (Utf8.decode?_eq_some.1 ht)
    rw [Config.load, if_pos (Disk.hasPath_of_read hread), hread]
    simp only [hnone]
  · rw [Config.load, if_pos (Disk.hasPath_of_read hread), hread]
    simp only [Utf8.decode?_encode, ht.ofText]

/-- **Every file gives settings or has a fault.** -/
theorem loads_or_refuses (d : Disk) (path : Path) :
    (∃ c, Loads d path c) ∨ ∃ fault, Refuses d path fault := by
  cases hpath : d.hasPath path with
  | false => exact .inl ⟨_, .absent hpath⟩
  | true =>
    cases hread : d.read path with
    | error f => exact .inr ⟨_, .unreadable hpath hread⟩
    | ok content =>
      by_cases h : ∃ t, content = Utf8.encode t
      · obtain ⟨t, rfl⟩ := h
        obtain ⟨c, hc⟩ | ⟨fault, hfault⟩ := says_or_misstates t
        · exact .inl ⟨c, .text hread hc⟩
        · exact .inr ⟨fault, .text hread hfault⟩
      · exact .inr ⟨_, .notText hread (not_exists.1 h)⟩

end Config

end FileRoutes
