import FileRoutes.Page.Declaration
import Mathlib.Data.List.TakeWhile

/-!
# Calls that declare a route

The search looks at every place of a text that does not come after a word character
(`Declaration.declaresAfter_iff`), and there for a call (`Declaration.startsCall_iff`).  So a text
declares a route exactly if it can be cut so that one of its parts is a call
(`Declaration.declares_iff_exists_cut`); an occurrence of a name that is no call hides none.

The type arguments of a call may hold type arguments of their own, but the search takes the first
`>` for the end of the list.  So it finds a generic call when its list has no list inside, or when
the first `>` inside happens to have a parenthesis behind it; for any other one a text passes only
if it holds another call (`Declaration.declares_generic_iff`).
-/

namespace FileRoutes

namespace Declaration

variable {c : Char} {t u w ts x name : Text}

/-- The angle brackets of a text are balanced. -/
inductive Balanced : Text → Prop where
  | nil : Balanced []
  | char {c : Char} {t : Text} : c ≠ '<' → c ≠ '>' → Balanced t → Balanced (c :: t)
  | list {ts t : Text} : Balanced ts → Balanced t → Balanced ('<' :: (ts ++ '>' :: t))

/-- A call with the type arguments `ts`, up to its opening parenthesis. -/
inductive GenericCall (ts : Text) : Text → Prop where
  | mk (name w w' : Text) : name ∈ callees → Blank w → Balanced ts → Blank w' →
      GenericCall ts (name ++ w ++ '<' :: (ts ++ '>' :: w') ++ ['('])

/-- Behind the first `>` stands an opening parenthesis, perhaps after white space. -/
def ClosesEarly (ts : Text) : Prop :=
  ∃ a w b, ts = a ++ '>' :: (w ++ '(' :: b) ∧ '>' ∉ a ∧ Blank w

/-! ### White space -/

theorem dropBlank_append (hw : Blank w) (t : Text) : dropBlank (w ++ t) = dropBlank t :=
  List.dropWhile_append_of_pos hw

theorem dropBlank_cons_of_not (h : isBlank c = false) (t : Text) : dropBlank (c :: t) = c :: t :=
  List.dropWhile_cons_of_neg (by simp [h])

theorem exists_blank_append (t : Text) : ∃ w, Blank w ∧ w ++ dropBlank t = t :=
  ⟨t.takeWhile isBlank, fun _ => List.mem_takeWhile_imp, List.takeWhile_append_dropWhile⟩

theorem opensArguments_iff : opensArguments t = true ↔ ∃ w v, t = w ++ '(' :: v ∧ Blank w := by
  unfold opensArguments
  rw [decide_eq_true_iff]
  constructor
  · intro h
    obtain ⟨w, hw, ht⟩ := exists_blank_append t
    obtain ⟨v, hv⟩ := List.head?_eq_some_iff.1 h
    exact ⟨w, v, by rw [← hv, ht], hw⟩
  · rintro ⟨w, v, rfl, hw⟩
    rw [dropBlank_append hw, dropBlank_cons_of_not (by decide), List.head?_cons]

/-- Whether a parenthesis opens is settled at the first character that is not blank. -/
theorem opensArguments_append_cons (hblank : isBlank c = false) (hc : c ≠ '(') (t s : Text) :
    opensArguments (t ++ c :: s) = opensArguments t := by
  unfold opensArguments
  induction t with
  | nil =>
    rw [List.nil_append, dropBlank_cons_of_not hblank]
    simp [dropBlank, hc]
  | cons b t ih =>
    rw [List.cons_append]
    cases hb : isBlank b with
    | true =>
      have hskip (r : Text) : dropBlank (b :: r) = dropBlank r := List.dropWhile_cons_of_pos hb
      rw [hskip, hskip, ih]
    | false => rw [dropBlank_cons_of_not hb, dropBlank_cons_of_not hb, List.head?_cons,
        List.head?_cons]

/-! ### The rest of a call -/

theorem continuesCall_append (hw : Blank w) (t : Text) :
    continuesCall (w ++ t) = continuesCall t := by
  unfold continuesCall
  rw [dropBlank_append hw]

theorem continuesCall_paren (t : Text) : continuesCall ('(' :: t) = true := by
  unfold continuesCall
  rw [dropBlank_cons_of_not (by decide)]
  rfl

/-- A list of type arguments ends at the first `>`. -/
theorem continuesCall_list {a : Text} (ha : '>' ∉ a) (t : Text) :
    continuesCall ('<' :: (a ++ '>' :: t)) = opensArguments t := by
  have hdrop : (a ++ '>' :: t).dropWhile (· ≠ '>') = '>' :: t := by
    rw [List.dropWhile_append_of_pos, List.dropWhile_cons_of_neg (by decide)]
    intro b hb
    exact decide_eq_true fun h => ha (h ▸ hb)
  unfold continuesCall
  rw [dropBlank_cons_of_not (by decide)]
  simp only [hdrop]

theorem continuesCall_iff :
    continuesCall t = true ↔ ∃ w g v, t = w ++ g ++ '(' :: v ∧ Blank w ∧ Generics g := by
  constructor
  · intro h
    obtain ⟨w, hw, ht⟩ := exists_blank_append t
    unfold continuesCall at h
    split at h
    case h_1 v hv => exact ⟨w, [], v, by rw [← ht, hv, List.append_nil], hw, .none⟩
    case h_2 r hr =>
      split at h
      case h_1 b r' hr' =>
        -- what is left of the list starts at its end
        have hb : b = '>' := by
          have hhead := List.head?_dropWhile_not (· ≠ '>') r
          rw [hr'] at hhead
          simpa using hhead
        obtain ⟨w', v, rfl, hw'⟩ := opensArguments_iff.1 h
        refine ⟨w, '<' :: (r.takeWhile (· ≠ '>') ++ '>' :: w'), v, ?_, hw, .list _ _ ?_ hw'⟩
        · have hsplit : r.takeWhile (· ≠ '>') ++ r.dropWhile (· ≠ '>') = r :=
            List.takeWhile_append_dropWhile
          rw [hr', hb] at hsplit
          rw [← ht, hr, List.append_assoc, List.cons_append, List.append_assoc, List.cons_append,
            hsplit]
        · intro hmem
          simpa using List.mem_takeWhile_imp hmem
      case h_2 => cases h
    case h_3 => cases h
  · rintro ⟨w, g, v, rfl, hw, hg⟩
    rw [List.append_assoc, continuesCall_append hw]
    cases hg with
    | none => exact continuesCall_paren v
    | list ts w' hts hw' =>
      rw [List.cons_append, List.append_assoc, List.cons_append, continuesCall_list hts]
      exact opensArguments_iff.2 ⟨w', v, rfl, hw'⟩

/-! ### Calls in a text -/

/-- No callee starts with another one. -/
theorem startsCall_append (hname : name ∈ callees) (t : Text) :
    startsCall (name ++ t) = continuesCall t := by
  simp only [callees, List.mem_cons, List.not_mem_nil, or_false] at hname
  rcases hname with rfl | rfl
  · simp [startsCall, callees]
  · simp [startsCall, callees]

/-- The search finds a call at the front exactly if one stands there. -/
theorem startsCall_iff : startsCall t = true ↔ ∃ x v, t = x ++ v ∧ Call x := by
  constructor
  · intro h
    obtain ⟨name, hname, h⟩ := List.any_eq_true.1 h
    rw [Bool.and_eq_true, List.isPrefixOf_iff_prefix] at h
    obtain ⟨⟨r, rfl⟩, h⟩ := h
    rw [List.drop_left, continuesCall_iff] at h
    obtain ⟨w, g, v, rfl, hw, hg⟩ := h
    exact ⟨name ++ w ++ g ++ ['('], v, by simp, .mk name w g hname hw hg⟩
  · rintro ⟨_, v, rfl, ⟨name, w, g, hname, hw, hg⟩⟩
    rw [List.append_assoc, List.append_assoc, List.append_assoc, startsCall_append hname]
    exact continuesCall_iff.2 ⟨w, g, v, by simp, hw, hg⟩

theorem endsOutsideWord_cons :
    EndsOutsideWord (c :: u) ↔ (u = [] → isWordChar c = false) ∧ EndsOutsideWord u := by
  unfold EndsOutsideWord
  cases u with
  | nil => simp
  | cons b u => simp [List.getLast?_cons_cons]

/-- **The search looks at every place that does not come after a word character**, `b` for the
place in front. -/
theorem declaresAfter_iff (b : Bool) (t : Text) :
    declaresAfter b t = true ↔
      ∃ u r, t = u ++ r ∧ startsCall r = true ∧ (u = [] → b = false) ∧ EndsOutsideWord u := by
  induction t generalizing b with
  | nil =>
    constructor
    · intro h
      cases h
    · rintro ⟨u, r, h, hr, -⟩
      obtain ⟨-, rfl⟩ := List.append_eq_nil_iff.1 h.symm
      cases hr
  | cons c t ih =>
    rw [declaresAfter, Bool.or_eq_true, Bool.and_eq_true, Bool.not_eq_true', ih]
    constructor
    · rintro (⟨hb, hr⟩ | ⟨u, r, rfl, hr, hc, hu⟩)
      · exact ⟨[], c :: t, rfl, hr, fun _ => hb, nofun⟩
      · exact ⟨c :: u, r, rfl, hr, nofun, endsOutsideWord_cons.2 ⟨hc, hu⟩⟩
    · rintro ⟨u, r, h, hr, hb, hu⟩
      rcases List.cons_eq_append_iff.1 h with ⟨rfl, rfl⟩ | ⟨u', rfl, rfl⟩
      · exact .inl ⟨hb rfl, hr⟩
      · obtain ⟨hc, hu'⟩ := endsOutsideWord_cons.1 hu
        exact .inr ⟨u', r, rfl, hr, hc, hu'⟩

theorem declares_iff_startsCall :
    declares t = true ↔ ∃ u r, t = u ++ r ∧ startsCall r = true ∧ EndsOutsideWord u := by
  simp [declares, declaresAfter_iff]

/-- **A text declares a route exactly if it holds a call**: it is cut into what stands in front of
a word, the name of a function, white space, perhaps a list of type arguments, an opening
parenthesis, and whatever follows. -/
theorem declares_iff_exists_cut (t : Text) :
    declares t = true ↔
      ∃ u name w g v, t = u ++ name ++ w ++ g ++ '(' :: v ∧ EndsOutsideWord u ∧
        (name = "defineRoute".toList ∨ name = "createRoute".toList) ∧ Blank w ∧ Generics g := by
  have hcallees (name : Text) :
      name ∈ callees ↔ name = "defineRoute".toList ∨ name = "createRoute".toList := by
    simp [callees]
  rw [declares_iff_startsCall]
  constructor
  · rintro ⟨u, r, rfl, hr, hu⟩
    obtain ⟨x, v, rfl, hx⟩ := startsCall_iff.1 hr
    obtain ⟨name, w, g, hname, hw, hg⟩ := hx
    exact ⟨u, name, w, g, v, by simp, hu, (hcallees name).1 hname, hw, hg⟩
  · rintro ⟨u, name, w, g, v, rfl, hu, hname, hw, hg⟩
    have hx : Call (name ++ w ++ g ++ ['(']) := .mk name w g ((hcallees name).2 hname) hw hg
    exact ⟨u, name ++ w ++ g ++ ['('] ++ v, by simp, startsCall_iff.2 ⟨_, v, rfl, hx⟩, hu⟩

/-- A list that is never closed does not hide the call inside it. -/
example : declares "defineRoute < createRoute ()".toList = true := by decide +kernel

/-! ### Lists of type arguments -/

theorem Balanced.append_of_flat (ht : Balanced t) :
    ∀ a : Text, '<' ∉ a → '>' ∉ a → Balanced (a ++ t)
  | [], _, _ => ht
  | c :: a, hopen, hclose => by
    rw [List.mem_cons, not_or] at hopen hclose
    exact .char (Ne.symm hopen.1) (Ne.symm hclose.1) (ht.append_of_flat a hopen.2 hclose.2)

theorem Balanced.flat_iff (h : Balanced ts) : '<' ∉ ts ↔ '>' ∉ ts := by
  induction h with
  | nil => simp
  | char hopen hclose _ ih => simp [Ne.symm hopen, Ne.symm hclose, ih]
  | list => simp

/-- The rest of a generic call is found if its list ends where the search takes it to end. -/
theorem continuesCall_generic {w' : Text} (hts : Balanced ts) (hw' : Blank w') (v : Text) :
    continuesCall ('<' :: (ts ++ '>' :: (w' ++ '(' :: v))) = true ↔
      '<' ∉ ts ∨ ClosesEarly ts := by
  constructor
  · intro h
    by_cases hclose : '>' ∈ ts
    · obtain ⟨a, b, rfl, ha⟩ := List.eq_append_cons_of_mem hclose
      rw [List.append_assoc, List.cons_append, continuesCall_list ha,
        opensArguments_append_cons (by decide) (by decide), opensArguments_iff] at h
      obtain ⟨w, r, rfl, hw⟩ := h
      exact .inr ⟨a, w, r, rfl, ha, hw⟩
    · exact .inl (hts.flat_iff.2 hclose)
  · rintro (hflat | ⟨a, w, r, rfl, ha, hw⟩)
    · rw [continuesCall_list (hts.flat_iff.1 hflat)]
      exact opensArguments_iff.2 ⟨w', v, rfl, hw'⟩
    · rw [List.append_assoc, List.cons_append, continuesCall_list ha]
      exact opensArguments_iff.2 ⟨w, _, List.append_assoc _ _ _, hw⟩

/-- **Which generic calls declare a route.**  One whose type arguments hold no list is found
whatever stands around it.  One whose type arguments do is found by itself only if the first `>` in
them has a parenthesis behind it, and otherwise the text declares a route only if it holds a call in
another place. -/
theorem declares_generic_iff (hu : EndsOutsideWord u) (hx : GenericCall ts x) (v : Text) :
    declares (u ++ x ++ v) = true ↔
      '<' ∉ ts ∨ ClosesEarly ts ∨
        ∃ u' x' v', u ++ x ++ v = u' ++ x' ++ v' ∧ u' ≠ u ∧ EndsOutsideWord u' ∧ Call x' := by
  have hstart : startsCall (x ++ v) = true ↔ '<' ∉ ts ∨ ClosesEarly ts := by
    obtain ⟨name, w, w', hname, hw, hts, hw'⟩ := hx
    rw [List.append_assoc, List.append_assoc, List.append_assoc, startsCall_append hname,
      continuesCall_append hw]
    simpa using continuesCall_generic hts hw' v
  rw [declares_iff_startsCall, ← or_assoc, ← hstart]
  constructor
  · rintro ⟨u', r, hr, hcall, hu'⟩
    by_cases hplace : u' = u
    · subst hplace
      rw [List.append_assoc] at hr
      obtain rfl := List.append_cancel_left hr
      exact .inl hcall
    · obtain ⟨x', v', rfl, hx'⟩ := startsCall_iff.1 hcall
      exact .inr ⟨u', x', v', hr.trans (List.append_assoc _ _ _).symm, hplace, hu', hx'⟩
  · rintro (hcall | ⟨u', x', v', h, -, hu', hx'⟩)
    · exact ⟨u, x ++ v, List.append_assoc _ _ _, hcall, hu⟩
    · exact ⟨u', x' ++ v', h.trans (List.append_assoc _ _ _), startsCall_iff.2 ⟨x', v', rfl, hx'⟩,
        hu'⟩

/-- A list without a list inside. -/
theorem declares_generic_iff_flat :
    EndsOutsideWord "export default ".toList ∧
      GenericCall "Meta".toList "defineRoute <Meta>(".toList ∧
      declares "export default defineRoute <Meta>({})".toList = true := by
  have hu : EndsOutsideWord "export default ".toList := by
    intro c hc
    obtain rfl := Option.some.inj hc
    decide +kernel
  have hspace : Blank [' '] := List.forall_mem_singleton.2 (by decide)
  have hts : Balanced "Meta".toList :=
    Balanced.nil.append_of_flat "Meta".toList (by decide) (by decide)
  have hx : GenericCall "Meta".toList "defineRoute <Meta>(".toList :=
    .mk "defineRoute".toList [' '] [] (by decide) hspace hts (List.forall_mem_nil _)
  exact ⟨hu, hx, (declares_generic_iff hu hx "{})".toList).2 (.inl (by decide))⟩

/-- A list with a list inside: behind its first `>` comes another one, and the text holds no other
call. -/
theorem not_declares_nestedList :
    EndsOutsideWord "export default ".toList ∧
      GenericCall "Map<string, Meta>".toList "defineRoute<Map<string, Meta>>(".toList ∧
      declares "export default defineRoute<Map<string, Meta>>({})".toList = false := by
  refine ⟨?_, ?_, by decide +kernel⟩
  · intro c hc
    obtain rfl := Option.some.inj hc
    decide +kernel
  · have hinner : Balanced "string, Meta".toList :=
      Balanced.nil.append_of_flat "string, Meta".toList (by decide) (by decide)
    have hts : Balanced "Map<string, Meta>".toList :=
      (Balanced.list hinner .nil).append_of_flat "Map".toList (by decide) (by decide)
    exact .mk "defineRoute".toList [] [] (by decide) (List.forall_mem_nil _) hts
      (List.forall_mem_nil _)

end Declaration

end FileRoutes
