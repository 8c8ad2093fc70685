import FileRoutes.Text.Split

/-!
# Values of placeholders

`Values` maps names to texts.  It is kept as a list of pairs in which every name occurs once
(`Values.insert` replaces), and is looked at through `Values.get?`.
-/

namespace FileRoutes

/-- The values of placeholders, by name. -/
abbrev Values := List (Text × Text)

namespace Values

/-- The value of a name. -/
def get? (vs : Values) (name : Text) : Option Text :=
  (vs.find? fun e => e.1 = name).map Prod.snd

/-- Give `name` a value in place of the one it had. -/
def insert (vs : Values) (name value : Text) : Values :=
  match vs with
  | [] => [(name, value)]
  | e :: vs => if e.1 = name then (name, value) :: vs else e :: insert vs name value

/-- The names that have a value. -/
def names (vs : Values) : List Text := vs.map Prod.fst

/-- The values given one after another, a later one replacing an earlier one of its name. -/
def ofList (es : List (Text × Text)) : Values := es.foldl (fun vs e => insert vs e.1 e.2) []

theorem get?_insert (vs : Values) (name value n : Text) :
    get? (insert vs name value) n = if n = name then some value else get? vs n := by
  induction vs with
  | nil => by_cases h : n = name <;> simp [insert, get?, h, eq_comm]
  | cons e vs ih =>
    unfold get? at ih ⊢
    by_cases he : e.1 = name
    · by_cases h : n = name
      · simp [insert, he, h]
      · have hn : ¬name = n := fun h' => h h'.symm
        simp [insert, he, h, hn]
    · by_cases h : e.1 = n
      · have hn : ¬n = name := fun h' => he (h.trans h')
        simp [insert, h, hn]
      · simpa [insert, he, h, List.find?_cons] using ih

end Values

end FileRoutes
