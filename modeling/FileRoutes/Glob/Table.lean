import FileRoutes.Glob.Basic

/-!
# Matching globs row by row

Trying every way in which the stars of a glob can share out a text takes time that grows with
the number of stars.  `Glob.fits` instead goes through the items once, last one first, and notes
for every rest of the text whether the items from there on cover it.  Such a list of answers is a
row; the row of an item comes from the row of the items after it.

* `Glob.rows` computes the row of a list of items;
* `Glob.fits` is its first answer, the one for the whole text.

The rows hold what `Glob.covers` says (`rows_eq`), so both agree (`fits_eq_covers`).
-/

namespace FileRoutes

namespace Glob

/-- What `k` says of a text, and of what is left of it after each of its characters. -/
def onRests (k : Text → Bool) : Text → List Bool
  | [] => [k []]
  | c :: s => k (c :: s) :: onRests k s

/-- The row of an item that stands for one character of `p`. -/
def oneRow (p : Char → Bool) : Text → List Bool → List Bool
  | c :: s, _ :: row => (p c && row.headD false) :: oneRow p s row
  | _, _ => [false]

/-- The row of a run of characters other than `/`. -/
def runRow : Text → List Bool → List Bool
  | c :: s, b :: row =>
    let later := runRow s row
    (b || (c != '/' && later.headD false)) :: later
  | _, row => row

/-- The row of what ends with some piece. -/
def slashRow : Text → List Bool → List Bool
  | c :: s, _ :: row =>
    let later := slashRow s row
    ((c == '/' && row.headD false) || later.headD false) :: later
  | _, row => row

/-- The row of a list of items. -/
def rows (s : Text) : List Token → List Bool
  | [] => onRests List.isEmpty s
  | .char a :: ts => oneRow (· == a) s (rows s ts)
  | .any :: ts => oneRow (· != '/') s (rows s ts)
  | .inside ms :: ts => oneRow (fun c => c != '/' && anyHas ms c) s (rows s ts)
  | .outside ms :: ts => oneRow (fun c => c != '/' && !anyHas ms c) s (rows s ts)
  | .run :: ts => runRow s (rows s ts)
  | .pieces :: ts =>
    let row := rows s ts
    row.zipWith (· || ·) (slashRow s row)

/-- The items cover the whole text. -/
def fits (ts : List Token) (s : Text) : Bool := (rows s ts).headD false

/-! ### Rows hold the answers -/

@[simp] theorem headD_onRests (k : Text → Bool) (s : Text) : (onRests k s).headD false = k s := by
  cases s <;> rfl

theorem oneRow_onRests (p : Char → Bool) (k : Text → Bool) (s : Text) :
    oneRow p s (onRests k s) = onRests (afterOne p k) s := by
  induction s with
  | nil => rfl
  | cons c s ih => simp only [onRests, oneRow, headD_onRests, ih, afterOne]

theorem runRow_onRests (k : Text → Bool) (s : Text) :
    runRow s (onRests k s) = onRests (afterRun k) s := by
  induction s with
  | nil => rfl
  | cons c s ih => simp only [onRests, runRow, headD_onRests, ih, afterRun]

theorem slashRow_onRests (k : Text → Bool) (s : Text) :
    slashRow s (onRests k s) = onRests (afterSlash k) s := by
  induction s with
  | nil => rfl
  | cons c s ih => simp only [onRests, slashRow, headD_onRests, ih, afterSlash]

theorem zipWith_onRests (k l : Text → Bool) (s : Text) :
    (onRests k s).zipWith (· || ·) (onRests l s) = onRests (fun t => k t || l t) s := by
  induction s with
  | nil => rfl
  | cons c s ih => simp only [onRests, List.zipWith_cons_cons, ih]

theorem rows_eq (ts : List Token) (s : Text) : rows s ts = onRests (covers ts) s := by
  induction ts with
  | nil => rfl
  | cons t ts ih =>
    cases t <;>
      simp only [rows, ih, covers, oneRow_onRests, runRow_onRests, slashRow_onRests,
        zipWith_onRests]

theorem fits_eq_covers (ts : List Token) (s : Text) : fits ts s = covers ts s := by
  rw [fits, rows_eq, headD_onRests]

end Glob

end FileRoutes
