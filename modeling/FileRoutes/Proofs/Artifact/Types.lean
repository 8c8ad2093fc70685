import FileRoutes.Artifact.Types
import FileRoutes.Proofs.Text.Reader

/-!
# Reading the types file

`Types.read?` reads `types.ts` back: the members of the two unions, and the keys of the parameter
interface with the fields of each.  It takes every literal by the rules of JSON, so nothing in a
pattern can be taken for the text around it: `Types.read?_types`.
-/

namespace FileRoutes

open Reader

/-! ### Joined texts as lists -/

theorem joinWith_cons (sep : Char) (t : Text) (ts : List Text) :
    joinWith sep (t :: ts) = t ++ ts.flatMap ([sep] ++ ·) := by
  induction ts generalizing t with
  | nil => simp [joinWith]
  | cons u ts ih => simp [joinWith, ih]

namespace Artifact

theorem joinTexts_cons (sep t : Text) (ts : List Text) :
    joinTexts sep (t :: ts) = t ++ ts.flatMap (sep ++ ·) := by
  induction ts generalizing t with
  | nil => simp [joinTexts]
  | cons u ts ih => simp [joinTexts, ih]

end Artifact

namespace Types

/-- What `types.ts` says. -/
structure Content where
  /-- The members of the union of static routes. -/
  statics : List Text
  /-- The members of the union of dynamic routes. -/
  dynamics : List Text
  /-- The keys of the parameter interface, each with its fields. -/
  params : List (Text × List Text)
  deriving DecidableEq, Repr

/-! ### Lists -/

/-- The members of a union, one on a line. -/
def unionLayout : Layout := ⟨" = never;\n".toList, " =\n".toList, ['\n'], ";\n".toList⟩

/-- The parameter interface, with one entry on a line. -/
def interfaceLayout : Layout :=
  ⟨"export interface RouteParams \x7b\x7d\n".toList, "export interface RouteParams \x7b\n".toList,
    ['\n'], "\n\x7d\n".toList⟩

/-- The fields of an entry. -/
def fieldsLayout : Layout := ⟨" \x7d;".toList, [], "; ".toList, " \x7d;".toList⟩

section Texts

variable (t : Text) (ts : List Text)

theorem text_unionLayout_nil : unionLayout.text [] = " = never;\n".toList := rfl

theorem text_unionLayout_cons : unionLayout.text (t :: ts) =
    " =\n".toList ++ (t ++ (ts.flatMap (['\n'] ++ ·) ++ ";\n".toList)) := rfl

theorem text_interfaceLayout_nil :
    interfaceLayout.text [] = "export interface RouteParams \x7b\x7d\n".toList := rfl

theorem text_interfaceLayout_cons : interfaceLayout.text (t :: ts) =
    "export interface RouteParams \x7b\n".toList ++
      (t ++ (ts.flatMap (['\n'] ++ ·) ++ "\n\x7d\n".toList)) := rfl

theorem text_fieldsLayout_nil : fieldsLayout.text [] = " \x7d;".toList := rfl

theorem text_fieldsLayout_cons : fieldsLayout.text (t :: ts) =
    t ++ (ts.flatMap ("; ".toList ++ ·) ++ " \x7d;".toList) := rfl

end Texts

/-- Take a member of a union. -/
def member : Reader Text := do
  expect "  | ".toList
  quoted

/-- Take a field. -/
def field : Reader Text := do
  let name ← quoted
  expect ": string".toList
  return name

/-- Take an entry of the parameter interface. -/
def entry : Reader (Text × List Text) := do
  expect "  ".toList
  let route ← quoted
  expect ": \x7b ".toList
  let names ← fieldsLayout.list field
  return (route, names)

theorem clear_unionLayout : unionLayout.Clear Artifact.memberLine :=
  ⟨fun _ _ => rfl, fun _ _ => rfl⟩

theorem clear_interfaceLayout {M : Type} :
    interfaceLayout.Clear (Artifact.paramsLine (M := M)) := ⟨fun _ _ => rfl, fun _ _ => rfl⟩

theorem clear_fieldsLayout : fieldsLayout.Clear Artifact.fieldType :=
  ⟨fun _ _ => rfl, fun _ _ => rfl⟩

theorem reads_member (p : Text) : Reads member (Artifact.memberLine p) p :=
  (reads_expect _).bind (reads_quoted p)

theorem reads_field (name : Text) : Reads field (Artifact.fieldType name) name :=
  (reads_quoted name).bind ((reads_expect _).bind_pure fun _ => name)

/-! ### The parts of the file -/

variable {M : Type}

/-- Take the declaration of a union. -/
def union (name : String) : Reader (List Text) := do
  expect ("export type ".toList ++ name.toList)
  unionLayout.list member

/-- Take the whole file. -/
def content : Reader Content := do
  expect (Artifact.banner ++ ['\n'])
  let statics ← union "StaticRoute"
  expect ['\n']
  let dynamics ← union "DynamicRoute"
  expect (['\n'] ++ "export type Route = StaticRoute | DynamicRoute;\n".toList ++ ['\n'])
  let params ← interfaceLayout.list entry
  return ⟨statics, dynamics, params⟩

/-- What a text says as a types file, if it is one. -/
def read? (t : Text) : Option Content := content.all? t

theorem union_eq (name : String) (ps : List Text) :
    Artifact.union name ps =
      ("export type ".toList ++ name.toList) ++ unionLayout.text (ps.map Artifact.memberLine) := by
  cases ps with
  | nil => rw [Artifact.union, if_pos rfl, List.map_nil, text_unionLayout_nil]
  | cons p ps =>
    rw [Artifact.union, if_neg (List.cons_ne_nil p ps), List.map_cons, joinWith_cons,
      text_unionLayout_cons]
    simp only [List.append_assoc]

theorem paramsInterface_eq (rs : List (DynamicRoute M)) :
    Artifact.paramsInterface rs = interfaceLayout.text (rs.map Artifact.paramsLine) := by
  cases rs with
  | nil => rw [Artifact.paramsInterface, if_pos rfl, List.map_nil, text_interfaceLayout_nil]
  | cons r rs =>
    rw [Artifact.paramsInterface, if_neg (List.cons_ne_nil r rs), List.map_cons, joinWith_cons,
      text_interfaceLayout_cons]
    simp only [List.append_assoc]

theorem paramsLine_eq (r : DynamicRoute M) :
    Artifact.paramsLine r = "  ".toList ++ (Quoted.encode r.pattern ++ (": \x7b ".toList ++
      fieldsLayout.text ((Artifact.firstOccurrences r.params).map Artifact.fieldType))) := by
  rw [Artifact.paramsLine]
  cases Artifact.firstOccurrences r.params with
  | nil =>
    rw [List.map_nil, Artifact.joinTexts, text_fieldsLayout_nil]
    simp only [List.append_assoc, List.nil_append]
  | cons x xs =>
    rw [List.map_cons, Artifact.joinTexts_cons, text_fieldsLayout_cons]
    simp only [List.append_assoc]

theorem reads_union (name : String) (ps : List Text) :
    Reads (union name) (Artifact.union name ps) ps := by
  rw [union_eq]
  have h := Layout.reads_list clear_unionLayout reads_member ps
  rw [List.map_id'] at h
  exact (reads_expect _).bind h

theorem reads_entry (r : DynamicRoute M) :
    Reads entry (Artifact.paramsLine r) (r.pattern, Artifact.firstOccurrences r.params) := by
  have h := Layout.reads_list clear_fieldsLayout reads_field (Artifact.firstOccurrences r.params)
  rw [List.map_id'] at h
  rw [paramsLine_eq]
  exact (reads_expect _).bind ((reads_quoted _).bind ((reads_expect _).bind
    (h.bind_pure fun names => (r.pattern, names))))

/-- **The types file is read back from its text.** -/
theorem read?_types (m : Manifest M) :
    read? (Artifact.types m) = some ⟨m.staticPatterns, m.dynamicPatterns,
      m.dynamics.map fun r => (r.pattern, Artifact.firstOccurrences r.params)⟩ := by
  have htext : Artifact.types m = (Artifact.banner ++ ['\n']) ++
      (Artifact.union "StaticRoute" m.staticPatterns ++ (['\n'] ++
        (Artifact.union "DynamicRoute" m.dynamicPatterns ++
          ((['\n'] ++ "export type Route = StaticRoute | DynamicRoute;\n".toList ++ ['\n']) ++
            interfaceLayout.text (m.dynamics.map Artifact.paramsLine))))) := by
    rw [Artifact.types, paramsInterface_eq]
    simp only [joinWith, List.append_assoc, List.cons_append, List.nil_append]
  rw [htext]
  refine Reads.all? ?_
  exact (reads_expect _).bind ((reads_union _ _).bind ((reads_expect _).bind
    ((reads_union _ _).bind ((reads_expect _).bind
      ((Layout.reads_list clear_interfaceLayout reads_entry m.dynamics).bind_pure
        (Content.mk _ _))))))

end Types

end FileRoutes
