import FileRoutes.Proofs.Generation.Outcome
import FileRoutes.Proofs.Path.Components
import FileRoutes.Watch.Filter

/-!
# Positions below the root

Whether a watcher looks at a change is a question of the parts of three paths: the change lies
below the root and not below the output directory, and no part of it after those of the root is
hidden (`Watch.isIgnored_eq_false_iff`).  Parts that all three paths begin with cancel out, so the
answer is the same wherever a project lies, also below a hidden directory
(`Watch.isIgnored_join`).
-/

namespace FileRoutes

namespace Watch

variable {path root out : Path} {ns rs os : List Name}

theorem isIgnored_eq_false_iff :
    isIgnored path root out = false ↔
      root.components <+: path.components ∧ ¬ out.components <+: path.components ∧
        ∀ c ∈ path.components.drop root.components.length, isHidden c = false := by
  rw [isIgnored, Bool.or_eq_false_iff, ← Path.startsWith_iff, ← Path.startsWith_iff,
    Bool.not_eq_true, Path.below?]
  cases hroot : path.startsWith root with
  | false => simp
  | true => simp

/-- Parts that all three paths begin with cancel out. -/
theorem isIgnored_congr {path' root' out' : Path} (parts : List Path.Component)
    (hpath : path'.components = parts ++ path.components)
    (hroot : root'.components = parts ++ root.components)
    (hout : out'.components = parts ++ out.components) :
    isIgnored path' root' out' = isIgnored path root out := by
  have hiff : isIgnored path' root' out' = false ↔ isIgnored path root out = false := by
    rw [isIgnored_eq_false_iff, isIgnored_eq_false_iff, hpath, hroot, hout,
      List.prefix_append_right_inj, List.prefix_append_right_inj, List.length_append,
      List.drop_append, List.drop_eq_nil_of_le (Nat.le_add_right _ _), List.nil_append,
      Nat.add_sub_cancel_left]
  cases hignored : isIgnored path root out with
  | false => exact hiff.2 hignored
  | true => rwa [← Bool.not_eq_false, hiff, Bool.not_eq_false]

theorem isHidden_name (n : Name) : isHidden (.name n) = false ↔ n.head? ≠ some 0x2E := by
  rw [isHidden, decide_eq_false_iff_not]
  rfl

theorem name_prefix_iff : rs.map Path.Component.name <+: ns.map .name ↔ rs <+: ns :=
  List.prefix_map_iff_of_injective fun _ _ => Path.Component.name.inj

/-- **Only the position relative to the root and the output directory counts.**  For paths of names
below any base, a change is of interest exactly if it lies below the root and not below the output
directory, name by name, and no name on the way down from the root is hidden.  What a generation
writes lies below the output directory, so it is of no interest. -/
theorem isIgnored_join (hpath : path.components = ns.map .name)
    (hroot : root.components = rs.map .name) (hout : out.components = os.map .name)
    (base : Path) :
    isIgnored (base.join path) (base.join root) (base.join out) = isIgnored path root out ∧
      (isIgnored path root out = false ↔
        rs <+: ns ∧ ¬ os <+: ns ∧ ∀ n ∈ ns.drop rs.length, n.head? ≠ some 0x2E) ∧
      ∀ a : Artifacts, ∀ file ∈ a.files,
        isIgnored ((base.join out).join (.ofText file.1)) (base.join root) (base.join out) =
          true := by
  refine ⟨?_, ?_, fun a file hfile => ?_⟩
  · exact isIgnored_congr base.components (Path.components_join hpath base)
      (Path.components_join hroot base) (Path.components_join hout base)
  · rw [isIgnored_eq_false_iff, hpath, hroot, hout, name_prefix_iff, name_prefix_iff,
      List.length_map, ← List.map_drop]
    simp only [List.forall_mem_map, isHidden_name]
  · have hname : (Path.ofText file.1).components = [Utf8.encode file.1].map .name :=
      Path.components_name (a.fileNames.proper file hfile)
    rw [← Bool.not_eq_false, isIgnored_eq_false_iff, Path.components_join hname]
    exact fun h => h.2.1 (List.prefix_append _ _)

/-- A directory whose name merely begins like that of the root. -/
example :
    isIgnored (.ofText "application/page.ts".toList) (.ofText "app".toList)
      (.ofText "app/generated".toList) = true := by decide

/-- A page of a project below a hidden directory, with its output inside the root. -/
theorem isIgnored_join_below_hidden :
    let names (ns : List String) : List Name := ns.map fun n => Utf8.encode n.toList
    let base := Path.ofText "/home/.work".toList
    let page := Path.ofText "app/user/page.ts".toList
    let root := Path.ofText "app".toList
    let out := Path.ofText "app/generated".toList
    page.components = (names ["app", "user", "page.ts"]).map .name ∧
      root.components = (names ["app"]).map .name ∧
      out.components = (names ["app", "generated"]).map .name ∧
      isIgnored (base.join page) (base.join root) (base.join out) = false := by
  intro names base page root out
  have hpage : page.components = (names ["app", "user", "page.ts"]).map .name := by decide
  have hroot : root.components = (names ["app"]).map .name := by decide
  have hout : out.components = (names ["app", "generated"]).map .name := by decide
  obtain ⟨heq, hiff, -⟩ := isIgnored_join hpage hroot hout base
  refine ⟨hpage, hroot, hout, ?_⟩
  rw [heq, hiff]
  decide

end Watch

end FileRoutes
