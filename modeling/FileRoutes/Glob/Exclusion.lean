import FileRoutes.Glob.Table
import FileRoutes.Error

/-!
# Exclusion by globs

A list of globs excludes a directory if one of them covers its path below the root or its own
name.
-/

namespace FileRoutes

/-- The globs that some texts spell, or the first text that spells none. -/
def compileGlobs : List Text → Except BadGlob (List (List Glob.Token))
  | [] => .ok []
  | t :: ts =>
    match Glob.ofText t with
    | .error reason => .error ⟨t, reason⟩
    | .ok g =>
      match compileGlobs ts with
      | .ok gs => .ok (g :: gs)
      | .error e => .error e

/-- The components of a path with `/` between them. -/
def Path.slashed (p : Path) : Text :=
  joinWith '/' (p.components.map fun c => Utf8.decodeLossy c.raw)

/-- The name at the end of a path, if there is one, as a text. -/
def Path.lastName (p : Path) : Text := Utf8.decodeLossy (p.fileName?.getD [])

/-- One of the globs covers the path or its last name. -/
def excludes (gs : List (List Glob.Token)) (p : Path) : Bool :=
  gs.any fun g => Glob.fits g p.slashed || Glob.fits g p.lastName

end FileRoutes
