import FileRoutes.Route.Manifest

/-!
# Parts of artifacts

Artifacts are generated source files.  All of them start with the same banner.
-/

namespace FileRoutes

namespace Artifact

/-- Texts one after another with `sep` between them. -/
def joinTexts (sep : Text) : List Text → Text
  | [] => []
  | [t] => t
  | t :: u :: ts => t ++ sep ++ joinTexts sep (u :: ts)

/-- Lines, each with its line end. -/
def unlines (ls : List String) : Text := ls.flatMap fun l => l.toList ++ ['\n']

/-- The first line of every artifact. -/
def banner : Text :=
  unlines ["// This file is generated by routegen. Do not edit by hand."]

end Artifact

end FileRoutes
