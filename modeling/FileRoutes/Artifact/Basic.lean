import FileRoutes.Artifact.Types
import FileRoutes.Artifact.Routes

/-!
# Artifacts

`Artifacts.ofManifest` renders a manifest as three files: its types, its route table, and an
index that exports both.
-/

namespace FileRoutes

/-- The texts of the generated files. -/
structure Artifacts where
  types : Text
  routes : Text
  index : Text
  deriving DecidableEq, Repr

namespace Artifact

/-- The text of `index.ts`. -/
def index : Text :=
  banner ++ unlines ["", "export * from \"./types\";", "export * from \"./routes\";"]

end Artifact

namespace Artifacts

/-- The file name of each artifact. -/
def typesFile : Text := "types.ts".toList
def routesFile : Text := "routes.ts".toList
def indexFile : Text := "index.ts".toList

/-- The artifacts of a manifest. -/
def ofManifest {M : Type} (m : Manifest M) : Artifacts :=
  ⟨Artifact.types m, Artifact.routes m, Artifact.index⟩

/-- File name and text of each artifact, in the order in which they are written. -/
def files (a : Artifacts) : List (Text × Text) :=
  [(typesFile, a.types), (routesFile, a.routes), (indexFile, a.index)]

end Artifacts

end FileRoutes
