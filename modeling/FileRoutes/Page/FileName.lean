import FileRoutes.Path.Basic

/-!
# Page files

A file is a page when its name is `page` with one of the extensions for source files.
-/

namespace FileRoutes

namespace Page

/-- The extensions that a page may have. -/
def extensions : List Text := ["ts".toList, "tsx".toList, "js".toList, "jsx".toList]

/-- The names of page files. -/
def fileNames : List Name := extensions.map fun e => Utf8.encode ("page.".toList ++ e)

/-- The name is that of a page file. -/
def isFileName (n : Name) : Bool := fileNames.contains n

/-- The path ends in the name of a page file. -/
def isFile (p : Path) : Bool :=
  match p.fileName? with
  | some n => isFileName n
  | none => false

end Page

end FileRoutes
