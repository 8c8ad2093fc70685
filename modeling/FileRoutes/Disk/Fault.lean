import FileRoutes.Text.Split

/-!
# Faults

The reasons for which a file system refuses a request.
-/

namespace FileRoutes

/-- A reason for a request to be refused. -/
inductive Fault where
  /-- There is nothing at the place. -/
  | notFound
  /-- The place is locked, or reached through a locked directory. -/
  | accessDenied
  /-- There is something at the place already. -/
  | alreadyExists
  /-- The path goes through something that is not a directory. -/
  | notDirectory
  /-- A directory stands where a file is needed. -/
  | isDirectory
  /-- The path goes through too many symbolic links. -/
  | tooManyLinks
  /-- The path, or a name in it, is longer than the system allows. -/
  | nameTooLong
  /-- The path holds a NUL. -/
  | nulInPath
  /-- No part of the path could be made. -/
  | nothingToMake
  deriving DecidableEq, Repr

/-- The words for a fault, with the number that the system gives it. -/
def Fault.message : Fault → Text
  | .notFound => "No such file or directory (os error 2)".toList
  | .accessDenied => "Permission denied (os error 13)".toList
  | .alreadyExists => "File exists (os error 17)".toList
  | .notDirectory => "Not a directory (os error 20)".toList
  | .isDirectory => "Is a directory (os error 21)".toList
  | .tooManyLinks => "Too many levels of symbolic links (os error 40)".toList
  | .nameTooLong => "File name too long (os error 36)".toList
  | .nulInPath => "file name contained an unexpected NUL byte".toList
  | .nothingToMake => "failed to create whole tree".toList

end FileRoutes
