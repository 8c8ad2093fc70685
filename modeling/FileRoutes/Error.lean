import FileRoutes.Path.Basic
import FileRoutes.Disk.Fault

/-!
# Errors

Everything that can go wrong while routes are scanned, rendered, matched and built, by cause.
`Error.message` is the one place where causes are put into words.

No error says that a pattern is at fault.  The matchable form of a pattern is a regular expression
whatever the pattern holds (`Regex.ofText?_text`), so there is always a matcher for it; a limit on
the size of expressions, which a pattern would have to be enormous to reach, is left out.
-/

namespace FileRoutes

/-- A text that is not a glob, and why. -/
structure BadGlob where
  glob : Text
  reason : Text
  deriving DecidableEq, Repr

/-- What is wrong with a configuration. -/
inductive ConfigFault where
  /-- The file cannot be read. -/
  | unreadable (fault : Fault)
  /-- The file is not UTF-8. -/
  | notText
  /-- The text is not a document of the configuration format.  What exactly is wrong with it, and
  where, is not told apart. -/
  | malformed
  /-- A value is of the wrong kind or out of range. -/
  | unfit (reason : Text)
  /-- An exclusion glob is not one. -/
  | badGlob (g : BadGlob)
  deriving DecidableEq, Repr

/-- A reason for a scan, a rendering or a lookup to fail. -/
inductive Error where
  /-- A placeholder of the pattern has no value. -/
  | missingParameter (pattern name : Text)
  /-- A path segment does not decode to UTF-8. -/
  | invalidEncoding (value : Text)
  /-- A directory or file cannot be read. -/
  | scan (path : Path) (fault : Fault)
  /-- A directory that holds a page has a name that is not UTF-8. -/
  | nonUtf8Path (path : Path)
  /-- A directory or file cannot be written. -/
  | write (path : Path) (fault : Fault)
  /-- The table has no such route. -/
  | unknownRoute (route : Text)
  /-- The directories of a page give two placeholders the same name. -/
  | duplicateParameter (pattern name : Text) (source : Path)
  /-- An exclusion glob is not one. -/
  | invalidGlob (g : BadGlob)
  /-- The configuration is of no use. -/
  | config (path : Path) (fault : ConfigFault)
  deriving DecidableEq, Repr

/-- The words for an unusable glob. -/
def BadGlob.message (g : BadGlob) : Text :=
  "invalid exclude glob `".toList ++ g.glob ++ "`: ".toList ++ g.reason

/-- The words for a fault of a configuration.  Where the text is not a document of the format, the
words are those of whatever reads the format; here one line stands for all of them, and what is said
about such a file is exact up to that line. -/
def ConfigFault.message : ConfigFault → Text
  | .unreadable f => f.message
  | .notText => "stream did not contain valid UTF-8".toList
  | .malformed => "not a well-formed document".toList
  | .unfit reason => reason
  | .badGlob g => g.message

/-- The words for an error. -/
def Error.message : Error → Text
  | .missingParameter p n =>
    "missing parameter `".toList ++ n ++ "` for route `".toList ++ p ++ "`".toList
  | .invalidEncoding v =>
    "path segment `".toList ++ v ++ "` is not valid percent-encoded UTF-8".toList
  | .scan p f => "failed to scan ".toList ++ p.display ++ ": ".toList ++ f.message
  | .nonUtf8Path p => "directory name is not valid UTF-8: ".toList ++ p.display
  | .write p f => "failed to write ".toList ++ p.display ++ ": ".toList ++ f.message
  | .unknownRoute r => "unknown route `".toList ++ r ++ "`".toList
  | .duplicateParameter p n s =>
    "placeholder `".toList ++ n ++ "` appears more than once in route `".toList ++ p
      ++ "` (".toList ++ s.display ++ ")".toList
  | .invalidGlob g => g.message
  | .config p f => "invalid config ".toList ++ p.display ++ ": ".toList ++ f.message

/-- An error in words, followed by the fault behind it, where there is one. -/
def Error.causes (e : Error) : List Text :=
  match e with
  | .scan _ f | .write _ f => [e.message, f.message]
  | _ => [e.message]

end FileRoutes
