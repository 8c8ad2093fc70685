import FileRoutes.Text.Split

/-!
# Command-line arguments

`Arguments.ofList` reads the arguments of a command line: options with values (`--root x` or
`--root=x`), the switches `--verbose`, `--help` and `--version`, and the name of a command, after
which more options may follow.

An option whose value is the next argument stays pending until something else happens at its
level, so a missing, empty or repeated value may be noticed late; an unknown argument is noticed
at once.
-/

namespace FileRoutes

/-- What a command line asks for. -/
inductive CommandName where
  | generate
  | init
  | watch
  deriving DecidableEq, Repr

/-- Why a command line is not run. -/
inductive UsageStop where
  /-- Help is asked for. -/
  | help
  /-- The version is asked for. -/
  | version
  | unknownArgument
  | unknownCommand
  /-- An option without a value, or with an empty one. -/
  | invalidValue
  /-- An option or a switch that is given twice. -/
  | repeated
  /-- A switch with a value. -/
  | unexpectedValue
  deriving DecidableEq, Repr

/-- The arguments of a command line. -/
structure Arguments where
  command? : Option CommandName
  root? : Option Text
  out? : Option Text
  config : Text
  verbose : Bool
  deriving DecidableEq, Repr

/-- The options that have a value. -/
inductive OptionName where
  | root
  | out
  | config
  deriving DecidableEq, Repr

/-- What was read at one level: before or after the name of a command. -/
structure ArgumentLevel where
  values : List (OptionName × Text)
  verbose : Bool
  /-- An option that waits for its value to be looked at, or for a value. -/
  pending? : Option (OptionName × Option Text)
  deriving DecidableEq, Repr

namespace ArgumentLevel

/-- Nothing. -/
def empty : ArgumentLevel := ⟨[], false, none⟩

variable (l : ArgumentLevel)

/-- The value of an option. -/
def get? (o : OptionName) : Option Text := (l.values.find? fun e => e.1 = o).map Prod.snd

/-- The level waits for the value of an option. -/
def awaitsValue : Bool :=
  match l.pending? with
  | some (_, none) => true
  | _ => false

/-- Give an option its value, once. -/
def store (o : OptionName) (v : Text) : Except UsageStop ArgumentLevel :=
  if (l.get? o).isSome then .error .repeated
  else if v = [] then .error .invalidValue
  else .ok { l with values := l.values ++ [(o, v)] }

/-- Look at the value that is pending. -/
def settle : Except UsageStop ArgumentLevel :=
  match l.pending? with
  | none => .ok l
  | some (_, none) => .error .invalidValue
  | some (o, some v) => { l with pending? := none }.store o v

/-- Start an option whose value follows. -/
def await (o : OptionName) : Except UsageStop ArgumentLevel :=
  match l.settle with
  | .ok l => .ok { l with pending? := some (o, none) }
  | .error e => .error e

/-- Set an option whose value is attached. -/
def assign (o : OptionName) (v : Text) : Except UsageStop ArgumentLevel :=
  match l.settle with
  | .ok l => l.store o v
  | .error e => .error e

/-- Ask for more output, once. -/
def setVerbose : Except UsageStop ArgumentLevel :=
  match l.settle with
  | .ok l => if l.verbose then .error .repeated else .ok { l with verbose := true }
  | .error e => .error e

/-- Stop for a reason of its own, unless a pending value is wrong. -/
def stop (s : UsageStop) : Except UsageStop ArgumentLevel :=
  match l.settle with
  | .ok _ => .error s
  | .error e => .error e

/-- The level with a value for the option that waits for one. -/
def supply (v : Text) : ArgumentLevel :=
  match l.pending? with
  | some (o, none) => { l with pending? := some (o, some v) }
  | _ => l

end ArgumentLevel

namespace Arguments

/-! ### Single arguments -/

/-- The long names of options with values. -/
def optionName? (t : Text) : Option OptionName :=
  if t = "root".toList then some .root
  else if t = "out".toList then some .out
  else if t = "config".toList then some .config
  else none

/-- The commands by name. -/
def commandName? (t : Text) : Option CommandName :=
  if t = "generate".toList then some .generate
  else if t = "init".toList then some .init
  else if t = "watch".toList then some .watch
  else none

/-- The command that explains the others. -/
def helpCommand : Text := "help".toList

/-- The argument names a command. -/
def isCommand (t : Text) : Bool := (commandName? t).isSome || t = helpCommand

/-- A long argument, without its dashes, cut at the first `=`. -/
def cutValue (t : Text) : Text × Option Text :=
  match t.dropWhile (· ≠ '=') with
  | [] => (t, none)
  | _ :: v => (t.takeWhile (· ≠ '='), some v)

/-- A long argument.  `top` says that no command was named yet. -/
def readLong (top : Bool) (l : ArgumentLevel) (t : Text) : Except UsageStop ArgumentLevel :=
  let (name, value?) := cutValue t
  match optionName? name, value? with
  | some o, some v => l.assign o v
  | some o, none => l.await o
  | none, _ =>
    if name = "verbose".toList then
      (if value?.isSome then .error .unexpectedValue else l.setVerbose)
    else if name = "help".toList then
      (if value?.isSome then .error .unexpectedValue else l.stop .help)
    else if name = "version".toList && top then
      (if value?.isSome then .error .unexpectedValue else l.stop .version)
    else .error .unknownArgument

/-- The letters of a short argument. -/
def readShort (top : Bool) (l : ArgumentLevel) : Text → Except UsageStop ArgumentLevel
  | [] => .ok l
  | c :: r =>
    if c = 'v' then
      match l.setVerbose with
      | .ok l => readShort top l r
      | .error e => .error e
    else if c = 'h' then l.stop .help
    else if c = 'V' && top then l.stop .version
    else .error .unknownArgument

/-- What an argument means that is neither an option nor a value. -/
def stray (top : Bool) : UsageStop := if top then .unknownCommand else .unknownArgument

/-- What an argument means after `--`. -/
def strayAfterDashes (top : Bool) (t : Text) : UsageStop :=
  if top && isCommand t then .unknownArgument else stray top

/-- Help on a command, or on the whole program. -/
def readHelp : List Text → UsageStop
  | [] => .help
  | [t] => if isCommand t then .help else .unknownCommand
  | _ :: _ :: _ => .unknownCommand

/-! ### Whole command lines -/

/-- The arguments of a level, up to the name of a command, and what follows it. -/
def readLevel (top : Bool) (l : ArgumentLevel) :
    List Text → Except UsageStop (ArgumentLevel × Option (CommandName × List Text))
  | [] => .ok (l, none)
  | a :: rest =>
    let next (r : Except UsageStop ArgumentLevel) :=
      match r with
      | .ok l => readLevel top l rest
      | .error e => .error e
    if top && !l.awaitsValue && a = helpCommand then .error (readHelp rest)
    else
      match (if top && !l.awaitsValue then commandName? a else none) with
      | some c => .ok (l, some (c, rest))
      | none =>
        match a with
        | ['-', '-'] =>
          match rest with
          | [] => .ok (l, none)
          | b :: _ => .error (strayAfterDashes top b)
        | '-' :: '-' :: t => next (readLong top l t)
        | '-' :: c :: t => next (readShort top l (c :: t))
        | v => if l.awaitsValue then next (.ok (l.supply v)) else .error (stray top)

/-- The name of the configuration file unless another is given. -/
def standardConfig : Text := "routegen.toml".toList

/-- The arguments that two levels give together; those after the command count more. -/
def combine (command? : Option CommandName) (outer inner : ArgumentLevel) : Arguments :=
  let get (o : OptionName) := (inner.get? o).or (outer.get? o)
  ⟨command?, get .root, get .out, (get .config).getD standardConfig,
    outer.verbose || inner.verbose⟩

/-- The meaning of the arguments of a command line. -/
def ofList (args : List Text) : Except UsageStop Arguments := do
  let (outer, command?) ← readLevel true .empty args
  match command? with
  | none =>
    let outer ← outer.settle
    pure (combine none outer .empty)
  | some (c, rest) =>
    let (inner, _) ← readLevel false .empty rest
    let inner ← inner.settle
    let outer ← outer.settle
    pure (combine (some c) outer inner)

end Arguments

end FileRoutes
