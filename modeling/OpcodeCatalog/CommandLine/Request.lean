import OpcodeCatalog.CommandLine.Token
import OpcodeCatalog.Listing.Format

/-!
# What a command line asks for

The program has a command for each virtual machine, and two settings that may stand before the
command and behind it.  A setting may be given once at either place.  What stands behind the command
counts more than what stands before it, that more than the environment, and that more than the
default.  The arguments are read one by one from left to right, and a request for help or for the
version ends the reading at once.

Main definitions:

* `CommandLine.Request` — what can be asked for;
* `CommandLine.UsageError` — the ways to ask wrongly;
* `CommandLine.State`, `CommandLine.State.step` — the reader of arguments, and what one argument
  does to it;
* `CommandLine.parse` — the request of a whole command line.
-/

set_option autoImplicit false

namespace OpcodeCatalog

namespace CommandLine

/-! ### Requests and errors -/

/-- A virtual machine whose opcodes can be listed. -/
inductive Machine where
  | python
  /-- The machine whose instructions a definition file holds. -/
  | yarv (path : Bytes)
  deriving DecidableEq

/-- A listing to make, and the filter for the diagnostics on the way. -/
structure Job where
  machine : Machine
  format : Format
  logFilter : Option Text
  deriving DecidableEq

/-- The commands, the one for help included. -/
inductive Command where
  | python
  | yarv
  | help
  deriving DecidableEq

/-- What a command line asks for.  Help is about the whole program, or about a command of it. -/
inductive Request where
  | version
  | help (topic : Option Command)
  | list (job : Job)
  deriving DecidableEq

/-- The settings. -/
inductive Setting where
  | format
  | logLevel
  deriving DecidableEq

/-- Why a command line asks for nothing. -/
inductive UsageError where
  | unknownOption (arg : Bytes)
  | unwantedValue (arg : Bytes)
  | missingValue (setting : Setting)
  | repeatedSetting (setting : Setting)
  | invalidValue (setting : Setting) (value : Bytes)
  | unexpectedArgument (arg : Bytes)
  | missingPath
  | emptyPath
  deriving DecidableEq

/-! ### Settings at one place -/

/-- The settings given before the command, or behind it.  The value of a setting that is an argument
of its own waits until the next option, or the end: only then is it looked at. -/
structure Level where
  format : Option Format
  logFilter : Option Text
  waiting : Option (Setting × Bytes)
  deriving DecidableEq

namespace Level

/-- No settings. -/
def unset : Level := ⟨none, none, none⟩

/-- Gives a setting its value. -/
def set (level : Level) (setting : Setting) (value : Bytes) : Except UsageError Level :=
  match setting with
  | .format =>
    if level.format.isSome then .error (.repeatedSetting .format)
    else
      match (Utf8.decode value).map (Format.ofWord false) with
      | some (.ok format) => .ok { level with format := some format }
      | _ => .error (.invalidValue .format value)
  | .logLevel =>
    if level.logFilter.isSome then .error (.repeatedSetting .logLevel)
    else
      match Utf8.decode value with
      | some filter => .ok { level with logFilter := some filter }
      | none => .error (.invalidValue .logLevel value)

/-- Looks at the value that waits. -/
def settle (level : Level) : Except UsageError Level :=
  match level.waiting with
  | none => .ok level
  | some (setting, value) => { level with waiting := none }.set setting value

end Level

/-! ### Words with a meaning -/

/-- The options. -/
inductive Flag where
  | setting (setting : Setting)
  | help
  | version
  deriving DecidableEq

/-- The command that a word names. -/
def Command.ofWord? (word : Bytes) : Option Command :=
  if word = Utf8.ofString "python" then some .python
  else if word = Utf8.ofString "yarv" then some .yarv
  else if word = Utf8.ofString "help" then some .help
  else none

/-- The option of a name.  The version can be asked for before the command only. -/
def Flag.ofName? (beforeCommand : Bool) (name : Bytes) : Option Flag :=
  if name = Utf8.ofString "format" then some (.setting .format)
  else if name = Utf8.ofString "log-level" then some (.setting .logLevel)
  else if name = Utf8.ofString "help" then some .help
  else if name = Utf8.ofString "version" ∧ beforeCommand then some .version
  else none

/-- The option of a letter. -/
def Flag.ofLetter? (beforeCommand : Bool) (letter : UInt8) : Option Flag :=
  if letter = 0x68 then some .help
  else if letter = 0x56 ∧ beforeCommand then some .version
  else none

/-! ### The reader -/

/-- The command that was read, with what was read behind it. -/
inductive Place where
  /-- No command yet. -/
  | program
  | python
  | yarv (path : Option Bytes)
  | help (topic : Option Command)
  deriving DecidableEq

/-- What the next argument may be. -/
inductive Mode where
  | anything
  /-- The value of a setting. -/
  | value (setting : Setting)
  /-- Any word, but no option. -/
  | words
  deriving DecidableEq

/-- How far the reading has come: the place and the mode it is in, and the settings before the
command and behind it. -/
structure State where
  place : Place
  mode : Mode
  outer : Level
  inner : Level
  deriving DecidableEq

/-- The answer to a whole command line. -/
abbrev Answer := Except UsageError Request

/-- The place behind a command. -/
def Command.place : Command → Place
  | .python => .python
  | .yarv => .yarv none
  | .help => .help none

/-- The command that help is about when it is asked for at a place. -/
def Place.topic : Place → Option Command
  | .program => none
  | .python => some .python
  | .yarv _ => some .yarv
  | .help _ => some .help

namespace State

/-- Nothing was read. -/
def start : State := ⟨.program, .anything, .unset, .unset⟩

/-- Whether no command was read yet. -/
def beforeCommand (s : State) : Bool := s.place == .program

/-- The settings at the place of the reading. -/
def level (s : State) : Level := if s.beforeCommand then s.outer else s.inner

/-- Changes the settings at the place of the reading. -/
def withLevel (s : State) (level : Level) : State :=
  if s.beforeCommand then { s with outer := level } else { s with inner := level }

/-- Goes on with the settings after the value that waits was looked at. -/
def settled (s : State) (go : Level → Except Answer State) : Except Answer State :=
  match s.level.settle with
  | .error e => .error (.error e)
  | .ok level => go level

/-- An argument that is an option, with the value that it carries. -/
def takeFlag (s : State) (arg : Bytes) (value : Option Bytes) : Option Flag → Except Answer State
  | none => .error (.error (.unknownOption arg))
  | some (.setting setting) =>
    s.settled fun level =>
      match value with
      | none => .ok { s.withLevel level with mode := .value setting }
      | some value =>
        match level.set setting value with
        | .error e => .error (.error e)
        | .ok level => .ok (s.withLevel level)
  | some flag =>
    match value with
    | some _ => .error (.error (.unwantedValue arg))
    | none =>
      s.settled fun _ => .error (.ok (if flag = .help then .help s.place.topic else .version))

/-- A word that is no option. -/
def takeWord (s : State) (word : Bytes) : Except Answer State :=
  match s.place with
  | .program =>
    match if s.mode = .words then none else Command.ofWord? word with
    | some command => .ok { s with place := command.place }
    | none => .error (.error (.unexpectedArgument word))
  | .yarv none =>
    if word = [] then .error (.error .emptyPath) else .ok { s with place := .yarv (some word) }
  | _ => .error (.error (.unexpectedArgument word))

/-- A word behind the command for help. -/
def takeTopic (s : State) (topic : Option Command) (word : Bytes) : Except Answer State :=
  match topic, Command.ofWord? word with
  | none, some command => .ok { s with place := .help (some command) }
  | _, _ => .error (.error (.unexpectedArgument word))

/-- An argument where an option may stand. -/
def takeArgument (s : State) (arg : Bytes) : Except Answer State :=
  match Token.ofArgument arg with
  | .escape => .ok { s with mode := .words }
  | .long name value => s.takeFlag arg value (Flag.ofName? s.beforeCommand name)
  | .short letters => s.takeFlag arg none (letters.head?.bind (Flag.ofLetter? s.beforeCommand))
  | .plain word => s.takeWord word

/-- An argument where the value of a setting has to stand. -/
def takeValue (s : State) (setting : Setting) (arg : Bytes) : Except Answer State :=
  match Token.ofArgument arg with
  | .plain word =>
    .ok { s.withLevel { s.level with waiting := some (setting, word) } with mode := .anything }
  | _ => .error (.error (.missingValue setting))

/-- What an argument does: it brings the reading forward, or ends it with an answer. -/
def step (s : State) (arg : Bytes) : Except Answer State :=
  match s.place, s.mode with
  | .help topic, _ => s.takeTopic topic arg
  | _, .anything => s.takeArgument arg
  | _, .value setting => s.takeValue setting arg
  | _, .words => s.takeWord arg

/-- The settings of both places once all arguments were read. -/
def levels (s : State) : Except UsageError (Level × Level) :=
  match s.mode, s.inner.settle, s.outer.settle with
  | .value setting, _, _ => .error (.missingValue setting)
  | _, .error e, _ => .error e
  | _, _, .error e => .error e
  | _, .ok inner, .ok outer => .ok (outer, inner)

/-- The machine whose opcodes are asked for. -/
def machine (s : State) : Except UsageError Machine :=
  match s.place with
  | .yarv (some path) => .ok (.yarv path)
  | .yarv none => .error .missingPath
  | _ => .ok .python

end State

/-! ### The whole command line -/

/-- The environment variable for the format. -/
def formatVariable : String := "PYC_OPCODES_FORMAT"

/-- The format of a listing, where `fallback` is the value of the environment variable.  It has to
be valid unless the format is given wherever it can be: before the command, and behind it if there
is one. -/
def chooseFormat (fallback : Option Bytes) (beforeCommand : Bool) (outer inner : Level) :
    Except UsageError Format :=
  let given := outer.format.isSome && (beforeCommand || inner.format.isSome)
  match if given then none else fallback with
  | none => .ok ((inner.format.orElse fun _ => outer.format).getD .text)
  | some value =>
    match Level.unset.set .format value with
    | .error e => .error e
    | .ok level =>
      .ok (((inner.format.orElse fun _ => outer.format).orElse fun _ => level.format).getD .text)

/-- The answer when the arguments end. -/
def finish (fallback : Option Bytes) (s : State) : Answer :=
  match s.place with
  | .help topic => .ok (.help topic)
  | _ =>
    match s.levels with
    | .error e => .error e
    | .ok (outer, inner) =>
      match chooseFormat fallback s.beforeCommand outer inner, s.machine with
      | .error e, _ => .error e
      | _, .error e => .error e
      | .ok format, .ok machine =>
        .ok (.list ⟨machine, format, inner.logFilter.orElse fun _ => outer.logFilter⟩)

/-- What a command line asks for, where `fallback` is the value of the environment variable. -/
def parse (fallback : Option Bytes) (args : List Bytes) : Answer :=
  match args.foldlM State.step State.start with
  | .error answer => answer
  | .ok s => finish fallback s

end CommandLine

end OpcodeCatalog
