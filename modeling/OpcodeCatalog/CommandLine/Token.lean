import OpcodeCatalog.Text.Utf8

/-!
# Arguments as tokens

An argument of the command line is an option, the mark after which no options come, or a plain
word.  A long option has two dashes and may carry a value behind an equals sign, short ones are
letters behind a single dash.  A dash alone is a plain word.

Main definitions:

* `CommandLine.Token` — the kinds of arguments;
* `CommandLine.Token.ofArgument` — the kind of an argument.
-/

set_option autoImplicit false

namespace OpcodeCatalog

namespace CommandLine

/-- The byte that options begin with. -/
def dash : UInt8 := 0x2D

/-- The byte between a long option and its value. -/
def equalsSign : UInt8 := 0x3D

/-- An argument, by its form. -/
inductive Token where
  /-- Two dashes alone. -/
  | escape
  | long (name : Bytes) (value : Option Bytes)
  | short (letters : Bytes)
  | plain (word : Bytes)
  deriving DecidableEq

/-- The bytes behind two dashes, cut at the first equals sign. -/
def Token.ofLong (text : Bytes) : Token :=
  match text.dropWhile (· ≠ equalsSign) with
  | [] => .long text none
  | _ :: value => .long (text.takeWhile (· ≠ equalsSign)) (some value)

/-- The kind of an argument. -/
def Token.ofArgument (arg : Bytes) : Token :=
  match arg with
  | first :: second :: rest =>
    if first ≠ dash then .plain arg
    else if second ≠ dash then .short (second :: rest)
    else if rest = [] then .escape
    else Token.ofLong rest
  | _ => .plain arg

end CommandLine

end OpcodeCatalog
