import OpcodeCatalog.Text.Utf8

/-!
# Failures

The ways in which a listing can fail, each with what a user has to know about it.

Main definitions:

* `Failure` — the causes;
* `Failure.message` — the wording.
-/

set_option autoImplicit false

namespace OpcodeCatalog

/-- Why there is no listing. -/
inductive Failure where
  /-- The definition file at `path` cannot be read as text. -/
  | unreadableFile (path : Bytes) (reason : Text)
  /-- The header on this line, counted from one, has no name after it. -/
  | missingName (line : Nat)
  /-- Two headers are followed by this name. -/
  | duplicateName (name : Text)
  /-- There are more names than codes. -/
  | tooManyNames (count : Nat)
  /-- The listing cannot be written. -/
  | outputFailed (reason : Text)
  deriving DecidableEq

namespace Failure

/-- What the user reads.  Names and reasons stand as they are, without quoting; bytes of a path
that are no text show as replacement characters. -/
def message : Failure → Text
  | .unreadableFile path reason =>
    "Unable to read instruction file \"".toList ++ Utf8.decodeLossy path ++ "\": ".toList ++ reason
      ++ ['.']
  | .missingName line =>
    "DEFINE_INSN on line ".toList ++ Text.decimal line
      ++ " is not followed by an instruction name.".toList
  | .duplicateName name =>
    "Instruction ".toList ++ name ++ " is defined more than once.".toList
  | .tooManyNames count =>
    Text.decimal count ++ " instructions do not fit in a table of 256 opcodes.".toList
  | .outputFailed reason => "Unable to write listing: ".toList ++ reason ++ ['.']

end Failure

end OpcodeCatalog
