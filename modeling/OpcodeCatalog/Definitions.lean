import OpcodeCatalog.Failure
import OpcodeCatalog.Text.Blank
import OpcodeCatalog.Text.Lines
import OpcodeCatalog.Text.UpperCase

/-!
# Definition files

YARV, the virtual machine of Ruby, defines its instructions in a text file.  A line that consists of
the header `DEFINE_INSN` alone begins a definition, and the next line is the name of the
instruction.  That line is never a header itself, so an instruction may bear the name of the header.
All other lines are passed over.

Main definitions:

* `Definitions.logicalLines` — the lines as they are compared with the header;
* `Definitions.names` — the names of the instructions, in upper case and in the order of their
  definitions;
* `Definitions.textOf`, `Definitions.read` — the text of a file, and the names that it defines.
-/

set_option autoImplicit false

namespace OpcodeCatalog

namespace Definitions

/-- The line that begins a definition. -/
def header : Text := "DEFINE_INSN".toList

/-- The lines of a text without any of the line endings in use. -/
def logicalLines (t : Text) : List Text := (Text.lines t).map Text.dropReturns

/-- The name on a line, without the blanks around it and in upper case, unless the line is blank. -/
def nameOn (line : Text) : Option Text :=
  if Text.trim line = [] then none else some (Text.upper (Text.trim line))

/-- The names that the lines define, where `seen` are the names defined before and `number` is the
number of the first line. -/
def namesFrom (seen : List Text) (number : Nat) : List Text → Except Failure (List Text)
  | [] => .ok []
  | [line] => if line = header then .error (.missingName number) else .ok []
  | line :: next :: rest =>
    if line = header then
      match nameOn next with
      | none => .error (.missingName number)
      | some name =>
        if name ∈ seen then .error (.duplicateName name)
        else (namesFrom (name :: seen) (number + 2) rest).map (name :: ·)
    else namesFrom seen (number + 1) (next :: rest)

/-- The names of the instructions that a text defines.  Each header needs a name, and no two names
may be equal. -/
def names (t : Text) : Except Failure (List Text) := namesFrom [] 1 (logicalLines t)

/-- The reason why a file that can be read gives no text. -/
def notUtf8 : Text := "stream did not contain valid UTF-8".toList

/-- The text of a file, where `content` is its content or the reason why there is none.  The whole
content must be UTF-8. -/
def textOf (path : Bytes) (content : Except Text Bytes) : Except Failure Text :=
  match content with
  | .error reason => .error (.unreadableFile path reason)
  | .ok bytes =>
    match Utf8.decode bytes with
    | none => .error (.unreadableFile path notUtf8)
    | some t => .ok t

/-- The names that a file defines.  It must be a text before any of it counts. -/
def read (path : Bytes) (content : Except Text Bytes) : Except Failure (List Text) :=
  match textOf path content with
  | .error failure => .error failure
  | .ok t => names t

/-! ### Reading what has been encoded -/

theorem read_ok_of_decode {path bytes : Bytes} {t : Text} (h : Utf8.decode bytes = some t) :
    read path (.ok bytes) = names t := by
  simp [read, textOf, h]

theorem nameOn_eq_none_iff {line : Text} :
    nameOn line = none ↔ ∀ c ∈ line, Text.isBlank c = true := by
  rw [← Text.trim_eq_nil_iff, nameOn]
  split <;> simp_all

end Definitions

end OpcodeCatalog
