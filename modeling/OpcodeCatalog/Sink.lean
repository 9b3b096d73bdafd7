import OpcodeCatalog.Text.Basic

/-!
# Sinks

A sink takes bytes: a file, a pipe, a buffer in memory.  A single write may take only some of the
bytes offered, it may be interrupted before it takes any, and it may fail.  Writing a whole sequence
means to go on after what was taken, to try again after an interruption, and to stop at the first
failure.

Main definitions:

* `Sink` — the state of a sink that may be limited in all these ways;
* `Sink.write` — a single write;
* `Sink.writeAll`, `Sink.writePieces` — the writing of a sequence, and of several one by one.
-/

set_option autoImplicit false

namespace OpcodeCatalog

/-- What a sink does with bytes when it has no room left. -/
inductive Refusal where
  /-- It takes none of them and reports no error. -/
  | takesNothing
  /-- It reports an error. -/
  | fails (reason : Text)
  deriving DecidableEq

/-- The state of a sink. -/
structure Sink where
  /-- The number of bytes that it still takes, if that is limited. -/
  room : Option Nat
  /-- The number of bytes that a single write takes at most, if that is limited.  Zero counts as
  one. -/
  portion : Option Nat
  /-- Whether every other write is interrupted. -/
  interrupts : Bool
  /-- Whether the next write is interrupted. -/
  interruptNext : Bool
  /-- What happens when there is no room left. -/
  refusal : Refusal
  /-- The reason why flushing fails, if it does. -/
  flushFailure : Option Text
  deriving DecidableEq

/-- What comes of a single write. -/
inductive WriteResult where
  | took (count : Nat)
  | interrupted
  | failed (reason : Text)
  deriving DecidableEq

/-- What comes of writing a sequence: the sink afterwards, the bytes that it took, and the reason
why it did not take all. -/
structure Written where
  sink : Sink
  taken : Bytes
  failure : Option Text
  deriving DecidableEq

namespace Sink

/-- A sink without limits. -/
def unlimited : Sink := ⟨none, none, false, false, .takesNothing, none⟩

/-- The reason given when a sink takes none of the bytes offered. -/
def nothingTaken : Text := "failed to write whole buffer".toList

/-- How many of `size` bytes a write looks at. -/
def reach (s : Sink) (size : Nat) : Nat :=
  match s.portion with
  | none => size
  | some portion => min size (max portion 1)

/-- How many of `size` bytes a write takes that is not interrupted. -/
def accepted (s : Sink) (size : Nat) : Nat :=
  match s.room with
  | none => s.reach size
  | some room => min (s.reach size) room

/-- A single write of `size` bytes, of which there is at least one. -/
def write (s : Sink) (size : Nat) : WriteResult × Sink :=
  if s.interruptNext then (.interrupted, { s with interruptNext := false })
  else
    let count := s.accepted size
    let s := { s with room := s.room.map (· - count), interruptNext := s.interrupts }
    if count = 0 then
      match s.refusal with
      | .takesNothing => (.took 0, s)
      | .fails reason => (.failed reason, s)
    else (.took count, s)

/-- Writes the whole sequence: goes on after the bytes taken, tries again after an interruption, and
stops at a failure. -/
def writeAll (s : Sink) (bytes : Bytes) : Written :=
  if _hbytes : bytes = [] then ⟨s, [], none⟩
  else
    match _hwrite : s.write bytes.length with
    | (.interrupted, s') => writeAll s' bytes
    | (.failed reason, s') => ⟨s', [], some reason⟩
    | (.took count, s') =>
      if _hcount : count = 0 then ⟨s', [], some nothingTaken⟩
      else
        let rest := writeAll s' (bytes.drop count)
        { rest with taken := bytes.take count ++ rest.taken }
termination_by 2 * bytes.length + s.interruptNext.toNat
decreasing_by
  · simp only [write] at _hwrite
    split at _hwrite
    · rename_i hnext
      simp only [Prod.mk.injEq, true_and] at _hwrite
      subst _hwrite
      simp [hnext]
    · split at _hwrite
      · split at _hwrite <;> simp at _hwrite
      · simp at _hwrite
  · have hlength := List.length_pos_iff.2 _hbytes
    have hnext := Bool.toNat_le s'.interruptNext
    simp only [List.length_drop]
    omega

/-- Writes the sequences one after the other, up to the first failure. -/
def writePieces (s : Sink) : List Bytes → Written
  | [] => ⟨s, [], none⟩
  | piece :: rest =>
    let first := s.writeAll piece
    match first.failure with
    | some _ => first
    | none =>
      let rest := writePieces first.sink rest
      { rest with taken := first.taken ++ rest.taken }

/-! ### How much a write takes -/

theorem accepted_le (s : Sink) (size : Nat) : s.accepted size ≤ size := by
  unfold accepted reach
  split <;> split <;> omega

@[simp] theorem writeAll_nil (s : Sink) : s.writeAll [] = ⟨s, [], none⟩ := by
  rw [writeAll, dif_pos rfl]

end Sink

end OpcodeCatalog
