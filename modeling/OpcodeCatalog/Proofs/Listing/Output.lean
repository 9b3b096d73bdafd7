import OpcodeCatalog.Listing.Output
import OpcodeCatalog.Proofs.Sink

/-!
# Several listings to one sink

Listings that are written one after the other to one sink reach it as one sequence of bytes, cut off
where the room of the sink ends.  A listing fails to be written if it has a byte behind that point;
otherwise it is written as a whole, and only the flushing after it can fail.

Main definitions:

* `Listing.rendering` — the bytes of a listing;
* `Listing.Delivers` — what the writing of a listing comes to;
* `Listing.startOf` — the number of bytes of the listings before one.

Main results:

* `Listing.delivers_write` — one listing;
* `Listing.exists_delivers_writeEach` — **a listing among others meets the room they leave**;
* `Listing.flatMap_taken_writeEach` — together the listings are one sequence of bytes;
* `Listing.map_writeEach_congr` — portions and interruptions make no difference.
-/

set_option autoImplicit false

namespace OpcodeCatalog

namespace Listing

open Sink

/-! ### One listing -/

/-- The bytes of a listing in its format. -/
def rendering (step : Format × List Line) : Bytes := Utf8.encode (render step.1 step.2)

theorem flatten_map_encode (pieces : List Text) :
    (pieces.map Utf8.encode).flatten = Utf8.encode pieces.flatten := by
  induction pieces with
  | nil => rfl
  | cons piece pieces ih =>
      rw [List.map_cons, List.flatten_cons, List.flatten_cons, Utf8.encode_append, ih]

/-- The pieces of a listing are its bytes, cut up. -/
theorem flatten_encode_pieces (format : Format) (lines : List Line) :
    ((pieces format lines).map Utf8.encode).flatten = rendering (format, lines) :=
  flatten_map_encode _

/-- The writing of a listing with these bytes takes what there is room for.  It fails if that is not
all of them, and else if the sink cannot be flushed. -/
structure Delivers (s : Sink) (bytes : Bytes) (output : Output) : Prop where
  leaves : s.Leaves (s.room.map (· - bytes.length)) output.sink
  taken_eq : output.taken = fitting s.room bytes
  failure_eq : output.failure =
    if Overflows s.room bytes.length then some (.outputFailed s.refusal.reason)
    else s.flushFailure.map .outputFailed

theorem delivers_write (s : Sink) (format : Format) (lines : List Line) :
    Delivers s (rendering (format, lines)) (write s format lines) := by
  have hmeets := meets_writePieces s ((pieces format lines).map Utf8.encode)
  rw [flatten_encode_pieces] at hmeets
  refine ⟨hmeets.leaves, hmeets.taken_eq, ?_⟩
  have hfailure := hmeets.failure_eq
  by_cases hover : Overflows s.room (rendering (format, lines)).length
  · rw [if_pos hover]
    rw [if_pos hover] at hfailure
    simp [write, hfailure]
  · rw [if_neg hover]
    rw [if_neg hover] at hfailure
    simp [write, hfailure, hmeets.leaves.flushFailure_eq]

/-- The same holds of a sink that differs in the interruptions alone. -/
theorem Delivers.of_leaves {s s' : Sink} {bytes : Bytes} {output : Output}
    (h : Delivers s' bytes output) (hleaves : s.Leaves s.room s') : Delivers s bytes output where
  leaves := by
    have := hleaves.trans h.leaves
    rwa [hleaves.room_eq] at this
  taken_eq := by rw [h.taken_eq, hleaves.room_eq]
  failure_eq := by
    rw [h.failure_eq, hleaves.room_eq, hleaves.refusal_eq, hleaves.flushFailure_eq]

/-! ### Listings one after the other -/

/-- The number of bytes of the listings before the one at position `k`. -/
def startOf (steps : List (Format × List Line)) (k : Nat) : Nat :=
  ((steps.take k).flatMap rendering).length

theorem startOf_cons_succ (step : Format × List Line) (steps : List (Format × List Line))
    (k : Nat) : startOf (step :: steps) (k + 1) = (rendering step).length + startOf steps k := by
  simp [startOf]

theorem map_sub_sub (room : Option Nat) (m n : Nat) :
    (room.map (· - m)).map (· - n) = room.map (· - (m + n)) := by
  cases room with
  | none => rfl
  | some room => exact congrArg some (Nat.sub_sub room m n)

/-- **A listing among others meets the room they leave.** -/
theorem exists_delivers_writeEach {s : Sink} {steps : List (Format × List Line)} {k : Nat}
    {step : Format × List Line} (h : steps[k]? = some step) :
    ∃ output s', (writeEach s steps)[k]? = some output ∧
      s.Leaves (s.room.map (· - startOf steps k)) s' ∧ Delivers s' (rendering step) output := by
  induction steps generalizing s k with
  | nil => simp at h
  | cons first steps ih =>
      have hfirst := delivers_write s first.1 first.2
      cases k with
      | zero =>
          have hstep : first = step := by simpa using h
          subst hstep
          exact ⟨_, s, rfl, ⟨by simp [startOf], rfl, rfl⟩, hfirst⟩
      | succ k =>
          obtain ⟨output, s', houtput, hleaves, hdelivers⟩ :=
            ih (s := (write s first.1 first.2).sink) (by simpa using h)
          refine ⟨output, s', by simpa [writeEach] using houtput, ?_, hdelivers⟩
          -- the rest begins with what the first listing leaves, so the starts add up
          have hboth := hfirst.leaves.trans hleaves
          rw [hfirst.leaves.room_eq, map_sub_sub] at hboth
          rwa [startOf_cons_succ]

/-- Together the listings are taken as one sequence of bytes. -/
theorem flatMap_taken_writeEach (s : Sink) (steps : List (Format × List Line)) :
    (writeEach s steps).flatMap Output.taken = fitting s.room (steps.flatMap rendering) := by
  induction steps generalizing s with
  | nil => simp [writeEach]
  | cons first steps ih =>
      have hfirst := delivers_write s first.1 first.2
      rw [writeEach, List.flatMap_cons, List.flatMap_cons, ih, hfirst.taken_eq,
        hfirst.leaves.room_eq, fitting_append]

theorem length_writeEach (s : Sink) (steps : List (Format × List Line)) :
    (writeEach s steps).length = steps.length := by
  induction steps generalizing s with
  | nil => rfl
  | cons first steps ih => rw [writeEach, List.length_cons, List.length_cons, ih]

/-- What a sink takes of a sequence in the middle of a longer one is that part of what it takes of
the whole. -/
theorem take_drop_fitting (room : Option Nat) (xs ys zs : Bytes) :
    ((fitting room (xs ++ (ys ++ zs))).drop xs.length).take ys.length =
      fitting (room.map (· - xs.length)) ys := by
  cases room with
  | none => simp
  | some room =>
      rw [fitting_some, List.drop_take, List.drop_left, List.take_take, Nat.min_comm,
        ← List.take_take, List.take_left]
      rfl

theorem slice_eq_fitting (room : Option Nat) {steps : List (Format × List Line)} {k : Nat}
    {step : Format × List Line} (h : steps[k]? = some step) :
    ((fitting room (steps.flatMap rendering)).drop (startOf steps k)).take
        (rendering step).length =
      fitting (room.map (· - startOf steps k)) (rendering step) := by
  obtain ⟨hk, hstep⟩ := List.getElem?_eq_some_iff.1 h
  have hsteps : steps.flatMap rendering = (steps.take k).flatMap rendering ++
      (rendering step ++ (steps.drop (k + 1)).flatMap rendering) := by
    rw [← List.flatMap_cons, ← List.flatMap_append, ← hstep, List.getElem_cons_drop,
      List.take_append_drop]
  rw [hsteps, startOf, take_drop_fitting]

/-- What is left of the room is too little for a listing that is not empty exactly if the room is too
little for it and the listings before it. -/
theorem overflows_left_iff {room : Option Nat} {start : Nat} {bytes : Bytes} :
    Overflows (room.map (· - start)) bytes.length ↔
      bytes ≠ [] ∧ ∃ limit ∈ room, limit < start + bytes.length := by
  rw [← List.length_pos_iff]
  cases room with
  | none => simp
  | some limit =>
      simp only [Option.map_some, overflows_some, Option.mem_some_iff, exists_eq_left']
      omega

/-- How many bytes are taken at a time, and when a write is interrupted, makes no difference. -/
theorem map_writeEach_congr {s s' : Sink} (h : s.Leaves s.room s')
    (steps : List (Format × List Line)) :
    (writeEach s' steps).map (fun output => (output.taken, output.failure)) =
      (writeEach s steps).map fun output => (output.taken, output.failure) := by
  induction steps generalizing s s' with
  | nil => rfl
  | cons first steps ih =>
      have hfirst := delivers_write s first.1 first.2
      have hfirst' := (delivers_write s' first.1 first.2).of_leaves h
      have hsinks : (write s first.1 first.2).sink.Leaves (write s first.1 first.2).sink.room
          (write s' first.1 first.2).sink := by
        refine ⟨?_, ?_, ?_⟩
        · rw [hfirst'.leaves.room_eq, hfirst.leaves.room_eq]
        · rw [hfirst'.leaves.refusal_eq, hfirst.leaves.refusal_eq]
        · rw [hfirst'.leaves.flushFailure_eq, hfirst.leaves.flushFailure_eq]
      simp only [writeEach, List.map_cons, hfirst.taken_eq, hfirst'.taken_eq, hfirst.failure_eq,
        hfirst'.failure_eq, ih hsinks]

/-- **Several listings reach a sink as one sequence of bytes, cut off where its room ends.**  Each of
them is taken as far as its bytes lie before that point, fails to be written if it has a byte behind
it, and else fails if the sink cannot be flushed. -/
theorem writeEach_cuts_at_room (s : Sink) (steps : List (Format × List Line)) :
    (writeEach s steps).length = steps.length ∧
      (writeEach s steps).flatMap Output.taken = fitting s.room (steps.flatMap rendering) ∧
      (∀ k step, steps[k]? = some step → ∃ output, (writeEach s steps)[k]? = some output ∧
        output.taken = ((fitting s.room (steps.flatMap rendering)).drop (startOf steps k)).take
          (rendering step).length ∧
        output.failure =
          if rendering step ≠ [] ∧
              ∃ limit ∈ s.room, limit < startOf steps k + (rendering step).length then
            some (.outputFailed s.refusal.reason)
          else s.flushFailure.map .outputFailed) ∧
      ∀ portion interrupts interruptNext,
        (writeEach { s with portion, interrupts, interruptNext } steps).map
            (fun output => (output.taken, output.failure)) =
          (writeEach s steps).map fun output => (output.taken, output.failure) := by
  refine ⟨length_writeEach s steps, flatMap_taken_writeEach s steps, ?_, ?_⟩
  · intro k step hstep
    obtain ⟨output, s', houtput, hleaves, hdelivers⟩ := exists_delivers_writeEach (s := s) hstep
    refine ⟨output, houtput, ?_, ?_⟩
    · rw [hdelivers.taken_eq, hleaves.room_eq, slice_eq_fitting s.room hstep]
    · rw [hdelivers.failure_eq, hleaves.room_eq, hleaves.refusal_eq, hleaves.flushFailure_eq]
      simp only [overflows_left_iff]
  · intro portion interrupts interruptNext
    have hleaves : s.Leaves s.room { s with portion, interrupts, interruptNext } := ⟨rfl, rfl, rfl⟩
    exact map_writeEach_congr hleaves steps

/-- With room for 35 bytes, a line of text fits, and of the empty array after it the first bracket. -/
theorem writeEach_cuts_array :
    ∃ output, (writeEach ⟨some 35, some 3, true, true, .fails "Broken pipe".toList, none⟩
        [(.text, [⟨"NOP".toList, 9⟩]), (.json, []), (.text, [])])[1]? = some output ∧
      output.taken = Utf8.encode ['['] ∧
      output.failure = some (.outputFailed "Broken pipe".toList) := by
  obtain ⟨output, houtput, htaken, hfailure⟩ := (writeEach_cuts_at_room
    ⟨some 35, some 3, true, true, .fails "Broken pipe".toList, none⟩
    [(.text, [⟨"NOP".toList, 9⟩]), (.json, []), (.text, [])]).2.2.1 1 (.json, []) rfl
  refine ⟨output, houtput, htaken.trans ?_, hfailure.trans ?_⟩
  · decide +kernel
  · decide +kernel

end Listing

end OpcodeCatalog
