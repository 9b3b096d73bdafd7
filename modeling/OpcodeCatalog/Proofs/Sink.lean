import OpcodeCatalog.Sink

/-!
# What a sink takes

A sink with room for so many bytes takes exactly the first so many of the bytes written to it.  How
many it takes at a time, how often it is interrupted and how the bytes are cut into pieces make no
difference.  The writing fails exactly if there are more bytes than room.

Main definitions:

* `Sink.fitting` — the bytes for which there is room;
* `Sink.Overflows` — there are more bytes than room;
* `Sink.Leaves` — a sink as it was, except for the room and the interruptions;
* `Sink.Writes` — what a single write can do;
* `Sink.Meets` — what the writing of a sequence comes to.

Main results:

* `Sink.writes_write` — a single write does one of four things;
* `Sink.meets_writeAll`, `Sink.meets_writePieces` — **a sink takes what there is room for**, whether
  the bytes come as one sequence or in pieces.
-/

set_option autoImplicit false

namespace OpcodeCatalog

/-- The reason that is reported when a sink without room is written to. -/
def Refusal.reason : Refusal → Text
  | .takesNothing => Sink.nothingTaken
  | .fails reason => reason

namespace Sink

/-! ### Room -/

/-- The bytes for which there is room. -/
def fitting (room : Option Nat) (bytes : Bytes) : Bytes :=
  match room with
  | none => bytes
  | some room => bytes.take room

/-- There is room for fewer bytes than `size`. -/
def Overflows (room : Option Nat) (size : Nat) : Prop := ∃ r ∈ room, r < size

instance (room : Option Nat) (size : Nat) : Decidable (Overflows room size) :=
  inferInstanceAs (Decidable (∃ _ ∈ _, _))

@[simp] theorem fitting_none (bytes : Bytes) : fitting none bytes = bytes := rfl

@[simp] theorem fitting_some (room : Nat) (bytes : Bytes) :
    fitting (some room) bytes = bytes.take room := rfl

@[simp] theorem fitting_nil (room : Option Nat) : fitting room [] = [] := by
  cases room <;> simp

@[simp] theorem not_overflows_none (size : Nat) : ¬ Overflows none size := by simp [Overflows]

@[simp] theorem overflows_some {room size : Nat} : Overflows (some room) size ↔ room < size := by
  simp [Overflows]

/-- What fits of two sequences: what fits of the first, and what then fits of the second. -/
theorem fitting_append (room : Option Nat) (xs ys : Bytes) :
    fitting room (xs ++ ys) = fitting room xs ++ fitting (room.map (· - xs.length)) ys := by
  cases room with
  | none => rfl
  | some room => simp [List.take_append]

theorem fitting_of_not_overflows {room : Option Nat} {bytes : Bytes}
    (h : ¬ Overflows room bytes.length) : fitting room bytes = bytes := by
  cases room with
  | none => rfl
  | some room =>
      rw [overflows_some, Nat.not_lt] at h
      exact List.take_of_length_le h

/-- Two sequences overflow if the second overflows what the first has left. -/
theorem overflows_add_iff {room : Option Nat} {m n : Nat} (h : ¬ Overflows room m) :
    Overflows room (m + n) ↔ Overflows (room.map (· - m)) n := by
  cases room with
  | none => simp
  | some room =>
      simp only [overflows_some, Option.map_some] at h ⊢
      omega

theorem Overflows.add {room : Option Nat} {m : Nat} (h : Overflows room m) (n : Nat) :
    Overflows room (m + n) := by
  obtain ⟨r, hr, hlt⟩ := h
  exact ⟨r, hr, by omega⟩

/-! ### A single write -/

/-- `s'` is `s` with another room, and the interruptions may be at another point. -/
structure Leaves (s : Sink) (room : Option Nat) (s' : Sink) : Prop where
  room_eq : s'.room = room
  refusal_eq : s'.refusal = s.refusal
  flushFailure_eq : s'.flushFailure = s.flushFailure

theorem Leaves.trans {s s' s'' : Sink} {room room' : Option Nat} (h : s.Leaves room s')
    (h' : s'.Leaves room' s'') : s.Leaves room' s'' :=
  ⟨h'.room_eq, h'.refusal_eq.trans h.refusal_eq, h'.flushFailure_eq.trans h.flushFailure_eq⟩

/-- What a single write of `size` bytes can do. -/
inductive Writes (s : Sink) (size : Nat) : WriteResult → Sink → Prop
  /-- It is interrupted and takes nothing. -/
  | interrupted {s' : Sink} : s.Leaves s.room s' → Writes s size .interrupted s'
  /-- It takes some of the bytes, and there is room for them. -/
  | took {s' : Sink} (count : Nat) : 0 < count → count ≤ size → ¬ Overflows s.room count →
      s.Leaves (s.room.map (· - count)) s' → Writes s size (.took count) s'
  /-- There is no room, and it takes nothing. -/
  | refused {s' : Sink} : s.room = some 0 → s.refusal = .takesNothing → s.Leaves (some 0) s' →
      Writes s size (.took 0) s'
  /-- There is no room, and it reports an error. -/
  | failed {s' : Sink} (reason : Text) : s.room = some 0 → s.refusal = .fails reason →
      s.Leaves (some 0) s' → Writes s size (.failed reason) s'

/-- As long as there is room, a write takes at least one byte. -/
theorem room_eq_zero_of_accepted_eq_zero {s : Sink} {size : Nat} (hsize : 0 < size)
    (h : s.accepted size = 0) : s.room = some 0 := by
  have hreach : 0 < s.reach size := by
    unfold reach
    split <;> omega
  unfold accepted at h
  cases hroom : s.room with
  | none =>
      rw [hroom] at h
      simp only at h
      omega
  | some room =>
      rw [hroom] at h
      simp only at h
      congr 1
      omega

theorem not_overflows_accepted (s : Sink) (size : Nat) :
    ¬ Overflows s.room (s.accepted size) := by
  rintro ⟨room, hroom, hlt⟩
  have hsome : s.room = some room := hroom
  rw [accepted, hsome] at hlt
  simp only at hlt
  omega

/-- A single write of at least one byte does one of the four things. -/
theorem writes_write {s : Sink} {size : Nat} (h : 0 < size) :
    Writes s size (s.write size).1 (s.write size).2 := by
  unfold write
  by_cases hinterrupt : s.interruptNext = true
  · rw [if_pos hinterrupt]
    exact .interrupted ⟨rfl, rfl, rfl⟩
  · rw [if_neg hinterrupt]
    by_cases hzero : s.accepted size = 0
    · have hroom := room_eq_zero_of_accepted_eq_zero h hzero
      have hleft : s.room.map (· - s.accepted size) = some 0 := by simp [hroom]
      simp only [if_pos hzero]
      cases hrefusal : s.refusal with
      | takesNothing => exact .refused hroom hrefusal ⟨hleft, hrefusal.symm, rfl⟩
      | fails reason => exact .failed reason hroom hrefusal ⟨hleft, hrefusal.symm, rfl⟩
    · simp only [if_neg hzero]
      exact .took _ (Nat.pos_of_ne_zero hzero) (accepted_le s size)
        (not_overflows_accepted s size) ⟨rfl, rfl, rfl⟩

theorem writes_of_write_eq {s s' : Sink} {size : Nat} {result : WriteResult} (h : 0 < size)
    (hwrite : s.write size = (result, s')) : Writes s size result s' := by
  have hwrites := writes_write (s := s) h
  rwa [hwrite] at hwrites

/-! ### Sequences and pieces -/

/-- The writing of `bytes` takes what there is room for, and fails exactly if that is not all. -/
structure Meets (s : Sink) (bytes : Bytes) (w : Written) : Prop where
  leaves : s.Leaves (s.room.map (· - bytes.length)) w.sink
  taken_eq : w.taken = fitting s.room bytes
  failure_eq : w.failure = if Overflows s.room bytes.length then some s.refusal.reason else none

theorem meets_nil (s : Sink) : s.Meets [] ⟨s, [], none⟩ where
  leaves := ⟨by simp, rfl, rfl⟩
  taken_eq := by simp
  failure_eq := by
    rw [if_neg]
    rintro ⟨room, -, hlt⟩
    exact absurd hlt (Nat.not_lt_zero room)

/-- The same holds of a sink that differs in the interruptions alone. -/
theorem Meets.of_leaves {s s' : Sink} {bytes : Bytes} {w : Written} (h : s'.Meets bytes w)
    (hleaves : s.Leaves s.room s') : s.Meets bytes w where
  leaves := by
    have := hleaves.trans h.leaves
    rwa [hleaves.room_eq] at this
  taken_eq := by rw [h.taken_eq, hleaves.room_eq]
  failure_eq := by rw [h.failure_eq, hleaves.room_eq, hleaves.refusal_eq]

/-- A sink without room takes nothing. -/
theorem meets_of_room_eq_zero {s s' : Sink} {bytes : Bytes} (hbytes : bytes ≠ [])
    (hroom : s.room = some 0) (h : s.Leaves (some 0) s') :
    s.Meets bytes ⟨s', [], some s.refusal.reason⟩ where
  leaves := by simpa [hroom] using h
  taken_eq := by simp [hroom]
  failure_eq := by
    rw [hroom, if_pos (overflows_some.2 (List.length_pos_iff.2 hbytes))]

theorem Meets.not_overflows {s : Sink} {bytes : Bytes} {w : Written} (h : s.Meets bytes w)
    (hfailure : w.failure = none) : ¬ Overflows s.room bytes.length := by
  intro hover
  rw [h.failure_eq, if_pos hover] at hfailure
  simp at hfailure

theorem Meets.overflows {s : Sink} {bytes : Bytes} {w : Written} {reason : Text}
    (h : s.Meets bytes w) (hfailure : w.failure = some reason) :
    Overflows s.room bytes.length := by
  by_cases hover : Overflows s.room bytes.length
  · exact hover
  · rw [h.failure_eq, if_neg hover] at hfailure
    simp at hfailure

/-- Writing goes on after a sequence that was taken. -/
theorem Meets.append {s : Sink} {xs ys : Bytes} {w w' : Written} (h : s.Meets xs w)
    (hfailure : w.failure = none) (h' : w.sink.Meets ys w') :
    s.Meets (xs ++ ys) { w' with taken := w.taken ++ w'.taken } where
  leaves := by
    have hleaves := h.leaves.trans h'.leaves
    have hroom : (w.sink.room.map (· - ys.length)) = s.room.map (· - (xs ++ ys).length) := by
      rw [h.leaves.room_eq, Option.map_map, List.length_append]
      congr 1
      funext room
      exact Nat.sub_sub room xs.length ys.length
    rwa [hroom] at hleaves
  taken_eq := by
    rw [fitting_append, h.taken_eq, h'.taken_eq, h.leaves.room_eq]
  failure_eq := by
    rw [h'.failure_eq, h.leaves.room_eq, h.leaves.refusal_eq, List.length_append]
    simp only [overflows_add_iff (h.not_overflows hfailure)]

/-- After a failure nothing more would be taken. -/
theorem Meets.append_of_failure {s : Sink} {xs : Bytes} {w : Written} {reason : Text}
    (h : s.Meets xs w) (hfailure : w.failure = some reason) (ys : Bytes) :
    s.Meets (xs ++ ys) w := by
  have hover := h.overflows hfailure
  obtain ⟨room, hroom, hlt⟩ := hover
  have hsome : s.room = some room := hroom
  -- the first sequence uses up the room, so that none is left for the second
  have hleft : room - xs.length = 0 := Nat.sub_eq_zero_of_le (Nat.le_of_lt hlt)
  refine ⟨?_, ?_, ?_⟩
  · have hsub : room - (xs ++ ys).length = room - xs.length := by
      rw [List.length_append]
      omega
    have hleaves := h.leaves
    rw [hsome, Option.map_some] at hleaves ⊢
    rwa [hsub]
  · rw [fitting_append, h.taken_eq, hsome, Option.map_some, hleft]
    simp
  · rw [h.failure_eq, List.length_append, if_pos (h.overflows hfailure),
      if_pos ((h.overflows hfailure).add ys.length)]

/-- **A sink takes what there is room for.** -/
theorem meets_writeAll (s : Sink) (bytes : Bytes) : s.Meets bytes (s.writeAll bytes) := by
  fun_induction writeAll s bytes with
  | case1 s => exact meets_nil s
  | case2 s bytes hbytes s' hwrite ih =>
      cases writes_of_write_eq (List.length_pos_iff.2 hbytes) hwrite with
      | interrupted hleaves => exact ih.of_leaves hleaves
  | case3 s bytes hbytes reason s' hwrite =>
      cases writes_of_write_eq (List.length_pos_iff.2 hbytes) hwrite with
      | failed _ hroom hrefusal hleaves =>
          have hmeets := meets_of_room_eq_zero hbytes hroom hleaves
          rwa [hrefusal] at hmeets
  | case4 s bytes hbytes s' hwrite =>
      cases writes_of_write_eq (List.length_pos_iff.2 hbytes) hwrite with
      | took _ hpos => exact absurd hpos (Nat.lt_irrefl 0)
      | refused hroom hrefusal hleaves =>
          have hmeets := meets_of_room_eq_zero hbytes hroom hleaves
          rwa [hrefusal] at hmeets
  | case5 s bytes hbytes count s' hwrite hcount rest ih =>
      cases writes_of_write_eq (List.length_pos_iff.2 hbytes) hwrite with
      | refused => exact absurd rfl hcount
      | took _ hpos hle hroom hleaves =>
          -- one write is a writing of its own that takes the first bytes
          have hlength : (bytes.take count).length = count := by
            rw [List.length_take, Nat.min_eq_left hle]
          have hfirst : s.Meets (bytes.take count) ⟨s', bytes.take count, none⟩ := by
            refine ⟨?_, ?_, ?_⟩
            · rwa [hlength]
            · rw [fitting_of_not_overflows (by rwa [hlength])]
            · rw [hlength, if_neg hroom]
          have hboth := hfirst.append rfl ih
          rwa [List.take_append_drop] at hboth

/-- **How the bytes are cut into pieces makes no difference.** -/
theorem meets_writePieces (s : Sink) (pieces : List Bytes) :
    s.Meets pieces.flatten (s.writePieces pieces) := by
  induction pieces generalizing s with
  | nil => exact meets_nil s
  | cons piece pieces ih =>
      have hfirst := meets_writeAll s piece
      rw [List.flatten_cons]
      simp only [writePieces]
      cases hfailure : (s.writeAll piece).failure with
      | some reason => exact hfirst.append_of_failure hfailure _
      | none => exact hfirst.append hfailure (ih _)

end Sink

end OpcodeCatalog
