import OpcodeCatalog.Failure
import OpcodeCatalog.Proofs.Text.Utf8

/-!
# Messages tell their failures

A message has the wording of its kind, and no other kind has a message that begins like it.  What a
message quotes stands between two fixed texts, so it is known from the message, whatever it holds
itself.  Only the message about a file quotes two texts, a path and a reason.  Both may hold the
text between them, but as long as the reason does not, its last occurrence is the one that divides
them.

Main definitions:

* `Failure.kind` — the kind of a failure;
* `Failure.kindOf` — the kind that a message has, from two of its characters;
* `Failure.IsLegible` — a failure whose message tells a path from a reason.

Main results:

* `Failure.append_divider_inj` — the last divider is known;
* `Failure.kindOf_message` — messages of different kinds differ;
* `Failure.message_tells_failure` — **failures with the same message are equal**.
-/

set_option autoImplicit false

namespace OpcodeCatalog

namespace Failure

/-! ### Kinds -/

/-- The kinds of failures. -/
inductive Kind where
  | unreadableFile
  | missingName
  | duplicateName
  | tooManyNames
  | outputFailed
  deriving DecidableEq

/-- The kind of a failure. -/
def kind : Failure → Kind
  | .unreadableFile .. => .unreadableFile
  | .missingName _ => .missingName
  | .duplicateName _ => .duplicateName
  | .tooManyNames _ => .tooManyNames
  | .outputFailed _ => .outputFailed

/-- The kind of a message.  Both messages that begin with the same letter go on with what could not
be done, reading or writing. -/
def kindOf (message : Text) : Kind :=
  if message.head? = some 'D' then .missingName
  else if message.head? = some 'I' then .duplicateName
  else if message.head? = some 'U' then
    if message[10]? = some 'r' then .unreadableFile else .outputFailed
  else .tooManyNames

/-- A message has the kind of its failure. -/
theorem kindOf_message (failure : Failure) : kindOf failure.message = failure.kind := by
  cases failure with
  | unreadableFile path reason => rfl
  | missingName line => rfl
  | duplicateName name => rfl
  | outputFailed reason => rfl
  | tooManyNames count =>
      obtain ⟨c, s, hs, hdigit⟩ := Text.decimal_eq_cons count
      have hmessage : message (.tooManyNames count) =
          Text.decimal count ++ " instructions do not fit in a table of 256 opcodes.".toList := rfl
      have hhead : (message (.tooManyNames count)).head? = some c := by
        rw [hmessage, hs, List.cons_append, List.head?_cons]
      have hne : ∀ letter : Char, letter.isDigit = false → some c ≠ some letter := by
        intro letter hletter heq
        rw [Option.some.inj heq, hletter] at hdigit
        cases hdigit
      rw [kindOf, hhead, if_neg (hne 'D' rfl), if_neg (hne 'I' rfl), if_neg (hne 'U' rfl), kind]

/-! ### Dividers -/

section Divider

variable {mark : Char} {rest front behind behind' : Text}

/-- A divider does not occur in front of another one, unless it is behind that one as well. -/
theorem eq_nil_of_divider (hmark : mark ∉ rest) (hbehind : ¬ mark :: rest <:+: behind)
    (h : mark :: rest ++ behind = front ++ (mark :: rest ++ behind')) : front = [] := by
  cases front with
  | nil => rfl
  | cons c front =>
      exfalso
      simp only [List.cons_append, List.cons.injEq] at h
      rcases List.append_eq_append_iff.1 h.2 with ⟨between, -, hin⟩ | ⟨between, hrest, hin⟩
      · exact hbehind ⟨between, behind', by simpa using hin.symm⟩
      · -- the second divider would begin inside the first one, but its mark occurs there only once
        cases between with
        | nil => exact hbehind ⟨[], behind', by simpa using hin⟩
        | cons c' between =>
            simp only [List.cons_append, List.cons.injEq] at hin
            exact hmark (by simp [hrest, ← hin.1])

/-- The last divider is known. -/
theorem append_divider_inj {front' : Text} (hmark : mark ∉ rest)
    (hbehind : ¬ mark :: rest <:+: behind) (hbehind' : ¬ mark :: rest <:+: behind')
    (h : front ++ (mark :: rest ++ behind) = front' ++ (mark :: rest ++ behind')) :
    front = front' ∧ behind = behind' := by
  rcases List.append_eq_append_iff.1 h with ⟨between, rfl, hin⟩ | ⟨between, rfl, hin⟩
  · obtain rfl := eq_nil_of_divider hmark hbehind hin
    exact ⟨(List.append_nil _).symm, List.append_cancel_left hin⟩
  · obtain rfl := eq_nil_of_divider hmark hbehind' hin
    exact ⟨List.append_nil _, (List.append_cancel_left hin).symm⟩

end Divider

/-! ### Failures -/

/-- A failure whose message tells a path from a reason: the path is a text, and the reason does not
hold the quotation mark, the colon and the space that divide them. -/
def IsLegible : Failure → Prop
  | .unreadableFile path reason => (∃ t, path = Utf8.encode t) ∧ ¬ ['"', ':', ' '] <:+: reason
  | _ => True

/-- The message about a file tells its path and the reason. -/
theorem unreadableFile_inj {path path' : Bytes} {reason reason' : Text}
    (h : IsLegible (.unreadableFile path reason)) (h' : IsLegible (.unreadableFile path' reason'))
    (hmessage : message (.unreadableFile path reason) = message (.unreadableFile path' reason')) :
    path = path' ∧ reason = reason' := by
  obtain ⟨⟨t, rfl⟩, hreason⟩ := h
  obtain ⟨⟨t', rfl⟩, hreason'⟩ := h'
  have hquotes : ∀ t reason, message (.unreadableFile (Utf8.encode t) reason) =
      "Unable to read instruction file \"".toList ++ (t ++ ("\": ".toList ++ reason) ++ ['.']) := by
    intro t reason
    have hmessage : message (.unreadableFile (Utf8.encode t) reason) =
        "Unable to read instruction file \"".toList ++ Utf8.decodeLossy (Utf8.encode t) ++
          "\": ".toList ++ reason ++ ['.'] := rfl
    rw [hmessage, Utf8.decodeLossy_encode]
    simp only [List.append_assoc]
  rw [hquotes, hquotes, List.append_right_inj, List.append_left_inj] at hmessage
  obtain ⟨rfl, rfl⟩ := append_divider_inj (by decide) hreason hreason' hmessage
  exact ⟨rfl, rfl⟩

/-- **Failures with the same message are equal.**  They are of the same kind, whatever names,
reasons and paths they hold, and they are equal as long as a path can be told from a reason. -/
theorem message_tells_failure {failure failure' : Failure}
    (hmessage : failure.message = failure'.message) :
    failure.kind = failure'.kind ∧
      (failure.IsLegible → failure'.IsLegible → failure = failure') := by
  have hkind : failure.kind = failure'.kind := by
    rw [← kindOf_message, hmessage, kindOf_message]
  refine ⟨hkind, ?_⟩
  intro h h'
  cases failure with
  | unreadableFile path reason =>
      cases failure' with
      | unreadableFile path' reason' =>
          obtain ⟨rfl, rfl⟩ := unreadableFile_inj h h' hmessage
          rfl
      | _ => cases hkind
  | missingName line =>
      cases failure' with
      | missingName line' =>
          have hline := List.append_cancel_left (List.append_cancel_right hmessage)
          rw [Text.decimal_injective hline]
      | _ => cases hkind
  | duplicateName name =>
      cases failure' with
      | duplicateName name' =>
          rw [List.append_cancel_left (List.append_cancel_right hmessage)]
      | _ => cases hkind
  | tooManyNames count =>
      cases failure' with
      | tooManyNames count' => rw [Text.decimal_injective (List.append_cancel_right hmessage)]
      | _ => cases hkind
  | outputFailed reason =>
      cases failure' with
      | outputFailed reason' =>
          rw [List.append_cancel_left (List.append_cancel_right hmessage)]
      | _ => cases hkind

/-- A path that holds the divider, once by its bytes and once as a text. -/
theorem message_tells_failure_divider :
    message (.unreadableFile [0x61, 0x22, 0x3A, 0x20, 0x62] ['c']) =
        message (.unreadableFile (Utf8.ofString "a\": b") "c".toList) ∧
      IsLegible (.unreadableFile [0x61, 0x22, 0x3A, 0x20, 0x62] ['c']) ∧
      IsLegible (.unreadableFile (Utf8.ofString "a\": b") "c".toList) ∧
      unreadableFile [0x61, 0x22, 0x3A, 0x20, 0x62] ['c'] =
        .unreadableFile (Utf8.ofString "a\": b") "c".toList := by
  have hmessage : message (.unreadableFile [0x61, 0x22, 0x3A, 0x20, 0x62] ['c']) =
      message (.unreadableFile (Utf8.ofString "a\": b") "c".toList) := by decide
  have hreason : ¬ ['"', ':', ' '] <:+: ['c'] := by decide
  have hlegible : IsLegible (.unreadableFile [0x61, 0x22, 0x3A, 0x20, 0x62] ['c']) :=
    ⟨⟨"a\": b".toList, by decide⟩, hreason⟩
  have hlegible' : IsLegible (.unreadableFile (Utf8.ofString "a\": b") "c".toList) :=
    ⟨⟨"a\": b".toList, rfl⟩, hreason⟩
  exact ⟨hmessage, hlegible, hlegible', (message_tells_failure hmessage).2 hlegible hlegible'⟩

/-- A reason that holds the divider may belong to a shorter path. -/
example : message (.unreadableFile (Utf8.ofString "a") "b\": c".toList) =
    message (.unreadableFile (Utf8.ofString "a\": b") "c".toList) := by decide

end Failure

end OpcodeCatalog
