import OpcodeCatalog.CommandLine.Usage
import OpcodeCatalog.Proofs.Text.Utf8

/-!
# Settings in one argument

A setting may be given with its value in one argument, behind an equals sign.  Such an argument is
the same token whatever the value is, so the value is never taken for something else: where an
option may stand, it goes to the setting, and anywhere else the whole argument is refused.  Only
where plain words are read, behind the mark after which no options come, it is a word like any
other, and one comes there by that mark alone.

Main definitions:

* `CommandLine.Attached` — a setting with its value in one argument;
* `CommandLine.Level.give` — what it does to the settings at one place.

Main results:

* `CommandLine.ofArgument_attached` — the token of such an argument;
* `CommandLine.takeArgument_attached` — **what the reader does where an option may stand**;
* `CommandLine.mode_ne_words_of_step` — plain words are read behind the mark only.
-/

set_option autoImplicit false

namespace OpcodeCatalog

namespace CommandLine

/-- A setting with its value in one argument. -/
structure Attached where
  setting : Setting
  value : Text
  deriving DecidableEq

/-- The argument: the name of the setting, an equals sign, and the value. -/
def Attached.argument (a : Attached) : Bytes :=
  Utf8.encode (a.setting.name ++ ['='] ++ a.value)

/-- The name of a setting without the dashes. -/
def Setting.word : Setting → Bytes
  | .format => Utf8.ofString "format"
  | .logLevel => Utf8.ofString "log-level"

/-! ### The token -/

theorem argument_eq (a : Attached) : a.argument =
    dash :: dash :: (a.setting.word ++ equalsSign :: Utf8.encode a.value) := by
  obtain ⟨setting, value⟩ := a
  cases setting <;> rw [Attached.argument, Utf8.encode_append, Utf8.encode_append] <;> rfl

theorem ofLong_append {name value : Bytes} (h : ∀ b ∈ name, b ≠ equalsSign) :
    Token.ofLong (name ++ equalsSign :: value) = .long name (some value) := by
  have hname : ∀ b ∈ name, decide (b ≠ equalsSign) = true := fun b hb => decide_eq_true (h b hb)
  unfold Token.ofLong
  rw [List.dropWhile_append_of_pos hname, List.takeWhile_append_of_pos hname]
  simp

/-- The argument is an option with a value, and the value is all that is behind the first equals
sign. -/
theorem ofArgument_attached (a : Attached) :
    Token.ofArgument a.argument = .long a.setting.word (some (Utf8.encode a.value)) := by
  have hmem : equalsSign ∉ a.setting.word := by
    cases a.setting <;> decide
  have hword : ∀ b ∈ a.setting.word, b ≠ equalsSign := fun b hb heq => hmem (heq ▸ hb)
  rw [argument_eq, Token.ofArgument, if_neg (by simp), if_neg (by simp), if_neg (by simp),
    ofLong_append hword]

theorem ofName?_word (beforeCommand : Bool) (setting : Setting) :
    Flag.ofName? beforeCommand setting.word = some (.setting setting) := by
  cases setting <;> cases beforeCommand <;> decide

/-- An option names no command. -/
theorem ofWord?_dash (rest : Bytes) : Command.ofWord? (dash :: rest) = none := by
  have hne : ∀ word ∈ [Utf8.ofString "python", Utf8.ofString "yarv", Utf8.ofString "help"],
      dash :: rest ≠ word := by
    have hhead : ∀ word ∈ [Utf8.ofString "python", Utf8.ofString "yarv", Utf8.ofString "help"],
        word.head? ≠ some dash := by decide
    rintro word hword rfl
    exact hhead _ hword rfl
  simp only [List.mem_cons, List.not_mem_nil, or_false, forall_eq_or_imp, forall_eq] at hne
  rw [Command.ofWord?, if_neg hne.1, if_neg hne.2.1, if_neg hne.2.2]

/-! ### The reader -/

/-- Gives a setting the value that is attached to it. -/
def Level.give (level : Level) (a : Attached) : Except UsageError Level :=
  level.set a.setting (Utf8.encode a.value)

/-- Where an option may stand, the value that waits is looked at, and then the setting is given. -/
theorem takeArgument_attached (s : State) (a : Attached) :
    s.takeArgument a.argument = s.settled fun level =>
      match level.give a with
      | .error e => .error (.error e)
      | .ok level => .ok (s.withLevel level) := by
  rw [State.takeArgument, ofArgument_attached]
  simp only [ofName?_word, State.takeFlag]
  rfl

/-- Where a value has to stand, the argument is refused. -/
theorem takeValue_attached (s : State) (setting : Setting) (a : Attached) :
    s.takeValue setting a.argument = .error (.error (.missingValue setting)) := by
  rw [State.takeValue, ofArgument_attached]

/-- Behind the command for help, it is no topic. -/
theorem takeTopic_attached (s : State) (topic : Option Command) (a : Attached) :
    s.takeTopic topic a.argument = .error (.error (.unexpectedArgument a.argument)) := by
  unfold State.takeTopic
  rw [argument_eq, ofWord?_dash]
  cases topic <;> rfl

/-! ### The mark after which no options come -/

theorem withLevel_mode (s : State) (level : Level) : (s.withLevel level).mode = s.mode := by
  unfold State.withLevel
  split <;> rfl

theorem eq_dashes_of_escape {arg : Bytes} (h : Token.ofArgument arg = .escape) :
    arg = Utf8.ofString "--" := by
  unfold Token.ofArgument at h
  split at h
  · rename_i first second rest
    by_cases hfirst : first = dash
    · by_cases hsecond : second = dash
      · by_cases hrest : rest = []
        · rw [hfirst, hsecond, hrest]
          rfl
        · rw [if_neg (not_not_intro hfirst), if_neg (not_not_intro hsecond), if_neg hrest] at h
          unfold Token.ofLong at h
          split at h <;> simp at h
      · simp [hfirst, hsecond] at h
    · simp [hfirst] at h
  · simp at h

theorem exists_settle_of_settled {s s' : State} {go : Level → Except Answer State}
    (h : s.settled go = .ok s') : ∃ level, s.level.settle = .ok level ∧ go level = .ok s' := by
  unfold State.settled at h
  cases hsettle : s.level.settle with
  | error e => simp [hsettle] at h
  | ok level =>
      rw [hsettle] at h
      exact ⟨level, rfl, h⟩

theorem mode_of_takeFlag {s s' : State} {arg : Bytes} {value : Option Bytes} {flag : Option Flag}
    (h : s.takeFlag arg value flag = .ok s') :
    s'.mode = s.mode ∨ ∃ setting, s'.mode = .value setting := by
  unfold State.takeFlag at h
  split at h
  · simp at h
  · rename_i setting
    obtain ⟨level, -, hgo⟩ := exists_settle_of_settled h
    cases value with
    | none =>
        right
        rw [← Except.ok.inj hgo]
        exact ⟨setting, rfl⟩
    | some value =>
        simp only at hgo
        split at hgo
        · simp at hgo
        · left
          rw [← Except.ok.inj hgo, withLevel_mode]
  · split at h
    · simp at h
    · obtain ⟨level, -, hgo⟩ := exists_settle_of_settled h
      simp at hgo

theorem mode_of_takeWord {s s' : State} {word : Bytes} (h : s.takeWord word = .ok s') :
    s'.mode = s.mode := by
  unfold State.takeWord at h
  split at h
  · split at h
    · rw [← Except.ok.inj h]
    · simp at h
  · split at h
    · simp at h
    · rw [← Except.ok.inj h]
  · simp at h

theorem mode_of_takeTopic {s s' : State} {topic : Option Command} {word : Bytes}
    (h : s.takeTopic topic word = .ok s') : s'.mode = s.mode := by
  unfold State.takeTopic at h
  split at h
  · rw [← Except.ok.inj h]
  · simp at h

/-- Plain words are read behind the mark only. -/
theorem mode_ne_words_of_step {s s' : State} {arg : Bytes} (hmode : s.mode ≠ .words)
    (harg : arg ≠ Utf8.ofString "--") (h : s.step arg = .ok s') : s'.mode ≠ .words := by
  unfold State.step at h
  split at h
  · rw [mode_of_takeTopic h]
    exact hmode
  · unfold State.takeArgument at h
    split at h
    · rename_i hescape
      exact absurd (eq_dashes_of_escape hescape) harg
    · rcases mode_of_takeFlag h with hsame | ⟨setting, hvalue⟩
      · exact hsame ▸ hmode
      · rw [hvalue]
        exact Mode.noConfusion
    · rcases mode_of_takeFlag h with hsame | ⟨setting, hvalue⟩
      · exact hsame ▸ hmode
      · rw [hvalue]
        exact Mode.noConfusion
    · rw [mode_of_takeWord h]
      exact hmode
  · unfold State.takeValue at h
    split at h
    · rw [← Except.ok.inj h]
      exact Mode.noConfusion
    · simp at h
  · rename_i hwords _
    exact absurd hwords hmode

theorem mode_ne_words_of_foldlM {s s' : State} {args : List Bytes} (hmode : s.mode ≠ .words)
    (hargs : Utf8.ofString "--" ∉ args) (h : args.foldlM State.step s = .ok s') :
    s'.mode ≠ .words := by
  induction args generalizing s with
  | nil =>
      rw [← Except.ok.inj h]
      exact hmode
  | cons arg args ih =>
      rw [List.mem_cons, not_or] at hargs
      rw [List.foldlM_cons] at h
      cases hstep : s.step arg with
      | error answer =>
          rw [hstep] at h
          cases h
      | ok next =>
          rw [hstep] at h
          exact ih (mode_ne_words_of_step hmode (Ne.symm hargs.1) hstep) hargs.2 h

end CommandLine

end OpcodeCatalog
