import OpcodeCatalog.Proofs.CommandLine.Arguments
import OpcodeCatalog.Proofs.CommandLine.Observed

/-!
# The log filter and the outcome

The value of the log filter has no influence on how a run ends, whatever else stands on the command
line.  Two runs with different values are compared state by state: the states differ in the value of
the filter at most, at the place where it was given, and no decision of the reader depends on more
than whether there is one.  The messages on what is wrong with a command line may differ, but not
whether there is something wrong.  A listing is made after that with a subscriber that has the
filter, and whatever the subscriber does, the outcome is that of a run without one.

Main definitions:

* `CommandLine.Alike` — two results that are both good or both bad, and agree as such;
* `CommandLine.Level.Agrees`, `CommandLine.State.Agrees`, `CommandLine.Request.Agrees` — agreement
  up to the value of the log filter.

Main results:

* `CommandLine.State.Agrees.step`, `CommandLine.State.Agrees.foldlM` — **reading keeps agreement**;
* `CommandLine.answer_eq_of_agree` — answers that agree have the same outcome;
* `CommandLine.run_eq_of_logFilter` — **the log filter does not change the outcome**.
-/

set_option autoImplicit false

namespace OpcodeCatalog

namespace CommandLine

/-! ### Agreement -/

/-- Two results that are both good, and then related by `R`, or both bad, and then related by
`E`. -/
inductive Alike {ε α : Type} (E : ε → ε → Prop) (R : α → α → Prop) :
    Except ε α → Except ε α → Prop
  | error {e e' : ε} : E e e' → Alike E R (.error e) (.error e')
  | ok {a a' : α} : R a a' → Alike E R (.ok a) (.ok a')

/-- What is done to good results that are related keeps results alike. -/
theorem Alike.bind {ε α β : Type} {E : ε → ε → Prop} {R : α → α → Prop} {S : β → β → Prop}
    {x x' : Except ε α} (h : Alike E R x x') {f f' : α → Except ε β}
    (hf : ∀ a a', R a a' → Alike E S (f a) (f' a')) : Alike E S (x >>= f) (x' >>= f') := by
  cases h with
  | error he => exact .error he
  | ok hr => exact hf _ _ hr

/-- Two usage errors: which ones they are makes no difference to the outcome. -/
abbrev UsageError.Agrees (_ _ : UsageError) : Prop := True

/-- The same settings at one place, but for the value of the log filter. -/
structure Level.Agrees (level level' : Level) : Prop where
  format_eq : level.format = level'.format
  isSome_logFilter_eq : level.logFilter.isSome = level'.logFilter.isSome
  waiting_eq : level.waiting = level'.waiting

/-- The same reading, but for the values of log filters. -/
structure State.Agrees (s s' : State) : Prop where
  place_eq : s.place = s'.place
  mode_eq : s.mode = s'.mode
  outer : s.outer.Agrees s'.outer
  inner : s.inner.Agrees s'.inner

/-- The same request, but for the log filter. -/
inductive Request.Agrees : Request → Request → Prop
  | version : Agrees .version .version
  | help (topic : Option Command) : Agrees (.help topic) (.help topic)
  | list {job job' : Job} : job.machine = job'.machine → job.format = job'.format →
      Agrees (.list job) (.list job')

/-- The same answer, but for log filters and for what is wrong with a command line. -/
abbrev AnswersAgree : Answer → Answer → Prop := Alike UsageError.Agrees Request.Agrees

/-- The same state of the reading, or the same end. -/
abbrev ReadingsAgree : Except Answer State → Except Answer State → Prop :=
  Alike AnswersAgree State.Agrees

theorem Level.Agrees.refl (level : Level) : level.Agrees level := ⟨rfl, rfl, rfl⟩

theorem State.Agrees.refl (s : State) : s.Agrees s := ⟨rfl, rfl, .refl _, .refl _⟩

theorem AnswersAgree.refl (a : Answer) : AnswersAgree a a := by
  cases a with
  | error e => exact .error trivial
  | ok request =>
      refine .ok ?_
      cases request with
      | version => exact .version
      | help topic => exact .help topic
      | list job => exact .list rfl rfl

/-- A usage error ends both readings. -/
theorem readingsAgree_error (e e' : UsageError) :
    ReadingsAgree (.error (.error e)) (.error (.error e')) := .error (.error trivial)

/-- Whatever the reader does with settings, a usage error in them ends it. -/
theorem readingsAgree_of_levels {result result' : Except UsageError Level}
    {go go' : Level → Except Answer State} :
    Alike UsageError.Agrees Level.Agrees result result' →
      (∀ level level', level.Agrees level' → ReadingsAgree (go level) (go' level')) →
      ReadingsAgree
        (match result with | .error e => .error (.error e) | .ok level => go level)
        (match result' with | .error e => .error (.error e) | .ok level => go' level) := by
  intro h hgo
  cases h with
  | error => exact readingsAgree_error _ _
  | ok hlevel => exact hgo _ _ hlevel

/-! ### Settings at one place -/

section Level

variable {level level' : Level}

theorem Level.Agrees.set (h : level.Agrees level') (setting : Setting) (value : Bytes) :
    Alike UsageError.Agrees Level.Agrees (level.set setting value) (level'.set setting value) := by
  cases setting with
  | format =>
      simp only [Level.set, h.format_eq]
      split
      · exact .error trivial
      · split
        · exact .ok ⟨rfl, h.isSome_logFilter_eq, h.waiting_eq⟩
        · exact .error trivial
  | logLevel =>
      simp only [Level.set, h.isSome_logFilter_eq]
      split
      · exact .error trivial
      · split
        · exact .ok ⟨h.format_eq, rfl, h.waiting_eq⟩
        · exact .error trivial

/-- Two values of the log filter are given, or refused, alike. -/
theorem Level.Agrees.give_logLevel (h : level.Agrees level') (filter filter' : Text) :
    Alike UsageError.Agrees Level.Agrees (level.give ⟨.logLevel, filter⟩)
      (level'.give ⟨.logLevel, filter'⟩) := by
  simp only [Level.give, Level.set, h.isSome_logFilter_eq, Utf8.decode_encode]
  split
  · exact .error trivial
  · exact .ok ⟨h.format_eq, rfl, h.waiting_eq⟩

theorem Level.Agrees.settle (h : level.Agrees level') :
    Alike UsageError.Agrees Level.Agrees level.settle level'.settle := by
  have hrest : { level with waiting := none }.Agrees { level' with waiting := none } :=
    ⟨h.format_eq, h.isSome_logFilter_eq, rfl⟩
  unfold Level.settle
  rw [h.waiting_eq]
  cases level'.waiting with
  | none => exact .ok h
  | some waiting => exact hrest.set waiting.1 waiting.2

end Level

/-! ### Reading -/

namespace State.Agrees

variable {s s' : State}

theorem beforeCommand_eq (h : s.Agrees s') : s.beforeCommand = s'.beforeCommand := by
  rw [State.beforeCommand, State.beforeCommand, h.place_eq]

theorem level (h : s.Agrees s') : s.level.Agrees s'.level := by
  rw [State.level, State.level, h.beforeCommand_eq]
  split
  · exact h.outer
  · exact h.inner

theorem withLevel (h : s.Agrees s') {level level' : Level} (hlevel : level.Agrees level') :
    (s.withLevel level).Agrees (s'.withLevel level') := by
  rw [State.withLevel, State.withLevel, h.beforeCommand_eq]
  split
  · exact ⟨h.place_eq, h.mode_eq, hlevel, h.inner⟩
  · exact ⟨h.place_eq, h.mode_eq, h.outer, hlevel⟩

theorem withMode (h : s.Agrees s') (mode : Mode) :
    { s with mode := mode }.Agrees { s' with mode := mode } :=
  ⟨h.place_eq, rfl, h.outer, h.inner⟩

theorem settled (h : s.Agrees s') {go go' : Level → Except Answer State}
    (hgo : ∀ level level', level.Agrees level' → ReadingsAgree (go level) (go' level')) :
    ReadingsAgree (s.settled go) (s'.settled go') :=
  readingsAgree_of_levels h.level.settle hgo

theorem takeFlag (h : s.Agrees s') (arg : Bytes) (value : Option Bytes) (flag : Option Flag) :
    ReadingsAgree (s.takeFlag arg value flag) (s'.takeFlag arg value flag) := by
  unfold State.takeFlag
  split
  · exact readingsAgree_error _ _
  · rename_i setting
    refine h.settled ?_
    intro level level' hlevel
    cases value with
    | none => exact .ok ((h.withLevel hlevel).withMode _)
    | some value =>
        refine readingsAgree_of_levels (hlevel.set setting value) ?_
        intro _ _ hnext
        exact .ok (h.withLevel hnext)
  · split
    · exact readingsAgree_error _ _
    · rw [h.place_eq]
      refine h.settled ?_
      intro level level' hlevel
      exact .error (AnswersAgree.refl _)

theorem takeWord (h : s.Agrees s') (word : Bytes) :
    ReadingsAgree (s.takeWord word) (s'.takeWord word) := by
  unfold State.takeWord
  rw [h.place_eq, h.mode_eq]
  split
  · split
    · exact .ok ⟨rfl, rfl, h.outer, h.inner⟩
    · exact readingsAgree_error _ _
  · split
    · exact readingsAgree_error _ _
    · exact .ok ⟨rfl, rfl, h.outer, h.inner⟩
  · exact readingsAgree_error _ _

theorem takeTopic (h : s.Agrees s') (topic : Option Command) (word : Bytes) :
    ReadingsAgree (s.takeTopic topic word) (s'.takeTopic topic word) := by
  unfold State.takeTopic
  split
  · exact .ok ⟨rfl, h.mode_eq, h.outer, h.inner⟩
  · exact readingsAgree_error _ _

theorem takeArgument (h : s.Agrees s') (arg : Bytes) :
    ReadingsAgree (s.takeArgument arg) (s'.takeArgument arg) := by
  unfold State.takeArgument
  rw [h.beforeCommand_eq]
  split
  · exact .ok (h.withMode _)
  · exact h.takeFlag _ _ _
  · exact h.takeFlag _ _ _
  · exact h.takeWord _

theorem takeValue (h : s.Agrees s') (setting : Setting) (arg : Bytes) :
    ReadingsAgree (s.takeValue setting arg) (s'.takeValue setting arg) := by
  unfold State.takeValue
  split
  · rename_i word _
    have hlevel : { s.level with waiting := some (setting, word) }.Agrees
        { s'.level with waiting := some (setting, word) } :=
      ⟨h.level.format_eq, h.level.isSome_logFilter_eq, rfl⟩
    exact .ok ((h.withLevel hlevel).withMode _)
  · exact readingsAgree_error _ _

/-- **An argument keeps agreement.** -/
theorem step (h : s.Agrees s') (arg : Bytes) : ReadingsAgree (s.step arg) (s'.step arg) := by
  unfold State.step
  rw [h.place_eq, h.mode_eq]
  split
  · exact h.takeTopic _ _
  · exact h.takeArgument _
  · exact h.takeValue _ _
  · exact h.takeWord _

/-- **Any arguments keep agreement.** -/
theorem foldlM (h : s.Agrees s') (args : List Bytes) :
    ReadingsAgree (args.foldlM State.step s) (args.foldlM State.step s') := by
  induction args generalizing s s' with
  | nil => exact .ok h
  | cons arg args ih =>
      rw [List.foldlM_cons, List.foldlM_cons]
      exact (h.step arg).bind fun _ _ hnext => ih hnext

end State.Agrees

/-- Two values of the log filter lead to readings that agree, where no plain words are read. -/
theorem State.readingsAgree_logLevel (s : State) (h : s.mode ≠ .words) (filter filter' : Text) :
    ReadingsAgree (s.step (Attached.argument ⟨.logLevel, filter⟩))
      (s.step (Attached.argument ⟨.logLevel, filter'⟩)) := by
  unfold State.step
  split
  · rw [takeTopic_attached, takeTopic_attached]
    exact readingsAgree_error _ _
  · rw [takeArgument_attached, takeArgument_attached]
    refine (State.Agrees.refl s).settled ?_
    intro level level' hlevel
    refine readingsAgree_of_levels (hlevel.give_logLevel filter filter') ?_
    intro _ _ hnext
    exact .ok ((State.Agrees.refl s).withLevel hnext)
  · rw [takeValue_attached, takeValue_attached]
    exact readingsAgree_error _ _
  · rename_i hwords _
    exact absurd hwords h

/-! ### The end of the arguments -/

section Finish

variable {s s' : State}

theorem State.Agrees.levels (h : s.Agrees s') :
    Alike UsageError.Agrees (fun levels levels' => levels.1.Agrees levels'.1 ∧
      levels.2.Agrees levels'.2) s.levels s'.levels := by
  have hinner := h.inner.settle
  have houter := h.outer.settle
  unfold State.levels
  rw [h.mode_eq]
  generalize s.inner.settle = inner at hinner
  generalize s'.inner.settle = inner' at hinner
  generalize s.outer.settle = outer at houter
  generalize s'.outer.settle = outer' at houter
  cases s'.mode with
  | value setting => exact .error trivial
  | anything | words =>
      cases hinner with
      | error => exact .error trivial
      | ok hinner =>
          cases houter with
          | error => exact .error trivial
          | ok houter => exact .ok ⟨houter, hinner⟩

theorem chooseFormat_eq_of_agree (fallback : Option Bytes) (beforeCommand : Bool)
    {outer outer' inner inner' : Level} (houter : outer.Agrees outer')
    (hinner : inner.Agrees inner') :
    chooseFormat fallback beforeCommand outer inner =
      chooseFormat fallback beforeCommand outer' inner' := by
  unfold chooseFormat
  rw [houter.format_eq, hinner.format_eq]

theorem State.Agrees.machine_eq (h : s.Agrees s') : s.machine = s'.machine := by
  unfold State.machine
  rw [h.place_eq]

theorem State.Agrees.finish (h : s.Agrees s') (fallback : Option Bytes) :
    AnswersAgree (finish fallback s) (finish fallback s') := by
  have hlevels := h.levels
  unfold CommandLine.finish
  rw [h.place_eq, h.beforeCommand_eq, h.machine_eq]
  generalize s.levels = levels at hlevels
  generalize s'.levels = levels' at hlevels
  split
  · exact AnswersAgree.refl _
  · cases hlevels with
    | error => exact .error trivial
    | ok hboth =>
        simp only
        rw [chooseFormat_eq_of_agree fallback s'.beforeCommand hboth.1 hboth.2]
        split
        · exact .error trivial
        · exact .error trivial
        · exact .ok (.list rfl rfl)

end Finish

/-! ### The outcome -/

/-- Answers that agree have the same outcome. -/
theorem answer_eq_of_agree {a a' : Answer} (h : AnswersAgree a a')
    (readFile : Bytes → Except Text Bytes) (stdout : Sink) :
    answer readFile stdout a = answer readFile stdout a' := by
  cases h with
  | error => rfl
  | ok hrequest =>
      cases hrequest with
      | version => rfl
      | help topic => rfl
      | @list job job' hmachine hformat =>
          have hlines : job.lines readFile = job'.lines readFile := by
            rw [Job.lines, Job.lines, hmachine]
          rw [answer, answer, Job.perform, Job.perform, hlines, hformat]

/-- The answer to a whole command line, from what came of reading it. -/
def ended (fallback : Option Bytes) : Except Answer State → Answer
  | .error answer => answer
  | .ok s => finish fallback s

theorem parse_eq_ended (fallback : Option Bytes) (args : List Bytes) :
    parse fallback args = ended fallback (args.foldlM State.step State.start) := rfl

/-- Readings that agree lead to answers that agree. -/
theorem answersAgree_ended {result result' : Except Answer State} (h : ReadingsAgree result result')
    (fallback : Option Bytes) : AnswersAgree (ended fallback result) (ended fallback result') := by
  cases h with
  | error hanswer => exact hanswer
  | ok hstate => exact hstate.finish fallback

/-- Two values of the log filter at the same place lead to readings that agree. -/
theorem readingsAgree_foldlM {pre : List Bytes} (h : Utf8.ofString "--" ∉ pre) (post : List Bytes)
    (filter filter' : Text) :
    ReadingsAgree
      ((pre ++ [Attached.argument ⟨.logLevel, filter⟩] ++ post).foldlM State.step State.start)
      ((pre ++ [Attached.argument ⟨.logLevel, filter'⟩] ++ post).foldlM State.step
        State.start) := by
  rw [List.append_assoc, List.append_assoc, List.foldlM_append, List.foldlM_append]
  cases hpre : pre.foldlM State.step State.start with
  | error answer => exact .error (AnswersAgree.refl answer)
  | ok s =>
      -- behind the mark the argument would be a plain word, and might name a definition file
      have hmode : s.mode ≠ .words := mode_ne_words_of_foldlM Mode.noConfusion h hpre
      have hstep := s.readingsAgree_logLevel hmode filter filter'
      simp only [List.singleton_append, List.foldlM_cons]
      exact hstep.bind fun _ _ hnext => hnext.foldlM post

/-- **The log filter does not change the outcome**: not if the command line is read, and neither if
something is wrong with it.  Nor does it do so by way of what a subscriber makes of the filter and of
the events that are reported to it. -/
theorem run_eq_of_logFilter (fs : FileSystem) (fallback : Option Bytes) (stdout : Stdout)
    {pre post : List Bytes} (h : Utf8.ofString "--" ∉ pre) (filter filter' : Text) :
    run fs fallback stdout (pre ++ [Utf8.encode ("--log-level=".toList ++ filter)] ++ post) =
        run fs fallback stdout (pre ++ [Utf8.encode ("--log-level=".toList ++ filter')] ++ post) ∧
      ∀ {σ : Type} (subscriber : Subscriber σ),
        (observeRun subscriber fs fallback stdout
          (pre ++ [Utf8.encode ("--log-level=".toList ++ filter)] ++ post)).outcome =
        (observeRun subscriber fs fallback stdout
          (pre ++ [Utf8.encode ("--log-level=".toList ++ filter')] ++ post)).outcome := by
  have hreading := readingsAgree_foldlM h post filter filter'
  have hrun := answer_eq_of_agree (answersAgree_ended hreading fallback) (readIn fs) stdout.sink
  refine ⟨hrun, ?_⟩
  intro σ subscriber
  rw [outcome_observeRun, outcome_observeRun]
  exact hrun

/-- A filter behind the command and one that is refused in front of the mark. -/
theorem run_eq_of_logFilter_yarv :
    Utf8.ofString "--" ∉ [Utf8.ofString "yarv", Utf8.ofString "--format"] ∧
    run .empty none .full ([Utf8.ofString "yarv", Utf8.ofString "--format"] ++
        [Utf8.encode ("--log-level=".toList ++ "debug".toList)] ++ [Utf8.ofString "--"]) =
      run .empty none .full ([Utf8.ofString "yarv", Utf8.ofString "--format"] ++
        [Utf8.encode ("--log-level=".toList ++ "--help".toList)] ++ [Utf8.ofString "--"]) := by
  have hpre : Utf8.ofString "--" ∉ [Utf8.ofString "yarv", Utf8.ofString "--format"] := by decide
  exact ⟨hpre, (run_eq_of_logFilter .empty none .full hpre "debug".toList "--help".toList).1⟩

/-- The filter and the failure both reach a subscriber, which here keeps all it is told. -/
example : (observeRun ⟨fun filter => [filter], none, fun seen event => seen ++ [event.message]⟩
    .empty none .ordinary (["--log-level=debug", "yarv", "i.def"].map Utf8.ofString)).diagnostics =
      some ["debug".toList, "listing failed".toList] := by rfl

end CommandLine

end OpcodeCatalog
