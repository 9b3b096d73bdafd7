import OpcodeCatalog.Proofs.CommandLine.LogFilter
import OpcodeCatalog.Proofs.CommandLine.Outcome
import OpcodeCatalog.Proofs.CommandLine.Places

/-!
# Settings before and behind the command

A format may be given before the command, behind it, and in the environment.  The environment stands
in wherever the format is missing, before the command or behind it, and only then it is looked at.
Where nothing is wrong with the settings, all that is left of them is one format: the same run comes
about with that format alone in front.

Main definitions:

* `CommandLine.Arrangement` — a command line of settings, a command, and settings;
* `CommandLine.Arrangement.Refused` — what can be wrong with its settings;
* `CommandLine.Arrangement.format` — the format that counts.

Main results:

* `CommandLine.Arrangement.foldlM_args` — the settings are given at both places, each for itself;
* `CommandLine.Arrangement.parse_of_refused`, `CommandLine.Arrangement.parse_of_accepted` — the
  request of such a command line;
* `CommandLine.Arrangement.run_of_settings` — **the settings count as one format, or the command
  line is refused**.
-/

set_option autoImplicit false

namespace OpcodeCatalog

namespace CommandLine

/-! ### Command lines -/

/-- A command line of settings, perhaps a command, and then settings behind it.  The path of a
definition file is one that is no option. -/
structure Arrangement where
  before : List Attached
  command : Option Machine
  behind : List Attached
  behind_eq_nil : command = none → behind = []
  path_ne : ∀ path, command = some (.yarv path) → path ≠ [] ∧ path.head? ≠ some dash

/-- The arguments of a command. -/
def commandWords : Option Machine → List Bytes
  | none => []
  | some .python => [Utf8.ofString "python"]
  | some (.yarv path) => [Utf8.ofString "yarv", path]

namespace Arrangement

/-- The arguments of the command line. -/
def args (line : Arrangement) : List Bytes :=
  line.before.map Attached.argument ++ commandWords line.command ++
    line.behind.map Attached.argument

/-- There is a place where the format is not given: before the command, or behind it if there is
one. -/
def LacksFormat (line : Arrangement) : Prop :=
  givenFormat line.before = none ∨ line.command ≠ none ∧ givenFormat line.behind = none

/-- What can be wrong with the settings of a command line. -/
inductive Refused (line : Arrangement) (fallback : Option Bytes) : Prop
  /-- A setting is given twice at one place. -/
  | repeated {settings : List Attached} : settings = line.before ∨ settings = line.behind →
      ¬ (settings.map Attached.setting).Nodup → Refused line fallback
  /-- A format is given that does not exist. -/
  | unknown {a : Attached} : a ∈ line.before ++ line.behind → a.setting = .format →
      formatNamed? (Utf8.encode a.value) = none → Refused line fallback
  /-- The environment has to stand in for a format, and what it has does not exist. -/
  | environment {word : Bytes} : word ∈ fallback → formatNamed? word = none →
      line.LacksFormat → Refused line fallback

/-- The format that counts: what is given behind the command comes first, then what is given before
it, then the environment. -/
def format (line : Arrangement) (fallback : Option Bytes) : Format :=
  ((givenFormat line.behind).or ((givenFormat line.before).or (fallback.bind formatNamed?))).getD
    .text

/-- The machine whose opcodes are listed. -/
def machine (line : Arrangement) : Machine := line.command.getD .python

end Arrangement

/-! ### Reading the command -/

/-- The place behind the arguments of a command. -/
def placeBehind : Option Machine → Place
  | none => .program
  | some .python => .python
  | some (.yarv path) => .yarv (some path)

/-- A word that does not begin with a dash is plain. -/
theorem ofArgument_of_head?_ne {word : Bytes} (h : word.head? ≠ some dash) :
    Token.ofArgument word = .plain word := by
  unfold Token.ofArgument
  split
  · rename_i first second rest
    have hfirst : first ≠ dash := fun hdash => h (congrArg some hdash)
    rw [if_pos hfirst]
  · rfl

/-- The arguments of a command lead behind it. -/
theorem foldlM_commandWords (line : Arrangement) (outer : Level) :
    (commandWords line.command).foldlM State.step ⟨.program, .anything, outer, .unset⟩ =
      .ok ⟨placeBehind line.command, .anything, outer, .unset⟩ := by
  cases hcommand : line.command with
  | none => rfl
  | some machine =>
      cases machine with
      | python => rfl
      | yarv path =>
          obtain ⟨hnil, hdash⟩ := line.path_ne path hcommand
          have hpath : State.step ⟨.yarv none, .anything, outer, .unset⟩ path =
              .ok ⟨.yarv (some path), .anything, outer, .unset⟩ := by
            have hplain := ofArgument_of_head?_ne hdash
            simp [State.step, State.takeArgument, State.takeWord, hplain, hnil]
          rw [commandWords, List.foldlM_cons]
          exact congrArg (· >>= pure) hpath

/-- **The settings are given at both places, each for itself.** -/
theorem Arrangement.foldlM_args (line : Arrangement) : line.args.foldlM State.step State.start =
    match line.before.foldlM Level.give .unset with
    | .error e => .error (.error e)
    | .ok outer =>
      match line.behind.foldlM Level.give .unset with
      | .error e => .error (.error e)
      | .ok inner => .ok ⟨placeBehind line.command, .anything, outer, inner⟩ := by
  have hstart : State.start.Ready := ⟨fun _ => Place.noConfusion, rfl, rfl⟩
  have hlevel : State.start.level = .unset := rfl
  rw [Arrangement.args, List.foldlM_append, List.foldlM_append, hstart.foldlM_attached, hlevel]
  cases line.before.foldlM Level.give .unset with
  | error e => rfl
  | ok outer =>
      change ((commandWords line.command).foldlM State.step ⟨.program, .anything, outer, .unset⟩ >>=
        (line.behind.map Attached.argument).foldlM State.step) = _
      rw [foldlM_commandWords]
      change (line.behind.map Attached.argument).foldlM State.step _ = _
      cases hcommand : line.command with
      | none =>
          rw [line.behind_eq_nil hcommand]
          rfl
      | some machine =>
          have hready : State.Ready ⟨placeBehind (some machine), .anything, outer, .unset⟩ := by
            cases machine <;> exact ⟨fun _ => Place.noConfusion, rfl, rfl⟩
          rw [hready.foldlM_attached]
          cases machine <;> rfl

/-! ### The request -/

section Choice

variable {fallback : Option Bytes} {beforeCommand : Bool} {outer inner : Level}

/-- The format is given wherever it can be. -/
theorem isSome_given_iff : (outer.format.isSome && (beforeCommand || inner.format.isSome)) = true ↔
    ¬ (outer.format = none ∨ beforeCommand = false ∧ inner.format = none) := by
  cases outer.format <;> cases beforeCommand <;> cases inner.format <;> simp

/-- A format that is given wherever it can be leaves nothing to the environment. -/
theorem chooseFormat_of_given
    (h : ¬ (outer.format = none ∨ beforeCommand = false ∧ inner.format = none)) :
    chooseFormat fallback beforeCommand outer inner =
      .ok ((inner.format.or outer.format).getD .text) := by
  unfold chooseFormat
  rw [isSome_given_iff.2 h]
  cases inner.format <;> rfl

/-- If the format is missing somewhere, the environment has to name one. -/
theorem chooseFormat_of_lacks {word : Bytes}
    (h : outer.format = none ∨ beforeCommand = false ∧ inner.format = none) :
    chooseFormat (some word) beforeCommand outer inner =
      match formatNamed? word with
      | none => .error (.invalidValue .format word)
      | some format => .ok (((inner.format.or outer.format).or (some format)).getD .text) := by
  have hgiven := Bool.eq_false_iff.2 fun hgiven => isSome_given_iff.1 hgiven h
  unfold chooseFormat
  rw [hgiven]
  simp only [Bool.false_eq_true, if_false, set_format, Level.unset, Option.isSome_none]
  cases formatNamed? word with
  | none => rfl
  | some format => cases inner.format <;> cases outer.format <;> rfl

/-- The format of a listing, if the environment names one or is not looked at. -/
theorem chooseFormat_ok (h : ∀ word ∈ fallback, formatNamed? word = none →
      ¬ (outer.format = none ∨ beforeCommand = false ∧ inner.format = none)) :
    chooseFormat fallback beforeCommand outer inner =
      .ok ((inner.format.or (outer.format.or (fallback.bind formatNamed?))).getD .text) := by
  by_cases hlacks : outer.format = none ∨ beforeCommand = false ∧ inner.format = none
  · cases fallback with
    | none =>
        unfold chooseFormat
        cases inner.format <;> cases outer.format <;> simp
    | some word =>
        have hword : formatNamed? word ≠ none := fun hnone => h word rfl hnone hlacks
        obtain ⟨format, hformat⟩ := Option.ne_none_iff_exists'.1 hword
        simp only [chooseFormat_of_lacks hlacks, Option.bind_some, hformat, Option.or_assoc]
  · obtain ⟨format, hformat⟩ := Option.ne_none_iff_exists'.1 (not_or.1 hlacks).1
    rw [chooseFormat_of_given hlacks, hformat, Option.some_or]

end Choice

namespace Arrangement

variable {line : Arrangement} {fallback : Option Bytes}

/-- All arguments were read, and no value waits. -/
theorem finish_eq (line : Arrangement) (fallback : Option Bytes) {outer inner : Level}
    (houter : outer.waiting = none) (hinner : inner.waiting = none) :
    finish fallback ⟨placeBehind line.command, .anything, outer, inner⟩ =
      match chooseFormat fallback line.command.isNone outer inner with
      | .error e => .error e
      | .ok format =>
        .ok (.list ⟨line.machine, format, inner.logFilter.orElse fun _ => outer.logFilter⟩) := by
  have hlevels : State.levels ⟨placeBehind line.command, .anything, outer, inner⟩ =
      .ok (outer, inner) := by
    simp [State.levels, Level.settle, houter, hinner]
  have hbefore : State.beforeCommand ⟨placeBehind line.command, .anything, outer, inner⟩ =
      line.command.isNone := by
    rcases line.command with _ | (_ | path) <;> rfl
  have hmachine : State.machine ⟨placeBehind line.command, .anything, outer, inner⟩ =
      .ok line.machine := by
    unfold machine
    rcases line.command with _ | (_ | path) <;> rfl
  have hplace : ∀ topic, placeBehind line.command ≠ .help topic := by
    intro topic
    rcases line.command with _ | (_ | path) <;> exact Place.noConfusion
  unfold finish
  rw [hlevels, hbefore, hmachine]
  split
  · rename_i topic htopic
    exact absurd htopic (hplace topic)
  · dsimp only
    cases chooseFormat fallback line.command.isNone outer inner <;> rfl

/-- If both places admit their settings, it can only be the environment that is refused. -/
theorem exists_word_of_refused (h : line.Refused fallback)
    (hbefore : Level.unset.Admits line.before) (hbehind : Level.unset.Admits line.behind) :
    ∃ word ∈ fallback, formatNamed? word = none ∧ line.LacksFormat := by
  cases h with
  | repeated hsettings htwice =>
      rcases hsettings with rfl | rfl
      · exact absurd hbefore.nodup htwice
      · exact absurd hbehind.nodup htwice
  | @unknown a hmem hsetting hnone =>
      have hknown : a.Known := by
        rcases List.mem_append.1 hmem with ha | ha
        · exact hbefore.known a ha
        · exact hbehind.known a ha
      have hformat : a.format? = none := by
        rw [Attached.format?, hsetting]
        exact hnone
      exact absurd hformat (hknown hsetting)
  | environment hword hnone hlacks => exact ⟨_, hword, hnone, hlacks⟩

/-- Nothing is wrong with the settings if both places admit theirs, and the environment names a
format wherever one is missing. -/
theorem not_refused_iff : ¬ line.Refused fallback ↔
    Level.unset.Admits line.before ∧ Level.unset.Admits line.behind ∧
      ∀ word ∈ fallback, formatNamed? word = none → ¬ line.LacksFormat := by
  constructor
  · intro h
    have hadmits : ∀ settings, settings = line.before ∨ settings = line.behind →
        Level.unset.Admits settings := by
      intro settings hsettings
      refine unset_admits_iff.2 ⟨?_, ?_⟩
      · exact Decidable.byContradiction fun htwice => h (.repeated hsettings htwice)
      · intro a ha hsetting hformat
        have hmem : a ∈ line.before ++ line.behind := by
          rcases hsettings with rfl | rfl
          · exact List.mem_append_left _ ha
          · exact List.mem_append_right _ ha
        rw [Attached.format?, hsetting] at hformat
        exact h (.unknown hmem hsetting hformat)
    refine ⟨hadmits _ (Or.inl rfl), hadmits _ (Or.inr rfl), ?_⟩
    intro word hword hnone hlacks
    exact h (.environment hword hnone hlacks)
  · rintro ⟨hbefore, hbehind, henvironment⟩ hrefused
    obtain ⟨word, hword, hnone, hlacks⟩ := exists_word_of_refused hrefused hbefore hbehind
    exact henvironment word hword hnone hlacks

/-- The format is missing somewhere in the settings exactly if it is missing in what was read. -/
theorem lacksFormat_iff (line : Arrangement) {outer inner : Level}
    (houter : Level.unset.Gains line.before outer) (hinner : Level.unset.Gains line.behind inner) :
    line.LacksFormat ↔
      outer.format = none ∨ line.command.isNone = false ∧ inner.format = none := by
  rw [houter.format_eq, hinner.format_eq, LacksFormat]
  cases line.command <;> simp [Level.unset]

/-- If something is wrong with the settings, the command line asks for nothing. -/
theorem parse_of_refused (h : line.Refused fallback) :
    ∃ e, parse fallback line.args = .error e := by
  rw [parse_eq_ended, foldlM_args]
  cases hbefore : line.before.foldlM Level.give .unset with
  | error e => exact ⟨e, rfl⟩
  | ok outer =>
      cases hbehind : line.behind.foldlM Level.give .unset with
      | error e => exact ⟨e, rfl⟩
      | ok inner =>
          have houter := gains_of_foldlM hbefore
          have hinner := gains_of_foldlM hbehind
          obtain ⟨word, hword, hnone, hlacks⟩ := exists_word_of_refused h
            (exists_foldlM_give_iff.1 ⟨outer, hbefore⟩) (exists_foldlM_give_iff.1 ⟨inner, hbehind⟩)
          rw [line.lacksFormat_iff houter hinner] at hlacks
          rw [Option.mem_def] at hword
          refine ⟨.invalidValue .format word, ?_⟩
          simp only [ended]
          rw [finish_eq line _ houter.waiting_eq hinner.waiting_eq, hword,
            chooseFormat_of_lacks hlacks, hnone]

/-- If nothing is wrong with them, it asks for a listing in the format that counts. -/
theorem parse_of_accepted (h : ¬ line.Refused fallback) :
    ∃ filter,
      parse fallback line.args = .ok (.list ⟨line.machine, line.format fallback, filter⟩) := by
  obtain ⟨hbefore, hbehind, henvironment⟩ := not_refused_iff.1 h
  obtain ⟨outer, hgive⟩ := exists_foldlM_give_iff.2 hbefore
  obtain ⟨inner, hgive'⟩ := exists_foldlM_give_iff.2 hbehind
  have houter := gains_of_foldlM hgive
  have hinner := gains_of_foldlM hgive'
  have hchosen : chooseFormat fallback line.command.isNone outer inner =
      .ok (line.format fallback) := by
    have hnone : ∀ word ∈ fallback, formatNamed? word = none →
        ¬ (outer.format = none ∨ line.command.isNone = false ∧ inner.format = none) := by
      intro word hword hnone
      rw [← line.lacksFormat_iff houter hinner]
      exact henvironment word hword hnone
    rw [chooseFormat_ok hnone, houter.format_eq, hinner.format_eq]
    rfl
  refine ⟨inner.logFilter.orElse fun _ => outer.logFilter, ?_⟩
  rw [parse_eq_ended, foldlM_args, hgive, hgive']
  simp only [ended]
  rw [finish_eq line _ houter.waiting_eq hinner.waiting_eq, hchosen]

instance (line : Arrangement) : Decidable line.LacksFormat :=
  inferInstanceAs (Decidable (_ ∨ _ ∧ _))

instance (line : Arrangement) (fallback : Option Bytes) : Decidable (line.Refused fallback) :=
  decidable_of_iff
    (¬ (Level.unset.Admits line.before ∧ Level.unset.Admits line.behind ∧
      ∀ word ∈ fallback, formatNamed? word = none → ¬ line.LacksFormat))
    ⟨fun h => Classical.byContradiction fun haccepted => h (not_refused_iff.1 haccepted),
      fun h hadmits => not_refused_iff.2 hadmits h⟩

/-! ### The outcome -/

/-- A command line with something wrong in its settings is a usage error. -/
theorem run_of_refused (h : line.Refused fallback) (fs : FileSystem) (stdout : Stdout) :
    run fs fallback stdout line.args = ⟨2, [], none⟩ := by
  obtain ⟨e, hparse⟩ := parse_of_refused h
  rw [run, hparse, answer]

/-- Any other one makes the listing of its machine, in the format that counts. -/
theorem run_of_accepted (h : ¬ line.Refused fallback) (fs : FileSystem) (stdout : Stdout) :
    run fs fallback stdout line.args = Job.perform (readIn fs) stdout.sink
      ⟨line.machine, line.format fallback, none⟩ := by
  obtain ⟨filter, hparse⟩ := parse_of_accepted h
  rw [run, hparse]
  exact answer_eq_of_agree (.ok (.list rfl rfl)) _ _

/-- The exit code tells whether something is wrong with the settings. -/
theorem exitCode_eq_two_iff (line : Arrangement) (fs : FileSystem) (fallback : Option Bytes)
    (stdout : Stdout) :
    (run fs fallback stdout line.args).exitCode = 2 ↔ line.Refused fallback := by
  rw [(ends_run fs fallback stdout line.args).exitCode_eq_two_iff]
  constructor
  · rintro ⟨e, hparse⟩
    refine Classical.byContradiction fun haccepted => ?_
    obtain ⟨filter, hlist⟩ := parse_of_accepted haccepted
    rw [hlist] at hparse
    cases hparse
  · exact parse_of_refused

/-- The same command with a format alone in front of it. -/
def withFormat (line : Arrangement) (format : Format) : Arrangement :=
  ⟨[⟨.format, format.word⟩], line.command, [], fun _ => rfl, line.path_ne⟩

theorem args_withFormat (line : Arrangement) (format : Format) : (line.withFormat format).args =
    Attached.argument ⟨.format, format.word⟩ :: commandWords line.command := by
  simp [args, withFormat]

theorem givenFormat_word (format : Format) :
    givenFormat [⟨.format, format.word⟩] = some format := by
  cases format <;> decide

theorem format_withFormat (line : Arrangement) (format : Format) :
    (line.withFormat format).format none = format := by
  rw [Arrangement.format, withFormat, givenFormat_word]
  rfl

theorem not_refused_withFormat (line : Arrangement) (format : Format) :
    ¬ (line.withFormat format).Refused none := by
  refine not_refused_iff.2 ⟨?_, ?_, ?_⟩
  · change Level.unset.Admits [⟨.format, format.word⟩]
    cases format <;> decide
  · change Level.unset.Admits []
    decide
  · simp

/-- The same settings in front of the command for CPython. -/
def withPython (line : Arrangement) : Arrangement :=
  ⟨line.before, some .python, [], fun _ => rfl, by simp⟩

theorem args_withPython (h : line.command = none) :
    line.withPython.args = line.args ++ [Utf8.ofString "python"] := by
  simp [args, withPython, h, line.behind_eq_nil h, commandWords]

/-- Behind the command the format is missing, so there the environment is looked at. -/
theorem refused_withPython_iff (fallback : Option Bytes) (h : line.command = none) :
    line.withPython.Refused fallback ↔
      line.Refused fallback ∨ ∃ word ∈ fallback, formatNamed? word = none := by
  have hbehind := line.behind_eq_nil h
  constructor
  · intro hrefused
    cases hrefused with
    | repeated hsettings htwice =>
        rcases hsettings with rfl | rfl
        · exact Or.inl (.repeated (Or.inl rfl) htwice)
        · exact absurd List.nodup_nil htwice
    | unknown hmem hsetting hnone =>
        refine Or.inl (.unknown ?_ hsetting hnone)
        rw [hbehind]
        exact hmem
    | environment hword hnone => exact Or.inr ⟨_, hword, hnone⟩
  · rintro (hrefused | ⟨word, hword, hnone⟩)
    · cases hrefused with
      | repeated hsettings htwice =>
          rcases hsettings with rfl | rfl
          · exact .repeated (Or.inl rfl) htwice
          · rw [hbehind] at htwice
            exact absurd List.nodup_nil htwice
      | unknown hmem hsetting hnone =>
          rw [hbehind] at hmem
          exact .unknown hmem hsetting hnone
      | environment hword hnone =>
          exact .environment hword hnone (Or.inr ⟨by simp [withPython], rfl⟩)
    · exact .environment hword hnone (Or.inr ⟨by simp [withPython], rfl⟩)

/-- Whether the command for CPython, which is the one without a command too, changes the outcome. -/
theorem run_eq_run_withPython_iff (h : line.command = none) (fs : FileSystem) (stdout : Stdout) :
    run fs fallback stdout line.args = run fs fallback stdout line.withPython.args ↔
      line.Refused fallback ∨ ∀ word ∈ fallback, formatNamed? word ≠ none := by
  have hpython := refused_withPython_iff fallback h
  by_cases hrefused : line.Refused fallback
  · rw [run_of_refused hrefused, run_of_refused (hpython.2 (Or.inl hrefused))]
    exact ⟨fun _ => Or.inl hrefused, fun _ => rfl⟩
  · by_cases hunknown : ∃ word ∈ fallback, formatNamed? word = none
    · constructor
      · intro hsame
        have hcode := (exitCode_eq_two_iff _ fs fallback stdout).2 (hpython.2 (Or.inr hunknown))
        rw [← hsame, exitCode_eq_two_iff] at hcode
        exact Or.inl hcode
      · rintro (hleft | hall)
        · exact absurd hleft hrefused
        · obtain ⟨word, hword, hnone⟩ := hunknown
          exact absurd hnone (hall word hword)
    · have haccepted : ¬ line.withPython.Refused fallback := by
        rw [hpython, not_or]
        exact ⟨hrefused, hunknown⟩
      have hmachine : line.withPython.machine = line.machine := by
        rw [machine, machine, h]
        rfl
      have hformat : line.withPython.format fallback = line.format fallback := by
        rw [Arrangement.format, Arrangement.format, line.behind_eq_nil h]
        rfl
      rw [run_of_accepted hrefused, run_of_accepted haccepted, hmachine, hformat]
      refine ⟨fun _ => Or.inr ?_, fun _ => rfl⟩
      intro word hword hnone
      exact hunknown ⟨word, hword, hnone⟩

/-- **The settings count as one format, or the command line is refused.**  Without a command, the
one for CPython may stand behind the settings, unless it is only then that the environment is
looked at. -/
theorem run_of_settings (fs : FileSystem) (fallback : Option Bytes) (stdout : Stdout)
    (line : Arrangement) :
    ((run fs fallback stdout line.args).exitCode = 2 ∧
      (run fs fallback stdout line.args).stdout = [] ↔ line.Refused fallback) ∧
    (¬ line.Refused fallback → run fs fallback stdout line.args = run fs none stdout
      (Attached.argument ⟨.format, (line.format fallback).word⟩ :: commandWords line.command)) ∧
    (line.command = none →
      (run fs fallback stdout line.args =
        run fs fallback stdout (line.args ++ [Utf8.ofString "python"]) ↔
          line.Refused fallback ∨ ∀ word ∈ fallback, formatNamed? word ≠ none)) := by
  refine ⟨?_, ?_, ?_⟩
  · constructor
    · rintro ⟨hcode, -⟩
      exact (line.exitCode_eq_two_iff fs fallback stdout).1 hcode
    · intro h
      rw [run_of_refused h]
      exact ⟨rfl, rfl⟩
  · intro h
    rw [← args_withFormat, run_of_accepted h, run_of_accepted (not_refused_withFormat _ _),
      format_withFormat]
    rfl
  · intro h
    rw [← args_withPython h]
    exact run_eq_run_withPython_iff h fs stdout

/-- Both formats are given, so the environment is not looked at.  Without a command, the one for
CPython makes no difference if the environment is silent. -/
theorem run_of_settings_yarv :
    run .empty (some (Utf8.ofString "xml")) .ordinary
        (["--format=json", "--log-level=x", "yarv", "i.def", "--format=text"].map Utf8.ofString) =
      run .empty none .ordinary (["--format=text", "yarv", "i.def"].map Utf8.ofString) ∧
    run .empty none .full (["--format=json"].map Utf8.ofString) =
      run .empty none .full (["--format=json", "python"].map Utf8.ofString) := by
  constructor
  · exact (run_of_settings .empty (some (Utf8.ofString "xml")) .ordinary
      ⟨[⟨.format, "json".toList⟩, ⟨.logLevel, "x".toList⟩], some (.yarv (Utf8.ofString "i.def")),
        [⟨.format, "text".toList⟩], by simp, by rintro path ⟨⟩; decide⟩).2.1 (by decide)
  · exact ((run_of_settings .empty none .full
      ⟨[⟨.format, "json".toList⟩], none, [], by simp, by simp⟩).2.2 rfl).2 (Or.inr (by simp))

/-- What the environment has need not be a format: with the format given, a command line without a
command is read all the same, though it is refused as soon as it names the command for CPython. -/
theorem environment_disregarded :
    ¬ ((run .empty (some (Utf8.ofString "xml")) .ordinary
            [Attached.argument ⟨.format, "json".toList⟩]).exitCode = 2 ∧
          (run .empty (some (Utf8.ofString "xml")) .ordinary
            [Attached.argument ⟨.format, "json".toList⟩]).stdout = [] ↔
        ¬ [Setting.format].Nodup ∨ formatNamed? (Utf8.ofString "json") = none ∨
          formatNamed? (Utf8.ofString "xml") = none) ∧
      run .empty (some (Utf8.ofString "xml")) .ordinary
          [Attached.argument ⟨.format, "json".toList⟩] ≠
        run .empty (some (Utf8.ofString "xml")) .ordinary
          [Attached.argument ⟨.format, "json".toList⟩, Utf8.ofString "python"] := by
  have hread := exitCode_eq_two_iff ⟨[⟨.format, "json".toList⟩], none, [], by simp, by simp⟩
    .empty (some (Utf8.ofString "xml")) .ordinary
  have hrefused := exitCode_eq_two_iff ⟨[⟨.format, "json".toList⟩], some .python, [], by simp,
    by simp⟩ .empty (some (Utf8.ofString "xml")) .ordinary
  have hne := mt hread.1 (by decide)
  constructor
  · intro h
    exact hne (h.2 (Or.inr (Or.inr (by decide)))).1
  · intro hsame
    have hcode := hrefused.2 (by decide)
    refine hne ?_
    rw [← hcode]
    exact congrArg Outcome.exitCode hsame

end Arrangement

end CommandLine

end OpcodeCatalog
