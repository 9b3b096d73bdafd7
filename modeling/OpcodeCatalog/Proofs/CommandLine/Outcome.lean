import OpcodeCatalog.CommandLine.Outcome
import OpcodeCatalog.Proofs.Listing.Positions
import OpcodeCatalog.Proofs.Text.Utf8

/-!
# How a run can end

A run reads all of its input before it writes the first byte, so it ends in one of a few ways: with
a usage error, with a text about the program, with a failure of the input, or with a listing that is
written as a whole or not at all.  What the exit code, the standard output and the report can be
together follows from that.

Main definitions:

* `CommandLine.InputFails`, `CommandLine.Lists` — the input gives a failure, or lines;
* `CommandLine.Ends` — the ways in which a run can end;
* `CommandLine.Disciplined` — what holds of the end of every run.

Main results:

* `CommandLine.inputFails_or_lists` — the input of every machine gives a failure or lines;
* `CommandLine.ends_run` — **every run ends in one of these ways**;
* `CommandLine.disciplined_run` — **every run is disciplined**.
-/

set_option autoImplicit false

namespace OpcodeCatalog

namespace CommandLine

open Listing (rendering)

/-! ### The input of a run -/

/-- Why the definition file at a path gives no listing: it cannot be read or is refused, or it has
more names than there are codes. -/
inductive InputFails (fs : FileSystem) (path : Bytes) : Failure → Prop
  | file {failure : Failure} :
      Definitions.read path (readIn fs path) = .error failure → InputFails fs path failure
  | table {names : List Text} {failure : Failure} :
      Definitions.read path (readIn fs path) = .ok names →
        OpcodeTable.ofNames names = .error failure → InputFails fs path failure

/-- The lines of the opcodes of a machine. -/
inductive Lists (fs : FileSystem) : Machine → List Listing.Line → Prop
  | python : Lists fs .python (Listing.ofTable .python)
  | yarv {path : Bytes} {names : List Text} {table : OpcodeTable} :
      Definitions.read path (readIn fs path) = .ok names →
        OpcodeTable.ofNames names = .ok table → Lists fs (.yarv path) (Listing.ofTable table)

variable {fs : FileSystem} {job : Job} {failure : Failure} {lines : List Listing.Line}

/-- The input of every machine gives a failure or lines. -/
theorem inputFails_or_lists (fs : FileSystem) (machine : Machine) :
    (∃ path failure, machine = .yarv path ∧ InputFails fs path failure) ∨
      ∃ lines, Lists fs machine lines := by
  cases machine with
  | python => exact Or.inr ⟨_, .python⟩
  | yarv path =>
      cases hread : Definitions.read path (readIn fs path) with
      | error failure => exact Or.inl ⟨path, failure, rfl, .file hread⟩
      | ok names =>
          cases htable : OpcodeTable.ofNames names with
          | error failure => exact Or.inl ⟨path, failure, rfl, .table hread htable⟩
          | ok table => exact Or.inr ⟨_, .yarv hread htable⟩

theorem InputFails.lines_eq {path : Bytes} (h : InputFails fs path failure)
    (hmachine : job.machine = .yarv path) : job.lines (readIn fs) = .error failure := by
  cases h with
  | file hfile => simp [Job.lines, hmachine, hfile]
  | table hnames htable => simp [Job.lines, hmachine, hnames, Listing.ofNames, htable]

theorem Lists.lines_eq (h : Lists fs job.machine lines) : job.lines (readIn fs) = .ok lines := by
  generalize hmachine : job.machine = machine at h
  cases h with
  | python => simp [Job.lines, hmachine]
  | yarv hnames htable => simp [Job.lines, hmachine, hnames, Listing.ofNames, htable]

theorem InputFails.unique {path : Bytes} {failure' : Failure} (h : InputFails fs path failure)
    (h' : InputFails fs path failure') : failure = failure' := by
  have hlines : Job.lines (readIn fs) ⟨.yarv path, .text, none⟩ = .error failure := h.lines_eq rfl
  rw [h'.lines_eq rfl] at hlines
  exact (Except.error.inj hlines).symm

theorem InputFails.not_lists {path : Bytes} (h : InputFails fs path failure)
    (hmachine : job.machine = .yarv path) : ¬ Lists fs job.machine lines := by
  intro hlists
  have hlines := h.lines_eq hmachine
  rw [hlists.lines_eq] at hlines
  simp at hlines

theorem Lists.unique {lines' : List Listing.Line} (h : Lists fs job.machine lines)
    (h' : Lists fs job.machine lines') : lines = lines' := by
  have hlines := h.lines_eq
  rw [h'.lines_eq] at hlines
  exact (Except.ok.inj hlines).symm

/-! ### The bytes of a listing -/

/-- Only the listing without lines as text has no bytes. -/
theorem rendering_eq_nil_iff {format : Format} {lines : List Listing.Line} :
    rendering (format, lines) = [] ↔ format = .text ∧ lines = [] := by
  have hrender : rendering (format, lines) = [] ↔ Listing.render format lines = [] :=
    ⟨fun h => Utf8.encode_injective h, fun h => congrArg Utf8.encode h⟩
  rw [hrender]
  cases format with
  | json => simp [Listing.render, Listing.pieces]
  | text =>
      cases lines with
      | nil => simp
      | cons line rest => simp [Listing.render_text_cons]

/-! ### The ways to end -/

/-- The ways in which a run can end, by the answer to its command line. -/
inductive Ends (fs : FileSystem) (stdout : Stdout) : Answer → Outcome → Prop
  /-- The command line asks for nothing. -/
  | usage (e : UsageError) : Ends fs stdout (.error e) ⟨2, [], none⟩
  /-- A text about the program is given as far as it can be written. -/
  | version : Ends fs stdout (.ok .version)
      ⟨0, Sink.fitting stdout.sink.room (Utf8.encode versionText), none⟩
  | help (topic : Option Command) : Ends fs stdout (.ok (.help topic))
      ⟨0, Sink.fitting stdout.sink.room (Utf8.encode (helpText topic)), none⟩
  /-- The input fails, and nothing is written. -/
  | refused {job : Job} {path : Bytes} {failure : Failure} : job.machine = .yarv path →
      InputFails fs path failure → Ends fs stdout (.ok (.list job)) ⟨1, [], some (report failure)⟩
  /-- The listing is written as a whole. -/
  | listed {job : Job} {lines : List Listing.Line} : Lists fs job.machine lines →
      stdout = .ordinary ∨ rendering (job.format, lines) = [] →
      Ends fs stdout (.ok (.list job)) ⟨0, rendering (job.format, lines), none⟩
  /-- There is no room for the first byte of the listing. -/
  | unwritten {job : Job} {lines : List Listing.Line} : Lists fs job.machine lines →
      stdout = .full → rendering (job.format, lines) ≠ [] →
      Ends fs stdout (.ok (.list job))
        ⟨1, [], some (report (.outputFailed SystemError.noSpaceLeft.text))⟩

/-- A device without room takes nothing, and that is a failure if there is something to take. -/
theorem write_full (format : Format) (lines : List Listing.Line) :
    (Listing.write Stdout.full.sink format lines).taken = [] ∧
      (Listing.write Stdout.full.sink format lines).failure =
        if rendering (format, lines) = [] then none
        else some (.outputFailed SystemError.noSpaceLeft.text) := by
  have hdelivers := Listing.delivers_write Stdout.full.sink format lines
  refine ⟨hdelivers.taken_eq, hdelivers.failure_eq.trans ?_⟩
  by_cases hnil : rendering (format, lines) = []
  · simp [hnil, Stdout.sink, Sink.unlimited]
  · simp [hnil, Stdout.sink, Refusal.reason, List.length_pos_iff]

/-- A job ends in one of these ways. -/
theorem ends_perform (fs : FileSystem) (stdout : Stdout) (job : Job) :
    Ends fs stdout (.ok (.list job)) (job.perform (readIn fs) stdout.sink) := by
  obtain ⟨path, failure, hmachine, hfails⟩ | ⟨lines, hlists⟩ := inputFails_or_lists fs job.machine
  · rw [Job.perform, hfails.lines_eq hmachine]
    exact .refused hmachine hfails
  · rw [Job.perform, hlists.lines_eq]
    cases stdout with
    | ordinary =>
        obtain ⟨htaken, hfailure⟩ := Listing.write_unlimited job.format lines
        simp only [Stdout.sink, htaken, hfailure]
        exact .listed hlists (Or.inl rfl)
    | full =>
        obtain ⟨htaken, hfailure⟩ := write_full job.format lines
        simp only [htaken, hfailure]
        by_cases hnil : rendering (job.format, lines) = []
        · have hlisted : Ends fs .full (.ok (.list job)) ⟨0, rendering (job.format, lines), none⟩ :=
            .listed hlists (Or.inr hnil)
          rw [hnil] at hlisted
          simp only [if_pos hnil]
          exact hlisted
        · simp only [if_neg hnil]
          exact .unwritten hlists rfl hnil

/-- **Every run ends in one of these ways.** -/
theorem ends_run (fs : FileSystem) (fallback : Option Bytes) (stdout : Stdout)
    (args : List Bytes) :
    Ends fs stdout (parse fallback args) (run fs fallback stdout args) := by
  rw [run]
  cases parse fallback args with
  | error e => exact .usage e
  | ok request =>
      cases request with
      | version =>
          rw [answer, (Sink.meets_writeAll stdout.sink _).taken_eq]
          exact .version
      | help topic =>
          rw [answer, (Sink.meets_writeAll stdout.sink _).taken_eq]
          exact .help topic
      | list job => exact ends_perform fs stdout job

/-! ### What follows for every run -/

/-- What holds of the end of a run, by the answer to its command line. -/
structure Disciplined (fs : FileSystem) (stdout : Stdout) (request : Answer) (outcome : Outcome) :
    Prop where
  /-- The exit code is 0, 1 or 2. -/
  exitCode_le : outcome.exitCode ≤ 2
  /-- It is 2 for a command line that asks for nothing. -/
  exitCode_eq_two_iff : outcome.exitCode = 2 ↔ ∃ e, request = .error e
  /-- A failure is reported exactly with the exit code 1. -/
  failure_iff : outcome.failure ≠ none ↔ outcome.exitCode = 1
  /-- Nothing is written unless the exit code is 0. -/
  stdout_eq_nil : outcome.exitCode ≠ 0 → outcome.stdout = []
  /-- A failure of the input is reported, wherever the standard output goes. -/
  of_inputFails : ∀ job path failure, request = .ok (.list job) → job.machine = .yarv path →
    InputFails fs path failure →
      outcome = ⟨1, [], some ("Error: ".toList ++ failure.message ++ ['\n'])⟩
  /-- With an ordinary standard output nothing else is a failure. -/
  ordinary_iff : stdout = .ordinary → (outcome.exitCode = 1 ↔ ∃ job path failure,
    request = .ok (.list job) ∧ job.machine = .yarv path ∧ InputFails fs path failure)
  /-- With an ordinary standard output all other listings are written. -/
  ordinary_lists : stdout = .ordinary → ∀ job lines, request = .ok (.list job) →
    Lists fs job.machine lines → outcome = ⟨0, rendering (job.format, lines), none⟩
  /-- The listing of CPython never fails there. -/
  ordinary_python : stdout = .ordinary → ∀ job, request = .ok (.list job) →
    job.machine = .python →
      outcome = ⟨0, rendering (job.format, Listing.ofTable .python), none⟩
  /-- Without room, every other listing fails to be written that has a byte: all but the listing
  without lines as text. -/
  full_lists : stdout = .full → ∀ job lines, request = .ok (.list job) →
    Lists fs job.machine lines →
      (rendering (job.format, lines) = [] ↔ job.format = .text ∧ lines = []) ∧
      outcome = if rendering (job.format, lines) = [] then ⟨0, [], none⟩
        else ⟨1, [], some ("Error: Unable to write listing: " ++
          "No space left on device (os error 28).\n").toList⟩

section Ends

variable {stdout : Stdout} {request : Answer} {outcome : Outcome}

theorem Ends.exitCode_le (h : Ends fs stdout request outcome) : outcome.exitCode ≤ 2 := by
  cases h <;> simp

theorem Ends.exitCode_eq_two_iff (h : Ends fs stdout request outcome) :
    outcome.exitCode = 2 ↔ ∃ e, request = .error e := by
  cases h <;> simp

theorem Ends.failure_iff (h : Ends fs stdout request outcome) :
    outcome.failure ≠ none ↔ outcome.exitCode = 1 := by
  cases h <;> simp

theorem Ends.stdout_eq_nil (h : Ends fs stdout request outcome) (hcode : outcome.exitCode ≠ 0) :
    outcome.stdout = [] := by
  cases h with
  | usage | refused | unwritten => rfl
  | version | help | listed => exact absurd rfl hcode

/-- A failure of the input decides the end of the run. -/
theorem Ends.eq_of_inputFails {path : Bytes} (h : Ends fs stdout (.ok (.list job)) outcome)
    (hmachine : job.machine = .yarv path) (hfails : InputFails fs path failure) :
    outcome = ⟨1, [], some (report failure)⟩ := by
  cases h with
  | refused hmachine' hfails' =>
      rw [hmachine, Machine.yarv.injEq] at hmachine'
      subst hmachine'
      rw [hfails.unique hfails']
  | listed hlists => exact absurd hlists (hfails.not_lists hmachine)
  | unwritten hlists => exact absurd hlists (hfails.not_lists hmachine)

/-- If the input does not fail, all depends on whether the listing can be written. -/
theorem Ends.eq_of_lists (h : Ends fs stdout (.ok (.list job)) outcome)
    (hlists : Lists fs job.machine lines) :
    outcome = if stdout = .ordinary ∨ rendering (job.format, lines) = [] then
        ⟨0, rendering (job.format, lines), none⟩
      else ⟨1, [], some (report (.outputFailed SystemError.noSpaceLeft.text))⟩ := by
  cases h with
  | refused hmachine hfails => exact absurd hlists (hfails.not_lists hmachine)
  | listed hlists' hwritten =>
      rw [hlists'.unique hlists] at hwritten ⊢
      rw [if_pos hwritten]
  | unwritten hlists' hfull hbytes =>
      rw [hlists'.unique hlists] at hbytes
      rw [if_neg]
      rintro (hordinary | hnil)
      · rw [hfull] at hordinary
        exact absurd hordinary (by decide)
      · exact hbytes hnil

/-- With an ordinary standard output only the input can fail. -/
theorem Ends.exitCode_eq_one_iff (h : Ends fs .ordinary request outcome) :
    outcome.exitCode = 1 ↔ ∃ job path failure,
      request = .ok (.list job) ∧ job.machine = .yarv path ∧ InputFails fs path failure := by
  constructor
  · intro hcode
    cases h with
    | usage | version | help | listed => simp at hcode
    | refused hmachine hfails => exact ⟨_, _, _, rfl, hmachine, hfails⟩
    | unwritten hlists hfull => exact absurd hfull (by decide)
  · rintro ⟨job, path, failure, rfl, hmachine, hfails⟩
    rw [h.eq_of_inputFails hmachine hfails]

end Ends

theorem report_noSpaceLeft : report (.outputFailed SystemError.noSpaceLeft.text) =
    ("Error: Unable to write listing: " ++ "No space left on device (os error 28).\n").toList := by
  decide +kernel

/-- **Every run is disciplined.** -/
theorem disciplined_run (fs : FileSystem) (fallback : Option Bytes) (stdout : Stdout)
    (args : List Bytes) :
    Disciplined fs stdout (parse fallback args) (run fs fallback stdout args) := by
  have hends := ends_run fs fallback stdout args
  generalize parse fallback args = request at hends
  generalize run fs fallback stdout args = outcome at hends
  refine ⟨hends.exitCode_le, hends.exitCode_eq_two_iff, hends.failure_iff, hends.stdout_eq_nil,
    ?_, ?_, ?_, ?_, ?_⟩
  · rintro job path failure rfl hmachine hfails
    exact hends.eq_of_inputFails hmachine hfails
  · rintro rfl
    exact hends.exitCode_eq_one_iff
  · rintro rfl job lines rfl hlists
    rw [hends.eq_of_lists hlists, if_pos (Or.inl rfl)]
  · rintro rfl job rfl hmachine
    have hlists : Lists fs job.machine (Listing.ofTable .python) := hmachine ▸ .python
    rw [hends.eq_of_lists hlists, if_pos (Or.inl rfl)]
  · rintro rfl job lines rfl hlists
    refine ⟨rendering_eq_nil_iff, ?_⟩
    rw [hends.eq_of_lists hlists, report_noSpaceLeft]
    by_cases hnil : rendering (job.format, lines) = []
    · rw [if_pos (Or.inr hnil), if_pos hnil, hnil]
    · rw [if_neg (by simp [hnil]), if_neg hnil]

/-- On a device without room too, the missing file is what is reported. -/
example : run .empty none .full (["yarv", "insns.def"].map Utf8.ofString) =
    ⟨1, [], some ("Error: Unable to read instruction file \"insns.def\": " ++
      "No such file or directory (os error 2).\n").toList⟩ := by
  decide +kernel

end CommandLine

end OpcodeCatalog
