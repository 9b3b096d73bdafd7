import OpcodeCatalog.CommandLine.Observed

/-!
# Observed runs end like unobserved ones

A subscriber takes events in, and nothing comes back from it.  So an observed computation has the
result of the unobserved one, whatever the subscriber is and in whichever state it is, and this is
kept when computations follow one another.

Main definitions:

* `Observed.Gives` — the result of an observed computation.

Main results:

* `Observed.Gives.bind` — the result of computations that follow one another;
* `CommandLine.Job.observe_fst` — **an observed job has the outcome of the job**;
* `CommandLine.outcome_observeRun` — **an observed run has the outcome of the run**.
-/

set_option autoImplicit false

namespace OpcodeCatalog

/-! ### Results of observed computations -/

namespace Observed

variable {σ α β : Type}

/-- The computation has this result in every state of the subscriber. -/
def Gives (x : Observed σ α) (result : Except Failure α) : Prop :=
  ∀ state, (x.run.run state).1 = result

theorem gives_pure (a : α) : Gives (pure a : Observed σ α) (.ok a) := fun _ => rfl

theorem gives_lift (result : Except Failure α) : Gives (liftM result : Observed σ α) result :=
  fun _ => rfl

/-- What follows a computation begins with its result. -/
theorem fst_run_bind {x : StateM σ α} {state : σ} {a : α} (h : (x.run state).1 = a)
    (f : α → StateM σ β) : ((x >>= f).run state).1 = ((f a).run (x.run state).2).1 := by
  subst h
  rfl

/-- The result of two computations that follow one another. -/
theorem Gives.bind {x : Observed σ α} {result : Except Failure α} (h : Gives x result)
    {f : α → Observed σ β} {g : α → Except Failure β} (hf : ∀ a, Gives (f a) (g a)) :
    Gives (x >>= f) (result >>= g) := by
  intro state
  rw [ExceptT.run_bind, fst_run_bind (h state)]
  cases result with
  | error failure => rfl -- what follows is skipped on both sides
  | ok a => exact hf a _

/-- An event in front of a computation does not change its result. -/
theorem Gives.after_report {x : Observed σ α} {result : Except Failure α} (h : Gives x result)
    (subscriber : Subscriber σ) (event : Event) :
    Gives ((subscriber.report event : Observed σ Unit) >>= fun _ => x) result := fun _ => h _

end Observed

section Observe

variable {σ : Type} (subscriber : Subscriber σ)

open Observed

/-! ### The parts of a listing -/

theorem Definitions.gives_observeNames (t : Text) :
    Gives (observeNames subscriber t) (names t) := by
  have hself : (names t >>= pure) = names t := bind_pure (names t)
  rw [← hself]
  exact (gives_lift (names t)).bind fun found => (gives_pure found).after_report subscriber _

theorem Definitions.read_eq_bind (path : Bytes) (content : Except Text Bytes) :
    read path content = textOf path content >>= names := by
  rw [read]
  cases textOf path content <;> rfl

/-- An observed file has the names of the file. -/
theorem Definitions.gives_observeFile (path : Bytes) (content : Except Text Bytes) :
    Gives (observeFile subscriber path content) (read path content) := by
  rw [read_eq_bind]
  exact (gives_lift (textOf path content)).bind fun t =>
    (gives_observeNames subscriber t).after_report subscriber _

/-- An observed table has the lines of the table. -/
theorem Listing.gives_observeTable (table : OpcodeTable) :
    Gives (observeTable subscriber table) (.ok (ofTable table)) :=
  (gives_pure (ofTable table)).after_report subscriber _

theorem Listing.ofNames_eq_bind (names : List Text) :
    ofNames names = OpcodeTable.ofNames names >>= fun table => .ok (ofTable table) := by
  rw [ofNames]
  cases OpcodeTable.ofNames names <;> rfl

namespace CommandLine

/-- The table of a machine that is not observed. -/
def Machine.table (readFile : Bytes → Except Text Bytes) : Machine → Except Failure OpcodeTable
  | .python => .ok .python
  | .yarv path => Definitions.read path (readFile path) >>= OpcodeTable.ofNames

theorem Machine.gives_observe (readFile : Bytes → Except Text Bytes) (machine : Machine) :
    Gives (machine.observe subscriber readFile) (machine.table readFile) := by
  cases machine with
  | python => exact gives_pure OpcodeTable.python
  | yarv path =>
      exact (Definitions.gives_observeFile subscriber path (readFile path)).bind fun found =>
        gives_lift (OpcodeTable.ofNames found)

theorem Job.lines_eq_bind (readFile : Bytes → Except Text Bytes) (job : Job) :
    job.lines readFile =
      job.machine.table readFile >>= fun table => .ok (Listing.ofTable table) := by
  unfold Job.lines
  cases job.machine with
  | python => rfl
  | yarv path =>
      simp only [Machine.table]
      cases Definitions.read path (readFile path) with
      | error failure => rfl
      | ok found => exact Listing.ofNames_eq_bind found

/-- An observed job has the lines of the job. -/
theorem Job.gives_observeLines (readFile : Bytes → Except Text Bytes) (job : Job) :
    Gives (job.observeLines subscriber readFile) (job.lines readFile) := by
  rw [Job.lines_eq_bind]
  exact (job.machine.gives_observe subscriber readFile).bind fun table =>
    Listing.gives_observeTable subscriber table

/-! ### Jobs and runs -/

/-- **An observed job has the outcome of the job.** -/
theorem Job.observe_fst (readFile : Bytes → Except Text Bytes) (stdout : Sink) (job : Job)
    (state : σ) :
    ((job.observe subscriber readFile stdout).run state).1 = job.perform readFile stdout := by
  rw [Job.observe, Job.perform, fst_run_bind (job.gives_observeLines subscriber readFile state)]
  cases job.lines readFile with
  | error failure => rfl
  | ok lines =>
      simp only
      rw [fst_run_bind rfl]
      -- the sink alone decides whether the writing fails, so both sides have the same two cases
      generalize Listing.write stdout job.format lines = output
      cases output.failure <;> rfl

/-- What is seen of a command line that has been read has the outcome of its answer. -/
theorem outcome_observe (readFile : Bytes → Except Text Bytes) (stdout : Sink) (a : Answer) :
    (observe subscriber readFile stdout a).outcome = answer readFile stdout a := by
  cases a with
  | error e => rfl
  | ok request =>
      cases request with
      | version => rfl
      | help topic => rfl
      | list job => exact job.observe_fst subscriber readFile stdout _

/-- **An observed run has the outcome of the run**, whatever the subscriber makes of the filter and
of the events. -/
theorem outcome_observeRun (fs : FileSystem) (fallback : Option Bytes) (stdout : Stdout)
    (args : List Bytes) :
    (observeRun subscriber fs fallback stdout args).outcome = run fs fallback stdout args :=
  outcome_observe subscriber (readIn fs) stdout.sink (parse fallback args)

end CommandLine

end Observe

end OpcodeCatalog
