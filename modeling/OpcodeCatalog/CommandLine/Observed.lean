import OpcodeCatalog.CommandLine.Outcome
import OpcodeCatalog.Diagnostics

/-!
# Observed runs

A run as a subscriber sees it.  A file is reported when its text is known, the names in it when all
of them are, the lines of a listing when they are made and again before they are written, and a
failure when there is one.  A command line that asks for no listing is not observed.

Main definitions:

* `Definitions.observeFile`, `Listing.observeTable` — the input and the lines of a listing;
* `CommandLine.Job.observe` — an observed job;
* `CommandLine.observeRun` — an observed run of the program.
-/

set_option autoImplicit false

namespace OpcodeCatalog

section Observe

variable {σ : Type} (subscriber : Subscriber σ)

/-! ### The parts of a listing -/

/-- The names that a text defines. -/
def Definitions.observeNames (t : Text) : Observed σ (List Text) := do
  let names ← names t
  subscriber.report (.namesParsed names.length)
  return names

/-- The names that a file defines, where `content` is its content or the reason why there is
none. -/
def Definitions.observeFile (path : Bytes) (content : Except Text Bytes) :
    Observed σ (List Text) := do
  let t ← textOf path content
  subscriber.report (.fileRead path (Utf8.encode t).length)
  observeNames subscriber t

/-- The lines of a table. -/
def Listing.observeTable (table : OpcodeTable) : Observed σ (List Line) := do
  let lines := ofTable table
  subscriber.report (.listingBuilt lines.length)
  return lines

namespace CommandLine

/-- The table of a machine, where `readFile` gives the content of a file or the reason why there is
none. -/
def Machine.observe (readFile : Bytes → Except Text Bytes) : Machine → Observed σ OpcodeTable
  | .python => return .python
  | .yarv path => do
    let names ← Definitions.observeFile subscriber path (readFile path)
    OpcodeTable.ofNames names

/-- The lines that a job lists. -/
def Job.observeLines (readFile : Bytes → Except Text Bytes) (job : Job) :
    Observed σ (List Listing.Line) := do
  let table ← job.machine.observe subscriber readFile
  Listing.observeTable subscriber table

/-! ### Jobs and runs -/

/-- The outcome after a failure. -/
def observeFailure (stdout : Bytes) (failure : Failure) : StateM σ Outcome := do
  subscriber.report (.listingFailed failure)
  return failed stdout failure

/-- Makes a listing. -/
def Job.observe (readFile : Bytes → Except Text Bytes) (stdout : Sink) (job : Job) :
    StateM σ Outcome := do
  match ← (job.observeLines subscriber readFile).run with
  | .error failure => observeFailure subscriber [] failure
  | .ok lines =>
    subscriber.report (.listingBegun lines.length job.format)
    let output := Listing.write stdout job.format lines
    match output.failure with
    | some failure => observeFailure subscriber output.taken failure
    | none => return ⟨0, output.taken, none⟩

/-- What is seen of a run: how it ends, and the state of the subscriber if the run was observed. -/
structure Observation (σ : Type) where
  outcome : Outcome
  diagnostics : Option σ

/-- What is seen of a command line that has been read. -/
def observe (readFile : Bytes → Except Text Bytes) (stdout : Sink) : Answer → Observation σ
  | .ok (.list job) =>
    -- the other answers are given before there is a subscriber
    let seen := (job.observe subscriber readFile stdout).run (subscriber.start job.logFilter)
    ⟨seen.1, some seen.2⟩
  | other => ⟨answer readFile stdout other, none⟩

/-- What is seen of a command line, where `fallback` is the value of the environment variable. -/
def observeRun (fs : FileSystem) (fallback : Option Bytes) (stdout : Stdout) (args : List Bytes) :
    Observation σ :=
  observe subscriber (readIn fs) stdout.sink (parse fallback args)

end CommandLine

end Observe

end OpcodeCatalog
