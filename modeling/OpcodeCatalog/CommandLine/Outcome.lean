import OpcodeCatalog.CommandLine.Usage
import OpcodeCatalog.FileSystem
import OpcodeCatalog.Listing.Output

/-!
# Runs of the program

A run answers the request of the command line.  It ends with an exit code, what it has written to
the standard output, and the report of a failure if there was one.

Main definitions:

* `CommandLine.Outcome` — how a run ends;
* `CommandLine.Job.lines` — the lines that a job lists, or why there are none;
* `CommandLine.answer` — the outcome of a command line that has been read;
* `CommandLine.run` — the outcome of a command line in a file system.
-/

set_option autoImplicit false

namespace OpcodeCatalog

namespace CommandLine

/-- How a run ends. -/
structure Outcome where
  exitCode : Nat
  stdout : Bytes
  failure : Option Text
  deriving DecidableEq

/-- Where the standard output goes. -/
inductive Stdout where
  | ordinary
  /-- A device without room for a single byte. -/
  | full
  deriving DecidableEq

/-- The standard output as a sink. -/
def Stdout.sink : Stdout → Sink
  | .ordinary => .unlimited
  | .full =>
    { Sink.unlimited with room := some 0, refusal := .fails SystemError.noSpaceLeft.text }

/-- The lines that the job lists, where `readFile` gives the content of a file or the reason why
there is none. -/
def Job.lines (readFile : Bytes → Except Text Bytes) (job : Job) :
    Except Failure (List Listing.Line) :=
  match job.machine with
  | .python => .ok (Listing.ofTable .python)
  | .yarv path =>
    match Definitions.read path (readFile path) with
    | .error failure => .error failure
    | .ok names => Listing.ofNames names

/-- The report of a failure. -/
def report (failure : Failure) : Text := "Error: ".toList ++ failure.message ++ ['\n']

/-- The outcome after a failure. -/
def failed (stdout : Bytes) (failure : Failure) : Outcome := ⟨1, stdout, some (report failure)⟩

/-- Makes a listing.  Nothing is written before all of the input was read. -/
def Job.perform (readFile : Bytes → Except Text Bytes) (stdout : Sink) (job : Job) : Outcome :=
  match job.lines readFile with
  | .error failure => failed [] failure
  | .ok lines =>
    let output := Listing.write stdout job.format lines
    match output.failure with
    | some failure => failed output.taken failure
    | none => ⟨0, output.taken, none⟩

/-- The outcome of a command line.  A usage error is no failure of a listing, and a text about the
program counts as given whether or not it could be written. -/
def answer (readFile : Bytes → Except Text Bytes) (stdout : Sink) : Answer → Outcome
  | .error _ => ⟨2, [], none⟩
  | .ok .version => ⟨0, (stdout.writeAll (Utf8.encode versionText)).taken, none⟩
  | .ok (.help topic) => ⟨0, (stdout.writeAll (Utf8.encode (helpText topic))).taken, none⟩
  | .ok (.list job) => job.perform readFile stdout

/-- The content of a file, or the reason why there is none. -/
def readIn (fs : FileSystem) (path : Bytes) : Except Text Bytes :=
  match fs.read path with
  | .error e => .error e.reason
  | .ok content => .ok content

/-- The outcome of a command line, where `fallback` is the value of the environment variable. -/
def run (fs : FileSystem) (fallback : Option Bytes) (stdout : Stdout) (args : List Bytes) :
    Outcome :=
  answer (readIn fs) stdout.sink (parse fallback args)

end CommandLine

end OpcodeCatalog
