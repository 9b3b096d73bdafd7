import OpcodeCatalog.CommandLine.Observed

/-!
# The program

Takes the arguments and the environment variable, reads the definition file if one is asked for,
and writes what the run gives.  All decisions are made by `CommandLine.parse` and
`CommandLine.observe`.  The subscriber is the silent one, so no diagnostics are written.
-/

set_option autoImplicit false

namespace OpcodeCatalog

/-- The system error, if the error is one.  Its number may be given with a minus sign. -/
def systemErrorOf? : IO.Error → Option SystemError
  | .alreadyExists _ code _ | .otherError code _ | .resourceBusy code _
  | .resourceVanished code _ | .unsupportedOperation code _ | .hardwareFault code _
  | .unsatisfiedConstraints code _ | .illegalOperation code _ | .protocolError code _
  | .timeExpired code _ | .interrupted _ code _ | .noFileOrDirectory _ code _
  | .invalidArgument _ code _ | .permissionDenied _ code _ | .resourceExhausted _ code _
  | .inappropriateType _ code _ | .noSuchThing _ code _ => some ⟨code.toInt32.toInt.natAbs⟩
  | .unexpectedEof | .userError _ => none

/-- The reason of an error, as it is reported. -/
def reasonOf (e : IO.Error) : Text :=
  match systemErrorOf? e with
  | some e => e.text
  | none => e.toString.toList

/-- The content of a file, or the reason why there is none. -/
def contentOf (path : Bytes) : BaseIO (Except Text Bytes) := do
  match ← EIO.toBaseIO (IO.FS.readBinFile (String.ofList (Utf8.decodeLossy path))) with
  | .ok content => return .ok content.toList
  | .error e => return .error (reasonOf e)

/-- Writes bytes to the standard output and gives the reason if that fails. -/
def writeOut (bytes : Bytes) : BaseIO (Option Text) := do
  let stdout ← IO.getStdout
  match ← EIO.toBaseIO (do stdout.write ⟨bytes.toArray⟩; stdout.flush) with
  | .ok _ => return none
  | .error e => return some (reasonOf e)

/-- Runs a command line and gives the exit code. -/
def runProgram (args : List String) : IO UInt32 := do
  let fallback := (← IO.getEnv CommandLine.formatVariable).map Utf8.ofString
  let request := CommandLine.parse fallback (args.map Utf8.ofString)
  let content ← match request with
    | .ok (.list ⟨.yarv path, _, _⟩) => contentOf path
    | _ => pure (.ok [])
  let seen := CommandLine.observe Subscriber.silent (fun _ => content) .unlimited request
  let outcome := seen.outcome
  if let .error e := request then
    IO.eprintln ("error: " ++ String.ofList e.message)
  match outcome.failure, ← writeOut outcome.stdout, request with
  | some report, _, _ =>
    IO.eprint (String.ofList report)
    return outcome.exitCode.toUInt32
  | none, some reason, .ok (.list _) =>
    IO.eprint (String.ofList (CommandLine.report (.outputFailed reason)))
    return 1
  | none, _, _ => return outcome.exitCode.toUInt32

end OpcodeCatalog

/-- The entry point. -/
def main (args : List String) : IO UInt32 := OpcodeCatalog.runProgram args
