import OpcodeCatalog.Definitions
import OpcodeCatalog.Listing.Format
import OpcodeCatalog.Sink

/-!
# Writing listings

A listing is written to a sink piece by piece, and the sink is flushed once after the last piece.
The whole way from a definition file to the written listing is here as well.

Main definitions:

* `Listing.write` — writes a listing;
* `Listing.writeEach` — writes several listings to one sink;
* `Listing.ofDefinitions` — the lines of the instructions that a text defines;
* `Listing.renderDefinitions` — their listing as a text.
-/

set_option autoImplicit false

namespace OpcodeCatalog

namespace Listing

/-- What comes of writing a listing: the sink afterwards, the bytes that it took, and the failure if
there was one. -/
structure Output where
  sink : Sink
  taken : Bytes
  failure : Option Failure
  deriving DecidableEq

/-- Writes a listing and flushes the sink.  The sink is not flushed if the writing failed. -/
def write (sink : Sink) (format : Format) (lines : List Line) : Output :=
  let written := sink.writePieces ((pieces format lines).map Utf8.encode)
  let reason :=
    match written.failure with
    | some reason => some reason
    | none => written.sink.flushFailure
  ⟨written.sink, written.taken, reason.map .outputFailed⟩

/-- Writes the listings one after the other, each to what the one before has left of the sink.  A
failure does not keep the next ones from being tried. -/
def writeEach (sink : Sink) : List (Format × List Line) → List Output
  | [] => []
  | (format, lines) :: rest =>
    let output := write sink format lines
    output :: writeEach output.sink rest

/-- The lines of the instructions with the given names. -/
def ofNames (names : List Text) : Except Failure (List Line) :=
  match OpcodeTable.ofNames names with
  | .error failure => .error failure
  | .ok table => .ok (ofTable table)

/-- The lines of the instructions that a text defines. -/
def ofDefinitions (t : Text) : Except Failure (List Line) :=
  match Definitions.names t with
  | .error failure => .error failure
  | .ok names => ofNames names

/-- The listing of the instructions that a text defines. -/
def renderDefinitions (format : Format) (t : Text) : Except Failure Text :=
  match ofDefinitions t with
  | .error failure => .error failure
  | .ok lines => .ok (render format lines)

end Listing

end OpcodeCatalog
