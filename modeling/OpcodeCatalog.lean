import OpcodeCatalog.Text.Basic
import OpcodeCatalog.Text.Blank
import OpcodeCatalog.Text.Lines
import OpcodeCatalog.Text.UpperCase
import OpcodeCatalog.Text.Utf8
import OpcodeCatalog.Opcode
import OpcodeCatalog.Opcode.Number
import OpcodeCatalog.SystemError
import OpcodeCatalog.Failure
import OpcodeCatalog.OpcodeTable
import OpcodeCatalog.Definitions
import OpcodeCatalog.Listing.Basic
import OpcodeCatalog.Listing.Json
import OpcodeCatalog.Listing.Format
import OpcodeCatalog.Diagnostics
import OpcodeCatalog.Sink
import OpcodeCatalog.Listing.Output
import OpcodeCatalog.FileSystem
import OpcodeCatalog.CommandLine.Token
import OpcodeCatalog.CommandLine.Request
import OpcodeCatalog.CommandLine.Usage
import OpcodeCatalog.CommandLine.Outcome
import OpcodeCatalog.CommandLine.Observed
import OpcodeCatalog.Main
import OpcodeCatalog.Proofs.Text.Lines
import OpcodeCatalog.Proofs.Text.UpperCase
import OpcodeCatalog.Proofs.Text.Utf8
import OpcodeCatalog.Proofs.Definitions.Headers
import OpcodeCatalog.Proofs.Definitions.Grammar
import OpcodeCatalog.Proofs.Definitions.Names
import OpcodeCatalog.Proofs.Sink
import OpcodeCatalog.Proofs.Listing.Output
import OpcodeCatalog.Proofs.Listing.Positions
import OpcodeCatalog.Proofs.Listing.Instructions
import OpcodeCatalog.Proofs.Listing.Json.Grammar
import OpcodeCatalog.Proofs.Listing.Json.RoundTrip
import OpcodeCatalog.Proofs.Listing.Columns
import OpcodeCatalog.Proofs.Listing.Recovery
import OpcodeCatalog.Proofs.Listing.TextFormat
import OpcodeCatalog.Proofs.Listing.Tables
import OpcodeCatalog.Proofs.Definitions.Canonical
import OpcodeCatalog.Proofs.Definitions.Concatenation
import OpcodeCatalog.Proofs.Definitions.LineEndings
import OpcodeCatalog.Proofs.CommandLine.Outcome
import OpcodeCatalog.Proofs.CommandLine.Arguments
import OpcodeCatalog.Proofs.CommandLine.Observed
import OpcodeCatalog.Proofs.CommandLine.LogFilter
import OpcodeCatalog.Proofs.CommandLine.Settings
import OpcodeCatalog.Proofs.Opcode.Number
import OpcodeCatalog.Proofs.OpcodeTable
import OpcodeCatalog.Proofs.Failure
import OpcodeCatalog.Proofs.Text.Malformed
import OpcodeCatalog.Proofs.Definitions.Files
