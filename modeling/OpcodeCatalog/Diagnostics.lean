import OpcodeCatalog.Listing.Format

/-!
# Diagnostics

A run reports events on its way, for those who want to know what it did.  The events go to a
subscriber, which has a filter for them.  What a subscriber makes of a filter and of an event is
left open here.

Main definitions:

* `Event` — what is reported, with the events of a run;
* `Subscriber` — where events go;
* `Observed` — computations that may fail, and that report events on their way.
-/

set_option autoImplicit false

namespace OpcodeCatalog

/-! ### Events -/

/-- How much an event matters. -/
inductive Severity where
  | error
  | info
  | debug
  deriving DecidableEq

/-- Something that is reported: the part of the program that it comes from, how much it matters, a
message, and values under their names. -/
structure Event where
  origin : Text
  severity : Severity
  message : Text
  fields : List (Text × Text)
  deriving DecidableEq

namespace Event

/-- The word for a format in events. -/
def formatWord : Format → Text
  | .text => "Text".toList
  | .json => "Json".toList

/-- A definition file was read, and it is a text of this many bytes. -/
def fileRead (path : Bytes) (size : Nat) : Event where
  origin := "pyc_opcodes::bytecode::yarv".toList
  severity := .debug
  message := "read instruction file".toList
  fields := [("path".toList, Utf8.decodeLossy path), ("bytes".toList, Text.decimal size)]

/-- A text defines this many names. -/
def namesParsed (count : Nat) : Event where
  origin := "pyc_opcodes::bytecode::yarv".toList
  severity := .debug
  message := "parsed instruction names".toList
  fields := [("count".toList, Text.decimal count)]

/-- The listing of a table has this many lines. -/
def listingBuilt (lines : Nat) : Event where
  origin := "pyc_opcodes::listing".toList
  severity := .debug
  message := "built listing".toList
  fields := [("lines".toList, Text.decimal lines)]

/-- The writing of a listing begins. -/
def listingBegun (lines : Nat) (format : Format) : Event where
  origin := "pyc_opcodes".toList
  severity := .info
  message := "writing listing".toList
  fields := [("lines".toList, Text.decimal lines), ("format".toList, formatWord format)]

/-- There is no listing, or not the whole of it. -/
def listingFailed (failure : Failure) : Event where
  origin := "pyc_opcodes".toList
  severity := .error
  message := "listing failed".toList
  fields := [("error".toList, failure.message)]

end Event

/-! ### Subscribers -/

/-- Where events go.  What the subscriber has made of them so far is its state, of type `σ`. -/
structure Subscriber (σ : Type) where
  /-- The state at the start with a filter that is given as a text. -/
  ofFilter : Text → σ
  /-- The state at the start with the filter of the environment, if there is one that can be
  used. -/
  ofEnvironment : Option σ
  /-- The state after one event more. -/
  record : σ → Event → σ

namespace Subscriber

variable {σ : Type}

/-- The filter where none is given. -/
def defaultFilter : Text := "warn".toList

/-- The state at the start of a run.  A filter that is given counts more than the environment. -/
def start (subscriber : Subscriber σ) (filter : Option Text) : σ :=
  match filter with
  | some filter => subscriber.ofFilter filter
  | none => subscriber.ofEnvironment.getD (subscriber.ofFilter defaultFilter)

/-- The subscriber that passes over all events. -/
def silent : Subscriber Unit := ⟨fun _ => (), none, fun _ _ => ()⟩

/-- Reports an event. -/
def report (subscriber : Subscriber σ) (event : Event) : StateM σ Unit :=
  modify fun state => subscriber.record state event

end Subscriber

/-! ### Observed computations -/

/-- Computations that may fail, on top of the state of a subscriber. -/
abbrev Observed (σ : Type) : Type → Type := ExceptT Failure (StateM σ)

end OpcodeCatalog
