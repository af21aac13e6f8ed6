import StreamFusion.TextQuery

/-!
# Events

What pipelines do that an observer can see: containers read, cursors opened, pulled, ended, closed
and dropped, callbacks called, pipelines planned, and notes written to the log. A journal keeps
events in the order in which they happened.
-/

namespace StreamFusion

variable {α : Type}

/-- A source or cursor: its number, and the label under which an observer follows it, if one
does. -/
structure Ident where
  serial : Nat
  label : Option String
deriving DecidableEq, Repr

/-- What a run did. -/
structure Stats where
  /-- Elements read or pulled. -/
  scanned : Nat
  /-- Elements passed over by a leading skip, without being read. -/
  jumped : Nat
  /-- Elements handed to the closing action. -/
  emitted : Nat
  /-- Did the run stop before the source was exhausted? -/
  earlyStop : Bool
deriving DecidableEq, Repr

/-- A note in the log. -/
inductive Note where
  /-- A plan was made, with this many steps, gates and index counters. -/
  | compiled (steps gates skipInitial : Nat) (maxEmits : Option Nat) (slots : Nat)
  /-- The operations let nothing pass. -/
  | staticallyEmpty
  /-- A source stays closed, as the plan lets nothing pass. -/
  | notOpened
  /-- A run ended without a failing callback. -/
  | runFinished (stats : Stats)
  /-- A text query matches nothing. -/
  | queryRejected (query : String) (reason : Rejection)
  /-- There are more segments than the cap, and the pipeline is compiled all the same. -/
  | segmentsExceedCap (segments cap : Nat)
deriving DecidableEq, Repr

/-- How much a note matters. -/
inductive Level where
  | trace
  | debug
  | warn
deriving DecidableEq, Repr

/-- The name of a level. -/
def Level.name : Level → String
  | .trace => "TRACE"
  | .debug => "DEBUG"
  | .warn => "WARN"

namespace Note

/-- How much the note matters. -/
def level : Note → Level
  | .compiled .. | .staticallyEmpty | .queryRejected .. => .debug
  | .notOpened | .runFinished .. => .trace
  | .segmentsExceedCap .. => .warn

/-- The message of the note. -/
def message : Note → String
  | .compiled .. => "compiled pipeline"
  | .staticallyEmpty => "pipeline statically empty, skipping codegen"
  | .notOpened => "statically empty pipeline, source not opened"
  | .runFinished .. => "pipeline run finished"
  | .queryRejected .. => "text query rejected, filter matches nothing"
  | .segmentsExceedCap .. => "range segments exceed cap, using heap counters"

end Note

/-- One thing that happened. -/
inductive Event (α : Type) where
  /-- A replayed source made a new cursor. -/
  | opened (cursor : Ident)
  /-- A one-shot source gave its cursor away. -/
  | taken (cursor : Ident)
  /-- A cursor was asked and gave an element. -/
  | pulled (cursor : Ident) (element : α)
  /-- A cursor was asked and had nothing more to give. -/
  | ended (cursor : Ident)
  /-- A cursor was told that nobody will ask again. -/
  | closed (cursor : Ident)
  /-- A cursor that was open was let go, and was not told. -/
  | dropped (cursor : Ident)
  /-- A container was asked for its first element, to find out how it can be read. -/
  | probed (source : Ident)
  /-- A container was asked for the element at a position. -/
  | read (source : Ident) (position : Nat)
  /-- A callback was called, with an index if it takes one. -/
  | called (label : Option String) (element : α) (index : Option Nat)
  /-- The operations of a pipeline were planned. -/
  | planned (pipeline : Nat)
  /-- A note was written to the log. -/
  | noted (note : Note)

/-- Events as they happened; the latest is kept in front. -/
structure Journal (α : Type) where
  latestFirst : List (Event α)

namespace Journal

/-- The journal in which nothing happened yet. -/
def empty : Journal α := ⟨[]⟩

/-- The events in the order in which they happened. -/
def events (journal : Journal α) : List (Event α) := journal.latestFirst.reverse

/-- The journal with further events. -/
def record (journal : Journal α) (events : List (Event α)) : Journal α :=
  ⟨events.reverse ++ journal.latestFirst⟩

@[simp] theorem events_empty : (empty : Journal α).events = [] := rfl

@[simp] theorem events_record (journal : Journal α) (events : List (Event α)) :
    (journal.record events).events = journal.events ++ events := by
  simp [record, Journal.events]

@[simp] theorem record_nil (journal : Journal α) : journal.record [] = journal := rfl

theorem record_append (journal : Journal α) (first second : List (Event α)) :
    journal.record (first ++ second) = (journal.record first).record second := by
  simp [record]

end Journal

end StreamFusion
