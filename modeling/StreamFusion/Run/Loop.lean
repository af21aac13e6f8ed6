import StreamFusion.Intake.Next

/-!
# Runs

A run feeds the elements of an opened source to a plan until the source is exhausted, the run stops,
or a callback fails. Containers and lists are read by position, and what a leading gate would drop
is not read at all; everything else is pulled.
-/

namespace StreamFusion

variable {α γ : Type}

/-- A source that was opened for one run. -/
inductive Opened (α : Type) where
  /-- A container that can be read at any position. -/
  | indexed (source : Ident) (box : Container α)
  /-- A list that belongs to the run. -/
  | owned (items : List α)
  /-- Elements that can only be pulled. -/
  | sequential (intake : Intake α)

/-- The length of an opened source, if it can be told. -/
def Opened.lengthHint : Opened α → Option Nat
  | .indexed _ box => some box.size
  | .owned items => some items.length
  | .sequential _ => none

/-- What happens when an opened source is let go before a run. The cursor of a user is told nothing
then; an intake lets go of what is below it. -/
def Opened.discard : Opened α → List (Event α)
  | .sequential (.cursor source _ true) => [.dropped source]
  | .sequential intake => intake.release
  | _ => []

/-- How the feeding came to its end. -/
inductive Ending (α : Type) where
  | exhausted
  | stopped
  | failed (culprit : α)

/-- A container that is read by position, and what is seen of reading a position. -/
structure Shelf (α : Type) where
  box : Container α
  reading : Nat → List (Event α)

/-- The shelf of a source. -/
def Shelf.ofSource (source : Ident) (box : Container α) : Shelf α :=
  ⟨box, fun position => [.read source position]⟩

/-- The shelf of a list that belongs to the run: nobody sees it read. -/
def Shelf.ofList (items : List α) : Shelf α := ⟨.ofList items, fun _ => []⟩

/-- What reading by position came to. -/
structure Scan (α γ : Type) where
  state : RunState α γ
  position : Nat
  scanned : Nat
  ending : Ending α

/-- Feeds the elements of a shelf from a position on. -/
def scanShelf (plan : Plan α) (sink : Sink α γ) (shelf : Shelf α) (position scanned : Nat)
    (s : RunState α γ) : Scan α γ :=
  if position < shelf.box.size then
    let s := { s with journal := s.journal.record (shelf.reading position) }
    match shelf.box.get? position with
    | none => ⟨s, position, scanned, .exhausted⟩
    | some x =>
      match plan.feed sink x s with
      | .onward s => scanShelf plan sink shelf (position + 1) (scanned + 1) s
      | .stopped s => ⟨s, position + 1, scanned + 1, .stopped⟩
      | .failed culprit s => ⟨s, position + 1, scanned + 1, .failed culprit⟩
  else ⟨s, position, scanned, .exhausted⟩
termination_by shelf.box.size - position

/-- What pulling came to. -/
structure Drain (α γ : Type) where
  state : RunState α γ
  rest : Intake α
  scanned : Nat
  ending : Ending α

/-- Feeds the elements of an intake. An intake is closed when the run stops early. -/
def drainIntake (plan : Plan α) (sink : Sink α γ) (intake : Intake α) (scanned : Nat)
    (s : RunState α γ) : Drain α γ :=
  match _moved : intake.pull with
  | ⟨events, answer, rest⟩ =>
    let s := { s with journal := s.journal.record events }
    match answer with
    | .nothing => ⟨s, rest, scanned, .exhausted⟩
    | .failed culprit => ⟨s, rest, scanned, .failed culprit⟩
    | .again => drainIntake plan sink rest scanned s
    | .item x =>
      match plan.feed sink x s with
      | .onward s => drainIntake plan sink rest (scanned + 1) s
      | .stopped s =>
        ⟨{ s with journal := s.journal.record rest.close.1 }, rest.close.2, scanned + 1, .stopped⟩
      | .failed culprit s => ⟨s, rest, scanned + 1, .failed culprit⟩
termination_by intake
decreasing_by all_goals exact Intake.follows_of_pull _moved (by simp)

namespace Plan

/-- How many elements of a source of this size the leading gate drops. -/
def jumped (plan : Plan α) (size : Nat) : Nat :=
  match plan.leadingGate with
  | some number => min (plan.start.window number).skip size
  | none => 0

/-- The counters of a run that passes over the elements that the leading gate drops. -/
def startAfterJump (plan : Plan α) (size : Nat) : Counters :=
  match plan.leadingGate with
  | some number => plan.start.jump number (plan.jumped size)
  | none => plan.start

end Plan

/-- What a run came to. -/
structure Finish (α γ : Type) where
  acc : γ
  events : List (Event α)
  /-- The element at which a callback failed, or what the run did. -/
  result : Except α Stats

namespace Plan

/-- Runs a plan over a shelf. -/
def runShelf (plan : Plan α) (sink : Sink α γ) (seed : γ) (shelf : Shelf α) : Finish α γ :=
  let size := shelf.box.size
  let scan := scanShelf plan sink shelf (plan.jumped size) 0
    ⟨plan.startAfterJump size, seed, .empty⟩
  let stats (stopped : Bool) : Stats :=
    ⟨scan.scanned, plan.jumped size, scan.state.counters.emitted,
      stopped && decide (scan.position < size)⟩
  let events := scan.state.journal.events
  match scan.ending with
  | .exhausted => ⟨scan.state.acc, events, .ok (stats false)⟩
  | .stopped => ⟨scan.state.acc, events, .ok (stats true)⟩
  | .failed culprit => ⟨scan.state.acc, events, .error culprit⟩

/-- Runs a plan over an intake, and lets the intake go. -/
def runIntake (plan : Plan α) (sink : Sink α γ) (seed : γ) (intake : Intake α) : Finish α γ :=
  let drain := drainIntake plan sink intake 0 ⟨plan.start, seed, .empty⟩
  let stats (stopped : Bool) : Stats :=
    ⟨drain.scanned, 0, drain.state.counters.emitted, stopped⟩
  let events := drain.state.journal.events ++ drain.rest.release
  match drain.ending with
  | .exhausted => ⟨drain.state.acc, events, .ok (stats false)⟩
  | .stopped => ⟨drain.state.acc, events, .ok (stats true)⟩
  | .failed culprit => ⟨drain.state.acc, events, .error culprit⟩

/-- Runs a plan over an opened source. -/
def run (plan : Plan α) (sink : Sink α γ) (seed : γ) : Opened α → Finish α γ
  | .indexed source box => plan.runShelf sink seed (.ofSource source box)
  | .owned items => plan.runShelf sink seed (.ofList items)
  | .sequential intake => plan.runIntake sink seed intake

/-- The intake that pulls the results of a plan one by one. In a container it starts behind the
elements that the leading gate drops. -/
def intake (plan : Plan α) : Opened α → Intake α
  | .indexed source box =>
    .staged plan (plan.startAfterJump box.size) [] plan.never
      (.shelf source box (plan.jumped box.size))
  | .owned items => .staged plan plan.start [] plan.never (.owned items)
  | .sequential intake => .staged plan plan.start [] plan.never intake

end Plan

end StreamFusion
