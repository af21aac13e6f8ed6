import StreamFusion.Container
import StreamFusion.Run.Sinks

/-!
# Intakes

An intake is where a run gets its elements from, one pull at a time: a container read by position, a
list, a cursor, or another pipeline that is itself half run. A pull is made of small moves; each
either gives an element, or finds that there is none, or fails, or has to be followed by another
move. `pull` says what one move does. `close` tells a cursor that the run stops early, and `release`
what is still closed when the intake is let go.
-/

namespace StreamFusion

variable {α : Type}

/-- Where elements come from. -/
inductive Intake (α : Type) where
  /-- The elements of a container from a position on, up to the first hole. -/
  | shelf (source : Ident) (box : Container α) (position : Nat)
  /-- The elements of a list. -/
  | owned (items : List α)
  /-- The cursor of a user: its answers to the pulls to come, and whether it is still open. -/
  | cursor (source : Ident) (answers : List (Option α)) (isOpen : Bool)
  /-- A plan that is run over another intake; `ready` came out of it already, and nothing more will
  be pulled if it is finished. -/
  | staged (plan : Plan α) (counters : Counters) (ready : List α) (finished : Bool)
      (below : Intake α)
  /-- The elements of another intake, each replaced by a callback. -/
  | mapped (f : Callback α α) (below : Intake α)
  /-- The items of the elements of another intake; `ready` are left of the element that was pulled
  last. -/
  | flattened (items : α → List α) (ready : List α) (below : Intake α)
  /-- An intake that was let go. -/
  | spent

/-- What a move of an intake gives. -/
inductive Answer (α : Type) where
  /-- An element. -/
  | item (x : α)
  /-- There are no more elements. -/
  | nothing
  /-- No element yet: another move must follow. -/
  | again
  /-- A callback failed at an element. The intake can still be used. -/
  | failed (culprit : α)

/-- One move of an intake: what happened, what it gave, and the intake after it. -/
structure Move (α : Type) where
  events : List (Event α)
  answer : Answer α
  rest : Intake α

namespace Intake

/-- Tells an intake that no more elements are wanted. Only the cursor of a user listens. -/
def close : Intake α → List (Event α) × Intake α
  | .cursor source answers true => ([.closed source], .cursor source answers false)
  | intake => ([], intake)

/-- What still happens when the intake is let go: an open cursor below it is closed. -/
def release : Intake α → List (Event α)
  | .cursor source _ true => [.closed source]
  | .staged _ _ _ _ below | .mapped _ below | .flattened _ _ below => below.release
  | _ => []

/-- Feeds an element that came from `below` to a staged plan. What comes out is made ready; if the
run stops, the intake below is closed. -/
def stage (plan : Plan α) (counters : Counters) (before : List (Event α)) (x : α)
    (below : Intake α) : Move α :=
  match plan.feed Sink.collect x ⟨counters, [], .empty⟩ with
  | .onward s =>
    ⟨before ++ s.journal.events, .again, .staged plan s.counters s.acc.reverse false below⟩
  | .stopped s =>
    ⟨before ++ s.journal.events ++ below.close.1, .again,
      .staged plan s.counters s.acc.reverse true below.close.2⟩
  | .failed culprit s =>
    ⟨before ++ s.journal.events, .failed culprit,
      .staged plan s.counters s.acc.reverse false below⟩

/-- Calls the callback of a mapped intake at an element that came from below. -/
def replace (f : Callback α α) (before : List (Event α)) (x : α) (below : Intake α) : Move α :=
  match f.answer x 0 with
  | some y => ⟨before ++ [f.event x 0], .item y, .mapped f below⟩
  | none => ⟨before ++ [f.event x 0], .failed x, .mapped f below⟩

/-- One move of an intake. -/
def pull : Intake α → Move α
  | .shelf source box position =>
    if position < box.size then
      match box.get? position with
      | some x => ⟨[.read source position], .item x, .shelf source box (position + 1)⟩
      | none => ⟨[.read source position], .nothing, .shelf source box position⟩
    else ⟨[], .nothing, .shelf source box position⟩
  | .owned [] => ⟨[], .nothing, .owned []⟩
  | .owned (x :: items) => ⟨[], .item x, .owned items⟩
  | .cursor source (some x :: answers) true =>
    ⟨[.pulled source x], .item x, .cursor source answers true⟩
  | .cursor source (none :: answers) true =>
    ⟨[.ended source], .nothing, .cursor source answers false⟩
  | .cursor source [] true => ⟨[.ended source], .nothing, .cursor source [] false⟩
  | .cursor source answers false => ⟨[], .nothing, .cursor source answers false⟩
  | .staged plan counters (x :: ready) finished below =>
    ⟨[], .item x, .staged plan counters ready finished below⟩
  | .staged plan counters [] true below => ⟨[], .nothing, .staged plan counters [] true below⟩
  | .staged plan counters [] false below =>
    match below.pull with
    | ⟨events, .item x, below⟩ => stage plan counters events x below
    | ⟨events, .nothing, below⟩ => ⟨events, .nothing, .staged plan counters [] true below⟩
    | ⟨events, .again, below⟩ => ⟨events, .again, .staged plan counters [] false below⟩
    | ⟨events, .failed x, below⟩ => ⟨events, .failed x, .staged plan counters [] false below⟩
  | .mapped f below =>
    match below.pull with
    | ⟨events, .item x, below⟩ => replace f events x below
    | ⟨events, .nothing, below⟩ => ⟨events, .nothing, .mapped f below⟩
    | ⟨events, .again, below⟩ => ⟨events, .again, .mapped f below⟩
    | ⟨events, .failed x, below⟩ => ⟨events, .failed x, .mapped f below⟩
  | .flattened items (x :: ready) below => ⟨[], .item x, .flattened items ready below⟩
  | .flattened items [] below =>
    match below.pull with
    | ⟨events, .item x, below⟩ => ⟨events, .again, .flattened items (items x) below⟩
    -- an exhausted intake below is let go at once
    | ⟨events, .nothing, below⟩ => ⟨events ++ below.release, .nothing, .spent⟩
    | ⟨events, .again, below⟩ => ⟨events, .again, .flattened items [] below⟩
    | ⟨events, .failed x, below⟩ => ⟨events, .failed x, .flattened items [] below⟩
  | .spent => ⟨[], .nothing, .spent⟩

end Intake

end StreamFusion
