import StreamFusion.Run.Counters

/-!
# Feeding one element

Sends one element of the source through the steps of a plan and hands what comes out to the closing
action of a terminal. The counters, the accumulator of the terminal and the journal are the state of
the run; they keep what was done until a callback failed.
-/

namespace StreamFusion

variable {α β γ : Type}

/-- Does the run go on? -/
inductive Flow where
  | onward
  | stop
deriving DecidableEq, Repr

/-- What a closing action says to an element: the new accumulator and whether to go on, or nothing
if it fails, and what happened meanwhile. -/
structure Closing (α γ : Type) where
  events : List (Event α)
  result : Option (γ × Flow)

/-- The closing action of a terminal, from the accumulator, an element and its emitted index. -/
abbrev Sink (α γ : Type) := γ → α → Nat → Closing α γ

/-- The state of a run. -/
structure RunState (α γ : Type) where
  counters : Counters
  acc : γ
  journal : Journal α

/-- A part of a run. It fails with the element at which a callback failed. -/
abbrev RunM (α γ : Type) := EStateM α (RunState α γ)

namespace RunM

/-- Notes what happened. -/
def record (events : List (Event α)) : RunM α γ Unit :=
  modify fun s => { s with journal := s.journal.record events }

/-- Counts an element that reaches a step, and gives its index. -/
def tick (slot : Option Nat) : RunM α γ Nat :=
  modifyGet fun s => (s.counters.index slot, { s with counters := s.counters.tick slot })

/-- Asks a gate. -/
def askGate (number : Nat) : RunM α γ Admission :=
  modifyGet fun s =>
    ((s.counters.window number).ask.1, { s with counters := s.counters.afterGate number })

/-- Calls a callback at an element. -/
def call (f : Callback α β) (x : α) (index : Nat) : RunM α γ β := do
  record [f.event x index]
  match f.answer x index with
  | some y => pure y
  | none => throw x

/-- Hands an element to the closing action. It is counted before the action sees it. -/
def emit (sink : Sink α γ) (x : α) : RunM α γ Flow := do
  let s ← modifyGet fun s => (s, { s with counters := s.counters.emit })
  let closing := sink s.acc x s.counters.emitted
  record closing.events
  match closing.result with
  | some (acc, flow) => modifyGet fun s => (flow, { s with acc := acc })
  | none => throw x

/-- Does something for one element after the other, until one of them stops the run. -/
def each (body : α → RunM α γ Flow) : List α → RunM α γ Flow
  | [] => pure .onward
  | x :: xs => do
    match ← body x with
    | .onward => each body xs
    | .stop => pure .stop

/-- Sends an element through the steps. -/
def feed (sink : Sink α γ) : List (Step α) → α → RunM α γ Flow
  | [], x => emit sink x
  | .map f slot :: steps, x => do
    let index ← tick slot
    feed sink steps (← call f x index)
  | .test p slot :: steps, x => do
    let index ← tick slot
    if ← call p x index then feed sink steps x else pure .onward
  | .expand f slot :: steps, x => do
    let index ← tick slot
    each (feed sink steps) (← call f x index)
  | .gate number :: steps, x => do
    match ← askGate number with
    | .through => feed sink steps x
    | .dropped => pure .onward
    | .shut => pure .stop

end RunM

/-- What came of feeding one element. -/
inductive Fed (α γ : Type) where
  /-- The run may go on. -/
  | onward (state : RunState α γ)
  /-- Nothing can come out any more, or the closing action has seen enough. -/
  | stopped (state : RunState α γ)
  /-- A callback failed at an element. -/
  | failed (culprit : α) (state : RunState α γ)

/-- Sends one element of the source through a plan. The run stops after it if it is sealed. -/
def Plan.feed (plan : Plan α) (sink : Sink α γ) (x : α) (s : RunState α γ) : Fed α γ :=
  match RunM.feed sink plan.steps x s with
  | .ok .stop s => .stopped s
  | .ok .onward s => if s.counters.isSealed then .stopped s else .onward s
  | .error culprit s => .failed culprit s

end StreamFusion
