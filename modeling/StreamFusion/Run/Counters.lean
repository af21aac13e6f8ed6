import StreamFusion.Plan.Basic

/-!
# Counters

The counters of one run of a plan: what is left of every gate, how many elements reached every
indexed step, and how many were handed out. A gate that lets its last element pass seals the run:
the element that is on its way is the last one.
-/

namespace StreamFusion

variable {α : Type}

/-- The counters of one run. -/
structure Counters where
  /-- What is left of every gate. -/
  gates : List Window
  /-- How many elements reached every step with a slot. -/
  slots : List Nat
  /-- How many elements were handed to the closing action. -/
  emitted : Nat
  /-- Did a gate let its last element pass? -/
  isSealed : Bool
deriving DecidableEq, Repr

/-- What a gate says to an element. -/
inductive Admission where
  | through
  | dropped
  /-- The gate let its last element pass before: nothing passes any more. -/
  | shut
deriving DecidableEq, Repr

/-- The counters when a run of a plan starts. -/
def Plan.start (plan : Plan α) : Counters := ⟨plan.gates, List.replicate plan.slots 0, 0, false⟩

/-- What a gate says to the next element, and what is then left of the gate. -/
def Window.ask : Window → Admission × Window
  | ⟨skip + 1, take⟩ => (.dropped, ⟨skip, take⟩)
  | ⟨0, none⟩ => (.through, ⟨0, none⟩)
  | ⟨0, some 0⟩ => (.shut, ⟨0, some 0⟩)
  | ⟨0, some (take + 1)⟩ => (.through, ⟨0, some take⟩)

namespace Counters

/-- The index of the next element that reaches a step; zero for a step without a slot. -/
def index (c : Counters) : Option Nat → Nat
  | none => 0
  | some slot => c.slots.getD slot 0

/-- The counters after an element reached a step. -/
def tick (c : Counters) : Option Nat → Counters
  | none => c
  | some slot => { c with slots := c.slots.set slot (c.index (some slot) + 1) }

/-- What is left of a gate. A number without a gate lets everything pass. -/
def window (c : Counters) (number : Nat) : Window := c.gates.getD number ⟨0, none⟩

/-- The counters after an element came to a gate. The run is sealed when nothing is left. -/
def afterGate (c : Counters) (number : Nat) : Counters :=
  let after := (c.window number).ask
  { c with
    gates := c.gates.set number after.2
    isSealed := c.isSealed || (after.1 == .through && after.2.take == some 0) }

/-- The counters after an element was handed out. -/
def emit (c : Counters) : Counters := { c with emitted := c.emitted + 1 }

/-- The counters after the first `count` elements were passed over by a gate that skips at least
as many. -/
def jump (c : Counters) (number count : Nat) : Counters :=
  { c with gates := c.gates.modify number fun w => { w with skip := w.skip - count } }

end Counters

end StreamFusion
