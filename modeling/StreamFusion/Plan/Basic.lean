import StreamFusion.Operation.Basic

/-!
# Plans

A plan is the list of steps that every element goes through, with the counters they need: gates for
the ranges, and slots for the indices of callbacks. Gates and slots are numbered from zero. Counts
of elements are 64-bit: sums of counts stop at the largest one, differences at zero.
-/

namespace StreamFusion

variable {α : Type}

/-- The largest count. -/
def maxCount : Nat := 0xFFFFFFFFFFFFFFFF

/-- A sum of counts, at most the largest count. -/
def addCount (a b : Nat) : Nat := min (a + b) maxCount

/-- A gate drops `skip` elements and then lets `take` pass, all of them without `take`. -/
structure Window where
  skip : Nat
  take : Option Nat
deriving DecidableEq, Repr

/-- One step of a plan. A step with a slot counts the elements that reach it. -/
inductive Step (α : Type) where
  /-- Replaces the element. -/
  | map (f : Callback α α) (slot : Option Nat)
  /-- Drops the element if it fails the test. -/
  | test (p : Callback α Bool) (slot : Option Nat)
  /-- Sends every element of the expansion through the rest of the plan. -/
  | expand (f : Callback α (List α)) (slot : Option Nat)
  /-- Asks the gate of this number. -/
  | gate (number : Nat)

/-- Is the step a gate? -/
def Step.isGate : Step α → Bool
  | .gate _ => true
  | _ => false

/-- Is the step an expansion? -/
def Step.isExpand : Step α → Bool
  | .expand .. => true
  | _ => false

/-- Is the step a test? -/
def Step.isTest : Step α → Bool
  | .test .. => true
  | _ => false

/-- A compiled list of operations. -/
structure Plan (α : Type) where
  steps : List (Step α)
  /-- The gates as they are when a run starts. -/
  gates : List Window
  /-- The number of index counters. -/
  slots : Nat
  /-- The sum of the starts of all ranges. -/
  skipInitial : Nat
  /-- The limit of all ranges together. -/
  maxEmits : Option Nat
  /-- Does a callback take an index? -/
  needsIndex : Bool
  /-- Is it certain that nothing passes? -/
  never : Bool

/-- What can be told of a plan. -/
structure PlanSummary where
  steps : Nat
  skipInitial : Nat
  maxEmits : Option Nat
  needsIndex : Bool
  never : Bool
  gates : List Window
deriving DecidableEq, Repr

namespace Plan

/-- The plan that lets nothing pass. -/
def nothing : Plan α := ⟨[], [], 0, 0, some 0, false, true⟩

/-- What can be told of a plan. Gates are not counted among the steps. -/
def summary (plan : Plan α) : PlanSummary where
  steps := plan.steps.countP (!·.isGate)
  skipInitial := plan.skipInitial
  maxEmits := plan.maxEmits
  needsIndex := plan.needsIndex
  never := plan.never
  gates := plan.gates

/-- The gate that every element meets first, if the plan begins with one. -/
def leadingGate (plan : Plan α) : Option Nat :=
  match plan.steps with
  | .gate number :: _ => some number
  | _ => none

/-- How many results to make room for, from the length of the source if it is known. The length
alone is used only where no step drops or adds elements. -/
def capacityHint (plan : Plan α) (sourceLength : Option Nat) : Nat :=
  let expands := plan.steps.any Step.isExpand
  let tests := plan.steps.any Step.isTest
  match plan.maxEmits, sourceLength with
  | some most, length => if !expands then min most (length.getD most) else 0
  | none, some length => if !expands && !tests then length else 0
  | none, none => 0

end Plan

/-- The record of a gate. -/
def Window.text (w : Window) : String :=
  Text.record "GateSpec" [("skip", toString w.skip), ("take", Text.optionalCount w.take)]

/-- The record of a summary. -/
def PlanSummary.text (s : PlanSummary) : String :=
  Text.record "PlanSummary"
    [("steps", toString s.steps), ("skip_initial", toString s.skipInitial),
      ("max_emits", Text.optionalCount s.maxEmits), ("needs_index", Text.truth s.needsIndex),
      ("never", Text.truth s.never), ("gates", Text.listing (s.gates.map Window.text))]

end StreamFusion
