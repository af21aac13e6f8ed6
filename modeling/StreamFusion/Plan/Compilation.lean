import StreamFusion.Config
import StreamFusion.Refusal
import StreamFusion.Plan.Basic

/-!
# Compilation of operations

A draft reads the operations from left to right. It collects the steps, hands out counters, and
composes the ranges into one window: in baseline mode the later range cuts into the earlier one, in
segmented mode every range gets a gate of its own. Whether the draft makes a plan is decided at the
end.
-/

namespace StreamFusion

variable {α : Type}

/-- What is known after reading the first operations. -/
structure Draft (α : Type) where
  steps : List (Step α)
  gates : List Window
  slots : Nat
  skipInitial : Nat
  maxEmits : Option Nat
  /-- The first filter or flatten. -/
  reshaping : Option String
  /-- The limit in force at the first flatten that met one. -/
  limitBeforeFlatten : Option Nat
  /-- Was there a filter that keeps nothing? -/
  never : Bool

namespace Draft

/-- The draft of no operations. -/
def empty : Draft α := ⟨[], [], 0, 0, none, none, none, false⟩

/-- The next counter, for a callback that takes an index. -/
def slot (d : Draft α) (indexed : Bool) : Option Nat := if indexed then some d.slots else none

/-- The number of counters after such a callback. -/
def slotsAfter (d : Draft α) (indexed : Bool) : Nat := if indexed then d.slots + 1 else d.slots

/-- The smaller one of two limits that may be absent. -/
def tighter : Option Nat → Option Nat → Option Nat
  | some a, some b => some (min a b)
  | some a, none => some a
  | none, b => b

/-- The limit after a range. A baseline start also takes away from the earlier limit. -/
def limitAfter (mode : RangeMode) (limit : Option Nat) (start : Nat) (stop : Option Nat) :
    Option Nat :=
  let shift := match mode with
    | .baseline => start
    | .segmented => 0
  tighter (limit.map (· - shift)) (stop.map (· - start))

/-- The draft after one more operation. -/
def add (mode : RangeMode) (d : Draft α) : Op α → Draft α
  | .transform f =>
    { d with
      steps := d.steps ++ [.map f (d.slot f.indexed)]
      slots := d.slotsAfter f.indexed }
  | .filter test _ =>
    { d with
      steps := d.steps ++ [.test test (d.slot test.indexed)]
      slots := d.slotsAfter test.indexed
      reshaping := d.reshaping.or (some "filter") }
  | .never _ _ => { d with reshaping := d.reshaping.or (some "filter"), never := true }
  | .flatten expand =>
    { d with
      steps := d.steps ++ [.expand expand (d.slot expand.indexed)]
      slots := d.slotsAfter expand.indexed
      reshaping := d.reshaping.or (some "flatten")
      limitBeforeFlatten := d.limitBeforeFlatten.or d.maxEmits }
  | .range start stop =>
    let d := { d with
      skipInitial := addCount d.skipInitial start
      maxEmits := limitAfter mode d.maxEmits start stop }
    match mode with
    | .baseline => d
    | .segmented =>
      if start = 0 ∧ stop = none then d
      else { d with
        steps := d.steps ++ [.gate d.gates.length]
        gates := d.gates ++ [⟨start, stop.map (· - start)⟩] }

/-- The draft of a list of operations. -/
def ofOps (mode : RangeMode) (ops : List (Op α)) : Draft α := ops.foldl (add mode) empty

/-- The draft as a plan, with its gates where they are. -/
def toPlan (d : Draft α) : Plan α where
  steps := d.steps
  gates := d.gates
  slots := d.slots
  skipInitial := d.skipInitial
  maxEmits := d.maxEmits
  needsIndex := 0 < d.slots
  never := false

/-- A skip becomes a gate in front of all steps. -/
def withLeadingGate (d : Draft α) : Draft α :=
  if d.skipInitial = 0 then d
  else { d with
    gates := d.gates ++ [⟨d.skipInitial, none⟩]
    steps := .gate d.gates.length :: d.steps }

/-- A limit becomes a gate behind all steps. -/
def withTrailingGate (d : Draft α) : Draft α :=
  match d.maxEmits with
  | none => d
  | some most => { d with
    gates := d.gates ++ [⟨0, some most⟩]
    steps := d.steps ++ [.gate d.gates.length] }

/-- The baseline plan. A skip would count elements that a filter or a flatten has yet to see, and a
limit in front of a flatten would count its results, so both are refused. -/
def baselinePlan (d : Draft α) : Except Refusal (Plan α) :=
  match d.reshaping, d.limitBeforeFlatten with
  | some construct, limit =>
    if d.skipInitial ≠ 0 then .error (.skipWithFilter d.skipInitial construct)
    else
      match limit with
      | some take => .error (.limitBeforeFlatten take)
      | none => .ok d.withTrailingGate.toPlan
  | none, _ => .ok d.withLeadingGate.withTrailingGate.toPlan

end Draft

/-- What planning gives: the plan or a refusal, and the notes written on the way. -/
structure Compilation (α : Type) where
  verdict : Except Refusal (Plan α)
  notes : List Note

namespace Compilation

/-- The compilation that ends in a plan. -/
def accepted (plan : Plan α) (before : List Note) : Compilation α where
  verdict := .ok plan
  notes := before ++
    [.compiled plan.steps.length plan.gates.length plan.skipInitial plan.maxEmits plan.slots]

/-- The compilation that ends in a refusal. -/
def refused (refusal : Refusal) : Compilation α := ⟨.error refusal, []⟩

/-- The compilation of a draft. -/
def ofDraft (config : Config) (d : Draft α) : Compilation α :=
  if d.never ∨ d.maxEmits = some 0 then ⟨.ok .nothing, [.staticallyEmpty]⟩
  else
    match config.rangeMode with
    | .baseline =>
      match d.baselinePlan with
      | .ok plan => accepted plan []
      | .error refusal => refused refusal
    | .segmented =>
      let segments := d.gates.length
      if segments ≤ config.segmentCap then accepted d.toPlan []
      else
        match config.overflow with
        | .reject => refused (.tooManySegments segments config.segmentCap)
        | .fallback => accepted d.toPlan [.segmentsExceedCap segments config.segmentCap]

end Compilation

/-- Plans a list of operations under a configuration. -/
def compile (ops : List (Op α)) (config : Config) : Compilation α :=
  .ofDraft config (.ofOps config.rangeMode ops)

end StreamFusion
