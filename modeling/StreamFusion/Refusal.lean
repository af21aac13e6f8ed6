import StreamFusion.Text.Record

/-!
# Refusals

Why a pipeline gives no result. A callback that fails is not a refusal: it ends the run that called
it, and its culprit is reported apart.
-/

namespace StreamFusion

/-- A reason why a pipeline gives no result. -/
inductive Refusal where
  /-- Baseline ranges skip elements, and a filter or a flatten is among the operations. -/
  | skipWithFilter (skip : Nat) (construct : String)
  /-- A baseline limit stands before a flatten. -/
  | limitBeforeFlatten (take : Nat)
  /-- There is no element to reduce. -/
  | emptyReduce
  /-- The pipeline, or its one-shot source, was used before. -/
  | consumed (what : String)
  /-- There are more segments than the configuration allows. -/
  | tooManySegments (segments cap : Nat)
deriving DecidableEq, Repr

namespace Refusal

/-- The refusal of a second terminal on a single-use pipeline. -/
def terminalRan : Refusal := .consumed "a terminal already ran on this pipeline"

/-- The refusal of a second reading of a one-shot source. -/
def sourceRead : Refusal := .consumed "one-shot source was already read"

/-- What a reader is told. -/
def message : Refusal → String
  | .skipWithFilter skip construct =>
    "drop/range with start " ++ toString skip ++ " cannot be combined with " ++ construct ++
      ": the skip counts source elements, not elements that pass the " ++ construct ++
      "; use take/range(0, n) only, or enable RangeMode::Segmented"
  | .limitBeforeFlatten take =>
    "take/range with limit " ++ toString take ++
      " cannot precede flatten: the limit would count flattened elements, not source elements; " ++
      "move the take after the flatten, or enable RangeMode::Segmented"
  | .emptyReduce => "reduce of an empty pipeline with no seed value"
  | .consumed what => "pipeline already consumed: " ++ what
  | .tooManySegments segments cap =>
    "pipeline has " ++ toString segments ++ " range segments (max: " ++ toString cap ++ ")"

/-- The name of the kind of refusal. -/
def kind : Refusal → String
  | .skipWithFilter .. => "SkipWithFilter"
  | .limitBeforeFlatten .. => "LimitBeforeFlatten"
  | .emptyReduce => "EmptyReduce"
  | .consumed .. => "Consumed"
  | .tooManySegments .. => "TooManySegments"

/-- The record of a refusal. -/
def text (refusal : Refusal) : String :=
  match refusal with
  | .skipWithFilter skip construct =>
    Text.record refusal.kind [("skip", toString skip), ("construct", Text.quoted construct)]
  | .limitBeforeFlatten take => Text.record refusal.kind [("take", toString take)]
  | .emptyReduce => refusal.kind
  | .consumed what => Text.tagged refusal.kind (Text.quoted what)
  | .tooManySegments segments cap =>
    Text.record refusal.kind [("segments", toString segments), ("cap", toString cap)]

end Refusal

end StreamFusion
