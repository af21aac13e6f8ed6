import StreamFusion.Text.Record

/-!
# Configurations

What a pipeline hands on to the pipelines built from it: how often its terminals may run, how its
ranges are compiled, and what happens when there are more ranges than allowed for.
-/

namespace StreamFusion

/-- How often terminals may run on one pipeline. -/
inductive Contract where
  /-- Any number of times. -/
  | repeatable
  /-- Once; every later terminal is refused. -/
  | singleUse
deriving DecidableEq, Repr

/-- How ranges are compiled. -/
inductive RangeMode where
  /-- One skip before every step and one limit after them. -/
  | baseline
  /-- One gate for each range, where the range stands. -/
  | segmented
deriving DecidableEq, Repr

/-- What happens when there are more gates than the cap. -/
inductive Overflow where
  /-- The pipeline is compiled all the same. -/
  | fallback
  /-- The pipeline is refused. -/
  | reject
deriving DecidableEq, Repr

/-- The configuration of a pipeline. -/
structure Config where
  contract : Contract
  rangeMode : RangeMode
  segmentCap : Nat
  overflow : Overflow
deriving DecidableEq, Repr

namespace Config

/-- Repeatable, baseline ranges, four segments, fallback. -/
def standard : Config := ⟨.repeatable, .baseline, 4, .fallback⟩

/-- The standard configuration with segmented ranges. -/
def segmented : Config := { standard with rangeMode := .segmented }

end Config

/-- The name of a contract. -/
def Contract.name : Contract → String
  | .repeatable => "Repeatable"
  | .singleUse => "SingleUse"

/-- The name of a range mode. -/
def RangeMode.name : RangeMode → String
  | .baseline => "Baseline"
  | .segmented => "Segmented"

/-- The name of an overflow behaviour. -/
def Overflow.name : Overflow → String
  | .fallback => "Fallback"
  | .reject => "Reject"

/-- The record of a configuration. -/
def Config.text (config : Config) : String :=
  Text.record "PipelineConfig"
    [("contract", config.contract.name), ("range_mode", config.rangeMode.name),
      ("segment_cap", toString config.segmentCap), ("overflow", config.overflow.name)]

end StreamFusion
