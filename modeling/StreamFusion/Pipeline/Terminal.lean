import StreamFusion.Pipeline.Opening
import StreamFusion.Run.Sinks

/-!
# Terminals

What sets a pipeline going. A terminal of a single-use pipeline first claims it, then the pipeline
is planned and opened, and one run hands every element that comes through to the closing action.
-/

namespace StreamFusion

variable {α β γ : Type}

namespace Pipeline

/-- Refuses a second terminal on a single-use pipeline. -/
def claim (p : Pipeline α) : Act α Unit := do
  match p.recipe.config.contract with
  | .repeatable => pure ()
  | .singleUse =>
    if (← Act.recipeMemo p.recipe.serial).isConsumed then Act.refuse .terminalRan
    else Act.updateRecipe p.recipe.serial fun memo => { memo with isConsumed := true }

/-- Claims a pipeline and runs it; there is no run if the plan lets nothing pass. -/
def runWith? (p : Pipeline α) (sink : Sink α γ) (seed : γ) : Act α (Option (γ × Stats)) := do
  p.claim
  match ← p.recipe.start p.source.opening with
  | some (plan, opened) => some <$> plan.conduct opened sink seed
  | none => pure none

/-- Claims a pipeline and runs it; without a run, the answer is the seed. -/
def runWith (p : Pipeline α) (sink : Sink α γ) (seed : γ) : Act α γ := do
  match ← p.runWith? sink seed with
  | some (acc, _) => pure acc
  | none => pure seed

/-- All elements. -/
def toList (p : Pipeline α) : Act α (List α) := do
  p.claim
  p.recipe.collect p.source.opening

/-- The answers of a callback at all elements, with the emitted indices. -/
def forEach (p : Pipeline α) (f : Callback α β) : Act α (List (β × Nat)) :=
  return (← p.runWith (.answers f) []).reverse

/-- The elements before the first one that fails, and that one if there is one. -/
def tryForEach (p : Pipeline α) (fails : Callback α Bool) : Act α (List α × Option α) := do
  let (kept, failed) ← p.runWith (.untilFailure fails) ([], none)
  return (kept.reverse, failed)

/-- All elements, folded into a seed. -/
def fold (p : Pipeline α) (f : Combiner α γ) (seed : γ) : Act α γ := p.runWith (.fold f) seed

/-- All elements, folded into the first one. -/
def reduce (p : Pipeline α) (f : Combiner α α) : Act α α := do
  match ← p.runWith (.reduce f) none with
  | some acc => pure acc
  | none => Act.refuse .emptyReduce

/-- Does an element satisfy `test`? -/
def any (p : Pipeline α) (test : Callback α Bool) : Act α Bool := p.runWith (.any test) false

/-- Do all elements satisfy `test`? -/
def all (p : Pipeline α) (test : Callback α Bool) : Act α Bool := p.runWith (.all test) true

/-- The first element that satisfies `test`. -/
def find (p : Pipeline α) (test : Callback α Bool) : Act α (Option α) :=
  p.runWith (.find test) none

/-- The number of elements. -/
def count (p : Pipeline α) : Act α Nat := do
  match ← p.runWith? .count () with
  | some (_, stats) => pure stats.emitted
  | none => pure 0

/-- Is there no element? -/
def isEmpty (p : Pipeline α) : Act α Bool := return !(← p.runWith .first false)

/-- The elements, to be pulled one by one. -/
def iterate (p : Pipeline α) : Act α (Intake α) := do
  p.claim
  p.recipe.openIntake p.source.opening

end Pipeline

end StreamFusion
