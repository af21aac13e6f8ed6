import StreamFusion.Pipeline.World
import StreamFusion.Run.Loop

/-!
# Opening

How a pipeline comes to its elements: its recipe is planned, and unless the plan lets nothing pass,
its source is opened. To open a source that reads another pipeline is to open that pipeline, and to
run it if its elements have to be collected first. Where elements are collected, room is made for as
many as the plan hints at, before the run; the elements of a list take up at most `maxBytes`.
-/

namespace StreamFusion

variable {α γ : Type}

namespace Source

/-- Finds out how a source can be read. A container must be able to give its first element, unless
it is empty. -/
def classify : Source α → Act α SourceClass
  | .container id box =>
    if box.size = 0 then pure .indexed
    else do
      Act.record [.probed id]
      pure (if (box.get? 0).isSome then .indexed else .sequential)
  | .derived _ (.slice ..) _ _ => pure .indexed
  | _ => pure .sequential

/-- How a source can be read; found out when it is first asked for. -/
def readingClass (source : Source α) : Act α SourceClass := do
  match (← Act.sourceMemo source.id).kindOfReading with
  | some known => pure known
  | none =>
    let found ← source.classify
    Act.updateSource source.id fun memo => { memo with kindOfReading := some found }
    pure found

end Source

/-- Runs a plan over an opened source, to the accumulator and what the run did. -/
def Plan.conduct (plan : Plan α) (opened : Opened α) (sink : Sink α γ) (seed : γ) :
    Act α (γ × Stats) := do
  let finish := plan.run sink seed opened
  Act.record finish.events
  match finish.result with
  | .ok stats =>
    Act.record [.noted (.runFinished stats)]
    pure (finish.acc, stats)
  | .error culprit => throw (.failed culprit)

/-- The largest number of bytes that the elements of a list can take up. -/
def maxBytes : Nat := 0x7FFFFFFFFFFFFFFF

namespace Recipe

/-- Plans a recipe and opens its source. Nothing is opened for a plan that lets nothing pass. -/
def start (recipe : Recipe α) (opening : Act α (Opened α)) : Act α (Option (Plan α × Opened α)) := do
  let plan ← recipe.plan
  if plan.never then
    Act.record [.noted .notOpened]
    pure none
  else
    let opened ← opening
    pure (some (plan, opened))

/-- The results of a recipe, pulled one by one. -/
def openIntake (recipe : Recipe α) (opening : Act α (Opened α)) : Act α (Intake α) := do
  match ← recipe.start opening with
  | some (plan, opened) => pure (plan.intake opened)
  | none => pure (Plan.nothing.intake (.owned []))

/-- Can a list hold that many elements of the width of a recipe? -/
def HasRoom (recipe : Recipe α) (count : Nat) : Prop := count * recipe.width ≤ maxBytes

instance (recipe : Recipe α) (count : Nat) : Decidable (recipe.HasRoom count) :=
  inferInstanceAs (Decidable (_ ≤ _))

/-- Makes room for the results of a plan over an opened source. If there is none, the source is let
go. -/
def reserve (recipe : Recipe α) (plan : Plan α) (opened : Opened α) : Act α Unit :=
  if recipe.HasRoom (plan.capacityHint opened.lengthHint) then pure ()
  else do
    Act.record opened.discard
    throw .noRoom

theorem reserve_of_hasRoom {recipe : Recipe α} {plan : Plan α} {opened : Opened α}
    (h : recipe.HasRoom (plan.capacityHint opened.lengthHint)) :
    recipe.reserve plan opened = pure () := if_pos h

theorem reserve_of_not_hasRoom {recipe : Recipe α} {plan : Plan α} {opened : Opened α}
    (h : ¬ recipe.HasRoom (plan.capacityHint opened.lengthHint)) :
    recipe.reserve plan opened = (do Act.record opened.discard; throw .noRoom) := if_neg h

/-- The results of a recipe, all at once. -/
def collect (recipe : Recipe α) (opening : Act α (Opened α)) : Act α (List α) := do
  match ← recipe.start opening with
  | some (plan, opened) =>
    recipe.reserve plan opened
    let (found, _) ← plan.conduct opened .collect []
    pure found.reverse
  | none => pure []

end Recipe

namespace Source

/-- Opens a source for one run. The only cursor of a one-shot source goes by the name of its
source. -/
def opening : Source α → Act α (Opened α)
  | .container id box => do
    match ← readingClass (.container id box) with
    | .indexed => pure (.indexed id box)
    | .sequential => pure (.sequential (.shelf id box 0))
  | .replay id answers => do
    let cursor : Ident := ⟨← Act.fresh, id.label⟩
    Act.record [.opened cursor]
    pure (.sequential (.cursor cursor answers true))
  | .once id answers => do
    if (← Act.sourceMemo id).isSpent then Act.refuse .sourceRead
    else
      Act.updateSource id fun memo => { memo with isSpent := true }
      Act.record [.taken id]
      pure (.sequential (.cursor id answers true))
  | .derived _ (.map f) base recipe => do
    let intake ← recipe.openIntake base.opening
    pure (.sequential (.mapped f intake))
  | .derived _ (.flatten items) base recipe => do
    let intake ← recipe.openIntake base.opening
    pure (.sequential (.flattened items [] intake))
  | .derived _ (.slice start stop) base recipe => do
    let found ← recipe.collect base.opening
    pure (.owned (sliceItems found start stop))

end Source

end StreamFusion
