import StreamFusion.Plan.Compilation
import StreamFusion.Source

/-!
# What is remembered between runs

A pipeline is planned once, a source is classified once, a single-use pipeline runs once and a
one-shot source is opened once. What was done is remembered under the numbers of recipes and
sources, beside the journal of all that happened. An act on this memory may be refused, or end with
a failing callback or for lack of room; what was remembered until then stays.
-/

namespace StreamFusion

variable {α β : Type}

/-- What is remembered of a source. -/
structure SourceMemo where
  /-- How it can be read, once that was asked. -/
  kindOfReading : Option SourceClass
  /-- Was its only cursor given away? -/
  isSpent : Bool
deriving DecidableEq, Repr

/-- What is remembered of a recipe. -/
structure RecipeMemo (α : Type) where
  /-- What planning gave, once it was planned. -/
  verdict : Option (Except Refusal (Plan α))
  /-- Did a terminal run? -/
  isConsumed : Bool

/-- All that is remembered, the next number, and what happened. -/
structure World (α : Type) where
  sources : Nat → SourceMemo
  recipes : Nat → RecipeMemo α
  nextSerial : Nat
  journal : Journal α

/-- Why an act gives no result. -/
inductive Halt (α : Type) where
  | refused (refusal : Refusal)
  /-- A callback failed at an element. -/
  | failed (culprit : α)
  /-- A list was asked to make room for more elements than a list can hold. -/
  | noRoom

/-- An act on what is remembered. -/
abbrev Act (α : Type) := EStateM (Halt α) (World α)

/-- The world in which nothing happened yet. -/
def World.initial : World α :=
  ⟨fun _ => ⟨none, false⟩, fun _ => ⟨none, false⟩, 0, .empty⟩

namespace Act

/-- A number that was not used before. -/
def fresh : Act α Nat :=
  modifyGet fun w => (w.nextSerial, { w with nextSerial := w.nextSerial + 1 })

/-- Writes events into the journal. -/
def record (events : List (Event α)) : Act α Unit :=
  modify fun w => { w with journal := w.journal.record events }

/-- Gives no result for a reason. -/
def refuse (refusal : Refusal) : Act α β := throw (.refused refusal)

/-- What is remembered of a source. -/
def sourceMemo (id : Ident) : Act α SourceMemo := return (← get).sources id.serial

/-- What is remembered of a recipe. -/
def recipeMemo (serial : Nat) : Act α (RecipeMemo α) := return (← get).recipes serial

/-- Changes what is remembered of a source. -/
def updateSource (id : Ident) (change : SourceMemo → SourceMemo) : Act α Unit :=
  modify fun w => { w with
    sources := fun n => if n = id.serial then change (w.sources n) else w.sources n }

/-- Changes what is remembered of a recipe. -/
def updateRecipe (serial : Nat) (change : RecipeMemo α → RecipeMemo α) : Act α Unit :=
  modify fun w => { w with
    recipes := fun n => if n = serial then change (w.recipes n) else w.recipes n }

/-- The answer of a verdict. -/
def ofVerdict : Except Refusal (Plan α) → Act α (Plan α)
  | .ok plan => pure plan
  | .error refusal => refuse refusal

end Act

/-- The plan of a recipe. It is made when it is first asked for, and so is its refusal. -/
def Recipe.plan (recipe : Recipe α) : Act α (Plan α) := do
  match (← Act.recipeMemo recipe.serial).verdict with
  | some verdict => Act.ofVerdict verdict
  | none =>
    let compilation := compile recipe.ops recipe.config
    Act.record (.planned recipe.serial :: compilation.notes.map .noted)
    Act.updateRecipe recipe.serial fun memo => { memo with verdict := some compilation.verdict }
    Act.ofVerdict compilation.verdict

end StreamFusion
