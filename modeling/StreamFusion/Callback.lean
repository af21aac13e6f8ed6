import StreamFusion.Event

/-!
# Callbacks

The functions that users hand in. A callback answers from the element and, if it takes one, the
index; it may fail, which ends the run that called it. Every call is an event.
-/

namespace StreamFusion

variable {α β γ : Type}

/-- A function of an element and its index. `run` gives `none` where the callback fails. -/
structure Callback (α β : Type) where
  label : Option String
  indexed : Bool
  run : α → Nat → Option β

namespace Callback

/-- A callback that never fails, takes no index and is not followed by an observer. -/
def plain (f : α → β) : Callback α β := ⟨none, false, fun x _ => some (f x)⟩

/-- The answer to one call; a callback that takes no index sees zero. -/
def answer (f : Callback α β) (x : α) (index : Nat) : Option β :=
  f.run x (if f.indexed then index else 0)

/-- The event of one call. -/
def event (f : Callback α β) (x : α) (index : Nat) : Event α :=
  .called f.label x (if f.indexed then some index else none)

end Callback

/-- A function that folds an element and its index into an accumulator. -/
structure Combiner (α γ : Type) where
  label : Option String
  indexed : Bool
  run : γ → α → Nat → Option γ

/-- The callback that folds elements into one accumulator. -/
def Combiner.onto (f : Combiner α γ) (acc : γ) : Callback α γ := ⟨f.label, f.indexed, f.run acc⟩

end StreamFusion
