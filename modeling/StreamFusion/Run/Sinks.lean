import StreamFusion.Run.Feed

/-!
# Closing actions

What every terminal does with an element that came through the plan, and with its emitted index.
Lists are collected with the latest element first.
-/

namespace StreamFusion

variable {α β γ : Type}

/-- Calls a callback at an element and goes on as its answer says. -/
def Closing.ofCall (f : Callback α β) (x : α) (index : Nat) (next : β → γ × Flow) : Closing α γ :=
  ⟨[f.event x index], (f.answer x index).map next⟩

namespace Sink

/-- Collects all elements. -/
def collect : Sink α (List α) := fun acc x _ => ⟨[], some (x :: acc, .onward)⟩

/-- Collects the answers of a callback, with the emitted indices. -/
def answers (f : Callback α β) : Sink α (List (β × Nat)) := fun acc x index =>
  .ofCall f x index fun y => ((y, index) :: acc, .onward)

/-- Collects elements until one satisfies `fails`, and keeps that one apart. -/
def untilFailure (fails : Callback α Bool) : Sink α (List α × Option α) := fun acc x index =>
  .ofCall fails x index fun failed =>
    if failed then ((acc.1, some x), .stop) else ((x :: acc.1, none), .onward)

/-- Folds all elements into an accumulator. -/
def fold (f : Combiner α γ) : Sink α γ := fun acc x index =>
  .ofCall (f.onto acc) x index fun acc => (acc, .onward)

/-- Folds all elements into the first one. -/
def reduce (f : Combiner α α) : Sink α (Option α) := fun acc x index =>
  match acc with
  | none => ⟨[], some (some x, .onward)⟩
  | some acc => .ofCall (f.onto acc) x index fun acc => (some acc, .onward)

/-- Looks for an element that satisfies `p`. -/
def any (p : Callback α Bool) : Sink α Bool := fun _ x index =>
  .ofCall p x index fun holds => if holds then (true, .stop) else (false, .onward)

/-- Looks for an element that does not satisfy `p`. -/
def all (p : Callback α Bool) : Sink α Bool := fun _ x index =>
  .ofCall p x index fun holds => if holds then (true, .onward) else (false, .stop)

/-- Looks for the first element that satisfies `p`. -/
def find (p : Callback α Bool) : Sink α (Option α) := fun _ x index =>
  .ofCall p x index fun holds => if holds then (some x, .stop) else (none, .onward)

/-- Lets all elements go; the run counts them. -/
def count : Sink α Unit := fun _ _ _ => ⟨[], some ((), .onward)⟩

/-- Stops at the first element. -/
def first : Sink α Bool := fun _ _ _ => ⟨[], some (true, .stop)⟩

end Sink

end StreamFusion
