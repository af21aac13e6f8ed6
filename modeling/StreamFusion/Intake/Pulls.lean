import StreamFusion.Intake.Next

/-!
# Pulling several elements

What an iterator gives when it is asked a number of times, and what it still has to give.
-/

namespace StreamFusion

variable {α : Type}

/-- What a number of pulls gave, until a callback failed. -/
structure Pulls (α : Type) where
  events : List (Event α)
  items : List (Option α)
  culprit : Option α
  rest : Intake α

namespace Intake

/-- Asks for the next element a number of times. -/
def nextTimes : Nat → Intake α → Pulls α
  | 0, intake => ⟨[], [], none, intake⟩
  | count + 1, intake =>
    let fetched := intake.next
    match fetched.outcome with
    | .failed culprit => ⟨fetched.events, [], some culprit, fetched.rest⟩
    | .item x =>
      let later := nextTimes count fetched.rest
      ⟨fetched.events ++ later.events, some x :: later.items, later.culprit, later.rest⟩
    | .nothing =>
      let later := nextTimes count fetched.rest
      ⟨fetched.events ++ later.events, none :: later.items, later.culprit, later.rest⟩

/-- Moves on until a callback fails or there is nothing more, and gathers the elements. -/
def remaining (intake : Intake α) : Pulls α :=
  match _moved : intake.pull with
  | ⟨events, .nothing, rest⟩ => ⟨events, [], none, rest⟩
  | ⟨events, .failed culprit, rest⟩ => ⟨events, [], some culprit, rest⟩
  | ⟨events, .again, rest⟩ =>
    let later := rest.remaining
    ⟨events ++ later.events, later.items, later.culprit, later.rest⟩
  | ⟨events, .item x, rest⟩ =>
    let later := rest.remaining
    ⟨events ++ later.events, some x :: later.items, later.culprit, later.rest⟩
termination_by intake
decreasing_by all_goals exact follows_of_pull _moved (by simp)

end Intake

end StreamFusion
