import Mathlib.Tactic.Conv
import StreamFusion.Intake.Pulls

/-!
# Moves and elements

What asking an intake for its next element gives, in terms of its first move, and what it still has
to give, in terms of its next element.
-/

namespace StreamFusion

variable {α : Type}

namespace Intake

theorem next_eq (intake : Intake α) :
    intake.next =
      match intake.pull.answer with
      | .item x => ⟨intake.pull.events, .item x, intake.pull.rest⟩
      | .nothing => ⟨intake.pull.events, .nothing, intake.pull.rest⟩
      | .failed culprit => ⟨intake.pull.events, .failed culprit, intake.pull.rest⟩
      | .again => ⟨intake.pull.events ++ intake.pull.rest.next.events,
          intake.pull.rest.next.outcome, intake.pull.rest.next.rest⟩ := by
  conv_lhs => rw [next]
  split <;> rename_i hpull <;> simp only [hpull]

section Next

variable {intake : Intake α}

theorem next_of_again (h : intake.pull.answer = .again) :
    intake.next = ⟨intake.pull.events ++ intake.pull.rest.next.events,
      intake.pull.rest.next.outcome, intake.pull.rest.next.rest⟩ := by
  rw [next_eq, h]

theorem next_of_item {x : α} (h : intake.pull.answer = .item x) :
    intake.next = ⟨intake.pull.events, .item x, intake.pull.rest⟩ := by
  rw [next_eq, h]

theorem next_of_nothing (h : intake.pull.answer = .nothing) :
    intake.next = ⟨intake.pull.events, .nothing, intake.pull.rest⟩ := by
  rw [next_eq, h]

theorem next_of_failed {culprit : α} (h : intake.pull.answer = .failed culprit) :
    intake.next = ⟨intake.pull.events, .failed culprit, intake.pull.rest⟩ := by
  rw [next_eq, h]

end Next

theorem remaining_eq (intake : Intake α) :
    intake.remaining =
      match intake.pull.answer with
      | .nothing => ⟨intake.pull.events, [], none, intake.pull.rest⟩
      | .failed culprit => ⟨intake.pull.events, [], some culprit, intake.pull.rest⟩
      | .again => ⟨intake.pull.events ++ intake.pull.rest.remaining.events,
          intake.pull.rest.remaining.items, intake.pull.rest.remaining.culprit,
          intake.pull.rest.remaining.rest⟩
      | .item x => ⟨intake.pull.events ++ intake.pull.rest.remaining.events,
          some x :: intake.pull.rest.remaining.items, intake.pull.rest.remaining.culprit,
          intake.pull.rest.remaining.rest⟩ := by
  conv_lhs => rw [remaining]
  split <;> rename_i hpull <;> simp only [hpull]

/-- What an intake still has to give is its next element and what it has to give after that. -/
theorem remaining_eq_next (intake : Intake α) :
    intake.remaining =
      match intake.next.outcome with
      | .nothing => ⟨intake.next.events, [], none, intake.next.rest⟩
      | .failed culprit => ⟨intake.next.events, [], some culprit, intake.next.rest⟩
      | .item x => ⟨intake.next.events ++ intake.next.rest.remaining.events,
          some x :: intake.next.rest.remaining.items, intake.next.rest.remaining.culprit,
          intake.next.rest.remaining.rest⟩ := by
  have hfinite := intake.finite
  induction hfinite with
  | intro intake _ ih =>
    rw [next_eq]
    cases hanswer : intake.pull.answer with
    | item x => rw [remaining_eq, hanswer]
    | nothing => rw [remaining_eq, hanswer]
    | failed culprit => rw [remaining_eq, hanswer]
    | again =>
      have hlater := ih intake.pull.rest ⟨rfl, by rw [hanswer]; simp⟩
      rw [remaining_eq, hanswer]
      simp only
      rw [hlater]
      cases intake.pull.rest.next.outcome with
      | item x => simp only [List.append_assoc]
      | nothing => rfl
      | failed culprit => rfl

end Intake

end StreamFusion
