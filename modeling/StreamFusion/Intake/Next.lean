import StreamFusion.Intake.Basic

/-!
# Pulling to the next element

An intake can make only finitely many moves before it has nothing more to give, however deep it is
nested: every move takes an element from the bottom, or one of the elements that are ready above it.
So moves can be repeated until an element comes, with no bound on their number given beforehand.
-/

namespace StreamFusion

variable {α : Type}

namespace Intake

/-- The intake `later` is what one move of `earlier` leaves, if that move was not the last. -/
def Follows (later earlier : Intake α) : Prop :=
  earlier.pull.rest = later ∧ earlier.pull.answer ≠ .nothing

/-- From the intake only finitely many moves are possible. -/
abbrev Finite (intake : Intake α) : Prop := Acc Follows intake

theorem finite_of_pull {intake : Intake α}
    (h : intake.pull.answer ≠ .nothing → Finite intake.pull.rest) : Finite intake :=
  Acc.intro _ fun _ hf => hf.1 ▸ h hf.2

theorem finite_shelf (source : Ident) (box : Container α) (position : Nat) :
    Finite (.shelf source box position) := by
  induction h : box.size - position generalizing position with
  | zero =>
    refine finite_of_pull fun hne => absurd ?_ hne
    simp [pull, Nat.not_lt.2 (Nat.le_of_sub_eq_zero h)]
  | succ n ih =>
    refine finite_of_pull fun hne => ?_
    have hlt : position < box.size := by omega
    cases hg : box.get? position with
    | none => simp [pull, hlt, hg] at hne
    | some x =>
      simp only [pull, hlt, hg, if_true]
      exact ih (position + 1) (by omega)

theorem finite_owned (items : List α) : Finite (.owned items) := by
  induction items with
  | nil => exact finite_of_pull fun hne => absurd rfl hne
  | cons x items ih => exact finite_of_pull fun _ => ih

theorem finite_cursor (source : Ident) (answers : List (Option α)) (isOpen : Bool) :
    Finite (.cursor source answers isOpen) := by
  induction answers with
  | nil => cases isOpen <;> exact finite_of_pull fun hne => absurd rfl hne
  | cons answer answers ih =>
    cases isOpen with
    | false => exact finite_of_pull fun hne => absurd (by simp [pull]) hne
    | true =>
      cases answer with
      | none => exact finite_of_pull fun hne => absurd rfl hne
      | some x => exact finite_of_pull fun _ => ih

theorem finite_staged_finished (plan : Plan α) (counters : Counters) (ready : List α)
    (below : Intake α) : Finite (.staged plan counters ready true below) := by
  induction ready with
  | nil => exact finite_of_pull fun hne => absurd rfl hne
  | cons x ready ih => exact finite_of_pull fun _ => ih

theorem finite_staged_of_empty {plan : Plan α} {finished : Bool} {below : Intake α}
    (h : ∀ counters, Finite (.staged plan counters [] finished below)) (counters : Counters)
    (ready : List α) : Finite (.staged plan counters ready finished below) := by
  induction ready with
  | nil => exact h counters
  | cons x ready ih => exact finite_of_pull fun _ => ih

theorem finite_stage {plan : Plan α} {below : Intake α}
    (h : ∀ counters ready, Finite (.staged plan counters ready false below)) (counters : Counters)
    (before : List (Event α)) (x : α) : Finite (stage plan counters before x below).rest := by
  unfold stage
  split
  · exact h _ _
  · exact finite_staged_finished _ _ _ _
  · exact h _ _

theorem finite_staged {below : Intake α} (h : Finite below) (plan : Plan α) (counters : Counters)
    (ready : List α) (finished : Bool) : Finite (.staged plan counters ready finished below) := by
  induction h generalizing counters ready finished with
  | intro below _ ih =>
    cases finished with
    | true => exact finite_staged_finished _ _ _ _
    | false =>
      refine finite_staged_of_empty (fun counters => finite_of_pull fun hne => ?_) _ _
      have ih' := fun hn => ih below.pull.rest ⟨rfl, hn⟩
      rcases hp : below.pull with ⟨events, answer, rest⟩
      rw [hp] at ih'
      cases answer with
      | item x =>
        simp only [pull, hp]
        exact finite_stage (fun c r => ih' (by simp) c r false) _ _ _
      | nothing => simp [pull, hp] at hne
      | again =>
        simp only [pull, hp]
        exact ih' (by simp) _ _ _
      | failed culprit =>
        simp only [pull, hp]
        exact ih' (by simp) _ _ _

theorem finite_mapped {below : Intake α} (h : Finite below) (f : Callback α α) :
    Finite (.mapped f below) := by
  induction h with
  | intro below _ ih =>
    refine finite_of_pull fun hne => ?_
    have ih' := fun hn => ih below.pull.rest ⟨rfl, hn⟩
    rcases hp : below.pull with ⟨events, answer, rest⟩
    rw [hp] at ih'
    cases answer with
    | item x =>
      simp only [pull, hp]
      unfold replace
      split <;> exact ih' (by simp)
    | nothing => simp [pull, hp] at hne
    | again =>
      simp only [pull, hp]
      exact ih' (by simp)
    | failed culprit =>
      simp only [pull, hp]
      exact ih' (by simp)

theorem finite_flattened {below : Intake α} (h : Finite below) (items : α → List α)
    (ready : List α) : Finite (.flattened items ready below) := by
  induction h generalizing ready with
  | intro below _ ih =>
    induction ready with
    | cons x ready ihr => exact finite_of_pull fun _ => ihr
    | nil =>
      refine finite_of_pull fun hne => ?_
      have ih' := fun hn => ih below.pull.rest ⟨rfl, hn⟩
      rcases hp : below.pull with ⟨events, answer, rest⟩
      rw [hp] at ih'
      cases answer with
      | item x =>
        simp only [pull, hp]
        exact ih' (by simp) _
      | nothing => simp [pull, hp] at hne
      | again =>
        simp only [pull, hp]
        exact ih' (by simp) _
      | failed culprit =>
        simp only [pull, hp]
        exact ih' (by simp) _

/-- Every intake can make only finitely many moves. -/
theorem finite (intake : Intake α) : Finite intake := by
  induction intake with
  | shelf source box position => exact finite_shelf _ _ _
  | owned items => exact finite_owned _
  | cursor source answers isOpen => exact finite_cursor _ _ _
  | staged plan counters ready finished below ih => exact finite_staged ih _ _ _ _
  | mapped f below ih => exact finite_mapped ih _
  | flattened items ready below ih => exact finite_flattened ih _ _
  | spent => exact finite_of_pull fun hne => absurd rfl hne

instance : WellFoundedRelation (Intake α) := ⟨Follows, ⟨finite⟩⟩

theorem follows_of_pull {intake rest : Intake α} {events : List (Event α)} {answer : Answer α}
    (h : intake.pull = ⟨events, answer, rest⟩) (hne : answer ≠ .nothing) :
    Follows rest intake := by
  simp [Follows, h, hne]

/-- What asking for the next element gives. -/
inductive Outcome (α : Type) where
  /-- The next element. -/
  | item (x : α)
  /-- There are no more elements. -/
  | nothing
  /-- A callback failed at an element. -/
  | failed (culprit : α)

/-- What happened until the next element came, or none did, and the intake after it. -/
structure Fetched (α : Type) where
  events : List (Event α)
  outcome : Outcome α
  rest : Intake α

/-- Moves on until an element comes, a callback fails or there is nothing more. -/
def next (intake : Intake α) : Fetched α :=
  match _moved : intake.pull with
  | ⟨events, .item x, rest⟩ => ⟨events, .item x, rest⟩
  | ⟨events, .nothing, rest⟩ => ⟨events, .nothing, rest⟩
  | ⟨events, .failed x, rest⟩ => ⟨events, .failed x, rest⟩
  | ⟨events, .again, rest⟩ =>
    let later := rest.next
    ⟨events ++ later.events, later.outcome, later.rest⟩
termination_by intake
decreasing_by exact follows_of_pull _moved (by simp)

end Intake

end StreamFusion
