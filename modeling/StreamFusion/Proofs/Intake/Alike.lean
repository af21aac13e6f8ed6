import StreamFusion.Proofs.Intake.Moves
import StreamFusion.Proofs.Run.Draining

/-!
# Intakes that differ in their cursors

Every run over a replayed source gets a cursor of its own, and all of these cursors answer alike.
Intakes that differ only in which cursors they hold give the same answers, move by move
(`Intake.Alike.pull`), so runs over them come to the same result (`Plan.run_alike`).
-/

namespace StreamFusion

variable {α γ : Type}

/-- The intakes differ at most in the names of the cursors that they hold. -/
inductive Intake.Alike : Intake α → Intake α → Prop where
  | same (intake : Intake α) : Alike intake intake
  | cursor (c d : Ident) (answers : List (Option α)) (isOpen : Bool) :
      Alike (.cursor c answers isOpen) (.cursor d answers isOpen)
  | staged (plan : Plan α) (counters : Counters) (ready : List α) (finished : Bool)
      {below other : Intake α} (h : Alike below other) :
      Alike (.staged plan counters ready finished below)
        (.staged plan counters ready finished other)
  | mapped (f : Callback α α) {below other : Intake α} (h : Alike below other) :
      Alike (.mapped f below) (.mapped f other)
  | flattened (items : α → List α) (ready : List α) {below other : Intake α}
      (h : Alike below other) : Alike (.flattened items ready below) (.flattened items ready other)

/-- The moves give the same answer and leave intakes that are alike. -/
structure Move.Alike (move other : Move α) : Prop where
  answer_eq : move.answer = other.answer
  rest : move.rest.Alike other.rest

namespace Intake

variable {intake other : Intake α}

theorem Alike.close (h : intake.Alike other) : intake.close.2.Alike other.close.2 := by
  cases h with
  | same => exact .same _
  | cursor c d answers isOpen => cases isOpen <;> exact .cursor ..
  | staged plan counters ready finished h => exact .staged _ _ _ _ h
  | mapped f h => exact .mapped f h
  | flattened items ready h => exact .flattened items ready h

theorem stage_alike (plan : Plan α) (counters : Counters) (before before' : List (Event α)) (x : α)
    (h : intake.Alike other) :
    (stage plan counters before x intake).Alike (stage plan counters before' x other) := by
  unfold stage
  cases plan.feed Sink.collect x ⟨counters, [], .empty⟩ with
  | onward s => exact ⟨rfl, .staged _ _ _ _ h⟩
  | stopped s => exact ⟨rfl, .staged _ _ _ _ h.close⟩
  | failed culprit s => exact ⟨rfl, .staged _ _ _ _ h⟩

theorem replace_alike (f : Callback α α) (before before' : List (Event α)) (x : α)
    (h : intake.Alike other) :
    (replace f before x intake).Alike (replace f before' x other) := by
  unfold replace
  cases f.answer x 0 with
  | none => exact ⟨rfl, .mapped f h⟩
  | some y => exact ⟨rfl, .mapped f h⟩

/-- One move of intakes that are alike. -/
theorem Alike.pull (h : intake.Alike other) : intake.pull.Alike other.pull := by
  induction h with
  | same intake => exact ⟨rfl, .same _⟩
  | cursor c d answers isOpen =>
    cases isOpen with
    | false => exact ⟨by simp only [Intake.pull], by simp only [Intake.pull]; exact .cursor ..⟩
    | true => rcases answers with _ | ⟨_ | x, answers⟩ <;> exact ⟨rfl, .cursor ..⟩
  | staged plan counters ready finished h ih =>
    cases ready with
    | cons x ready => exact ⟨rfl, .staged _ _ _ _ h⟩
    | nil =>
      cases finished with
      | true => exact ⟨rfl, .staged _ _ _ _ h⟩
      | false =>
        obtain ⟨hanswer, hrest⟩ := ih
        rename_i below other
        rcases hmove : below.pull with ⟨events, answer, rest⟩
        rcases hother : other.pull with ⟨events', answer', rest'⟩
        rw [hmove, hother] at hanswer hrest
        subst hanswer
        rw [Intake.pull, Intake.pull, hmove, hother]
        cases answer with
        | item x => exact stage_alike plan counters events events' x hrest
        | nothing => exact ⟨rfl, .staged _ _ _ _ hrest⟩
        | again => exact ⟨rfl, .staged _ _ _ _ hrest⟩
        | failed culprit => exact ⟨rfl, .staged _ _ _ _ hrest⟩
  | mapped f h ih =>
    obtain ⟨hanswer, hrest⟩ := ih
    rename_i below other
    rcases hmove : below.pull with ⟨events, answer, rest⟩
    rcases hother : other.pull with ⟨events', answer', rest'⟩
    rw [hmove, hother] at hanswer hrest
    subst hanswer
    rw [Intake.pull, Intake.pull, hmove, hother]
    cases answer with
    | item x => exact replace_alike f events events' x hrest
    | nothing => exact ⟨rfl, .mapped f hrest⟩
    | again => exact ⟨rfl, .mapped f hrest⟩
    | failed culprit => exact ⟨rfl, .mapped f hrest⟩
  | flattened items ready h ih =>
    cases ready with
    | cons x ready => exact ⟨rfl, .flattened _ _ h⟩
    | nil =>
      obtain ⟨hanswer, hrest⟩ := ih
      rename_i below other
      rcases hmove : below.pull with ⟨events, answer, rest⟩
      rcases hother : other.pull with ⟨events', answer', rest'⟩
      rw [hmove, hother] at hanswer hrest
      subst hanswer
      rw [Intake.pull, Intake.pull, hmove, hother]
      cases answer with
      | item x => exact ⟨rfl, .flattened _ _ hrest⟩
      | nothing => exact ⟨rfl, .same _⟩
      | again => exact ⟨rfl, .flattened _ _ hrest⟩
      | failed culprit => exact ⟨rfl, .flattened _ _ hrest⟩

end Intake

/-- What was fetched is the same, and the intakes that are left are alike. -/
structure Fetched.Alike (fetched other : Intake.Fetched α) : Prop where
  outcome_eq : fetched.outcome = other.outcome
  rest : fetched.rest.Alike other.rest

/-- The pulls gave the same, and the intakes that are left are alike. -/
structure Pulls.Alike (pulls other : Pulls α) : Prop where
  items_eq : pulls.items = other.items
  culprit_eq : pulls.culprit = other.culprit
  rest : pulls.rest.Alike other.rest

namespace Intake.Alike

variable {intake other : Intake α}

/-- Asking for the next element. -/
theorem next (h : intake.Alike other) : Fetched.Alike intake.next other.next := by
  have hfinite := intake.finite
  induction hfinite generalizing other with
  | intro intake _ ih =>
    obtain ⟨hanswer, hrest⟩ := h.pull
    rw [next_eq intake, next_eq other, ← hanswer]
    cases hpulled : intake.pull.answer with
    | item x => exact ⟨rfl, hrest⟩
    | nothing => exact ⟨rfl, hrest⟩
    | failed culprit => exact ⟨rfl, hrest⟩
    | again =>
      obtain ⟨houtcome, hlater⟩ := ih intake.pull.rest ⟨rfl, by rw [hpulled]; simp⟩ hrest
      exact ⟨houtcome, hlater⟩

/-- Asking for the next element a number of times. -/
theorem nextTimes (h : intake.Alike other) (count : Nat) :
    (intake.nextTimes count).Alike (other.nextTimes count) := by
  induction count generalizing intake other with
  | zero => exact ⟨rfl, rfl, h⟩
  | succ count ih =>
    obtain ⟨houtcome, hrest⟩ := h.next
    obtain ⟨hitems, hculprit, hlater⟩ := ih hrest
    rw [Intake.nextTimes, Intake.nextTimes, ← houtcome]
    cases intake.next.outcome with
    | failed culprit => exact ⟨rfl, rfl, hrest⟩
    | item x => exact ⟨congrArg (some x :: ·) hitems, hculprit, hlater⟩
    | nothing => exact ⟨congrArg (none :: ·) hitems, hculprit, hlater⟩

/-- Asking for all elements. -/
theorem remaining (h : intake.Alike other) : intake.remaining.Alike other.remaining := by
  have hfinite := intake.finite
  induction hfinite generalizing other with
  | intro intake _ ih =>
    obtain ⟨hanswer, hrest⟩ := h.pull
    rw [remaining_eq intake, remaining_eq other, ← hanswer]
    cases hpulled : intake.pull.answer with
    | nothing => exact ⟨rfl, rfl, hrest⟩
    | failed culprit => exact ⟨rfl, rfl, hrest⟩
    | again =>
      obtain ⟨hitems, hculprit, hlater⟩ := ih intake.pull.rest ⟨rfl, by rw [hpulled]; simp⟩ hrest
      exact ⟨hitems, hculprit, hlater⟩
    | item x =>
      obtain ⟨hitems, hculprit, hlater⟩ := ih intake.pull.rest ⟨rfl, by rw [hpulled]; simp⟩ hrest
      exact ⟨congrArg (some x :: ·) hitems, hculprit, hlater⟩

end Intake.Alike

/-- The drainings came to the same, but for the events. -/
structure Drain.SameAs (drain other : Drain α γ) : Prop where
  state : drain.state.SameAs other.state
  scanned_eq : drain.scanned = other.scanned
  ending_eq : drain.ending = other.ending

namespace Plan

theorem drain_alike (plan : Plan α) (sink : Sink α γ) {intake other : Intake α}
    (h : intake.Alike other) (scanned : Nat) {s t : RunState α γ} (hs : s.SameAs t) :
    (drainIntake plan sink intake scanned s).SameAs (drainIntake plan sink other scanned t) := by
  have hfinite := intake.finite
  induction hfinite generalizing other scanned s t with
  | intro intake _ ih =>
    obtain ⟨hanswer, hrest⟩ := h.pull
    rw [drainIntake_eq, drainIntake_eq, ← hanswer]
    cases hpulled : intake.pull.answer with
    | nothing => exact ⟨hs, rfl, rfl⟩
    | failed culprit => exact ⟨hs, rfl, rfl⟩
    | again => exact ih _ ⟨rfl, by rw [hpulled]; simp⟩ hrest scanned hs
    | item x =>
      have hfed := sink.lockstep_same.feedPlan plan x
        (s := { s with journal := s.journal.record intake.pull.events })
        (t := { t with journal := t.journal.record other.pull.events }) hs
      simp only
      generalize plan.feed sink x _ = fed at hfed ⊢
      generalize plan.feed sink x _ = fed' at hfed ⊢
      cases hfed with
      | onward hs' => exact ih _ ⟨rfl, by rw [hpulled]; simp⟩ hrest (scanned + 1) hs'
      | stopped hs' => exact ⟨hs', rfl, rfl⟩
      | failed culprit hs' => exact ⟨hs', rfl, rfl⟩
      | ahead hnone => exact hnone.elim

end Plan

/-- The opened sources differ at most in the names of the cursors that they hold. -/
inductive Opened.Alike : Opened α → Opened α → Prop where
  | same (opened : Opened α) : Alike opened opened
  | sequential {intake other : Intake α} (h : intake.Alike other) :
      Alike (.sequential intake) (.sequential other)

namespace Plan

variable {opened other : Opened α}

/-- Runs over opened sources that are alike come to the same. -/
theorem run_alike (plan : Plan α) (sink : Sink α γ) (seed : γ) (h : opened.Alike other) :
    (plan.run sink seed opened).acc = (plan.run sink seed other).acc
      ∧ (plan.run sink seed opened).result = (plan.run sink seed other).result := by
  cases h with
  | same => exact ⟨rfl, rfl⟩
  | @sequential intake other h =>
    have hsame : RunState.SameAs (⟨plan.start, seed, .empty⟩ : RunState α γ)
        ⟨plan.start, seed, .empty⟩ := ⟨rfl, rfl⟩
    obtain ⟨⟨hcounters, hacc⟩, hscanned, hending⟩ := plan.drain_alike sink h 0 hsame
    simp only [run, runIntake, hcounters, hacc, hscanned, hending]
    cases (drainIntake plan sink other 0 ⟨plan.start, seed, .empty⟩).ending with
    | exhausted => exact ⟨rfl, rfl⟩
    | stopped => exact ⟨rfl, rfl⟩
    | failed culprit => exact ⟨rfl, rfl⟩

theorem intake_alike (plan : Plan α) (h : opened.Alike other) :
    (plan.intake opened).Alike (plan.intake other) := by
  cases h with
  | same => exact .same _
  | sequential h => exact .staged _ _ _ _ h

end Plan

end StreamFusion
