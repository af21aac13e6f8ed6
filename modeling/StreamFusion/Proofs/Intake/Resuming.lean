import StreamFusion.Proofs.Intake.Iteration

/-!
# Asking again

An intake whose callback failed can be asked again, and it goes on where the failure left it. What it
says to any number of requests is said by the list of what it has to say and then nothing
(`Intake.Answers`). What one move of a staged intake does is said once (`Intake.Staging`). The
intake of a plan starts as an iterator (`Opened.iterStart`).
-/

namespace StreamFusion

variable {α : Type}

namespace Intake

/-- Asks for the next element a number of times, also after a callback failed. -/
def asked : Nat → Intake α → List (Fetched α)
  | 0, _ => []
  | count + 1, intake => intake.next :: asked count intake.next.rest

/-- The intake after it was asked a number of times. -/
def after : Nat → Intake α → Intake α
  | 0, intake => intake
  | count + 1, intake => after count intake.next.rest

theorem after_succ (count : Nat) (intake : Intake α) :
    intake.after (count + 1) = (intake.after count).next.rest := by
  induction count generalizing intake with
  | zero => rfl
  | succ count ih => exact ih intake.next.rest

/-- Asked again and again, the intake gives these outcomes, and then nothing for ever. -/
def Answers (intake : Intake α) (outs : List (Outcome α)) : Prop :=
  ∀ count, (intake.asked count).map Fetched.outcome =
    (outs ++ List.replicate count Outcome.nothing).take count

section Answers

variable {intake rest : Intake α} {events : List (Event α)} {outs : List (Outcome α)}

theorem Answers.cons {outcome : Outcome α} (hnext : intake.next = ⟨events, outcome, rest⟩)
    (h : rest.Answers outs) : intake.Answers (outcome :: outs) := by
  intro count
  cases count with
  | zero => rfl
  | succ count =>
    -- one more nothing at the end is not among the first
    have hlength : count ≤ (outs ++ List.replicate count Outcome.nothing).length := by
      rw [List.length_append, List.length_replicate]
      omega
    have hlonger : (outs ++ List.replicate (count + 1) Outcome.nothing).take count =
        (outs ++ List.replicate count Outcome.nothing).take count := by
      rw [List.replicate_succ', ← List.append_assoc, List.take_append_of_le_length hlength]
    rw [asked, List.map_cons, hnext, h count, List.cons_append, List.take_succ_cons, hlonger]

theorem Done.next_eq (h : intake.Done) : intake.next = ⟨[], .nothing, intake⟩ := by
  rw [Intake.next_eq, h]

theorem Done.asked_eq (h : intake.Done) (count : Nat) :
    intake.asked count = List.replicate count ⟨[], .nothing, intake⟩ := by
  induction count with
  | zero => rfl
  | succ count ih => rw [asked, h.next_eq, ih, List.replicate_succ]

theorem Done.answers (h : intake.Done) : intake.Answers [] := by
  intro count
  rw [h.asked_eq, List.map_replicate, List.nil_append, List.take_replicate, Nat.min_self]

/-- A move that gives no answer yet does not change what is said. -/
theorem Answers.of_again (hpull : intake.pull = ⟨events, .again, rest⟩) (h : rest.Answers outs) :
    intake.Answers outs := by
  have hanswer : intake.pull.answer = .again := by rw [hpull]
  have hnext := next_of_again hanswer
  rw [hpull] at hnext
  intro count
  rw [← h count]
  cases count with
  | zero => rfl
  | succ count => rw [asked, asked, hnext, List.map_cons, List.map_cons]

theorem Answers.of_failed {culprit : α} (hpull : intake.pull = ⟨events, .failed culprit, rest⟩)
    (h : rest.Answers outs) : intake.Answers (.failed culprit :: outs) := by
  have hanswer : intake.pull.answer = .failed culprit := by rw [hpull]
  have hnext := next_of_failed hanswer
  rw [hpull] at hnext
  exact .cons hnext h

theorem Answers.of_item {x : α} (hpull : intake.pull = ⟨events, .item x, rest⟩)
    (h : rest.Answers outs) : intake.Answers (.item x :: outs) := by
  have hanswer : intake.pull.answer = .item x := by rw [hpull]
  have hnext := next_of_item hanswer
  rw [hpull] at hnext
  exact .cons hnext h

/-- An intake that gives nothing now and nothing later has nothing to say. -/
theorem Answers.of_nothing (hpull : intake.pull = ⟨events, .nothing, rest⟩)
    (h : rest.Answers []) : intake.Answers [] := by
  have hanswer : intake.pull.answer = .nothing := by rw [hpull]
  have hnext := next_of_nothing hanswer
  rw [hpull] at hnext
  intro count
  cases count with
  | zero => rfl
  | succ count =>
    rw [asked, List.map_cons, hnext, h count, List.nil_append, List.nil_append,
      List.take_replicate, List.take_replicate, Nat.min_self, Nat.min_self, List.replicate_succ]

end Answers

/-! ## Moves of a staged intake -/

section Moves

variable {plan : Plan α} {c : Counters} {below rest : Intake α} {events : List (Event α)} {x : α}
  {s : RunState α (List α)}

theorem pull_exhausted (hpulled : below.pull = ⟨events, .nothing, rest⟩) :
    (staged plan c [] false below).pull = ⟨events, .nothing, staged plan c [] true rest⟩ := by
  rw [pull, hpulled]

theorem pull_again (hpulled : below.pull = ⟨events, .again, rest⟩) :
    (staged plan c [] false below).pull = ⟨events, .again, staged plan c [] false rest⟩ := by
  rw [pull, hpulled]

theorem pull_failedBelow {culprit : α} (hpulled : below.pull = ⟨events, .failed culprit, rest⟩) :
    (staged plan c [] false below).pull =
      ⟨events, .failed culprit, staged plan c [] false rest⟩ := by
  rw [pull, hpulled]

theorem pull_onward (hpulled : below.pull = ⟨events, .item x, rest⟩)
    (hfed : plan.feed .collect x ⟨c, [], .empty⟩ = .onward s) :
    (staged plan c [] false below).pull =
      ⟨events ++ s.journal.events, .again, staged plan s.counters s.acc.reverse false rest⟩ := by
  rw [pull, hpulled]
  simp only [stage, hfed]

theorem pull_stopped (hpulled : below.pull = ⟨events, .item x, rest⟩)
    (hfed : plan.feed .collect x ⟨c, [], .empty⟩ = .stopped s) :
    (staged plan c [] false below).pull =
      ⟨events ++ s.journal.events ++ rest.close.1, .again,
        staged plan s.counters s.acc.reverse true rest.close.2⟩ := by
  rw [pull, hpulled]
  simp only [stage, hfed]

theorem pull_failed {culprit : α} (hpulled : below.pull = ⟨events, .item x, rest⟩)
    (hfed : plan.feed .collect x ⟨c, [], .empty⟩ = .failed culprit s) :
    (staged plan c [] false below).pull =
      ⟨events ++ s.journal.events, .failed culprit,
        staged plan s.counters s.acc.reverse false rest⟩ := by
  rw [pull, hpulled]
  simp only [stage, hfed]

end Moves

/-- What one move of a staged intake does. -/
inductive Staging (plan : Plan α) (c : Counters) : List α → Bool → Intake α → Move α → Prop where
  | deliver (x : α) (ready : List α) (finished : Bool) (below : Intake α) :
      Staging plan c (x :: ready) finished below ⟨[], .item x, .staged plan c ready finished below⟩
  | rest (below : Intake α) :
      Staging plan c [] true below ⟨[], .nothing, .staged plan c [] true below⟩
  | exhausted {below : Intake α} {events : List (Event α)} {rest : Intake α}
      (pulled : below.pull = ⟨events, .nothing, rest⟩) :
      Staging plan c [] false below ⟨events, .nothing, .staged plan c [] true rest⟩
  | again {below : Intake α} {events : List (Event α)} {rest : Intake α}
      (pulled : below.pull = ⟨events, .again, rest⟩) :
      Staging plan c [] false below ⟨events, .again, .staged plan c [] false rest⟩
  | failedBelow {below : Intake α} {events : List (Event α)} {culprit : α} {rest : Intake α}
      (pulled : below.pull = ⟨events, .failed culprit, rest⟩) :
      Staging plan c [] false below ⟨events, .failed culprit, .staged plan c [] false rest⟩
  | onward {below : Intake α} {events : List (Event α)} {x : α} {rest : Intake α}
      {s : RunState α (List α)} (pulled : below.pull = ⟨events, .item x, rest⟩)
      (fed : plan.feed .collect x ⟨c, [], .empty⟩ = .onward s) :
      Staging plan c [] false below
        ⟨events ++ s.journal.events, .again, .staged plan s.counters s.acc.reverse false rest⟩
  | stopped {below : Intake α} {events : List (Event α)} {x : α} {rest : Intake α}
      {s : RunState α (List α)} (pulled : below.pull = ⟨events, .item x, rest⟩)
      (fed : plan.feed .collect x ⟨c, [], .empty⟩ = .stopped s) :
      Staging plan c [] false below
        ⟨events ++ s.journal.events ++ rest.close.1, .again,
          .staged plan s.counters s.acc.reverse true rest.close.2⟩
  | failed {below : Intake α} {events : List (Event α)} {x culprit : α} {rest : Intake α}
      {s : RunState α (List α)} (pulled : below.pull = ⟨events, .item x, rest⟩)
      (fed : plan.feed .collect x ⟨c, [], .empty⟩ = .failed culprit s) :
      Staging plan c [] false below
        ⟨events ++ s.journal.events, .failed culprit,
          .staged plan s.counters s.acc.reverse false rest⟩

/-- There are no other moves. -/
theorem pull_staged (plan : Plan α) (c : Counters) (ready : List α) (finished : Bool)
    (below : Intake α) :
    Staging plan c ready finished below (staged plan c ready finished below).pull := by
  cases ready with
  | cons x ready => exact .deliver x ready finished below
  | nil =>
    cases finished with
    | true =>
      rw [pull]
      exact .rest below
    | false =>
      rcases hpulled : below.pull with ⟨events, answer, rest⟩
      cases answer with
      | nothing => exact pull_exhausted hpulled ▸ .exhausted hpulled
      | again => exact pull_again hpulled ▸ .again hpulled
      | failed culprit => exact pull_failedBelow hpulled ▸ .failedBelow hpulled
      | item x =>
        cases hfed : plan.feed .collect x ⟨c, [], .empty⟩ with
        | onward s => exact pull_onward hpulled hfed ▸ .onward hpulled hfed
        | stopped s => exact pull_stopped hpulled hfed ▸ .stopped hpulled hfed
        | failed culprit s => exact pull_failed hpulled hfed ▸ .failed hpulled hfed

variable {plan : Plan α} {c : Counters} {finished : Bool} {below : Intake α}

/-- What is ready is given first. -/
theorem Answers.ready {outs : List (Outcome α)} (h : (staged plan c [] finished below).Answers outs)
    (ready : List α) :
    (staged plan c ready finished below).Answers (ready.map .item ++ outs) := by
  induction ready with
  | nil => exact h
  | cons x ready ih => exact .of_item rfl ih

theorem answers_finished (plan : Plan α) (c : Counters) (ready : List α) (below : Intake α) :
    (staged plan c ready true below).Answers (ready.map .item) := by
  have hready := (done_finished plan c below).answers.ready ready
  rw [List.append_nil] at hready
  exact hready

end Intake

/-! ## The start of an iterator -/

namespace Opened

/-- The counters with which an iterator starts. -/
def iterStart (plan : Plan α) : Opened α → Counters
  | .indexed _ box => plan.startAfterJump box.size
  | .owned _ | .sequential _ => plan.start

/-- What an iterator pulls from. A container is read behind what the leading gate drops. -/
def iterSource (plan : Plan α) : Opened α → Intake α
  | .indexed source box => .shelf source box (plan.jumped box.size)
  | .owned items => .owned items
  | .sequential intake => intake

theorem intake_eq (plan : Plan α) (opened : Opened α) :
    plan.intake opened =
      .staged plan (opened.iterStart plan) [] plan.never (opened.iterSource plan) := by
  cases opened <;> rfl

theorem isSealed_iterStart (plan : Plan α) (opened : Opened α) :
    (opened.iterStart plan).isSealed = false := by
  cases opened with
  | indexed source box =>
    show (plan.startAfterJump box.size).isSealed = false
    unfold Plan.startAfterJump
    split <;> rfl
  | _ => rfl

theorem take_iterStart (plan : Plan α) (opened : Opened α) (number : Nat) :
    ((opened.iterStart plan).window number).take = (plan.start.window number).take := by
  cases opened with
  | indexed source box => exact plan.take_startAfterJump box.size number
  | _ => rfl

end Opened

end StreamFusion
