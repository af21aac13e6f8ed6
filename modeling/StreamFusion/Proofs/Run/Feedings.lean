import StreamFusion.Proofs.Intake.Moves
import StreamFusion.Proofs.Intake.Resuming
import StreamFusion.Proofs.Run.Stopping
import StreamFusion.Proofs.Run.Trails

/-!
# Runs as feedings

However a run ends, it feeds a first part of what its source has to give, one element after the
other and each from the state that the one before it left (`Plan.drained_feeds`). The counters of an
iterator, too, are some that feeding leads to (`Plan.reached_moves`). So what every feeding keeps
holds throughout; that all gates and slots are there is the first such thing (`Plan.Reached.sized`).
-/

namespace StreamFusion

variable {α γ : Type} {plan : Plan α}

/-! ## Counters that feeding leads to -/

namespace Counters

variable {c : Counters} {gates slots : Nat}

theorem Sized.afterMark (h : c.Sized gates slots) (mark : Mark α) :
    (c.afterMark mark).Sized gates slots := by
  cases mark with
  | called slot event => exact h.tick slot
  | asked number answer => exact h.afterGate number
  | handed x events => exact ⟨h.gates_eq, h.slots_eq⟩

theorem Sized.afterAll (h : c.Sized gates slots) (marks : List (Mark α)) :
    (c.afterAll marks).Sized gates slots := by
  induction marks generalizing c with
  | nil => exact h
  | cons mark marks ih => exact ih (h.afterMark mark)

end Counters

/-- The counters that feeding an element leaves are told by its marks. -/
theorem RunM.counters_feed (sink : Sink α γ) (steps : List (Step α)) (x : α) (s : RunState α γ) :
    (left (feed sink steps x s)).counters =
      s.counters.afterAll (Step.trail sink steps s.counters s.acc x).marks := by
  rw [feed_eq_trail, Trail.result]
  cases (Step.trail sink steps s.counters s.acc x).fate <;> rfl

namespace Plan

/-- The counters can be reached when elements are fed to the plan, whatever is done with what comes
out, and whether or not a callback fails. A run may start behind elements that it passes over. -/
inductive Reached (plan : Plan α) : Counters → Prop where
  | start : Reached plan plan.start
  | jump (size : Nat) : Reached plan (plan.startAfterJump size)
  | feed {δ : Type} (sink : Sink α δ) (x : α) {s : RunState α δ} (h : Reached plan s.counters) :
      Reached plan (RunM.left (RunM.feed sink plan.steps x s)).counters

theorem Reached.feedAll {sink : Sink α γ} {s : RunState α γ} (h : plan.Reached s.counters)
    (xs : List α) : plan.Reached (plan.feedAll sink xs s).counters := by
  induction xs generalizing s with
  | nil => exact h
  | cons x xs ih => exact ih (.feed sink x h)

theorem reached_start (plan : Plan α) (opened : Opened α) : plan.Reached (opened.start plan) := by
  cases opened with
  | indexed source box => exact .jump box.size
  | owned items => exact .jump items.length
  | sequential intake => exact .start

theorem reached_iterStart (plan : Plan α) (opened : Opened α) :
    plan.Reached (opened.iterStart plan) := by
  cases opened with
  | indexed source box => exact .jump box.size
  | owned items => exact .start
  | sequential intake => exact .start

/-- Counters that can be reached have all their gates and slots. -/
theorem Reached.sized {c : Counters} (h : plan.Reached c) :
    c.Sized plan.gates.length plan.slots := by
  induction h with
  | start => exact plan.sized_start
  | jump size => exact plan.sized_startAfterJump size
  | feed sink x h ih =>
    rw [RunM.counters_feed]
    exact ih.afterAll _

/-! ## Runs -/

/-- Draining an intake feeds a first part of what the intake has to give. -/
theorem drain_feeds (plan : Plan α) (sink : Sink α γ) (intake : Intake α) (scanned : Nat)
    (s : RunState α γ) :
    ∃ fed : List α, fed.map some <+: intake.remaining.items
      ∧ (drainIntake plan sink intake scanned s).scanned = scanned + fed.length
      ∧ (drainIntake plan sink intake scanned s).state.SameAs (plan.feedAll sink fed s) := by
  have hfinite := intake.finite
  induction hfinite generalizing scanned s with
  | intro intake _ ih =>
    rw [drainIntake_eq, Intake.remaining_eq]
    set pulled : RunState α γ := { s with journal := s.journal.record intake.pull.events }
    have hpulled : pulled.SameAs s := ⟨rfl, rfl⟩
    cases hanswer : intake.pull.answer with
    | nothing => exact ⟨[], List.nil_prefix, rfl, rfl, rfl⟩
    | failed culprit => exact ⟨[], List.nil_prefix, rfl, rfl, rfl⟩
    | again =>
      obtain ⟨fed, hprefix, hscanned, hsame⟩ := ih intake.pull.rest ⟨rfl, by rw [hanswer]; simp⟩
        scanned pulled
      exact ⟨fed, hprefix, hscanned, hsame.trans (hpulled.feedAll fed)⟩
    | item x =>
      have hone : (plan.feed sink x pulled).state.SameAs (plan.feedAll sink [x] s) := by
        rw [plan.state_feed]
        exact hpulled.feed plan.steps x
      have hlast : [x].map some <+: some x :: intake.pull.rest.remaining.items :=
        ⟨_, rfl⟩
      simp only
      cases hfed : plan.feed sink x pulled with
      | stopped s' =>
        rw [hfed] at hone
        exact ⟨[x], hlast, rfl, hone.1, hone.2⟩
      | failed culprit s' =>
        rw [hfed] at hone
        exact ⟨[x], hlast, rfl, hone⟩
      | onward s' =>
        rw [hfed] at hone
        obtain ⟨fed, hprefix, hscanned, hsame⟩ := ih intake.pull.rest
          ⟨rfl, by rw [hanswer]; simp⟩ (scanned + 1) s'
        refine ⟨x :: fed, List.cons_prefix_cons.2 ⟨rfl, hprefix⟩, ?_,
          hsame.trans (hone.feedAll fed)⟩
        rw [hscanned, List.length_cons]
        omega

/-- A run over an opened source feeds a first part of what the source has to give. -/
theorem drained_feeds (plan : Plan α) (sink : Sink α γ) (seed : γ) (opened : Opened α) :
    ∃ fed : List α, fed.map some <+: (opened.intakeFrom (opened.jump plan)).remaining.items
      ∧ (plan.drained sink seed opened).scanned = fed.length
      ∧ (plan.drained sink seed opened).state.SameAs
        (plan.feedAll sink fed ⟨opened.start plan, seed, .empty⟩) := by
  obtain ⟨fed, hprefix, hscanned, hsame⟩ := plan.drain_feeds sink
    (opened.intakeFrom (opened.jump plan)) 0 ⟨opened.start plan, seed, .empty⟩
  exact ⟨fed, hprefix, hscanned.trans (Nat.zero_add _), hsame⟩

end Plan

/-! ## Iterators -/

/-- The intake after a number of moves. -/
def Intake.moves : Nat → Intake α → Intake α
  | 0, intake => intake
  | count + 1, intake => moves count intake.pull.rest

namespace Plan

/-- What a move of a staged intake leaves is staged, with counters that feeding leads to. -/
theorem reached_pull {c : Counters} (h : plan.Reached c) (ready : List α) (finished : Bool)
    (below : Intake α) :
    ∃ c' ready' finished' below', (Intake.staged plan c ready finished below).pull.rest =
        .staged plan c' ready' finished' below' ∧ plan.Reached c' := by
  have hfed : ∀ {x fed}, plan.feed .collect x ⟨c, [], .empty⟩ = fed →
      plan.Reached fed.state.counters := by
    rintro x fed rfl
    rw [plan.state_feed]
    exact .feed Sink.collect x h
  have hpull := Intake.pull_staged plan c ready finished below
  generalize (Intake.staged plan c ready finished below).pull = move at hpull ⊢
  cases hpull with
  | deliver | rest | exhausted | again | failedBelow => exact ⟨c, _, _, _, rfl, h⟩
  | onward _ fed | stopped _ fed | failed _ fed => exact ⟨_, _, _, _, rfl, hfed fed⟩

/-- So it is after any number of moves. -/
theorem reached_moves {c : Counters} (h : plan.Reached c) (ready : List α) (finished : Bool)
    (below : Intake α) (count : Nat) :
    ∃ c' ready' finished' below', (Intake.staged plan c ready finished below).moves count =
        .staged plan c' ready' finished' below' ∧ plan.Reached c' := by
  induction count generalizing c ready finished below with
  | zero => exact ⟨c, ready, finished, below, rfl, h⟩
  | succ count ih =>
    obtain ⟨c', ready', finished', below', hpull, h'⟩ := reached_pull h ready finished below
    rw [Intake.moves, hpull]
    exact ih h' ready' finished' below'

end Plan

end StreamFusion
