import StreamFusion.Proofs.Intake.Resuming
import StreamFusion.Proofs.Plan.Searching
import StreamFusion.Proofs.Run.Closing
import StreamFusion.Proofs.Run.Feedings

/-!
# Runs that come to nothing

Behind a test that no element passes nothing is handed to the closing action, and neither is where
no element comes from the source; what is read and called meanwhile may fail, but it comes to
nothing (`Plan.run_barren`). A source that was not opened at all is dry: asking it does nothing, and
so does every run over it (`Plan.run_dry`).
-/

namespace StreamFusion

variable {α γ : Type}

/-! ## Nothing passes -/

/-- This is the accumulator, and so many elements were handed out. -/
def RunState.StandsAt (acc : γ) (emitted : Nat) (s : RunState α γ) : Prop :=
  s.acc = acc ∧ s.counters.emitted = emitted

section Feeding

variable {acc : γ} {emitted : Nat} {s : RunState α γ}

theorem RunState.StandsAt.afterCall {β : Type} (h : s.StandsAt acc emitted) (f : Callback α β)
    (slot : Option Nat) (x : α) : (s.afterCall f slot x).StandsAt acc emitted := by
  refine ⟨h.1, ?_⟩
  rw [← h.2]
  cases slot <;> rfl

/-- Elements may be lost on the way to the test, but none comes through. -/
theorem RunM.feed_dropsAll (sink : Sink α γ) {steps : List (Step α)}
    (h : ∃ step ∈ steps, step.DropsAll) (x : α) (hs : s.StandsAt acc emitted) :
    RunM.Ends (RunState.StandsAt acc emitted) (RunState.StandsAt acc emitted)
      (RunState.StandsAt acc emitted) (RunM.feed sink steps x s) := by
  induction steps generalizing x s with
  | nil =>
    obtain ⟨_, hmem, -⟩ := h
    exact absurd hmem List.not_mem_nil
  | cons step steps ih =>
    -- the test is this step, or it stands behind it
    have hrest : ¬ step.DropsAll → ∃ step ∈ steps, step.DropsAll := by
      intro hnot
      obtain ⟨other, hmem, hdrops⟩ := h
      rcases List.mem_cons.1 hmem with rfl | hmem
      · exact absurd hdrops hnot
      · exact ⟨other, hmem, hdrops⟩
    cases step with
    | map f slot =>
      rw [RunM.feed_map]
      cases f.answer x (s.counters.index slot) with
      | none => exact hs.afterCall f slot x
      | some y => exact ih (hrest id) y (hs.afterCall f slot x)
    | test p slot =>
      rw [RunM.feed_test]
      rcases hanswer : p.answer x (s.counters.index slot) with _ | _ | _
      · exact hs.afterCall p slot x
      · exact hs.afterCall p slot x
      · exact ih (hrest fun hdrops => hdrops x _ hanswer) x (hs.afterCall p slot x)
    | expand f slot =>
      rw [RunM.feed_expand]
      cases f.answer x (s.counters.index slot) with
      | none => exact hs.afterCall f slot x
      | some ys =>
        exact Course.each (fun y s hs => ih (hrest id) y hs) ys (hs.afterCall f slot x)
    | gate number =>
      rw [RunM.feed_gate]
      cases (s.counters.window number).ask.1 with
      | through => exact ih (hrest id) x hs
      | dropped => exact hs
      | shut => exact hs

namespace Plan

variable {plan : Plan α}

theorem DropsAll.feed (h : plan.DropsAll) (sink : Sink α γ) (x : α)
    (hs : s.StandsAt acc emitted) : (plan.feed sink x s).state.StandsAt acc emitted := by
  rw [plan.state_feed]
  exact RunM.ends_iff_left.1 (RunM.feed_dropsAll sink h x hs)

theorem DropsAll.feedAll (h : plan.DropsAll) (sink : Sink α γ) (xs : List α)
    (hs : s.StandsAt acc emitted) : (plan.feedAll sink xs s).StandsAt acc emitted := by
  induction xs generalizing s with
  | nil => exact hs
  | cons x xs ih => exact ih (RunM.ends_iff_left.1 (RunM.feed_dropsAll sink h x hs))

end Plan

end Feeding

/-! ## Nothing comes from below -/

namespace Intake

/-- No element comes before a callback fails. -/
def IsBarren (intake : Intake α) : Prop := intake.remaining.items = []

/-- The move of a barren intake gives no element, and leaves it barren. -/
theorem isBarren_iff {intake : Intake α} :
    intake.IsBarren ↔ match intake.pull.answer with
      | .item _ => False
      | .again => intake.pull.rest.IsBarren
      | .nothing | .failed _ => True := by
  rw [IsBarren, remaining_eq]
  cases intake.pull.answer with
  | item x => simp
  | again => rfl
  | nothing => simp
  | failed culprit => simp

/-- What answers like the intake below as long as no element comes is barren if that is. -/
theorem IsBarren.above {above : Intake α → Intake α}
    (hpull : ∀ below : Intake α, (∀ x, below.pull.answer ≠ .item x) →
      (above below).pull.answer = below.pull.answer
        ∧ (below.pull.answer = .again → (above below).pull.rest = above below.pull.rest))
    {below : Intake α} (h : below.IsBarren) : (above below).IsBarren := by
  have hfinite := below.finite
  induction hfinite with
  | intro below _ ih =>
    rw [isBarren_iff] at h ⊢
    cases hanswer : below.pull.answer with
    | item x =>
      rw [hanswer] at h
      exact h.elim
    | again =>
      rw [hanswer] at h
      obtain ⟨hsame, hrest⟩ := hpull below (by simp [hanswer])
      rw [hsame, hanswer, hrest hanswer]
      exact ih below.pull.rest ⟨rfl, by simp [hanswer]⟩ h
    | nothing =>
      rw [(hpull below (by simp [hanswer])).1, hanswer]
      trivial
    | failed culprit =>
      rw [(hpull below (by simp [hanswer])).1, hanswer]
      trivial

theorem isBarren_mapped (f : Callback α α) {below : Intake α} (h : below.IsBarren) :
    (mapped f below).IsBarren := by
  refine h.above fun below hnone => ?_
  rw [pull]
  rcases hmoved : below.pull with ⟨events, answer, rest⟩
  cases answer with
  | item x => exact absurd (by rw [hmoved]) (hnone x)
  | _ => exact ⟨rfl, fun _ => rfl⟩

theorem isBarren_flattened (items : α → List α) {below : Intake α} (h : below.IsBarren) :
    (flattened items [] below).IsBarren := by
  refine h.above fun below hnone => ?_
  rw [pull]
  rcases hmoved : below.pull with ⟨events, answer, rest⟩
  cases answer with
  | item x => exact absurd (by rw [hmoved]) (hnone x)
  | nothing => exact ⟨rfl, by simp⟩
  | _ => exact ⟨rfl, fun _ => rfl⟩

theorem isBarren_finished (plan : Plan α) (c : Counters) (below : Intake α) :
    (staged plan c [] true below).IsBarren := by
  rw [IsBarren, remaining_finished]
  rfl

/-- Nothing comes out of a staged intake if nothing passes its plan, or nothing comes from below. -/
theorem isBarren_staged {plan : Plan α} {below : Intake α} (h : plan.DropsAll ∨ below.IsBarren)
    (c : Counters) (finished : Bool) : (staged plan c [] finished below).IsBarren := by
  cases finished with
  | true => exact isBarren_finished plan c below
  | false =>
    have hfinite := below.finite
    induction hfinite generalizing c with
    | intro below _ ih =>
      rw [isBarren_iff] at h
      rw [isBarren_iff]
      have ih' := ih below.pull.rest
      rw [pull]
      rcases hmoved : below.pull with ⟨events, answer, rest⟩
      rw [hmoved] at h ih'
      cases answer with
      | nothing => trivial
      | failed culprit => trivial
      | again => exact ih' ⟨by rw [hmoved], by simp [hmoved]⟩ h c
      | item x =>
        have hdrops : plan.DropsAll := h.resolve_right id
        have hfed := hdrops.feed .collect x (s := ⟨c, [], .empty⟩) ⟨rfl, rfl⟩
        simp only [stage]
        cases hresult : plan.feed .collect x ⟨c, [], .empty⟩ with
        | onward s =>
          rw [hresult] at hfed
          have hnone : s.acc = [] := hfed.1
          simp only [hnone]
          exact ih' ⟨by rw [hmoved], by simp [hmoved]⟩ (.inl hdrops) s.counters
        | stopped s =>
          rw [hresult] at hfed
          have hnone : s.acc = [] := hfed.1
          simp only [hnone]
          exact isBarren_finished plan s.counters _
        | failed culprit s => trivial

/-! ## Nothing was opened -/

/-- Asking the intake does nothing but find that there are no elements, and nothing is open, neither
before nor after. -/
structure IsDry (intake : Intake α) : Prop where
  closed : intake.release = []
  moved : ∃ rest, intake.pull = ⟨[], .nothing, rest⟩ ∧ rest.release = []

section Dry

variable {below : Intake α} (h : below.IsDry)
include h

theorem isDry_staged (plan : Plan α) (c : Counters) (finished : Bool) :
    (staged plan c [] finished below).IsDry := by
  obtain ⟨hclosed, rest, hmoved, hreleased⟩ := h
  cases finished with
  | true => exact ⟨hclosed, _, rfl, hclosed⟩
  | false => exact ⟨hclosed, _, pull_exhausted hmoved, hreleased⟩

theorem isDry_mapped (f : Callback α α) : (mapped f below).IsDry := by
  obtain ⟨hclosed, rest, hmoved, hreleased⟩ := h
  exact ⟨hclosed, mapped f rest, by rw [pull, hmoved], hreleased⟩

theorem isDry_flattened (items : α → List α) : (flattened items [] below).IsDry := by
  obtain ⟨hclosed, rest, hmoved, hreleased⟩ := h
  refine ⟨hclosed, spent, ?_, rfl⟩
  rw [pull, hmoved]
  simp only [hreleased, List.append_nil]

end Dry

end Intake

/-! ## Runs -/

namespace Opened

/-- No element comes from the opened source before a callback fails. -/
def IsBarren (opened : Opened α) : Prop := ∀ position, (opened.intakeFrom position).IsBarren

/-- Reading the opened source does nothing but find that there are no elements. -/
def IsDry (opened : Opened α) : Prop := ∀ position, (opened.intakeFrom position).IsDry

theorem isDry_owned : (owned [] : Opened α).IsDry := by
  intro position
  rw [intakeFrom, List.drop_nil]
  exact ⟨rfl, _, rfl, rfl⟩

theorem isBarren_owned : (owned [] : Opened α).IsBarren := by
  intro position
  rw [intakeFrom, List.drop_nil, Intake.isBarren_iff]
  trivial

/-- An iterator pulls from the opened source at some position. -/
theorem exists_iterSource (plan : Plan α) (opened : Opened α) :
    ∃ position, opened.iterSource plan = opened.intakeFrom position := by
  cases opened with
  | indexed source box => exact ⟨_, rfl⟩
  | owned items => exact ⟨0, rfl⟩
  | sequential intake => exact ⟨0, rfl⟩

end Opened

namespace Plan

variable {plan : Plan α} {opened : Opened α}

/-- A run that ends without a failing callback has come to nothing. -/
theorem run_barren (h : plan.DropsAll ∨ opened.IsBarren) {sink : Sink α γ} {seed : γ}
    {stats : Stats} (hresult : (plan.run sink seed opened).result = .ok stats) :
    (plan.run sink seed opened).acc = seed ∧ stats.emitted = 0 := by
  have hfinish := plan.run_eq_drain sink seed opened
  obtain ⟨fed, hprefix, -, hcounters, hacc⟩ := plan.drained_feeds sink seed opened
  have hstands : (plan.feedAll sink fed ⟨opened.start plan, seed, .empty⟩).StandsAt seed 0 := by
    have hstart : RunState.StandsAt seed 0 (⟨opened.start plan, seed, .empty⟩ : RunState α γ) :=
      ⟨rfl, plan.emitted_start opened⟩
    rcases h with hdrops | hbarren
    · exact hdrops.feedAll sink fed hstart
    · have hnone : (opened.intakeFrom (opened.jump plan)).remaining.items = [] := hbarren _
      rw [hnone] at hprefix
      obtain rfl : fed = [] := List.map_eq_nil_iff.1 (List.prefix_nil.1 hprefix)
      exact hstart
  rw [hfinish.emitted_eq hresult, hfinish.acc_eq, hcounters, hacc]
  exact hstands

theorem isBarren_intake (h : plan.DropsAll ∨ opened.IsBarren) : (plan.intake opened).IsBarren := by
  obtain ⟨position, hsource⟩ := opened.exists_iterSource plan
  rw [opened.intake_eq plan, hsource]
  exact Intake.isBarren_staged (h.imp_right fun hbarren => hbarren position) _ _

/-- A run over a dry source does nothing. -/
theorem run_dry (h : opened.IsDry) (plan : Plan α) (sink : Sink α γ) (seed : γ) :
    (plan.run sink seed opened).acc = seed ∧ (plan.run sink seed opened).events = []
      ∧ ∃ stats, (plan.run sink seed opened).result = .ok stats ∧ stats.emitted = 0 := by
  have hfinish := plan.run_eq_drain sink seed opened
  obtain ⟨-, rest, hmoved, hreleased⟩ := h (opened.jump plan)
  have hdrained : plan.drained sink seed opened =
      ⟨⟨opened.start plan, seed, .empty⟩, rest, 0, .exhausted⟩ := by
    rw [drained, drainIntake_eq, hmoved]
    rfl
  rw [hdrained] at hfinish
  refine ⟨hfinish.acc_eq, ?_, ?_⟩
  · rw [hfinish.events_eq, hreleased]
    rfl
  · obtain ⟨stats, hresult, -, hemitted⟩ := hfinish.ended fun _ h => by cases h
    exact ⟨stats, hresult, hemitted.trans (plan.emitted_start opened)⟩

theorem isDry_intake (h : opened.IsDry) (plan : Plan α) : (plan.intake opened).IsDry := by
  obtain ⟨position, hsource⟩ := opened.exists_iterSource plan
  rw [opened.intake_eq plan, hsource]
  exact Intake.isDry_staged (h position) plan _ plan.never

end Plan

end StreamFusion
