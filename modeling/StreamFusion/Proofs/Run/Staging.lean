import StreamFusion.Proofs.Cursor.Tending
import StreamFusion.Proofs.Run.Cutting
import StreamFusion.Proofs.Run.Identity

/-!
# Runs over staged plans

A run over the results of another plan pulls them one by one, and pulls from below only when none is
ready. It comes to what one run of both plans comes to, does the same to the cursor at the bottom,
and leaves it in the same state (`Plan.IsCut.drain`). So it makes no difference whether a callback
stands between two plans as a link or as the first step of the second one
(`Plan.IsCut.run_mapped`).
-/

namespace StreamFusion

variable {α γ : Type}

/-- The element at which a callback failed. -/
def Ending.culprit? : Ending α → Option α
  | .failed culprit => some culprit
  | _ => none

/-- The drainings came to the same accumulator and handed out as many elements, or they failed at
the same element; and the same happened to every cursor until the rest was let go. -/
structure Drain.ComesTo (drain other : Drain α γ) : Prop where
  state : drain.state.SameTo other.state
  culprit_eq : drain.ending.culprit? = other.ending.culprit?
  cursors : SameCursors (drain.state.journal.events ++ drain.rest.release)
    (other.state.journal.events ++ other.rest.release)

/-- Closing an intake and letting it go is letting it go. -/
theorem Intake.close_release (intake : Intake α) :
    intake.close.1 ++ intake.close.2.release = intake.release := by
  unfold close
  split
  · rfl
  · rfl

theorem Journal.Adds.sameCursors {earlier later : Journal α} (h : earlier.Adds Silent later) :
    SameCursors later.events earlier.events := by
  obtain ⟨events, rfl, hsilent⟩ := h
  rw [Journal.events_record]
  exact (SameCursors.refl _).append_silent_left hsilent

namespace Plan

variable {plan first second : Plan α} {sink : Sink α γ}

/-! ## Ready elements -/

theorem feedEach_silent (plan : Plan α) (hsink : sink.Silent) (xs : List α) (s : RunState α γ) :
    s.journal.Adds Silent (plan.feedEach sink xs s).state.journal := by
  induction xs generalizing s with
  | nil => exact ⟨[], (s.journal.record_nil).symm, .nil⟩
  | cons x xs ih =>
    have hfed := plan.feed_silent hsink x s
    rw [feedEach]
    cases hresult : plan.feed sink x s with
    | stopped s' =>
      rw [hresult] at hfed
      exact hfed
    | failed culprit s' =>
      rw [hresult] at hfed
      exact hfed
    | onward s' =>
      rw [hresult] at hfed
      obtain ⟨events, hevents, hsilent⟩ := hfed
      obtain ⟨later, hlater, hsilent'⟩ := ih s'
      refine ⟨events ++ later, ?_, hsilent.append hsilent'⟩
      rw [Journal.record_append, ← show s'.journal = _ from hevents]
      exact hlater

/-- What draining comes to that was fed all that was ready. -/
theorem drainIntake_ready (plan : Plan α) (sink : Sink α γ) (below : Plan α) (counters : Counters)
    (ready : List α) (finished : Bool) (source : Intake α) (scanned : Nat) (s : RunState α γ) :
    ∃ left more, drainIntake plan sink (.staged below counters ready finished source) scanned s =
      match plan.feedEach sink ready s with
      | .onward s => drainIntake plan sink (.staged below counters [] finished source) more s
      | .stopped s => ⟨s, .staged below counters left finished source, more, .stopped⟩
      | .failed culprit s =>
        ⟨s, .staged below counters left finished source, more, .failed culprit⟩ := by
  induction ready generalizing scanned s with
  | nil => exact ⟨[], scanned, rfl⟩
  | cons x ready ih =>
    have hpull : (Intake.staged below counters (x :: ready) finished source).pull =
        ⟨[], .item x, .staged below counters ready finished source⟩ := rfl
    rw [drainIntake_eq, hpull, feedEach]
    simp only [Journal.record_nil]
    cases plan.feed sink x s with
    | onward s' => exact ih (scanned + 1) s'
    | stopped s' => exact ⟨ready, scanned + 1, rfl⟩
    | failed culprit s' => exact ⟨ready, scanned + 1, rfl⟩

theorem drainIntake_finished (plan : Plan α) (sink : Sink α γ) (below : Plan α)
    (counters : Counters) (source : Intake α) (scanned : Nat) (s : RunState α γ) :
    drainIntake plan sink (.staged below counters [] true source) scanned s =
      ⟨s, .staged below counters [] true source, scanned, .exhausted⟩ := by
  have hpull : (Intake.staged below counters [] true source).pull =
      ⟨[], .nothing, .staged below counters [] true source⟩ := rfl
  rw [drainIntake_eq, hpull]
  rfl

/-! ## One element from below -/

/-- The move that stages what was collected from an element. -/
theorem stage_of_collected {counters : Counters} {x : α} {flow : Flow} {a : RunState α (List α)}
    (h : first.feed .collect x ⟨counters, [], .empty⟩ = .after flow a) (events : List (Event α))
    (below : Intake α) :
    ∃ shut rest, Intake.stage first counters events x below =
        ⟨events ++ a.journal.events ++ shut, .again,
          .staged first a.counters a.acc.reverse (decide (flow = .stop)) rest⟩
      ∧ shut ++ rest.release = below.release ∧ (flow = .onward → rest = below) := by
  rw [Intake.stage, h]
  cases flow with
  | onward => exact ⟨[], below, by rw [List.append_nil]; rfl, rfl, fun _ => rfl⟩
  | stop => exact ⟨below.close.1, below.close.2, rfl, below.close_release, by simp⟩

/-- The move that an element from below leads to, and the second plan fed what the move made ready,
beside the whole plan fed the element: what was shut in the move is shut later by the other run. -/
theorem IsCut.feed_staged (h : plan.IsCut first second) (hsink : sink.Silent) {c : Counters}
    {s t : RunState α γ} (hsized : c.Sized first.gates.length first.slots)
    (hmay : second.MayGoOn s) (hjoined : (s.behind c).SameAs t)
    (hcursors : SameCursors s.journal.events t.journal.events) (events : List (Event α)) (x : α)
    (below : Intake α) :
    ∃ flow a done rest,
      Intake.stage first c events x below = ⟨done, .again,
          .staged first a.counters a.acc.reverse (decide (flow = .stop)) rest⟩
        ∧ a.counters.Sized first.gates.length first.slots ∧ (flow = .onward → rest = below)
        ∧ let s₁ : RunState α γ := { s with journal := s.journal.record done }
          let t₁ : RunState α γ := { t with journal := t.journal.record events }
          let fed := second.feedEach sink a.acc.reverse s₁
          let fed' := plan.feed sink x t₁
          fed.Cuts a flow fed'
            ∧ SameCursors (fed.state.journal.events ++ rest.release)
              (fed'.state.journal.events ++ below.release) := by
  obtain ⟨flow, a, hcollected, hsized', hcuts⟩ := h.feed sink x hsized
  obtain ⟨shut, rest, hstage, hrelease, hkept⟩ := stage_of_collected hcollected events below
  refine ⟨flow, a, events ++ a.journal.events ++ shut, rest, hstage, hsized', hkept, ?_⟩
  intro s₁ t₁ fed fed'
  have hmay₁ : second.MayGoOn s₁ := ⟨hmay.sealedByGate, hmay.isSealed_eq⟩
  refine ⟨hcuts hmay₁ hjoined, ?_⟩
  -- collecting does nothing to a cursor
  have hcollecting : Silent a.journal.events := by
    have hsilent := first.silent_collecting c x
    rw [hcollected] at hsilent
    cases flow <;> exact hsilent
  have hshut : SameCursors (s₁.journal.events ++ rest.release)
      (t₁.journal.events ++ below.release) := by
    intro cursor
    simp only [s₁, t₁, Journal.events_record, ofCursor_append, ← hrelease,
      hcollecting.ofCursor cursor, hcursors cursor, List.nil_append, List.append_assoc]
  have hfed := (second.feedEach_silent hsink a.acc.reverse s₁).sameCursors
  have hfed' := (plan.feed_silent hsink x t₁).sameCursors
  exact (hfed.append (.refl _)).trans (hshut.trans (hfed'.symm.append (.refl _)))

/-! ## Draining -/

/-- Draining what a first plan makes of an intake is draining the intake by both plans. -/
theorem IsCut.drain (h : plan.IsCut first second) (hsink : sink.Silent) (below : Intake α)
    {c : Counters} {s t : RunState α γ} (hsized : c.Sized first.gates.length first.slots)
    (hmay : second.MayGoOn s) (hjoined : (s.behind c).SameAs t)
    (hcursors : SameCursors s.journal.events t.journal.events) (scanned scanned' : Nat) :
    (drainIntake second sink (.staged first c [] false below) scanned s).ComesTo
      (drainIntake plan sink below scanned' t) := by
  have hfinite := below.finite
  induction hfinite generalizing c s t scanned scanned' with
  | intro below _ ih =>
    rcases hmoved : below.pull with ⟨events, answer, rest⟩
    have hfollows : answer ≠ .nothing → Intake.Follows rest below := Intake.follows_of_pull hmoved
    have hsame : s.SameTo t := ⟨hjoined.2, by rw [← hjoined.1]; rfl⟩
    have hpulled : SameCursors (s.journal.record events).events
        (t.journal.record events).events := by
      rw [Journal.events_record, Journal.events_record]
      exact hcursors.append (.refl events)
    rw [drainIntake_eq second, drainIntake_eq plan, hmoved]
    cases answer with
    | nothing =>
      have hpull : (Intake.staged first c [] false below).pull =
          ⟨events, .nothing, .staged first c [] true rest⟩ := by rw [Intake.pull, hmoved]
      rw [hpull]
      exact ⟨hsame, rfl, hpulled.append (.refl _)⟩
    | failed culprit =>
      have hpull : (Intake.staged first c [] false below).pull =
          ⟨events, .failed culprit, .staged first c [] false rest⟩ := by rw [Intake.pull, hmoved]
      rw [hpull]
      exact ⟨hsame, rfl, hpulled.append (.refl _)⟩
    | again =>
      have hpull : (Intake.staged first c [] false below).pull =
          ⟨events, .again, .staged first c [] false rest⟩ := by rw [Intake.pull, hmoved]
      rw [hpull]
      exact ih rest (hfollows (by simp)) (s := { s with journal := s.journal.record events })
        (t := { t with journal := t.journal.record events }) hsized
        ⟨hmay.sealedByGate, hmay.isSealed_eq⟩ hjoined hpulled scanned scanned'
    | item x =>
      obtain ⟨flow, a, done, below', hstage, hsized', hkept, hcuts, hended⟩ :=
        h.feed_staged hsink hsized hmay hjoined hcursors events x rest
      have hpull : (Intake.staged first c [] false below).pull = ⟨done, .again,
          .staged first a.counters a.acc.reverse (decide (flow = .stop)) below'⟩ := by
        rw [Intake.pull, hmoved]
        exact hstage
      obtain ⟨left, more, hready⟩ := second.drainIntake_ready sink first a.counters a.acc.reverse
        (decide (flow = .stop)) below' scanned { s with journal := s.journal.record done }
      have hmay₁ : second.MayGoOn { s with journal := s.journal.record done } :=
        ⟨hmay.sealedByGate, hmay.isSealed_eq⟩
      rw [hpull]
      simp only
      rw [hready]
      generalize heach : second.feedEach sink a.acc.reverse _ = fed at hcuts hended ⊢
      generalize plan.feed sink x _ = fed' at hcuts hended ⊢
      cases hcuts with
      | onward joined =>
        obtain rfl := hkept rfl
        exact ih below' (hfollows (by simp)) hsized' (hmay₁.feedEach heach) joined hended.of_append _ _
      | collected same =>
        show (drainIntake second sink (.staged first a.counters [] true below') more _).ComesTo _
        rw [drainIntake_finished]
        refine ⟨same, rfl, ?_⟩
        rw [Journal.events_record, List.append_assoc, Intake.close_release]
        exact hended
      | stopped flow same =>
        refine ⟨same, rfl, ?_⟩
        rw [Journal.events_record, List.append_assoc, Intake.close_release]
        exact hended
      | failed culprit flow same => exact ⟨same, rfl, hended⟩

end Plan

/-! ## A link between two plans -/

theorem Step.behind_zero (step : Step α) : step.behind 0 0 = step := by
  have hslot : ∀ slot : Option Nat, slot.map (0 + ·) = slot := by
    intro slot
    cases slot with
    | none => rfl
    | some slot => rw [Option.map_some, Nat.zero_add]
  cases step with
  | map f slot => rw [behind, hslot]
  | test p slot => rw [behind, hslot]
  | expand f slot => rw [behind, hslot]
  | gate number => rw [behind, Nat.zero_add]

theorem Drain.ComesTo.trans {drain middle other : Drain α γ} (h : drain.ComesTo middle)
    (h' : middle.ComesTo other) : drain.ComesTo other :=
  ⟨⟨h.state.1.trans h'.state.1, h.state.2.trans h'.state.2⟩, h.culprit_eq.trans h'.culprit_eq,
    h.cursors.trans h'.cursors⟩

namespace Plan

/-- Feeding through a transform that takes no index is calling it and feeding its answer. -/
theorem IsAppended.feed_plain {plan other : Plan α} {f : Callback α α}
    (h : other.IsAppended f.plan plan) (hf : f.indexed = false) (sink : Sink α γ) (x : α)
    (s : RunState α γ) :
    let called : RunState α γ := { s with journal := s.journal.record [f.event x 0] }
    other.feed sink x s =
      match f.answer x 0 with
      | some y => plan.feed sink y called
      | none => .failed x called := by
  intro called
  have hsteps : other.steps = .map f none :: plan.steps := by
    obtain ⟨hfirst, hgates, hslots⟩ := Callback.plan_of_not_indexed hf
    have hbehind : plan.steps.map (Step.behind 0 0) = plan.steps := by
      rw [List.map_congr_left fun step _ => step.behind_zero, List.map_id']
    rw [h.steps_eq, hfirst, hgates, hslots]
    exact congrArg (Step.map f none :: ·) hbehind
  have hcalled : s.afterCall f none x = called := rfl
  have hindex : s.counters.index none = 0 := rfl
  rw [Plan.feed, hsteps, RunM.feed_map, hcalled, hindex]
  cases f.answer x 0 with
  | none => rfl
  | some y => rfl

/-- A link that replaces every element is a transform in front of the plan. -/
theorem IsAppended.drain_mapped {plan other : Plan α} {f : Callback α α}
    (h : other.IsAppended f.plan plan) (hf : f.indexed = false) (sink : Sink α γ)
    (below : Intake α) (scanned : Nat) (s : RunState α γ) :
    (drainIntake plan sink (.mapped f below) scanned s).ComesTo
      (drainIntake other sink below scanned s) := by
  have hfinite := below.finite
  induction hfinite generalizing scanned s with
  | intro below _ ih =>
    rcases hmoved : below.pull with ⟨events, answer, rest⟩
    have hfollows : answer ≠ .nothing → Intake.Follows rest below := Intake.follows_of_pull hmoved
    rw [drainIntake_eq plan, drainIntake_eq other, hmoved]
    cases answer with
    | nothing =>
      have hpull : (Intake.mapped f below).pull = ⟨events, .nothing, .mapped f rest⟩ := by
        rw [Intake.pull, hmoved]
      rw [hpull]
      exact ⟨⟨rfl, rfl⟩, rfl, .refl _⟩
    | failed culprit =>
      have hpull : (Intake.mapped f below).pull = ⟨events, .failed culprit, .mapped f rest⟩ := by
        rw [Intake.pull, hmoved]
      rw [hpull]
      exact ⟨⟨rfl, rfl⟩, rfl, .refl _⟩
    | again =>
      have hpull : (Intake.mapped f below).pull = ⟨events, .again, .mapped f rest⟩ := by
        rw [Intake.pull, hmoved]
      rw [hpull]
      exact ih rest (hfollows (by simp)) scanned _
    | item x =>
      have hpull : (Intake.mapped f below).pull = Intake.replace f events x rest := by
        rw [Intake.pull, hmoved]
      rw [hpull, Intake.replace]
      simp only
      rw [h.feed_plain hf]
      cases f.answer x 0 with
      | none =>
        simp only [Journal.record_append]
        exact ⟨⟨rfl, rfl⟩, rfl, .refl _⟩
      | some y =>
        simp only [Journal.record_append]
        cases plan.feed sink y _ with
        | onward s' => exact ih rest (hfollows (by simp)) (scanned + 1) s'
        | failed culprit s' => exact ⟨⟨rfl, rfl⟩, rfl, .refl _⟩
        | stopped s' =>
          refine ⟨⟨rfl, rfl⟩, rfl, ?_⟩
          rw [Journal.events_record, Journal.events_record, List.append_assoc, List.append_assoc,
            Intake.close_release, Intake.close_release]
          exact .refl _

end Plan

/-! ## Runs -/

/-- The runs came to the same, and the same happened to every cursor. -/
structure Finish.ComesTo (finish other : Finish α γ) : Prop where
  same : finish.SameTo other
  cursors : SameCursors finish.events other.events

namespace Plan

theorem run_comesTo {plan other : Plan α} {sink : Sink α γ} {seed : γ} {opened opened' : Opened α}
    (h : (plan.drained sink seed opened).ComesTo (other.drained sink seed opened')) :
    (plan.run sink seed opened).ComesTo (other.run sink seed opened') := by
  have hfinish := plan.run_eq_drain sink seed opened
  have hfinish' := other.run_eq_drain sink seed opened'
  refine ⟨⟨hfinish.acc_eq.trans (h.state.1.trans hfinish'.acc_eq.symm), ?_⟩, ?_⟩
  · have hculprit := h.culprit_eq
    rw [result_run, result_run, Ending.emitted_result, Ending.emitted_result, h.state.2]
    generalize (plan.drained sink seed opened).ending = ending at hculprit ⊢
    generalize (other.drained sink seed opened').ending = ending' at hculprit ⊢
    cases ending <;> cases ending' <;> cases hculprit <;> rfl
  · rw [hfinish.events_eq, hfinish'.events_eq]
    exact h.cursors

/-- A pipeline that is cut at a callback comes to what the whole plan comes to. -/
theorem IsCut.run_mapped {plan first second last : Plan α} {f : Callback α α}
    (h : plan.IsCut first second) (hsecond : second.IsAppended f.plan last)
    (hf : f.indexed = false) (hnever : first.never = false) {sink : Sink α γ}
    (hsink : sink.Silent) (seed : γ) (intake : Intake α) :
    (last.run sink seed (.sequential (.mapped f (first.intake (.sequential intake))))).ComesTo
      (plan.run sink seed (.sequential intake)) := by
  refine run_comesTo ?_
  have hstaged : first.intake (.sequential intake) =
      .staged first first.start [] false intake := by rw [← hnever]; rfl
  have hstart : last.start = second.start := by
    obtain ⟨-, hgates, hslots⟩ := Callback.plan_of_not_indexed hf
    rw [start, start, hsecond.gates_eq, hsecond.slots_eq, hgates, hslots, List.nil_append,
      Nat.zero_add]
  have hmay : second.MayGoOn (⟨last.start, seed, .empty⟩ : RunState α γ) :=
    ⟨fun hsealed => absurd hsealed (by simp [start]), rfl⟩
  have hjoined : RunState.SameAs (RunState.behind ⟨last.start, seed, .empty⟩ first.start)
      (⟨plan.start, seed, .empty⟩ : RunState α γ) :=
    ⟨by rw [h.appended.start_eq, ← hstart]; rfl, rfl⟩
  rw [hstaged]
  exact (hsecond.drain_mapped hf sink _ 0 _).trans
    (h.drain hsink intake first.sized_start hmay hjoined (.refl _) 0 0)

/-- Operations that are cut at a transform. -/
theorem isCut_ofOps {ops more : List (Op α)} (hops : ∀ op ∈ ops, op.Total)
    (hmore : ∀ op ∈ more, op.Total) :
    (Draft.ofOps .segmented (ops ++ more)).toPlan.IsCut (Draft.ofOps .segmented ops).toPlan
      (Draft.ofOps .segmented more).toPlan where
  appended := Draft.isAppended_toPlan ops more
  numbered := Draft.numbered_ofOps .segmented ops
  first_total := Draft.total_ofOps .segmented hops
  second_total := Draft.total_ofOps .segmented hmore

end Plan

end StreamFusion
