import StreamFusion.Proofs.Intake.Moves
import StreamFusion.Proofs.Run.Draining

/-!
# Iterating and collecting

A staged intake is a run that can be interrupted after every element: pulling all that it has to
give is the run that collects (`Plan.intake_collects`). It does the same things in the same order,
and gives the elements that the run collects. Once an iterator had nothing more to give, it stays so
and does nothing more (`Intake.nextTimes_of_remaining`).
-/

namespace StreamFusion

variable {α : Type}

/-! ## Asking several times -/

namespace Intake

/-- The intake has nothing to give, and asking it does nothing. -/
def Done (intake : Intake α) : Prop := intake.pull = ⟨[], .nothing, intake⟩

theorem Done.nextTimes {intake : Intake α} (h : intake.Done) (count : Nat) :
    intake.nextTimes count = ⟨[], List.replicate count none, none, intake⟩ := by
  have hnext : intake.next = ⟨[], .nothing, intake⟩ := by rw [next_eq, h]
  induction count with
  | zero => rfl
  | succ count ih =>
    rw [Intake.nextTimes, hnext]
    simp only [ih]
    rfl

/-- Asked a number of times, the intake gives the first of all its elements, and then nothing. -/
theorem nextTimes_of_remaining {intake : Intake α} (hculprit : intake.remaining.culprit = none)
    (hdone : intake.remaining.rest.Done) (count : Nat) :
    (intake.nextTimes count).culprit = none
      ∧ (intake.nextTimes count).items =
        (intake.remaining.items ++ List.replicate count none).take count
      ∧ (intake.nextTimes count).events <+: intake.remaining.events
      ∧ (intake.remaining.items.length < count →
        (intake.nextTimes count).events = intake.remaining.events
          ∧ (intake.nextTimes count).rest = intake.remaining.rest) := by
  induction count generalizing intake with
  | zero => exact ⟨rfl, rfl, List.nil_prefix, fun h => absurd h (Nat.not_lt_zero _)⟩
  | succ count ih =>
    rw [remaining_eq_next] at hculprit hdone ⊢
    rw [Intake.nextTimes]
    cases houtcome : intake.next.outcome with
    | failed culprit =>
      rw [houtcome] at hculprit
      exact absurd hculprit (by simp)
    | nothing =>
      rw [houtcome] at hdone
      change intake.next.rest.Done at hdone
      rw [hdone.nextTimes count]
      refine ⟨rfl, ?_, ?_, fun _ => ⟨List.append_nil _, rfl⟩⟩
      · show List.replicate (count + 1) none = _
        rw [List.nil_append, List.take_of_length_le (Nat.le_of_eq List.length_replicate)]
      · exact ⟨[], (List.append_nil _).trans (List.append_nil _)⟩
    | item x =>
      rw [houtcome] at hculprit hdone
      obtain ⟨hnone, hitems, hevents, hall⟩ := ih hculprit hdone
      simp only
      refine ⟨hnone, ?_, List.prefix_append_right_inj _ |>.2 hevents, fun hlt => ?_⟩
      · rw [hitems, List.cons_append, List.take_succ_cons, List.replicate_succ']
        simp [List.take_append]
      · have hlt' : intake.next.rest.remaining.items.length < count := by
          rw [List.length_cons] at hlt
          omega
        rw [(hall hlt').1, (hall hlt').2]
        exact ⟨rfl, rfl⟩

/-- The intake has these elements to give, and nothing more for ever. -/
structure Has (intake : Intake α) (ys : List α) : Prop where
  culprit_eq : intake.remaining.culprit = none
  items_eq : intake.remaining.items = ys.map some
  done : intake.remaining.rest.Done

/-- An intake that is done has nothing to give. -/
theorem Done.has {intake : Intake α} (h : intake.Done) : intake.Has [] := by
  have hremaining : intake.remaining = ⟨[], [], none, intake⟩ := by rw [remaining_eq, h]
  refine ⟨?_, ?_, ?_⟩ <;> rw [hremaining]
  · rfl
  · exact h

namespace Has

variable {intake : Intake α} {ys : List α}

/-- Asked for its next element, the intake gives the first one. -/
theorem next (h : intake.Has ys) :
    intake.next.rest.Has ys.tail
      ∧ intake.next.outcome = match ys with
        | [] => .nothing
        | y :: _ => .item y := by
  obtain ⟨hculprit, hitems, hdone⟩ := h
  rw [remaining_eq_next] at hculprit hitems hdone
  cases houtcome : intake.next.outcome with
  | failed culprit =>
    rw [houtcome] at hculprit
    exact absurd hculprit (by simp)
  | nothing =>
    rw [houtcome] at hitems hdone
    obtain rfl : ys = [] := List.map_eq_nil_iff.1 hitems.symm
    exact ⟨Done.has hdone, rfl⟩
  | item x =>
    rw [houtcome] at hculprit hitems hdone
    obtain ⟨y, ys, rfl, hx, hrest⟩ := List.map_eq_cons_iff.1 hitems.symm
    exact ⟨⟨hculprit, hrest.symm, hdone⟩, congrArg Outcome.item (Option.some.inj hx).symm⟩

/-- After a number of elements, the others are left. -/
theorem nextTimes (h : intake.Has ys) (count : Nat) :
    (intake.nextTimes count).rest.Has (ys.drop count) := by
  induction count generalizing intake ys with
  | zero => exact h
  | succ count ih =>
    obtain ⟨hrest, houtcome⟩ := h.next
    rw [← List.drop_tail]
    rw [Intake.nextTimes, houtcome]
    cases ys with
    | nil => exact ih hrest
    | cons y ys => exact ih hrest

end Has

/-! ## Staged intakes -/

theorem remaining_ready (plan : Plan α) (counters : Counters) (ready : List α) (finished : Bool)
    (below : Intake α) :
    (staged plan counters ready finished below).remaining =
      { (staged plan counters [] finished below).remaining with
        items := ready.map some ++ (staged plan counters [] finished below).remaining.items } := by
  induction ready with
  | nil => rfl
  | cons x ready ih =>
    have hpull : (staged plan counters (x :: ready) finished below).pull =
        ⟨[], .item x, staged plan counters ready finished below⟩ := by rw [pull]
    rw [remaining_eq, hpull]
    simp only [ih]
    rfl

theorem done_finished (plan : Plan α) (counters : Counters) (below : Intake α) :
    (staged plan counters [] true below).Done := by
  rw [Done, pull]

theorem remaining_finished (plan : Plan α) (counters : Counters) (ready : List α)
    (below : Intake α) :
    (staged plan counters ready true below).remaining =
      ⟨[], ready.map some, none, staged plan counters [] true below⟩ := by
  rw [remaining_ready, remaining_eq, done_finished]
  simp only [List.append_nil]

end Intake

/-- The run that collects goes on from its state to what the pulls gave: it does the same, and
unless a callback fails it collects the same elements. -/
structure Pulls.Collects (pulls : Pulls α) (s : RunState α (List α)) (drain : Drain α (List α)) :
    Prop where
  events_eq : drain.state.journal.events = s.journal.events ++ pulls.events
  released : drain.rest.release = pulls.rest.release
  failed : ∀ culprit, drain.ending = .failed culprit → pulls.culprit = some culprit
  ended : (∀ culprit, drain.ending ≠ .failed culprit) →
    pulls.culprit = none ∧ pulls.rest.Done
      ∧ ∃ ys : List α, pulls.items = ys.map some ∧ drain.state.acc = ys.reverse ++ s.acc

/-- Collecting does the same whatever was collected and noted before. -/
theorem Sink.lockstep_collect (acc : List α) (journal : Journal α) :
    Lockstep Sink.collect Sink.collect
      (fun s t => s.counters = t.counters ∧ t.acc = s.acc ++ acc
        ∧ t.journal = journal.record s.journal.events)
      (fun _ _ => False) where
  counters_eq := fun h => h.1
  call := by
    rintro s t β f slot x ⟨hcounters, hacc, hjournal⟩
    refine ⟨by rw [RunState.afterCall, RunState.afterCall, hcounters], hacc, ?_⟩
    show t.journal.record [f.event x (t.counters.index slot)] =
      journal.record (s.journal.record [f.event x (s.counters.index slot)]).events
    rw [hjournal, Journal.events_record, Journal.record_append, hcounters]
  gate := by
    rintro s t number ⟨hcounters, hacc, hjournal⟩
    exact ⟨by rw [RunState.afterGate, RunState.afterGate, hcounters], hacc, hjournal⟩
  emit := by
    rintro s t x ⟨hcounters, hacc, hjournal⟩
    rw [RunM.feed_nil, RunM.feed_nil]
    refine .ok .onward ⟨congrArg Counters.emit hcounters, congrArg (x :: ·) hacc, ?_⟩
    exact hjournal
  call_ahead := nofun
  gate_ahead := nofun
  emit_ahead := nofun

namespace Plan

/-- What a staged intake still has to give is what the run that collects gets from the intake
below. -/
theorem staged_collects (plan : Plan α) (below : Intake α) (scanned : Nat)
    (s : RunState α (List α)) :
    (Intake.staged plan s.counters [] false below).remaining.Collects s
      (drainIntake plan .collect below scanned s) := by
  have hfinite := below.finite
  induction hfinite generalizing scanned s with
  | intro below _ ih =>
    have hlater := fun hne => ih below.pull.rest ⟨rfl, hne⟩
    rw [drainIntake_eq, Intake.remaining_eq, Intake.pull]
    rcases hmoved : below.pull with ⟨events, answer, rest⟩
    rw [hmoved] at hlater
    have hevents : (s.journal.record events).events = s.journal.events ++ events :=
      s.journal.events_record events
    cases answer with
    | nothing =>
      exact ⟨hevents, rfl, fun _ h => absurd h (by simp),
        fun _ => ⟨rfl, Intake.done_finished .., [], rfl, rfl⟩⟩
    | failed culprit =>
      exact ⟨hevents, rfl, fun _ h => by cases h; rfl, fun h => absurd rfl (h culprit)⟩
    | again =>
      have hlater := hlater (by simp) scanned { s with journal := s.journal.record events }
      refine ⟨?_, hlater.released, hlater.failed, hlater.ended⟩
      rw [← List.append_assoc, ← hevents]
      exact hlater.events_eq
    | item x =>
      have hfed := (Sink.lockstep_collect s.acc (s.journal.record events)).feedPlan plan x
        (s := ⟨s.counters, [], .empty⟩) (t := { s with journal := s.journal.record events })
        ⟨rfl, rfl, rfl⟩
      simp only [Intake.stage]
      generalize plan.feed .collect x ⟨s.counters, [], .empty⟩ = fed at hfed ⊢
      generalize plan.feed .collect x { s with journal := s.journal.record events } = fed' at hfed ⊢
      cases hfed with
      | ahead h => exact h.elim
      | failed culprit h =>
        rename_i u t
        obtain ⟨-, -, hjournal⟩ := h
        refine ⟨?_, rfl, fun _ h => by cases h; rfl, fun h => absurd rfl (h culprit)⟩
        rw [hjournal, Journal.events_record, hevents, List.append_assoc]
      | stopped h =>
        rename_i u t
        obtain ⟨-, hacc, hjournal⟩ := h
        simp only [Intake.remaining_finished]
        refine ⟨?_, rfl, fun _ h => absurd h (by simp),
          fun _ => ⟨rfl, Intake.done_finished .., u.acc.reverse, rfl, ?_⟩⟩
        · rw [hjournal, Journal.events_record, Journal.events_record, hevents]
          simp only [List.append_nil, List.append_assoc]
        · rw [List.reverse_reverse]
          exact hacc
      | onward h =>
        rename_i u t
        obtain ⟨hcounters, hacc, hjournal⟩ := h
        have hlater := hlater (by simp) (scanned + 1) t
        simp only [hcounters, Intake.remaining_ready plan t.counters u.acc.reverse]
        refine ⟨?_, hlater.released, hlater.failed, fun h => ?_⟩
        · rw [hlater.events_eq, hjournal, Journal.events_record, hevents]
          simp only [List.append_assoc]
        · obtain ⟨hnone, hdone, ys, hys, hcollected⟩ := hlater.ended h
          refine ⟨hnone, hdone, u.acc.reverse ++ ys, ?_, ?_⟩
          · rw [hys, List.map_append]
          · rw [hcollected, hacc, List.reverse_append, List.reverse_reverse, List.append_assoc]

end Plan

/-! ## Elements that a leading gate drops -/

namespace Counters

/-- An element that a gate drops is one element passed over. -/
theorem afterGate_eq_jump {c : Counters} {number : Nat} (h : 0 < (c.window number).skip) :
    c.afterGate number = c.jump number 1 := by
  have hmodify : c.gates.modify number (fun w => { w with skip := w.skip - 1 }) =
      c.gates.set number { c.window number with skip := (c.window number).skip - 1 } := by
    let : Inhabited Window := ⟨⟨0, none⟩⟩
    rw [List.modify_eq_set, window, List.getD_eq_getElem?_getD]
    rfl
  rw [jump, hmodify, afterGate]
  rcases hwindow : c.window number with ⟨_ | skip, take⟩
  · rw [hwindow] at h
    exact absurd h (Nat.lt_irrefl 0)
  · simp [Window.ask]

theorem jump_zero (c : Counters) (number : Nat) : c.jump number 0 = c := by
  have hmodify : c.gates.modify number (fun w => { w with skip := w.skip - 0 }) = c.gates :=
    List.modify_id number c.gates
  rw [jump, hmodify]

theorem jump_jump (c : Counters) (number first second : Nat) :
    (c.jump number first).jump number second = c.jump number (first + second) := by
  simp only [jump, List.modify_modify_eq, Function.comp_def, Nat.sub_sub]

end Counters

namespace Plan

variable {plan : Plan α}

/-- An element that the leading gate drops changes nothing but what is left of that gate. -/
theorem feed_dropped {γ : Type} {number : Nat} (hgate : plan.leadingGate = some number)
    (sink : Sink α γ) (x : α) {s : RunState α γ} (hsealed : s.counters.isSealed = false)
    (hskip : 0 < (s.counters.window number).skip) :
    plan.feed sink x s = .onward { s with counters := s.counters.jump number 1 } := by
  have hdropped : (s.counters.window number).ask.1 = .dropped := by
    rcases hwindow : s.counters.window number with ⟨_ | skip, take⟩
    · rw [hwindow] at hskip
      exact absurd hskip (Nat.lt_irrefl 0)
    · rfl
  have hjump : s.counters.afterGate number = s.counters.jump number 1 :=
    Counters.afterGate_eq_jump hskip
  obtain ⟨steps, hsteps⟩ := exists_steps_of_leadingGate hgate
  rw [feed, hsteps, RunM.feed_gate]
  simp only [hdropped, RunState.afterGate, hjump]
  exact if_neg (by rw [Counters.jump, hsealed]; simp)

/-- A list that is pulled from the start gives what it gives behind the elements that the leading
gate drops: nothing happens for those. -/
theorem remaining_jump {number : Nat} (hgate : plan.leadingGate = some number) {items : List α}
    {c : Counters} (hsealed : c.isSealed = false) {count : Nat}
    (hskip : count ≤ (c.window number).skip) (hlength : count ≤ items.length) :
    (Intake.staged plan c [] false (.owned items)).remaining =
      (Intake.staged plan (c.jump number count) [] false
        (.owned (items.drop count))).remaining := by
  induction count generalizing items c with
  | zero => rw [Counters.jump_zero, List.drop_zero]
  | succ count ih =>
    obtain ⟨x, rest, rfl⟩ : ∃ x rest, items = x :: rest :=
      List.exists_cons_of_length_pos (Nat.lt_of_lt_of_le (Nat.succ_pos _) hlength)
    have hfeed : plan.feed .collect x ⟨c, [], .empty⟩ = .onward ⟨c.jump number 1, [], .empty⟩ :=
      feed_dropped hgate .collect x hsealed (Nat.lt_of_lt_of_le (Nat.succ_pos _) hskip)
    have hpull : (Intake.staged plan c [] false (.owned (x :: rest))).pull =
        ⟨[], .again, .staged plan (c.jump number 1) [] false (.owned rest)⟩ := by
      rw [Intake.pull, Intake.pull]
      simp only [Intake.stage, hfeed]
      rfl
    have hleft : count ≤ ((c.jump number 1).window number).skip := by
      rw [Counters.window_jump_self]
      show count ≤ (c.window number).skip - 1
      omega
    rw [List.length_cons] at hlength
    have hshorter : count ≤ rest.length := by omega
    have hlater := ih (c := c.jump number 1) hsealed hleft hshorter
    rw [Intake.remaining_eq, hpull, List.drop_succ_cons, Nat.add_comm count 1, ← Counters.jump_jump,
      ← hlater]
    rfl

/-- What the intake of a plan gives is what the run that collects gets from the same source. -/
theorem intake_collects (hnever : plan.never = false) (opened : Opened α) :
    (plan.intake opened).remaining.Collects ⟨opened.start plan, [], .empty⟩
      (plan.drained .collect [] opened) := by
  cases opened with
  | indexed source box =>
    rw [intake, hnever]
    exact plan.staged_collects _ 0 ⟨plan.startAfterJump box.size, [], .empty⟩
  | owned items =>
    have hjumped : (plan.intake (.owned items)).remaining =
        (Intake.staged plan (plan.startAfterJump items.length) [] false
          (.owned (items.drop (plan.jumped items.length)))).remaining := by
      rw [intake, hnever, startAfterJump, jumped]
      cases hgate : plan.leadingGate with
      | none => rw [List.drop_zero]
      | some number =>
        exact remaining_jump hgate rfl (Nat.min_le_left _ _) (Nat.min_le_right _ _)
    rw [hjumped]
    exact plan.staged_collects _ 0 ⟨plan.startAfterJump items.length, [], .empty⟩
  | sequential below =>
    rw [intake, hnever]
    exact plan.staged_collects below 0 ⟨plan.start, [], .empty⟩

end Plan

end StreamFusion
