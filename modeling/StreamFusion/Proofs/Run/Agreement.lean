import StreamFusion.Proofs.Intake.Iteration
import StreamFusion.Proofs.Run.Closing

/-!
# Runs over the same elements

What a run comes to depends on the elements of its source, and not on how they are read: draining an
intake is draining the list of the elements that it gives (`Intake.Yields.drain_agrees`). A list can
be drained behind the elements that the leading gate drops as well (`Plan.drain_jump`). So every run
is told by draining the list of its elements from the start (`Opened.Feeds.tells`).
-/

namespace StreamFusion

variable {α γ : Type}

/-- The drainings came to the same: states that `Q` relates, as many elements, and the same
ending. -/
structure Drain.Agrees (Q : RunState α γ → RunState α γ → Prop) (drain other : Drain α γ) :
    Prop where
  state : Q drain.state other.state
  scanned_eq : drain.scanned = other.scanned
  ending_eq : drain.ending = other.ending

/-! ## What happens at an intake -/

/-- Moves of intakes with `I` lead to intakes with `I`, and what happens at them satisfies `N`. -/
structure Intake.Shows (I : Intake α → Prop) (N : List (Event α) → Prop) : Prop where
  pull : ∀ {intake}, I intake → N intake.pull.events ∧ I intake.pull.rest
  close : ∀ {intake}, I intake → N intake.close.1

theorem Intake.shows_anything : Intake.Shows (fun _ : Intake α => True) fun _ => True :=
  ⟨fun _ => ⟨trivial, trivial⟩, fun _ => trivial⟩

/-- The intake reads a container, a list or a cursor, and no other pipeline. -/
inductive Intake.Plain : Intake α → Prop where
  | shelf (source : Ident) (box : Container α) (position : Nat) : Plain (.shelf source box position)
  | owned (items : List α) : Plain (.owned items)
  | cursor (source : Ident) (answers : List (Option α)) (isOpen : Bool) :
      Plain (.cursor source answers isOpen)

/-- An intake that reads no other pipeline calls no callbacks. -/
theorem Intake.shows_no_calls : Intake.Shows (Plain (α := α)) fun events => calls events = [] where
  close := fun {intake} _ => intake.calls_close
  pull := by
    intro intake hplain
    cases hplain with
    | shelf source box position =>
      rw [pull]
      split
      · split
        · exact ⟨rfl, .shelf ..⟩
        · exact ⟨rfl, .shelf ..⟩
      · exact ⟨rfl, .shelf ..⟩
    | owned items => cases items <;> exact ⟨rfl, .owned _⟩
    | cursor source answers isOpen =>
      cases isOpen with
      | true => rcases answers with _ | ⟨_ | x, answers⟩ <;> exact ⟨rfl, .cursor ..⟩
      | false => rcases answers with _ | ⟨_ | x, answers⟩ <;> exact ⟨rfl, .cursor ..⟩

/-- The states differ in their journals only, and there in events that are no calls. -/
def RunState.SameCalls (s t : RunState α γ) : Prop :=
  s.SameAs t ∧ calls s.journal.events = calls t.journal.events

theorem RunState.SameCalls.record {s t : RunState α γ} (h : s.SameCalls t) {events : List (Event α)}
    (hevents : calls events = []) :
    RunState.SameCalls { s with journal := s.journal.record events } t := by
  refine ⟨h.1, ?_⟩
  rw [Journal.events_record, calls_append, hevents, List.append_nil]
  exact h.2

/-- Two runs with the same closing action make the same calls. -/
theorem Sink.lockstep_calls (sink : Sink α γ) :
    Lockstep sink sink RunState.SameCalls fun _ _ => False where
  counters_eq := fun h => h.1.1
  call := by
    rintro s t β f slot x ⟨hsame, hcalls⟩
    refine ⟨sink.lockstep_same.call f slot x hsame, ?_⟩
    simp only [RunState.afterCall, Journal.events_record, calls_append, hcalls, hsame.1]
  gate := fun number h => ⟨sink.lockstep_same.gate number h.1, h.2⟩
  emit := by
    rintro s t x ⟨⟨hcounters, hacc⟩, hcalls⟩
    rw [RunM.feed_nil, RunM.feed_nil, hacc, hcounters]
    have hemitted : s.counters.emit = t.counters.emit := congrArg Counters.emit hcounters
    have hnoted : calls (s.journal.record (sink t.acc x t.counters.emitted).events).events =
        calls (t.journal.record (sink t.acc x t.counters.emitted).events).events := by
      simp only [Journal.events_record, calls_append, hcalls]
    rcases (sink t.acc x t.counters.emitted).result with _ | ⟨acc, flow⟩
    · exact .error x ⟨⟨hemitted, hacc⟩, hnoted⟩
    · exact .ok flow ⟨⟨hemitted, rfl⟩, hnoted⟩
  call_ahead := nofun
  gate_ahead := nofun
  emit_ahead := nofun

/-! ## Draining what an intake yields -/

/-- Draining an intake is draining the list of its elements. What happens at the intake is noted in
addition, which `Q` must not mind. -/
theorem Intake.Yields.drain_agrees {sink : Sink α γ} {Q : RunState α γ → RunState α γ → Prop}
    {I : Intake α → Prop} {N : List (Event α) → Prop} (h : Lockstep sink sink Q fun _ _ => False)
    (hshows : Intake.Shows I N)
    (hrecord : ∀ {s t events}, N events → Q s t →
      Q { s with journal := s.journal.record events } t)
    (plan : Plan α) {intake : Intake α} {xs : List α} (hyields : intake.Yields xs) (hI : I intake)
    (scanned : Nat) {s t : RunState α γ} (hQ : Q s t) :
    Drain.Agrees Q (drainIntake plan sink intake scanned s)
      (drainIntake plan sink (.owned xs) scanned t) := by
  induction hyields generalizing scanned s t with
  | nothing moved =>
    have hnoted := (hshows.pull hI).1
    rw [moved] at hnoted
    rw [Plan.drainIntake_eq, moved, Plan.drainIntake_eq]
    exact ⟨hrecord hnoted hQ, rfl, rfl⟩
  | again moved later ih =>
    obtain ⟨hnoted, hI'⟩ := hshows.pull hI
    rw [moved] at hnoted hI'
    rw [Plan.drainIntake_eq, moved]
    exact ih hI' scanned (hrecord hnoted hQ)
  | @item intake rest events x xs moved later ih =>
    obtain ⟨hnoted, hI'⟩ := hshows.pull hI
    rw [moved] at hnoted hI'
    have hpull : (Intake.owned (x :: xs)).pull = ⟨[], .item x, .owned xs⟩ := rfl
    rw [Plan.drainIntake_eq, moved, Plan.drainIntake_eq, hpull]
    have hfed := h.feedPlan plan x (hrecord hnoted hQ)
    simp only [Journal.record_nil]
    generalize plan.feed sink x _ = fed at hfed ⊢
    generalize plan.feed sink x _ = fed' at hfed ⊢
    cases hfed with
    | onward hQ' => exact ih hI' (scanned + 1) hQ'
    | stopped hQ' => exact ⟨hrecord (hshows.close hI') hQ', rfl, rfl⟩
    | failed culprit hQ' => exact ⟨hQ', rfl, rfl⟩
    | ahead hnone => exact hnone.elim

/-! ## Jumping -/

namespace Plan

variable {plan : Plan α}

/-- Draining counts on from any number. -/
theorem drain_scanned (plan : Plan α) (sink : Sink α γ) (intake : Intake α) (scanned more : Nat)
    (s : RunState α γ) :
    drainIntake plan sink intake (scanned + more) s =
      { drainIntake plan sink intake scanned s with
        scanned := (drainIntake plan sink intake scanned s).scanned + more } := by
  have hfinite := intake.finite
  induction hfinite generalizing scanned s with
  | intro intake _ ih =>
    rw [drainIntake_eq, drainIntake_eq plan sink intake scanned]
    cases hanswer : intake.pull.answer with
    | nothing => rfl
    | failed culprit => rfl
    | again => exact ih _ ⟨rfl, by rw [hanswer]; simp⟩ scanned _
    | item x =>
      simp only [Nat.add_right_comm scanned more 1]
      cases plan.feed sink x _ with
      | onward s' => exact ih _ ⟨rfl, by rw [hanswer]; simp⟩ (scanned + 1) s'
      | stopped s' => rfl
      | failed culprit s' => rfl

/-- A list is drained from the start as it is drained behind elements that the leading gate
drops. -/
theorem drain_jump {number : Nat} (hgate : plan.leadingGate = some number) (sink : Sink α γ)
    {xs : List α} {s : RunState α γ} (hsealed : s.counters.isSealed = false) {count : Nat}
    (hskip : count ≤ (s.counters.window number).skip) (hlength : count ≤ xs.length)
    (scanned : Nat) :
    drainIntake plan sink (.owned xs) scanned s =
      drainIntake plan sink (.owned (xs.drop count)) (scanned + count)
        { s with counters := s.counters.jump number count } := by
  induction count generalizing xs s scanned with
  | zero => rw [Counters.jump_zero, List.drop_zero, Nat.add_zero]
  | succ count ih =>
    obtain ⟨x, rest, rfl⟩ : ∃ x rest, xs = x :: rest :=
      List.exists_cons_of_length_pos (Nat.lt_of_lt_of_le (Nat.succ_pos _) hlength)
    have hfeed : plan.feed sink x s = .onward { s with counters := s.counters.jump number 1 } :=
      feed_dropped hgate sink x hsealed (Nat.lt_of_lt_of_le (Nat.succ_pos _) hskip)
    have hpull : (Intake.owned (x :: rest)).pull = ⟨[], .item x, .owned rest⟩ := rfl
    have hleft : count ≤ ((s.counters.jump number 1).window number).skip := by
      rw [Counters.window_jump_self]
      show count ≤ (s.counters.window number).skip - 1
      omega
    have hshorter : count ≤ rest.length := by
      rw [List.length_cons] at hlength
      omega
    have hlater := ih (s := { s with counters := s.counters.jump number 1 }) hsealed hleft hshorter
      (scanned + 1)
    rw [drainIntake_eq, hpull]
    simp only [Journal.record_nil, hfeed]
    rw [hlater, Counters.jump_jump, List.drop_succ_cons, Nat.add_comm 1 count,
      Nat.add_right_comm scanned 1 count, Nat.add_assoc scanned count 1]

/-- A run that jumps over as many elements as the leading gate drops in a source of this size goes
on as a run from the start does. -/
theorem drain_start (plan : Plan α) (sink : Sink α γ) (seed : γ) {xs : List α} {size : Nat}
    (hlength : plan.jumped size ≤ xs.length) :
    drainIntake plan sink (.owned xs) 0 ⟨plan.start, seed, .empty⟩ =
      drainIntake plan sink (.owned (xs.drop (plan.jumped size))) (plan.jumped size)
        ⟨plan.startAfterJump size, seed, .empty⟩ := by
  unfold startAfterJump
  cases hgate : plan.leadingGate with
  | none =>
    have hjumped : plan.jumped size = 0 := by rw [jumped, hgate]
    rw [hjumped, List.drop_zero]
  | some number =>
    have hskip : plan.jumped size ≤ (plan.start.window number).skip := by
      rw [jumped, hgate]
      exact Nat.min_le_left _ _
    have hjump := drain_jump hgate sink (s := ⟨plan.start, seed, .empty⟩) rfl hskip hlength 0
    rw [Nat.zero_add] at hjump
    exact hjump

end Plan

/-! ## Results -/

/-- Where the scan of a shelf ends, and how much it has scanned. -/
theorem position_scanShelf (plan : Plan α) (sink : Sink α γ) (shelf : Shelf α)
    (position scanned : Nat) (s : RunState α γ) :
    (scanShelf plan sink shelf position scanned s).position + scanned =
      position + (scanShelf plan sink shelf position scanned s).scanned := by
  induction hleft : shelf.box.size - position generalizing position scanned s with
  | zero =>
    have hnot : ¬ position < shelf.box.size := by omega
    rw [scanShelf, if_neg hnot]
  | succ n ih =>
    have hlt : position < shelf.box.size := by omega
    rw [scanShelf, if_pos hlt]
    cases shelf.box.get? position with
    | none => rfl
    | some x =>
      simp only
      cases plan.feed sink x { s with journal := s.journal.record (shelf.reading position) } with
      | onward s' =>
        have hlater := ih (position + 1) (scanned + 1) s' (by omega)
        simp only
        omega
      | stopped s' =>
        simp only
        omega
      | failed culprit s' =>
        simp only
        omega

/-- Does a run that stops behind so many elements stop early? A run by position does not if no
position is left. -/
def Opened.stopsEarly (count : Nat) : Opened α → Bool
  | .indexed _ box => decide (count < box.size)
  | .owned items => decide (count < items.length)
  | .sequential _ => true

/-- The result of a run that drained its source up to this ending. -/
def Ending.result (stats : Bool → Stats) (early : Bool) : Ending α → Except α Stats
  | .failed culprit => .error culprit
  | .exhausted => .ok (stats false)
  | .stopped => .ok (stats early)

namespace Plan

variable (plan : Plan α) (sink : Sink α γ) (seed : γ)

theorem result_runShelf {shelf : Shelf α} {intakeAt : Nat → Intake α}
    (hpulled : shelf.PulledBy intakeAt) :
    let drain := drainIntake plan sink (intakeAt (plan.jumped shelf.box.size)) 0
      ⟨plan.startAfterJump shelf.box.size, seed, .empty⟩
    (plan.runShelf sink seed shelf).result =
      drain.ending.result (⟨drain.scanned, plan.jumped shelf.box.size, drain.state.counters.emitted, ·⟩)
        (decide (plan.jumped shelf.box.size + drain.scanned < shelf.box.size)) := by
  intro drain
  have hmatches := scanShelf_matches hpulled plan sink (plan.jumped shelf.box.size) 0
    ⟨plan.startAfterJump shelf.box.size, seed, .empty⟩
  have hposition := position_scanShelf plan sink shelf (plan.jumped shelf.box.size) 0
    ⟨plan.startAfterJump shelf.box.size, seed, .empty⟩
  change Scan.Matches _ drain at hmatches
  rw [runShelf]
  generalize scanShelf plan sink shelf _ _ _ = scan at hmatches hposition ⊢
  have hstopped : scan.position = plan.jumped shelf.box.size + drain.scanned := by
    rw [← hmatches.scanned_eq]
    exact hposition
  simp only [hmatches.state_eq, hmatches.scanned_eq, hmatches.ending_eq, hstopped]
  cases drain.ending with
  | exhausted => rfl
  | stopped => rfl
  | failed culprit => rfl

/-- What a run says that it did. -/
theorem result_run (opened : Opened α) :
    (plan.run sink seed opened).result =
      (plan.drained sink seed opened).ending.result
        (⟨(plan.drained sink seed opened).scanned, opened.jump plan,
          (plan.drained sink seed opened).state.counters.emitted, ·⟩)
        (opened.stopsEarly (opened.jump plan + (plan.drained sink seed opened).scanned)) := by
  cases opened with
  | indexed source box =>
    exact plan.result_runShelf sink seed (Shelf.pulledBy_ofSource source box)
  | owned items =>
    have hlist := plan.result_runShelf sink seed (Shelf.pulledBy_ofList items)
    have hsize : (Shelf.ofList items).box.size = items.length := Container.size_ofList items
    rw [hsize] at hlist
    exact hlist
  | sequential intake =>
    have hdrained : plan.drained sink seed (.sequential intake) =
        drainIntake plan sink intake 0 ⟨plan.start, seed, .empty⟩ := rfl
    rw [run, runIntake, hdrained]
    generalize drainIntake plan sink intake 0 _ = drain
    obtain ⟨state, rest, scanned, ending⟩ := drain
    cases ending with
    | exhausted => rfl
    | stopped => rfl
    | failed culprit => rfl

/-- The draining of a list, from the start and with nothing passed over. -/
def drainList (xs : List α) : Drain α γ :=
  drainIntake plan sink (.owned xs) 0 ⟨plan.start, seed, .empty⟩

end Plan

/-! ## Runs and lists -/

/-- The opened source has these elements: it gives those behind the ones that the plan jumps over,
and there are as many as that. -/
structure Opened.Feeds (opened : Opened α) (plan : Plan α) (xs : List α) : Prop where
  jump_le : opened.jump plan ≤ xs.length
  yields : (opened.intakeFrom (opened.jump plan)).Yields (xs.drop (opened.jump plan))

/-- The run came to what draining the list came to; `jumped` elements of the list it did not read. -/
structure Drain.Tells (drain : Drain α γ) (jumped : Nat) (early : Bool) (finish : Finish α γ) :
    Prop where
  jumped_le : jumped ≤ drain.scanned
  acc_eq : finish.acc = drain.state.acc
  result_eq : finish.result =
    drain.ending.result (⟨drain.scanned - jumped, jumped, drain.state.counters.emitted, ·⟩) early

/-- The runs came to the same accumulator and handed out as many elements, or they failed at the same
element. -/
structure Finish.SameTo (finish other : Finish α γ) : Prop where
  acc_eq : finish.acc = other.acc
  result_eq : finish.result.map Stats.emitted = other.result.map Stats.emitted

theorem Ending.emitted_result (ending : Ending α) (scanned jumped emitted : Nat) (early : Bool) :
    (ending.result (⟨scanned, jumped, emitted, ·⟩) early).map Stats.emitted =
      match ending with
      | .failed culprit => .error culprit
      | _ => .ok emitted := by
  cases ending <;> rfl

/-- Runs that are told by drainings that agree came to the same. -/
theorem Drain.Tells.sameTo {drain other : Drain α γ} {jumped jumped' : Nat} {early early' : Bool}
    {finish finish' : Finish α γ} (h : drain.Tells jumped early finish)
    (h' : other.Tells jumped' early' finish') {Q : RunState α γ → RunState α γ → Prop}
    (hagrees : Drain.Agrees Q drain other)
    (hQ : ∀ {s t}, Q s t → s.acc = t.acc ∧ s.counters.emitted = t.counters.emitted) :
    finish.SameTo finish' := by
  obtain ⟨hacc, hemitted⟩ := hQ hagrees.state
  refine ⟨h.acc_eq.trans (hacc.trans h'.acc_eq.symm), ?_⟩
  rw [h.result_eq, h'.result_eq, Ending.emitted_result, Ending.emitted_result, hagrees.ending_eq,
    hemitted]

namespace Opened.Feeds

variable {plan : Plan α} {opened : Opened α} {xs : List α}

/-- The elements that are jumped over are drained as the others are, and change nothing. -/
theorem drained_agrees (h : opened.Feeds plan xs) {sink : Sink α γ} (seed : γ)
    {Q : RunState α γ → RunState α γ → Prop} {I : Intake α → Prop} {N : List (Event α) → Prop}
    (hlock : Lockstep sink sink Q fun _ _ => False) (hshows : Intake.Shows I N)
    (hrecord : ∀ {s t events}, N events → Q s t →
      Q { s with journal := s.journal.record events } t)
    (hrefl : ∀ s, Q s s) (hI : I (opened.intakeFrom (opened.jump plan))) :
    Drain.Agrees Q
      { plan.drained sink seed opened with
        scanned := (plan.drained sink seed opened).scanned + opened.jump plan }
      (plan.drainList sink seed xs) := by
  have hdrained := h.yields.drain_agrees hlock hshows hrecord plan hI 0
    (hrefl ⟨opened.start plan, seed, .empty⟩)
  have hlist : plan.drainList sink seed xs =
      drainIntake plan sink (.owned (xs.drop (opened.jump plan))) (0 + opened.jump plan)
        ⟨opened.start plan, seed, .empty⟩ := by
    rw [Nat.zero_add]
    cases opened with
    | indexed source box => exact plan.drain_start sink seed h.jump_le
    | owned items => exact plan.drain_start sink seed h.jump_le
    | sequential intake => rfl
  rw [hlist, plan.drain_scanned]
  exact ⟨hdrained.state, congrArg (· + opened.jump plan) hdrained.scanned_eq, hdrained.ending_eq⟩

/-- Every run is told by draining the list of its elements. -/
theorem tells (h : opened.Feeds plan xs) (sink : Sink α γ) (seed : γ) :
    (plan.drainList sink seed xs).Tells (opened.jump plan)
      (opened.stopsEarly (plan.drainList sink seed xs).scanned) (plan.run sink seed opened) := by
  have hagrees := h.drained_agrees seed sink.lockstep_same Intake.shows_anything (fun _ h => h)
    (fun _ => ⟨rfl, rfl⟩) trivial
  have hresult := plan.result_run sink seed opened
  obtain ⟨⟨hcounters, hacc⟩, hscanned, hending⟩ := hagrees
  simp only at hcounters hacc hscanned hending
  refine ⟨?_, (plan.run_eq_drain sink seed opened).acc_eq.trans hacc, ?_⟩
  · rw [← hscanned]
    exact Nat.le_add_left _ _
  · rw [hresult, hcounters, hending, ← hscanned, Nat.add_sub_cancel,
      Nat.add_comm (opened.jump plan)]

/-- A run over a source that reads no other pipeline makes the calls that draining the list of its
elements makes. -/
theorem calls_eq (h : opened.Feeds plan xs)
    (hplain : (opened.intakeFrom (opened.jump plan)).Plain) (sink : Sink α γ) (seed : γ) :
    calls (plan.run sink seed opened).events =
      calls (plan.drainList sink seed xs).state.journal.events := by
  have hagrees := h.drained_agrees seed sink.lockstep_calls Intake.shows_no_calls
    (fun hnone h => h.record hnone) (fun _ => ⟨⟨rfl, rfl⟩, rfl⟩) hplain
  rw [(plan.run_eq_drain sink seed opened).events_eq, calls_append, Intake.calls_release,
    List.append_nil]
  exact hagrees.state.2

end Opened.Feeds

end StreamFusion
