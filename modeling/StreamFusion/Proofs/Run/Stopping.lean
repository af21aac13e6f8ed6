import StreamFusion.Proofs.Cursor.Tending
import StreamFusion.Proofs.Intake.Yields
import StreamFusion.Proofs.Plan.Compiled

/-!
# When runs stop

A run stops behind the first element after which a gate has let its last element pass, or the
closing action has said stop. To say so, elements are fed without asking whether the run should stop
(`Plan.feedAll`), and the closing action keeps what it was handed (`Sink.logged`). The sealed mark
of the counters tells whether a gate is shut (`Counters.Marked`), and behind a shut gate nothing
comes out any more (`Course.shut`), so stopping loses nothing and reads no more than it must
(`Plan.run_cursor_stops`).
-/

namespace StreamFusion

variable {α γ δ : Type}

/-! ## Keeping what was handed out -/

/-- An element that a closing action was handed, its emitted index and what the action said. -/
structure Handed (α : Type) where
  element : α
  index : Nat
  flow : Flow

/-- The closing action that also keeps what it was handed, the latest in front. -/
def Sink.logged (sink : Sink α γ) : Sink α (γ × List (Handed α)) := fun acc x index =>
  ⟨(sink acc.1 x index).events,
    (sink acc.1 x index).result.map fun answer =>
      ((answer.1, ⟨x, index, answer.2⟩ :: acc.2), answer.2)⟩

theorem Sink.Silent.logged {sink : Sink α γ} (h : sink.Silent) : sink.logged.Silent :=
  fun acc x index => h acc.1 x index

/-- To keep what is handed out changes nothing else. -/
theorem Sink.lockstep_logged (sink : Sink α γ) :
    Lockstep sink.logged sink
      (fun s t => s.counters = t.counters ∧ s.acc.1 = t.acc ∧ s.journal = t.journal)
      (fun _ _ => False) where
  counters_eq := fun h => h.1
  call := by
    rintro s t β f slot x ⟨hcounters, hacc, hjournal⟩
    refine ⟨congrArg (Counters.tick · slot) hcounters, hacc, ?_⟩
    show s.journal.record [f.event x (s.counters.index slot)] =
      t.journal.record [f.event x (t.counters.index slot)]
    rw [hcounters, hjournal]
  gate := by
    rintro s t number ⟨hcounters, hacc, hjournal⟩
    exact ⟨congrArg (Counters.afterGate · number) hcounters, hacc, hjournal⟩
  emit := by
    rintro s t x ⟨hcounters, hacc, hjournal⟩
    rw [RunM.feed_nil, RunM.feed_nil]
    simp only [logged, hacc, hcounters]
    have hafter : (s.afterEmit (sink t.acc x t.counters.emitted).events).journal =
        (t.afterEmit (sink t.acc x t.counters.emitted).events).journal :=
      congrArg (Journal.record · _) hjournal
    have hemitted : s.counters.emit = t.counters.emit := congrArg Counters.emit hcounters
    rcases (sink t.acc x t.counters.emitted).result with _ | ⟨acc, flow⟩
    · exact .error x ⟨hemitted, hacc, hafter⟩
    · exact .ok flow ⟨hemitted, rfl, hafter⟩
  call_ahead := nofun
  gate_ahead := nofun
  emit_ahead := nofun

namespace Plan

/-- What a run hands to its closing action, one after the other. -/
def handed (plan : Plan α) (sink : Sink α γ) (seed : γ) (opened : Opened α) : List (Handed α) :=
  (plan.run sink.logged (seed, []) opened).acc.2.reverse

/-- A run is the same whether or not what it hands out is kept. -/
theorem run_logged (plan : Plan α) (sink : Sink α γ) (seed : γ) (intake : Intake α) :
    (plan.run sink.logged (seed, []) (.sequential intake)).acc.1 =
        (plan.run sink seed (.sequential intake)).acc
      ∧ (plan.run sink.logged (seed, []) (.sequential intake)).events =
        (plan.run sink seed (.sequential intake)).events
      ∧ (plan.run sink.logged (seed, []) (.sequential intake)).result =
        (plan.run sink seed (.sequential intake)).result := by
  have hdrain := sink.lockstep_logged.drain
    (fun events h => ⟨h.1, h.2.1, congrArg (Journal.record · events) h.2.2⟩) (fun _ h => h)
    plan intake 0 (s := ⟨plan.start, (seed, []), .empty⟩) (t := ⟨plan.start, seed, .empty⟩)
    ⟨rfl, rfl, rfl⟩
  simp only [run, runIntake]
  generalize drainIntake plan sink.logged intake 0 _ = drain at hdrain ⊢
  generalize drainIntake plan sink intake 0 _ = drain' at hdrain ⊢
  cases hdrain with
  | ahead rest scanned h => exact h.elim
  | alike rest scanned ending h =>
    obtain ⟨hcounters, hacc, hjournal⟩ := h
    simp only [hcounters, hjournal]
    cases ending with
    | exhausted => exact ⟨hacc, rfl, rfl⟩
    | stopped => exact ⟨hacc, rfl, rfl⟩
    | failed culprit => exact ⟨hacc, rfl, rfl⟩

end Plan

/-! ## Shut gates -/

/-- What is left of a gate is nothing if it was nothing before, or if the last element passed. -/
theorem Window.take_ask (w : Window) :
    w.ask.2.take = some 0 ↔
      w.take = some 0 ∨ (w.ask.1 = .through ∧ w.ask.2.take = some 0) := by
  rcases w with ⟨_ | skip, _ | _ | take⟩ <;> simp [Window.ask]

namespace Counters

/-- The run is marked as sealed if and only if a gate has let its last element pass. -/
def Marked (c : Counters) : Prop :=
  c.isSealed = true ↔ ∃ number, (c.window number).take = some 0

theorem Marked.tick {c : Counters} (h : c.Marked) (slot : Option Nat) : (c.tick slot).Marked := by
  cases slot <;> exact h

theorem Marked.afterGate {c : Counters} (h : c.Marked) (number : Nat) :
    (c.afterGate number).Marked := by
  have hmark : (c.afterGate number).isSealed = true ↔
      c.isSealed = true ∨ ((c.window number).ask.1 = .through
        ∧ (c.window number).ask.2.take = some 0) := by
    simp [Counters.afterGate]
  unfold Marked at h ⊢
  rw [hmark, h]
  constructor
  · rintro (⟨other, hother⟩ | hlast)
    · by_cases hsame : other = number
      · refine ⟨number, ?_⟩
        rw [window_afterGate_self, Window.take_ask]
        exact .inl (hsame ▸ hother)
      · exact ⟨other, by rw [window_afterGate_of_ne _ hsame]; exact hother⟩
    · exact ⟨number, by rw [window_afterGate_self]; exact hlast.2⟩
  · rintro ⟨other, hother⟩
    by_cases hsame : other = number
    · rw [hsame, window_afterGate_self, Window.take_ask] at hother
      exact hother.imp_left fun h => ⟨number, h⟩
    · rw [window_afterGate_of_ne _ hsame] at hother
      exact .inl ⟨other, hother⟩

theorem take_of_shut {c : Counters} {number : Nat} (h : (c.window number).ask.1 = .shut) :
    ((c.afterGate number).window number).take = some 0 := by
  rw [window_afterGate_self]
  rcases hwindow : c.window number with ⟨_ | skip, _ | _ | take⟩ <;> rw [hwindow] at h
  all_goals first
    | rfl
    | exact absurd h (by simp [Window.ask])

end Counters

/-! ## When a run should stop -/

/-- The closing action never says stop. -/
def Sink.Endless (sink : Sink α γ) : Prop :=
  ∀ acc x index answer, (sink acc x index).result = some answer → answer.2 = .onward

/-- A gate has let its last element pass, or the closing action has said stop. -/
def RunState.ShouldStop (s : RunState α (γ × List (Handed α))) : Prop :=
  (∃ number, (s.counters.window number).take = some 0) ∨ ∃ handed ∈ s.acc.2, handed.flow = .stop

/-- The counters are marked as they should be, and the closing action has not said stop. -/
structure RunState.Onward (s : RunState α (γ × List (Handed α))) : Prop where
  marked : s.counters.Marked
  onward : ∀ handed ∈ s.acc.2, handed.flow = .onward

theorem RunState.Onward.shouldStop_iff {s : RunState α (γ × List (Handed α))} (h : s.Onward) :
    s.ShouldStop ↔ s.counters.isSealed = true := by
  unfold ShouldStop
  rw [show s.counters.isSealed = true ↔ _ from h.marked]
  refine ⟨fun hstop => hstop.resolve_right ?_, .inl⟩
  rintro ⟨handed, hmem, hflow⟩
  rw [h.onward handed hmem] at hflow
  exact absurd hflow (by simp)

namespace Course

/-- A part of a run goes on only if the closing action has not said stop, and it stops only if the
run should. -/
theorem stopping (sink : Sink α γ) :
    Course sink.logged (fun _ => True) RunState.Onward RunState.ShouldStop fun _ => True where
  call := fun f x _ _ hs => ⟨trivial, hs.marked.tick _, hs.onward⟩
  fail := fun _ => trivial
  gate := by
    intro s number steps _ hs
    have hasked : (s.afterGate number).Onward := ⟨hs.marked.afterGate number, hs.onward⟩
    cases hask : (s.counters.window number).ask.1 with
    | through => exact ⟨trivial, hasked⟩
    | dropped => exact hasked
    | shut => exact .inl ⟨number, Counters.take_of_shut hask⟩
  emit := by
    intro s x _ hs
    rw [RunM.feed_nil, Sink.logged]
    rcases (sink s.acc.1 x s.counters.emitted).result with _ | ⟨acc, _ | _⟩
    · trivial
    · refine ⟨hs.marked, fun handed hmem => ?_⟩
      rcases List.mem_cons.1 hmem with rfl | hmem
      · rfl
      · exact hs.onward handed hmem
    · exact .inr ⟨_, List.mem_cons_self, rfl⟩

/-- Nothing comes to the closing action behind a shut gate, so what calls and gates keep is kept. The
gate stays shut. -/
theorem shut_keeps (sink : Sink α γ) (number : Nat) {K : RunState α γ → Prop}
    (hcall : ∀ {s β} (f : Callback α β) slot x, K s → K (s.afterCall f slot x))
    (hgate : ∀ {s} other, K s → K (s.afterGate other)) :
    Course sink (fun steps => .gate number ∈ steps)
      (fun s => s.counters.window number = .closed ∧ K s)
      (fun s => s.counters.window number = .closed ∧ K s)
      (fun s => s.counters.window number = .closed ∧ K s) where
  call := by
    rintro s β step steps f x hmem hstep ⟨hclosed, hK⟩
    refine ⟨(List.mem_cons.1 hmem).resolve_left ?_, ?_, hcall f _ x hK⟩
    · rintro rfl
      exact absurd hstep (by simp [Step.gate?])
    · show (s.counters.tick step.slot?).window number = .closed
      rw [Counters.window_tick]
      exact hclosed
  fail := id
  gate := by
    rintro s other steps hmem ⟨hclosed, hK⟩
    have hasked : (s.afterGate other).counters.window number = .closed :=
      Counters.window_eq_closed_afterGate hclosed other
    have hkept : K (s.afterGate other) := hgate other hK
    by_cases hsame : other = number
    · rw [hsame, hclosed]
      exact ⟨hsame ▸ hasked, hsame ▸ hkept⟩
    · have hlater : .gate number ∈ steps := by
        refine (List.mem_cons.1 hmem).resolve_left fun h => ?_
        cases h
        exact hsame rfl
      cases (s.counters.window other).ask.1 with
      | through => exact ⟨hlater, hasked, hkept⟩
      | dropped => exact ⟨hasked, hkept⟩
      | shut => exact ⟨hasked, hkept⟩
  emit := fun x hmem => absurd hmem (by simp)

/-- Behind a shut gate nothing comes out. -/
theorem shut (sink : Sink α γ) (number : Nat) (acc : γ) :
    Course sink (fun steps => .gate number ∈ steps)
      (fun s => s.counters.window number = .closed ∧ s.acc = acc)
      (fun s => s.counters.window number = .closed ∧ s.acc = acc)
      (fun s => s.counters.window number = .closed ∧ s.acc = acc) :=
  shut_keeps sink number (fun _ _ _ h => h) (fun _ h => h)

end Course

namespace Plan

variable (plan : Plan α)

/-- An element stops the run if and only if the run should stop behind it. -/
theorem feed_stopping (sink : Sink α γ) (x : α) {s : RunState α (γ × List (Handed α))}
    (hs : s.Onward) :
    match plan.feed sink.logged x s with
    | .onward s => s.Onward ∧ ¬ s.ShouldStop
    | .stopped s => s.ShouldStop
    | .failed _ _ => True := by
  have hends : RunM.Ends RunState.Onward RunState.ShouldStop (fun _ => True)
      (RunM.feed sink.logged plan.steps x s) := (Course.stopping sink).feed trivial x hs
  unfold feed
  generalize RunM.feed sink.logged plan.steps x s = result at hends ⊢
  rcases result with ⟨_ | _, s'⟩ | ⟨culprit, s'⟩
  · have honward : s'.Onward := hends
    by_cases hsealed : s'.counters.isSealed = true
    · simp only [hsealed, if_true]
      exact honward.shouldStop_iff.2 hsealed
    · simp only [hsealed]
      exact ⟨honward, fun hstop => hsealed (honward.shouldStop_iff.1 hstop)⟩
  · exact hends
  · trivial

/-! ## Feeding without asking -/

/-- Feeds elements one after the other. Nobody asks whether the run should stop. -/
def feedAll (sink : Sink α γ) (xs : List α) (s : RunState α γ) : RunState α γ :=
  xs.foldl (fun s x => RunM.left (RunM.feed sink plan.steps x s)) s

/-- What every feeding keeps is kept by feeding many. -/
theorem feedAll_keeps {sink : Sink α γ} {M : List (Step α) → Prop} {K : RunState α γ → Prop}
    (h : Course sink M K K K) (hM : M plan.steps) (xs : List α) {s : RunState α γ} (hs : K s) :
    K (plan.feedAll sink xs s) := by
  induction xs generalizing s with
  | nil => exact hs
  | cons x xs ih => exact ih (RunM.ends_iff_left.1 (h.feed hM x hs))

theorem feedAll_append (sink : Sink α γ) (xs ys : List α) (s : RunState α γ) :
    plan.feedAll sink (xs ++ ys) s = plan.feedAll sink ys (plan.feedAll sink xs s) :=
  List.foldl_append

end Plan

/-! ## States that differ in their journals -/

namespace RunState.SameAs

variable {plan : Plan α} {sink : Sink α γ}

theorem feed {s t : RunState α γ} (h : s.SameAs t) (steps : List (Step α)) (x : α) :
    (RunM.left (RunM.feed sink steps x s)).SameAs (RunM.left (RunM.feed sink steps x t)) := by
  have hends := sink.lockstep_same.feed steps x h
  generalize RunM.feed sink steps x s = result at hends ⊢
  generalize RunM.feed sink steps x t = other at hends ⊢
  cases hends with
  | ok flow h => exact h
  | error culprit h => exact h
  | ahead h => exact h.elim

theorem feedAll {s t : RunState α γ} (h : s.SameAs t) (xs : List α) :
    (plan.feedAll sink xs s).SameAs (plan.feedAll sink xs t) := by
  induction xs generalizing s t with
  | nil => exact h
  | cons x xs ih => exact ih (h.feed plan.steps x)

theorem trans {s t u : RunState α γ} (h : s.SameAs t) (h' : t.SameAs u) : s.SameAs u :=
  ⟨h.1.trans h'.1, h.2.trans h'.2⟩

theorem shouldStop_iff {s t : RunState α (γ × List (Handed α))} (h : s.SameAs t) :
    s.ShouldStop ↔ t.ShouldStop := by
  unfold ShouldStop
  rw [h.1, h.2]

end RunState.SameAs

/-! ## Pulling from a cursor -/

/-- The run has pulled this many elements of the list and fed them, the first ones behind which it
should stop if it should stop at all; then it closed the cursor, or it found its end. -/
structure Drain.Reads (drain : Drain α (γ × List (Handed α))) (plan : Plan α) (sink : Sink α γ)
    (id : Ident) (xs : List α) (s : RunState α (γ × List (Handed α))) (scanned count : Nat) :
    Prop where
  le_length : count ≤ xs.length
  running : ∀ fewer < count, ¬ (plan.feedAll sink.logged (xs.take fewer) s).ShouldStop
  same : drain.state.SameAs (plan.feedAll sink.logged (xs.take count) s)
  scanned_eq : drain.scanned = scanned + count
  released : drain.rest.release = []
  final : ((plan.feedAll sink.logged (xs.take count) s).ShouldStop ∧ drain.ending = .stopped
      ∧ ofCursor id drain.state.journal.events = ofCursor id s.journal.events
        ++ (xs.take count).map (.pulled id) ++ [.closed id])
    ∨ (¬ (plan.feedAll sink.logged (xs.take count) s).ShouldStop ∧ count = xs.length
      ∧ drain.ending = .exhausted
      ∧ ofCursor id drain.state.journal.events = ofCursor id s.journal.events
        ++ (xs.take count).map (.pulled id) ++ [.ended id])

namespace Plan

variable (plan : Plan α) {sink : Sink α γ}

theorem reads_exhausted (id : Ident) {answers rest : List (Option α)} (scanned : Nat)
    {s : RunState α (γ × List (Handed α))} (hgo : ¬ s.ShouldStop)
    (hpull : (Intake.cursor id answers true).pull =
      ⟨[.ended id], .nothing, .cursor id rest false⟩) :
    (drainIntake plan sink.logged (.cursor id answers true) scanned s).Reads plan sink id [] s
      scanned 0 := by
  rw [drainIntake_eq, hpull]
  refine ⟨Nat.le_refl _, fun _ h => absurd h (Nat.not_lt_zero _), ⟨rfl, rfl⟩, rfl, rfl,
    .inr ⟨hgo, rfl, rfl, ?_⟩⟩
  rw [Journal.events_record, ofCursor_append, ofCursor_singleton rfl]
  exact (congrArg (· ++ _) (List.append_nil _)).symm

/-- A run over a cursor, unless a callback fails. -/
theorem drain_cursor (hsink : sink.Silent) (id : Ident) (answers : List (Option α)) (scanned : Nat)
    {s : RunState α (γ × List (Handed α))} (hs : s.Onward) (hgo : ¬ s.ShouldStop)
    (hended : ∀ culprit,
      (drainIntake plan sink.logged (.cursor id answers true) scanned s).ending ≠ .failed culprit) :
    ∃ count, (drainIntake plan sink.logged (.cursor id answers true) scanned s).Reads plan sink id
      (heard answers) s scanned count := by
  induction answers generalizing scanned s with
  | nil => exact ⟨0, plan.reads_exhausted id scanned hgo rfl⟩
  | cons answer answers ih =>
    cases answer with
    | none => exact ⟨0, plan.reads_exhausted id scanned hgo rfl⟩
    | some x =>
      have hpull : (Intake.cursor id (some x :: answers) true).pull =
          ⟨[.pulled id x], .item x, .cursor id answers true⟩ := rfl
      rw [drainIntake_eq, hpull] at hended ⊢
      set pulled : RunState α (γ × List (Handed α)) :=
        { s with journal := s.journal.record [.pulled id x] } with hpulled
      have hstopping := plan.feed_stopping sink x (s := pulled) ⟨hs.marked, hs.onward⟩
      have hsame : (plan.feed sink.logged x pulled).state.SameAs
          (plan.feedAll sink.logged [x] s) := by
        have hfrom : pulled.SameAs s := ⟨rfl, rfl⟩
        rw [plan.state_feed]
        exact hfrom.feed plan.steps x
      have hown : ofCursor id (plan.feed sink.logged x pulled).state.journal.events =
          ofCursor id s.journal.events ++ [.pulled id x] := by
        obtain ⟨calls, hcalls, hsilent⟩ := plan.feed_silent hsink.logged x pulled
        rw [hcalls, Journal.events_record, ofCursor_append, hsilent.ofCursor, List.append_nil,
          hpulled, Journal.events_record, ofCursor_append, ofCursor_singleton rfl]
      simp only at hended ⊢
      cases hfed : plan.feed sink.logged x pulled with
      | failed culprit s' =>
        rw [hfed] at hended
        exact absurd rfl (hended culprit)
      | stopped s' =>
        rw [hfed] at hstopping hsame hown
        refine ⟨1, Nat.succ_le_succ (Nat.zero_le _), fun fewer h => ?_, hsame, rfl, rfl,
          .inl ⟨hsame.shouldStop_iff.1 hstopping, rfl, ?_⟩⟩
        · rw [Nat.lt_one_iff.1 h]
          exact hgo
        · show ofCursor id (s'.journal.record [.closed id]).events = _
          rw [Journal.events_record, ofCursor_append, ofCursor_singleton rfl]
          exact congrArg (· ++ _) hown
      | onward s' =>
        rw [hfed] at hstopping hsame hown hended
        obtain ⟨count, hreads⟩ := ih (scanned + 1) hstopping.1 hstopping.2 hended
        -- the rest is fed from a state that differs in the journal only
        have hrest : ∀ xs, (plan.feedAll sink.logged xs s').SameAs
            (plan.feedAll sink.logged (x :: xs) s) := fun xs => hsame.feedAll xs
        refine ⟨count + 1, Nat.succ_le_succ hreads.le_length, fun fewer h => ?_,
          hreads.same.trans (hrest _), ?_, hreads.released, ?_⟩
        · cases fewer with
          | zero => exact hgo
          | succ fewer =>
            exact fun hstop => hreads.running fewer (Nat.lt_of_succ_lt_succ h)
              ((hrest _).shouldStop_iff.2 hstop)
        · rw [hreads.scanned_eq]
          omega
        · have hevents : ∀ final, ofCursor id s'.journal.events
                ++ ((heard answers).take count).map (.pulled id) ++ [final] =
              ofCursor id s.journal.events
                ++ ((heard (some x :: answers)).take (count + 1)).map (.pulled id) ++ [final] := by
            intro final
            rw [show ofCursor id s'.journal.events = _ from hown, List.append_assoc _ [_]]
            rfl
          rcases hreads.final with ⟨hstop, hending, hfinal⟩ | ⟨hnot, hcount, hending, hfinal⟩
          · exact .inl ⟨(hrest _).shouldStop_iff.1 hstop, hending, hfinal.trans (hevents _)⟩
          · exact .inr ⟨fun hstop => hnot ((hrest _).shouldStop_iff.2 hstop),
              congrArg Nat.succ hcount, hending, hfinal.trans (hevents _)⟩

/-! ## What the rest of the cursor holds -/

/-- A run that stopped has pulled an element. -/
theorem lt_scanned_of_stopped (sink : Sink α γ) (intake : Intake α) (scanned : Nat)
    (s : RunState α γ) (h : (drainIntake plan sink intake scanned s).ending = .stopped) :
    scanned < (drainIntake plan sink intake scanned s).scanned := by
  have hfinite := intake.finite
  induction hfinite generalizing scanned s with
  | intro intake _ ih =>
    rw [drainIntake_eq] at h ⊢
    cases hanswer : intake.pull.answer with
    | nothing =>
      rw [hanswer] at h
      exact absurd h (by simp)
    | failed culprit =>
      rw [hanswer] at h
      exact absurd h (by simp)
    | again =>
      rw [hanswer] at h
      exact ih _ ⟨rfl, by rw [hanswer]; simp⟩ _ _ h
    | item x =>
      rw [hanswer] at h
      simp only at h ⊢
      generalize plan.feed sink x _ = fed at h ⊢
      cases fed with
      | onward s' => exact Nat.lt_of_succ_lt (ih _ ⟨rfl, by rw [hanswer]; simp⟩ _ _ h)
      | stopped s' => exact Nat.lt_succ_self scanned
      | failed culprit s' => exact absurd h (by simp)

/-- A run that stopped while it pulled these elements does not depend on what comes after them. -/
theorem drain_congr (sink : Sink α γ) (id : Ident) (xs : List α) (rest others : List (Option α))
    (scanned : Nat) (s : RunState α γ)
    (hstopped :
      (drainIntake plan sink (.cursor id (xs.map some ++ rest) true) scanned s).ending = .stopped)
    (hscanned : (drainIntake plan sink (.cursor id (xs.map some ++ rest) true) scanned s).scanned
      ≤ scanned + xs.length) :
    ∃ state count left others', drainIntake plan sink (.cursor id (xs.map some ++ rest) true)
          scanned s = ⟨state, .cursor id left false, count, .stopped⟩
      ∧ drainIntake plan sink (.cursor id (xs.map some ++ others) true) scanned s =
        ⟨state, .cursor id others' false, count, .stopped⟩ := by
  induction xs generalizing scanned s with
  | nil =>
    have hmore := plan.lt_scanned_of_stopped sink _ scanned s hstopped
    exact absurd hscanned (Nat.not_le_of_lt hmore)
  | cons x xs ih =>
    have hpull : ∀ answers, (Intake.cursor id ((x :: xs).map some ++ answers) true).pull =
        ⟨[.pulled id x], .item x, .cursor id (xs.map some ++ answers) true⟩ := fun _ => rfl
    rw [drainIntake_eq, hpull] at hstopped hscanned ⊢
    rw [drainIntake_eq plan sink (.cursor id ((x :: xs).map some ++ others) true), hpull]
    simp only at hstopped hscanned ⊢
    generalize plan.feed sink x _ = fed at hstopped hscanned ⊢
    cases fed with
    | onward s' =>
      refine ih (scanned + 1) s' hstopped ?_
      rw [List.length_cons] at hscanned
      simp only at hscanned
      omega
    | stopped s' => exact ⟨_, _, _, _, rfl, rfl⟩
    | failed culprit s' => exact absurd hstopped (by simp)

/-! ## Runs over cursors -/

/-- Once a gate is shut, feeding more elements hands out nothing more. -/
theorem acc_feedAll_of_sealed (sink : Sink α γ) {s : RunState α γ}
    (hgate : s.counters.SealedByGate plan.steps) (hsealed : s.counters.isSealed = true)
    (xs : List α) : (plan.feedAll sink xs s).acc = s.acc := by
  obtain ⟨number, hmem, hclosed⟩ := hgate hsealed
  exact (plan.feedAll_keeps (Course.shut sink number s.acc) hmem xs ⟨hclosed, rfl⟩).2

/-- What ticks, gates and emissions keep is kept by feeding many elements. -/
theorem feedAll_counters {P : Counters → Prop} (sink : Sink α γ)
    (htick : ∀ step ∈ plan.steps, ∀ c, P c → P (c.tick step.slot?))
    (hgate : ∀ number, .gate number ∈ plan.steps → ∀ c, P c → P (c.afterGate number))
    (hemit : ∀ c, P c → P c.emit) (xs : List α) {s : RunState α γ} (h : P s.counters) :
    P (plan.feedAll sink xs s).counters := by
  have hcourse := RunM.course_preserves (R := fun c d => P c → P d)
    (fun _ _ _ hcd hde => hde ∘ hcd) sink hemit s.counters
  exact plan.feedAll_keeps hcourse ⟨htick, hgate⟩ xs id h

/-- An endless closing action never said stop. -/
theorem onward_feedAll (hendless : sink.Endless) (xs : List α)
    {s : RunState α (γ × List (Handed α))} (h : ∀ handed ∈ s.acc.2, handed.flow = .onward) :
    ∀ handed ∈ (plan.feedAll sink.logged xs s).acc.2, handed.flow = .onward := by
  have hcourse : Course sink.logged (fun _ => True)
      (fun t => ∀ handed ∈ t.acc.2, handed.flow = .onward)
      (fun t => ∀ handed ∈ t.acc.2, handed.flow = .onward)
      (fun t => ∀ handed ∈ t.acc.2, handed.flow = .onward) := by
    refine .of_kept (fun _ _ _ h => h) (fun _ h => h) fun {t} x ht => ?_
    rw [RunM.feed_nil, Sink.logged]
    cases hresult : (sink t.acc.1 x t.counters.emitted).result with
    | none => exact ht
    | some answer =>
      intro handed hmem
      rcases List.mem_cons.1 hmem with rfl | hmem
      · exact hendless _ _ _ _ hresult
      · exact ht handed hmem
  exact plan.feedAll_keeps hcourse trivial xs h

/-- Where the closing action is endless, the elements behind a stop would hand out nothing more. -/
theorem acc_feedAll_take (hendless : sink.Endless) {s : RunState α (γ × List (Handed α))}
    (hs : s.Onward) (hunsealed : s.counters.isSealed = false) {xs : List α} {count : Nat}
    (hstop : (plan.feedAll sink.logged (xs.take count) s).ShouldStop) :
    (plan.feedAll sink.logged xs s).acc = (plan.feedAll sink.logged (xs.take count) s).acc := by
  have hmarked : (plan.feedAll sink.logged (xs.take count) s).counters.Marked :=
    plan.feedAll_counters sink.logged (fun _ _ _ h => h.tick _)
      (fun number _ _ h => h.afterGate number)
      (fun _ h => h) _ hs.marked
  have hgate : (plan.feedAll sink.logged (xs.take count) s).counters.SealedByGate plan.steps :=
    plan.feedAll_counters (P := fun c => c.SealedByGate plan.steps) sink.logged
      (fun _ _ _ h => h.tick _) (fun _ hmem _ h => h.afterGate hmem) (fun _ h => h) _
      fun h => absurd h (by rw [hunsealed]; simp)
  have honward : (plan.feedAll sink.logged (xs.take count) s).Onward :=
    ⟨hmarked, plan.onward_feedAll hendless _ hs.onward⟩
  have hsplit : plan.feedAll sink.logged xs s = plan.feedAll sink.logged (xs.drop count)
      (plan.feedAll sink.logged (xs.take count) s) := by
    rw [← feedAll_append, List.take_append_drop]
  rw [hsplit]
  exact plan.acc_feedAll_of_sealed _ hgate (honward.shouldStop_iff.1 hstop) _

end Plan

theorem exists_of_prefix_heard {xs : List α} {answers : List (Option α)}
    (h : xs <+: heard answers) : ∃ rest, answers = xs.map some ++ rest := by
  induction xs generalizing answers with
  | nil => exact ⟨answers, rfl⟩
  | cons x xs ih =>
    rcases answers with _ | ⟨_ | y, answers⟩
    · exact absurd h (by simp [heard])
    · exact absurd h (by simp [heard])
    · obtain ⟨rfl, hrest⟩ := List.cons_prefix_cons.1 h
      obtain ⟨rest, rfl⟩ := ih hrest
      exact ⟨rest, rfl⟩

section Compiled

variable {ops : List (Op α)} {config : Config} {plan : Plan α}

/-- A plan starts to run. -/
theorem Plan.onward_start (hplan : (compile ops config).verdict = .ok plan) (seed : γ) :
    RunState.Onward (⟨plan.start, (seed, []), .empty⟩ : RunState α (γ × List (Handed α))) := by
  have hopen : ∀ number, (plan.start.window number).take ≠ some 0 := by
    intro number
    show (plan.gates.getD number ⟨0, none⟩).take ≠ some 0
    rw [List.getD_eq_getElem?_getD]
    cases hgate : plan.gates[number]? with
    | none => simp
    | some w => exact take_ne_zero_of_compile hplan (List.mem_of_getElem? hgate)
  refine ⟨⟨fun h => absurd h (by simp [start]), fun ⟨number, h⟩ => absurd h (hopen number)⟩, nofun⟩

/-- The state after these elements were fed from the start, and nobody asked whether the run should
stop. -/
def Plan.afterFeeding (plan : Plan α) (sink : Sink α γ) (seed : γ) (xs : List α) :
    RunState α (γ × List (Handed α)) :=
  plan.feedAll sink.logged xs ⟨plan.start, (seed, []), .empty⟩

variable {sink : Sink α γ} {seed : γ} {stats : Stats} {id : Ident} {answers : List (Option α)}

/-- What a run over a cursor comes to, told by the elements that it pulled. -/
theorem Plan.run_reads (hplan : (compile ops config).verdict = .ok plan) (hsink : sink.Silent)
    (hresult : (plan.run sink seed (.sequential (.cursor id answers true))).result = .ok stats) :
    ∃ count ≤ (heard answers).length,
      (∀ fewer < count, ¬ (plan.afterFeeding sink seed ((heard answers).take fewer)).ShouldStop)
      ∧ (plan.run sink seed (.sequential (.cursor id answers true))).acc =
        (plan.afterFeeding sink seed ((heard answers).take count)).acc.1
      ∧ plan.handed sink seed (.sequential (.cursor id answers true)) =
        (plan.afterFeeding sink seed ((heard answers).take count)).acc.2.reverse
      ∧ stats.scanned = count
      ∧ (((plan.afterFeeding sink seed ((heard answers).take count)).ShouldStop
          ∧ stats.earlyStop = true
          ∧ ofCursor id (plan.run sink seed (.sequential (.cursor id answers true))).events =
            ((heard answers).take count).map (.pulled id) ++ [.closed id])
        ∨ (¬ (plan.afterFeeding sink seed ((heard answers).take count)).ShouldStop
          ∧ count = (heard answers).length ∧ stats.earlyStop = false
          ∧ ofCursor id (plan.run sink seed (.sequential (.cursor id answers true))).events =
            ((heard answers).take count).map (.pulled id) ++ [.ended id])) := by
  obtain ⟨hacc, hevents, hsame⟩ := plan.run_logged sink seed (.cursor id answers true)
  rw [← hsame] at hresult
  have honward := Plan.onward_start hplan seed
  have hgo : ¬ RunState.ShouldStop (⟨plan.start, (seed, []), .empty⟩ :
      RunState α (γ × List (Handed α))) := by
    rw [honward.shouldStop_iff]
    simp [Plan.start]
  have hreads := plan.drain_cursor hsink id answers 0 honward hgo
  rw [Plan.handed, ← hacc, ← hevents]
  simp only [Plan.run, Plan.runIntake] at hresult ⊢
  generalize drainIntake plan sink.logged (.cursor id answers true) 0 _ = drain at hreads hresult ⊢
  have hended : ∀ culprit, drain.ending ≠ .failed culprit := by
    intro culprit hculprit
    rw [hculprit] at hresult
    exact absurd hresult (by simp)
  obtain ⟨count, hread⟩ := hreads hended
  refine ⟨count, hread.le_length, hread.running, ?_⟩
  have hstate : drain.state.acc = (plan.afterFeeding sink seed ((heard answers).take count)).acc :=
    hread.same.2
  have hcount : drain.scanned = count := hread.scanned_eq.trans (Nat.zero_add count)
  rcases hread.final with ⟨hstop, hending, hown⟩ | ⟨hnot, hall, hending, hown⟩
  · rw [hending] at hresult
    simp only [hending, hread.released, List.append_nil, ← hstate]
    cases hresult
    exact ⟨trivial, trivial, hcount, .inl ⟨hstop, rfl, hown⟩⟩
  · rw [hending] at hresult
    simp only [hending, hread.released, List.append_nil, ← hstate]
    cases hresult
    exact ⟨trivial, trivial, hcount, .inr ⟨hnot, hall, rfl, hown⟩⟩

/-- A run that stopped early is the same over every cursor that begins with what it pulled. -/
theorem Plan.run_congr {others : List (Option α)} {xs : List α}
    (hresult : (plan.run sink seed (.sequential (.cursor id answers true))).result = .ok stats)
    (hearly : stats.earlyStop = true) (hstart : xs <+: heard answers)
    (hscanned : stats.scanned ≤ xs.length) (hothers : xs <+: heard others) :
    plan.run sink seed (.sequential (.cursor id others true)) =
      plan.run sink seed (.sequential (.cursor id answers true)) := by
  obtain ⟨rest, rfl⟩ := exists_of_prefix_heard hstart
  obtain ⟨rest', rfl⟩ := exists_of_prefix_heard hothers
  have hsame := plan.drain_congr sink id xs rest rest' 0 ⟨plan.start, seed, .empty⟩
  simp only [Plan.run, Plan.runIntake] at hresult ⊢
  have hstopped : (drainIntake plan sink (.cursor id (xs.map some ++ rest) true) 0
      ⟨plan.start, seed, .empty⟩).ending = .stopped := by
    cases hending : (drainIntake plan sink (.cursor id (xs.map some ++ rest) true) 0
        ⟨plan.start, seed, .empty⟩).ending with
    | stopped => rfl
    | exhausted =>
      rw [hending] at hresult
      cases hresult
      exact absurd hearly (by simp)
    | failed culprit =>
      rw [hending] at hresult
      exact absurd hresult (by simp)
  have hcount : (drainIntake plan sink (.cursor id (xs.map some ++ rest) true) 0
      ⟨plan.start, seed, .empty⟩).scanned ≤ 0 + xs.length := by
    rw [hstopped] at hresult
    cases hresult
    rw [Nat.zero_add]
    exact hscanned
  obtain ⟨state, count, left, left', hdrain, hdrain'⟩ := hsame hstopped hcount
  rw [hdrain, hdrain']
  rfl

/-- A run over a cursor pulls elements up to the first one behind which some gate has nothing left
to let pass, or the closing action has said stop; where there is none, it pulls them all. If the
closing action never says stop, it is handed what it would be handed if all elements were fed. And
what a run that stopped has done does not depend on the elements behind those that it pulled. -/
theorem Plan.run_cursor_stops (hplan : (compile ops config).verdict = .ok plan)
    (hsink : sink.Silent)
    (hresult : (plan.run sink seed (.sequential (.cursor id answers true))).result = .ok stats) :
    let run := plan.run sink seed (.sequential (.cursor id answers true))
    let handed := plan.handed sink seed (.sequential (.cursor id answers true))
    let xs := heard answers
    (∀ count ≤ xs.length, (plan.afterFeeding sink seed (xs.take count)).ShouldStop →
        (∀ fewer < count, ¬ (plan.afterFeeding sink seed (xs.take fewer)).ShouldStop) →
        ofCursor id run.events = (xs.take count).map (.pulled id) ++ [.closed id]
          ∧ stats.scanned = count ∧ stats.earlyStop = true
          ∧ run.acc = (plan.afterFeeding sink seed (xs.take count)).acc.1
          ∧ handed = (plan.afterFeeding sink seed (xs.take count)).acc.2.reverse
          ∧ ∀ others, xs.take count <+: heard others →
            plan.run sink seed (.sequential (.cursor id others true)) = run
              ∧ plan.handed sink seed (.sequential (.cursor id others true)) = handed)
      ∧ ((∀ count ≤ xs.length, ¬ (plan.afterFeeding sink seed (xs.take count)).ShouldStop) →
        ofCursor id run.events = xs.map (.pulled id) ++ [.ended id]
          ∧ stats.scanned = xs.length ∧ stats.earlyStop = false)
      ∧ (sink.Endless → run.acc = (plan.afterFeeding sink seed xs).acc.1
        ∧ handed = (plan.afterFeeding sink seed xs).acc.2.reverse) := by
  intro run handed xs
  obtain ⟨pulled, hle, hbefore, hacc, hhanded, hscanned, hfinal⟩ :=
    Plan.run_reads hplan hsink hresult
  refine ⟨fun count hcount hstop hfirst => ?_, fun hnone => ?_, fun hendless => ?_⟩
  · have hnot : ¬ count < pulled := fun hlt => hbefore count hlt hstop
    rcases hfinal with ⟨hstops, hearly, hown⟩ | ⟨hgoes, hall, -, -⟩
    · have hnot' : ¬ pulled < count := fun hlt => hfirst pulled hlt hstops
      have hsame : pulled = count := by omega
      subst hsame
      refine ⟨hown, hscanned, hearly, hacc, hhanded, fun others hothers => ?_⟩
      have hlength : stats.scanned ≤ (xs.take pulled).length := by
        rw [List.length_take, hscanned]
        omega
      have hlogged := (plan.run_logged sink seed (.cursor id answers true)).2.2.trans hresult
      refine ⟨Plan.run_congr hresult hearly (List.take_prefix _ _) hlength hothers, ?_⟩
      show List.reverse _ = List.reverse _
      rw [Plan.run_congr hlogged hearly (List.take_prefix _ _) hlength hothers]
    · have hall' : pulled = xs.length := hall
      have hsame : count = pulled := by omega
      subst hsame
      exact absurd hstop hgoes
  · rcases hfinal with ⟨hstops, -, -⟩ | ⟨-, hall, hearly, hown⟩
    · exact absurd hstops (hnone pulled hle)
    · rw [hall, List.take_length] at hown
      exact ⟨hown, hscanned.trans hall, hearly⟩
  · have hsame : (plan.afterFeeding sink seed xs).acc =
        (plan.afterFeeding sink seed (xs.take pulled)).acc := by
      rcases hfinal with ⟨hstops, -, -⟩ | ⟨-, hall, -, -⟩
      · exact plan.acc_feedAll_take hendless (Plan.onward_start hplan seed) rfl hstops
      · rw [hall, List.take_length]
    rw [hsame]
    exact ⟨hacc, hhanded⟩

/-- A limit of two closes the cursor right behind the second element. -/
theorem Plan.run_cursor_stops_at_limit :
    let id : Ident := ⟨0, none⟩
    let plan : Plan Nat := (Draft.ofOps .baseline [.range 0 (some 2)]).withTrailingGate.toPlan
    let run := plan.run .collect [] (.sequential (.cursor id [some 5, some 6, some 7] true))
    ofCursor id run.events = [.pulled id 5, .pulled id 6, .closed id] ∧ run.acc = [6, 5] := by
  intro id plan run
  have hplan : (compile [.range 0 (some 2)] .standard).verdict = .ok plan := rfl
  have hdrain : drainIntake plan .collect (.cursor id [some 5, some 6, some 7] true) 0
      ⟨plan.start, [], .empty⟩ =
        ⟨⟨⟨[⟨0, some 0⟩], [], 2, true⟩, [6, 5], ⟨[.closed id, .pulled id 6, .pulled id 5]⟩⟩,
          .cursor id [some 7] false, 2, .stopped⟩ := by
    rw [Plan.drainIntake_eq]
    show drainIntake plan .collect (.cursor id [some 6, some 7] true) 1
      ⟨⟨[⟨0, some 1⟩], [], 1, false⟩, [5], ⟨[.pulled id 5]⟩⟩ = _
    rw [Plan.drainIntake_eq]
    rfl
  have hresult : run.result = .ok ⟨2, 0, 2, true⟩ := by
    show (plan.runIntake .collect [] _).result = _
    rw [Plan.runIntake, hdrain]
  have hstop : (plan.afterFeeding .collect [] [5, 6]).ShouldStop := .inl ⟨0, rfl⟩
  have hgo : ∀ fewer < 2, ¬ (plan.afterFeeding .collect [] ([5, 6, 7].take fewer)).ShouldStop := by
    intro fewer hfewer hstop
    have honward := Plan.onward_start hplan ([] : List Nat)
    obtain rfl | rfl : fewer = 0 ∨ fewer = 1 := by omega
    · exact absurd (honward.shouldStop_iff.1 hstop) (by decide)
    · rcases hstop with ⟨_ | number, hnumber⟩ | ⟨handed, hmem, hflow⟩
      · exact absurd hnumber (by decide)
      · exact absurd (show (none : Option Nat) = some 0 from hnumber) (by simp)
      · rw [List.mem_singleton.1 hmem] at hflow
        exact absurd hflow (by decide)
  obtain ⟨hstops, -, -⟩ := Plan.run_cursor_stops hplan Sink.silent_collect hresult
  obtain ⟨hown, -, -, hacc, -⟩ := hstops 2 (by decide) hstop hgo
  exact ⟨hown, hacc⟩

end Compiled

end StreamFusion
