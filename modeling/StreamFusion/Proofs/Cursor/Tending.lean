import StreamFusion.Proofs.Cursor.Life
import StreamFusion.Proofs.Intake.Moves
import StreamFusion.Proofs.Run.Draining

/-!
# Who tends a cursor

An intake holds at most one open cursor, at the bottom of what it is nested from. Every move of the
intake pulls that cursor any number of times, and keeps it open or brings its life to an end;
letting the intake go does so at last (`Tended`). The same holds of whole runs: whatever callbacks
fail, a run leaves no cursor open (`Plan.run_tended`).
-/

namespace StreamFusion

variable {α β γ : Type}

/-- The open cursor that an intake holds. -/
def Intake.openCursor? : Intake α → Option Ident
  | .cursor source _ true => some source
  | .staged _ _ _ _ below | .mapped _ below | .flattened _ _ below => below.openCursor?
  | _ => none

/-- The open cursor that an opened source holds. -/
def Opened.openCursor? : Opened α → Option Ident
  | .sequential intake => intake.openCursor?
  | _ => none

theorem Opened.openCursor?_intakeFrom (opened : Opened α) (position : Nat) :
    (opened.intakeFrom position).openCursor? = opened.openCursor? := by
  cases opened <;> rfl

/-- To discard an opened source is to drop the cursor of a user, or to let an intake go. -/
theorem Opened.discard_cases (opened : Opened α) :
    (∃ c, opened.openCursor? = some c ∧ opened.discard = [.dropped c])
      ∨ ∃ intake : Intake α,
        opened.openCursor? = intake.openCursor? ∧ opened.discard = intake.release := by
  cases opened with
  | indexed source box => exact .inr ⟨.spent, rfl, rfl⟩
  | owned items => exact .inr ⟨.spent, rfl, rfl⟩
  | sequential intake =>
    cases intake with
    | cursor source answers isOpen =>
      cases isOpen with
      | true => exact .inl ⟨source, rfl, rfl⟩
      | false => exact .inr ⟨_, rfl, rfl⟩
    | _ => exact .inr ⟨_, rfl, rfl⟩

/-- While these events happen, the holder of the cursor `before` keeps it or brings its life to an
end, and does nothing to any other cursor. -/
structure Tended (before : Option Ident) (events : List (Event α)) (after : Option Ident) :
    Prop where
  kept : ∀ c, after = some c → before = some c
  others : ∀ c, before ≠ some c → ofCursor c events = []
  own : ∀ c, before = some c → CursorStage.underway.afterAll c events =
    some (if after = some c then .underway else .gone)

namespace Tended

variable {before middle after : Option Ident} {first second events : List (Event α)}

theorem of_silent (h : Silent events) : Tended before events before where
  kept := fun _ => id
  others := fun c _ => h.ofCursor c
  own := fun c hc => by rw [CursorStage.afterAll_of_ofCursor_eq_nil (h.ofCursor c), if_pos hc]

/-- No cursor comes to be held. -/
theorem eq_none (h : Tended before events after) (hbefore : before = none) : after = none := by
  refine Option.eq_none_iff_forall_ne_some.2 fun c hc => ?_
  rw [h.kept c hc] at hbefore
  exact absurd hbefore (by simp)

theorem append (h : Tended before first middle) (h' : Tended middle second after) :
    Tended before (first ++ second) after where
  kept := fun c hc => h.kept c (h'.kept c hc)
  others := by
    intro c hc
    have hmiddle : middle ≠ some c := fun hm => hc (h.kept c hm)
    rw [ofCursor_append, h.others c hc, h'.others c hmiddle]
    rfl
  own := by
    intro c hc
    rw [CursorStage.afterAll_append, h.own c hc]
    by_cases hmiddle : middle = some c
    · rw [if_pos hmiddle]
      exact h'.own c hmiddle
    · -- the life of the cursor was over before the later events
      have hafter : after ≠ some c := fun ha => hmiddle (h'.kept c ha)
      rw [if_neg hmiddle, if_neg hafter]
      exact CursorStage.afterAll_of_ofCursor_eq_nil (h'.others c hmiddle) .gone

/-- A pull that gives an element. -/
theorem pulled (c : Ident) (x : α) : Tended (some c) [.pulled c x] (some c) where
  kept := fun _ => id
  others := fun _ hd => ofCursor_singleton_of_ne hd
  own := fun d hd => by
    cases hd
    rw [CursorStage.afterAll_singleton rfl, if_pos rfl]
    rfl

/-- The event that brings the life of a cursor to its end. -/
theorem final {c : Ident} {event : Event α} (h : event = .ended c ∨ event = .closed c) :
    Tended (some c) [event] none where
  kept := nofun
  others := fun d hd => by
    rcases h with rfl | rfl <;> exact ofCursor_singleton_of_ne hd
  own := fun d hd => by
    cases hd
    rcases h with rfl | rfl
    · rw [CursorStage.afterAll_singleton rfl]
      rfl
    · rw [CursorStage.afterAll_singleton rfl]
      rfl

end Tended

/-! ## Feeding -/

/-- Nothing that the closing action notes happens to a cursor. -/
def Sink.Silent (sink : Sink α γ) : Prop :=
  ∀ acc x index, StreamFusion.Silent (sink acc x index).events

/-- All that the closing action notes are calls. -/
def Sink.OnlyCalls (sink : Sink α γ) : Prop :=
  ∀ acc x index, ∀ event ∈ (sink acc x index).events, event.IsCall

theorem Sink.OnlyCalls.silent {sink : Sink α γ} (h : sink.OnlyCalls) : sink.Silent := by
  intro acc x index event hmem
  have hcall := h acc x index event hmem
  cases event with
  | called label y index => rfl
  | _ => exact hcall.elim

theorem Closing.isCall_of_mem (f : Callback α β) (x : α) (index : Nat) (next : β → γ × Flow) :
    ∀ event ∈ (Closing.ofCall f x index next).events, event.IsCall := by
  intro event hmem
  rw [List.mem_singleton.1 hmem]
  exact trivial

namespace Sink

theorem onlyCalls_collect : (collect : Sink α (List α)).OnlyCalls :=
  fun _ _ _ _ hmem => absurd hmem List.not_mem_nil

theorem onlyCalls_answers (f : Callback α β) : (answers f).OnlyCalls :=
  fun _ _ _ => Closing.isCall_of_mem _ _ _ _

theorem onlyCalls_untilFailure (fails : Callback α Bool) : (untilFailure fails).OnlyCalls :=
  fun _ _ _ => Closing.isCall_of_mem _ _ _ _

theorem onlyCalls_fold (f : Combiner α γ) : (fold f).OnlyCalls :=
  fun _ _ _ => Closing.isCall_of_mem _ _ _ _

theorem onlyCalls_reduce (f : Combiner α α) : (reduce f).OnlyCalls := by
  intro acc x index
  cases acc with
  | none => exact fun _ hmem => absurd hmem List.not_mem_nil
  | some acc => exact Closing.isCall_of_mem _ _ _ _

theorem onlyCalls_any (p : Callback α Bool) : (any p).OnlyCalls :=
  fun _ _ _ => Closing.isCall_of_mem _ _ _ _

theorem onlyCalls_all (p : Callback α Bool) : (all p).OnlyCalls :=
  fun _ _ _ => Closing.isCall_of_mem _ _ _ _

theorem onlyCalls_find (p : Callback α Bool) : (find p).OnlyCalls :=
  fun _ _ _ => Closing.isCall_of_mem _ _ _ _

theorem onlyCalls_count : (count : Sink α Unit).OnlyCalls :=
  fun _ _ _ _ hmem => absurd hmem List.not_mem_nil

theorem onlyCalls_first : (first : Sink α Bool).OnlyCalls :=
  fun _ _ _ _ hmem => absurd hmem List.not_mem_nil

theorem silent_collect : (collect : Sink α (List α)).Silent := onlyCalls_collect.silent

end Sink

/-- A statement about events that calls do not break. -/
structure AllowsCalls (S : List (Event α) → Prop) : Prop where
  nil : S []
  append : ∀ {first second}, S first → S second → S (first ++ second)
  called : ∀ label x index, S [.called label x index]

theorem Silent.allowsCalls : AllowsCalls (Silent : List (Event α) → Prop) :=
  ⟨.nil, .append, fun _ _ _ => .singleton rfl⟩

/-- The second journal has further events, with this property. -/
def Journal.Adds (P : List (Event α) → Prop) (earlier later : Journal α) : Prop :=
  ∃ events, later = earlier.record events ∧ P events

namespace AllowsCalls

variable {S : List (Event α) → Prop} (h : AllowsCalls S)
include h

theorem of_calls {events : List (Event α)} (hcalls : ∀ event ∈ events, event.IsCall) :
    S events := by
  induction events with
  | nil => exact h.nil
  | cons event rest ih =>
    obtain ⟨hcall, hrest⟩ := List.forall_mem_cons.1 hcalls
    have hevent : S [event] := by
      cases event with
      | called label x index => exact h.called label x index
      | _ => exact hcall.elim
    exact h.append hevent (ih hrest)

theorem adds_then {journal later : Journal α} {events : List (Event α)}
    (hbefore : journal.Adds S later) (hevents : S events) :
    journal.Adds S (later.record events) := by
  obtain ⟨before, rfl, hS⟩ := hbefore
  exact ⟨before ++ events, (journal.record_append before events).symm, h.append hS hevents⟩

/-- Feeding an element calls callbacks, and then the closing action may note something. -/
theorem feed {sink : Sink α γ} (hsink : ∀ acc x index, S (sink acc x index).events)
    (plan : Plan α) (x : α) (s : RunState α γ) :
    s.journal.Adds S (plan.feed sink x s).state.journal := by
  have hcourse : Course sink (fun _ => True) (fun t => s.journal.Adds S t.journal)
      (fun t => s.journal.Adds S t.journal) (fun t => s.journal.Adds S t.journal) := by
    refine .of_kept (fun f slot x ht => h.adds_then ht (h.called _ _ _)) (fun _ ht => ht)
      fun {t} x ht => ?_
    rw [RunM.feed_nil]
    rcases (sink t.acc x t.counters.emitted).result with _ | ⟨acc, flow⟩
    · exact h.adds_then ht (hsink _ _ _)
    · exact h.adds_then ht (hsink _ _ _)
  have hstart : s.journal.Adds S s.journal := ⟨[], (s.journal.record_nil).symm, h.nil⟩
  rw [plan.state_feed]
  exact RunM.ends_iff_left.1 (hcourse.feed trivial x hstart)

/-- Collecting from an empty journal. -/
theorem collecting (plan : Plan α) (counters : Counters) (x : α) :
    S (plan.feed Sink.collect x ⟨counters, [], .empty⟩).state.journal.events := by
  have hsink : ∀ (acc : List α) x index, S (Sink.collect acc x index).events :=
    fun _ _ _ => h.nil
  obtain ⟨events, hevents, hS⟩ := h.feed hsink plan x ⟨counters, [], .empty⟩
  rw [hevents, Journal.events_record]
  exact hS

end AllowsCalls

/-- Feeding an element does nothing to a cursor. -/
theorem Plan.feed_silent (plan : Plan α) {sink : Sink α γ} (hsink : sink.Silent) (x : α)
    (s : RunState α γ) : s.journal.Adds Silent (plan.feed sink x s).state.journal :=
  Silent.allowsCalls.feed hsink plan x s

/-- Collecting does nothing to a cursor. -/
theorem Plan.silent_collecting (plan : Plan α) (counters : Counters) (x : α) :
    Silent (plan.feed Sink.collect x ⟨counters, [], .empty⟩).state.journal.events :=
  Silent.allowsCalls.collecting plan counters x

/-! ## Moves of intakes -/

/-- A statement about events and the cursors that are held before and after them, made up from what
a move of an intake can do: read a container, call a callback, pull the cursor that it holds, or
find or bring that to its end. -/
structure Observes (R : Option Ident → List (Event α) → Option Ident → Prop) : Prop where
  nil : ∀ held, R held [] held
  append : ∀ {before middle after first second}, R before first middle → R middle second after →
    R before (first ++ second) after
  read : ∀ held source position, R held [.read source position] held
  called : ∀ held label x index, R held [.called label x index] held
  pulled : ∀ c x, R (some c) [.pulled c x] (some c)
  ended : ∀ c, R (some c) [.ended c] none
  closed : ∀ c, R (some c) [.closed c] none

namespace Observes

variable {R : Option Ident → List (Event α) → Option Ident → Prop} (h : Observes R)
include h

theorem allowsCalls : AllowsCalls fun events => ∀ held, R held events held :=
  ⟨h.nil, fun hfirst hsecond held => h.append (hfirst held) (hsecond held),
    fun label x index held => h.called held label x index⟩

theorem close (intake : Intake α) :
    R intake.openCursor? intake.close.1 intake.close.2.openCursor? := by
  unfold Intake.close
  split
  · exact h.closed _
  · exact h.nil _

theorem release (intake : Intake α) : R intake.openCursor? intake.release none := by
  induction intake with
  | cursor source answers isOpen =>
    cases isOpen with
    | true => exact h.closed source
    | false => exact h.nil none
  | staged plan counters ready finished below ih => exact ih
  | mapped f below ih => exact ih
  | flattened items ready below ih => exact ih
  | _ => exact h.nil none

theorem stage (plan : Plan α) (counters : Counters) (x : α) {before : Option Ident}
    {events : List (Event α)} {below : Intake α} (hbefore : R before events below.openCursor?) :
    R before (Intake.stage plan counters events x below).events
      (Intake.stage plan counters events x below).rest.openCursor? := by
  have hcalls := h.allowsCalls.collecting plan counters x below.openCursor?
  unfold Intake.stage
  cases hresult : plan.feed Sink.collect x ⟨counters, [], .empty⟩ with
  | onward s =>
    rw [hresult] at hcalls
    exact h.append hbefore hcalls
  | stopped s =>
    rw [hresult] at hcalls
    exact h.append (h.append hbefore hcalls) (h.close below)
  | failed culprit s =>
    rw [hresult] at hcalls
    exact h.append hbefore hcalls

theorem replace (f : Callback α α) (x : α) {before : Option Ident} {events : List (Event α)}
    {below : Intake α} (hbefore : R before events below.openCursor?) :
    R before (Intake.replace f events x below).events
      (Intake.replace f events x below).rest.openCursor? := by
  have hcall : R below.openCursor? [f.event x 0] below.openCursor? := h.called _ _ _ _
  unfold Intake.replace
  cases f.answer x 0 with
  | none => exact h.append hbefore hcall
  | some y => exact h.append hbefore hcall

/-- One move of an intake. -/
theorem pull (intake : Intake α) :
    R intake.openCursor? intake.pull.events intake.pull.rest.openCursor? := by
  induction intake with
  | shelf source box position =>
    unfold Intake.pull
    split
    · split
      · exact h.read none source position
      · exact h.read none source position
    · exact h.nil none
  | owned items => cases items <;> exact h.nil none
  | cursor source answers isOpen =>
    cases isOpen with
    | false => rcases answers with _ | ⟨_ | x, answers⟩ <;> exact h.nil none
    | true =>
      rcases answers with _ | ⟨_ | x, answers⟩
      · exact h.ended source
      · exact h.ended source
      · exact h.pulled source x
  | staged plan counters ready finished below ih =>
    rcases ready with _ | ⟨x, ready⟩
    · cases finished with
      | true => exact h.nil _
      | false =>
        rw [Intake.pull]
        rcases hmoved : below.pull with ⟨events, answer, rest⟩
        rw [hmoved] at ih
        cases answer with
        | item x => exact h.stage plan counters x ih
        | nothing => exact ih
        | again => exact ih
        | failed culprit => exact ih
    · exact h.nil _
  | mapped f below ih =>
    rw [Intake.pull]
    rcases hmoved : below.pull with ⟨events, answer, rest⟩
    rw [hmoved] at ih
    cases answer with
    | item x => exact h.replace f x ih
    | nothing => exact ih
    | again => exact ih
    | failed culprit => exact ih
  | flattened items ready below ih =>
    rcases ready with _ | ⟨x, ready⟩
    · rw [Intake.pull]
      rcases hmoved : below.pull with ⟨events, answer, rest⟩
      rw [hmoved] at ih
      cases answer with
      | item x => exact ih
      | nothing => exact h.append ih (h.release rest)
      | again => exact ih
      | failed culprit => exact ih
    · exact h.nil _
  | spent => exact h.nil none

/-- Asking for the next element. -/
theorem next (intake : Intake α) :
    R intake.openCursor? intake.next.events intake.next.rest.openCursor? := by
  have hfinite := intake.finite
  induction hfinite with
  | intro intake _ ih =>
    have hpull := h.pull intake
    rw [Intake.next_eq]
    cases hanswer : intake.pull.answer with
    | item x => exact hpull
    | nothing => exact hpull
    | failed culprit => exact hpull
    | again => exact h.append hpull (ih intake.pull.rest ⟨rfl, by rw [hanswer]; simp⟩)

/-- Asking for the next element a number of times, until a callback fails. -/
theorem nextTimes (count : Nat) (intake : Intake α) :
    R intake.openCursor? (intake.nextTimes count).events
      (intake.nextTimes count).rest.openCursor? := by
  induction count generalizing intake with
  | zero => exact h.nil _
  | succ count ih =>
    have hnext := h.next intake
    rw [Intake.nextTimes]
    cases intake.next.outcome with
    | item x => exact h.append hnext (ih _)
    | nothing => exact h.append hnext (ih _)
    | failed culprit => exact hnext

/-- Asking for all elements. -/
theorem remaining (intake : Intake α) :
    R intake.openCursor? intake.remaining.events intake.remaining.rest.openCursor? := by
  have hfinite := intake.finite
  induction hfinite with
  | intro intake _ ih =>
    have hpull := h.pull intake
    rw [Intake.remaining_eq]
    cases hanswer : intake.pull.answer with
    | nothing => exact hpull
    | failed culprit => exact hpull
    | again => exact h.append hpull (ih intake.pull.rest ⟨rfl, by rw [hanswer]; simp⟩)
    | item x => exact h.append hpull (ih intake.pull.rest ⟨rfl, by rw [hanswer]; simp⟩)

/-! ## Runs -/

section Runs

variable {sink : Sink α γ} (hsink : ∀ acc x index held, R held (sink acc x index).events held)
include hsink

/-- Draining an intake, whether or not it is stopped or a callback fails. -/
theorem drain (plan : Plan α) (intake : Intake α) (scanned : Nat) (s : RunState α γ) :
    s.journal.Adds
      (fun events => R intake.openCursor? events
        (drainIntake plan sink intake scanned s).rest.openCursor?)
      (drainIntake plan sink intake scanned s).state.journal := by
  have hfinite := intake.finite
  induction hfinite generalizing scanned s with
  | intro intake _ ih =>
    have hpull := h.pull intake
    rw [Plan.drainIntake_eq]
    cases hanswer : intake.pull.answer with
    | nothing => exact ⟨_, rfl, hpull⟩
    | failed culprit => exact ⟨_, rfl, hpull⟩
    | again =>
      obtain ⟨later, hlater, hrest⟩ := ih intake.pull.rest ⟨rfl, by rw [hanswer]; simp⟩ scanned
        { s with journal := s.journal.record intake.pull.events }
      refine ⟨_, ?_, h.append hpull hrest⟩
      rw [Journal.record_append]
      exact hlater
    | item x =>
      have hfed := h.allowsCalls.feed hsink plan x
        { s with journal := s.journal.record intake.pull.events }
      simp only
      cases hresult : plan.feed sink x
          { s with journal := s.journal.record intake.pull.events } with
      | onward s' =>
        rw [hresult] at hfed
        obtain ⟨calls, hcalls, hfed⟩ := hfed
        obtain ⟨later, hlater, hrest⟩ :=
          ih intake.pull.rest ⟨rfl, by rw [hanswer]; simp⟩ (scanned + 1) s'
        refine ⟨_, ?_, h.append (h.append hpull (hfed _)) hrest⟩
        rw [Journal.record_append, Journal.record_append, ← show s'.journal = _ from hcalls]
        exact hlater
      | stopped s' =>
        rw [hresult] at hfed
        obtain ⟨calls, hcalls, hfed⟩ := hfed
        refine ⟨_, ?_, h.append (h.append hpull (hfed _)) (h.close intake.pull.rest)⟩
        rw [Journal.record_append, Journal.record_append, ← show s'.journal = _ from hcalls]
      | failed culprit s' =>
        rw [hresult] at hfed
        obtain ⟨calls, hcalls, hfed⟩ := hfed
        refine ⟨_, ?_, h.append hpull (hfed _)⟩
        rw [Journal.record_append, ← show s'.journal = _ from hcalls]

/-- A run leaves no cursor open. -/
theorem run (plan : Plan α) (seed : γ) (opened : Opened α) :
    R opened.openCursor? (plan.run sink seed opened).events none := by
  have hfinish := plan.run_eq_drain sink seed opened
  obtain ⟨events, hevents, hdrained⟩ := h.drain hsink plan
    (opened.intakeFrom (opened.jump plan)) 0 ⟨opened.start plan, seed, .empty⟩
  have hjournal : (plan.drained sink seed opened).state.journal.events = events := by
    rw [Plan.drained, hevents, Journal.events_record]
    rfl
  rw [hfinish.events_eq, hjournal, ← opened.openCursor?_intakeFrom (opened.jump plan)]
  exact h.append hdrained (h.release _)

end Runs

end Observes

/-! ## What moves and runs do to cursors -/

theorem Tended.observes : Observes (Tended (α := α)) where
  nil := fun _ => .of_silent .nil
  append := .append
  read := fun _ _ _ => .of_silent (.singleton rfl)
  called := fun _ _ _ _ => .of_silent (.singleton rfl)
  pulled := .pulled
  ended := fun _ => .final (.inl rfl)
  closed := fun _ => .final (.inr rfl)

namespace Intake

theorem close_tended (intake : Intake α) :
    Tended intake.openCursor? intake.close.1 intake.close.2.openCursor? :=
  Tended.observes.close intake

theorem release_tended (intake : Intake α) : Tended intake.openCursor? intake.release none :=
  Tended.observes.release intake

theorem pull_tended (intake : Intake α) :
    Tended intake.openCursor? intake.pull.events intake.pull.rest.openCursor? :=
  Tended.observes.pull intake

theorem nextTimes_tended (count : Nat) (intake : Intake α) :
    Tended intake.openCursor? (intake.nextTimes count).events
      (intake.nextTimes count).rest.openCursor? := Tended.observes.nextTimes count intake

theorem remaining_tended (intake : Intake α) :
    Tended intake.openCursor? intake.remaining.events intake.remaining.rest.openCursor? :=
  Tended.observes.remaining intake

end Intake

namespace Plan

theorem openCursor?_intake (plan : Plan α) (opened : Opened α) :
    (plan.intake opened).openCursor? = opened.openCursor? := by
  cases opened <;> rfl

/-- A run leaves no cursor open. -/
theorem run_tended (plan : Plan α) {sink : Sink α γ} (hsink : sink.Silent) (seed : γ)
    (opened : Opened α) : Tended opened.openCursor? (plan.run sink seed opened).events none :=
  Tended.observes.run (fun acc x index _ => .of_silent (hsink acc x index)) plan seed opened

end Plan

end StreamFusion
