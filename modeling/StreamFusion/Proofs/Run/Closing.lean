import StreamFusion.Proofs.Run.Draining

/-!
# What a closing action is handed

A run with a closing action that never fails does the same as the run that collects, until the
closing action has seen enough. So the closing action is handed the elements that are collected, one
after the other (`Plan.run_closes`), and its calls stand between the first ones of the calls that
collecting makes.
-/

namespace StreamFusion

variable {α γ : Type}

/-! ## Calls -/

/-- Is the event a call of a callback? -/
def Event.isCall : Event α → Bool
  | .called .. => true
  | _ => false

/-- The calls of callbacks among the events. -/
def calls (events : List (Event α)) : List (Event α) := events.filter Event.isCall

theorem calls_append (first second : List (Event α)) :
    calls (first ++ second) = calls first ++ calls second := List.filter_append ..

/-- The third list consists of the first and the second one, each of them in its order. -/
inductive Interleaved : List (Event α) → List (Event α) → List (Event α) → Prop where
  | nil : Interleaved [] [] []
  | left (event : Event α) {first second both : List (Event α)}
      (h : Interleaved first second both) : Interleaved (event :: first) second (event :: both)
  | right (event : Event α) {first second both : List (Event α)}
      (h : Interleaved first second both) : Interleaved first (event :: second) (event :: both)

namespace Interleaved

theorem left_only (events : List (Event α)) : Interleaved events [] events := by
  induction events with
  | nil => exact .nil
  | cons event events ih => exact ih.left event

theorem right_only (events : List (Event α)) : Interleaved [] events events := by
  induction events with
  | nil => exact .nil
  | cons event events ih => exact ih.right event

theorem append {first second both first' second' both' : List (Event α)}
    (h : Interleaved first second both) (h' : Interleaved first' second' both') :
    Interleaved (first ++ first') (second ++ second') (both ++ both') := by
  induction h with
  | nil => exact h'
  | left event _ ih => exact ih.left event
  | right event _ ih => exact ih.right event

/-- More on the left side. -/
theorem append_left {first second both : List (Event α)} (h : Interleaved first second both)
    (events : List (Event α)) : Interleaved (first ++ events) second (both ++ events) := by
  have hmore := h.append (left_only events)
  rw [List.append_nil] at hmore
  exact hmore

/-- More on the right side. -/
theorem append_right {first second both : List (Event α)} (h : Interleaved first second both)
    (events : List (Event α)) : Interleaved first (second ++ events) (both ++ events) := by
  have hmore := h.append (right_only events)
  rw [List.append_nil] at hmore
  exact hmore

end Interleaved

namespace Intake

theorem calls_close (intake : Intake α) : calls intake.close.1 = [] := by
  unfold close
  split <;> rfl

theorem calls_release (intake : Intake α) : calls intake.release = [] := by
  induction intake with
  | cursor source answers isOpen => cases isOpen <;> rfl
  | staged plan counters ready finished below ih => exact ih
  | mapped f below ih => exact ih
  | flattened items ready below ih => exact ih
  | _ => rfl

end Intake

/-! ## Handing elements to a closing action -/

namespace Sink

/-- The closing action never fails. -/
def Total (sink : Sink α γ) : Prop :=
  ∀ acc x index, ∃ answer, (sink acc x index).result = some answer

/-- What happens while a list is handed to a closing action, until it has seen enough. -/
def handEvents (sink : Sink α γ) (acc : γ) (emitted : Nat) : List α → List (Event α)
  | [] => []
  | x :: xs =>
    (sink acc x emitted).events ++
      match (sink acc x emitted).result with
      | some (acc, .onward) => sink.handEvents acc (emitted + 1) xs
      | _ => []

variable {sink : Sink α γ} {acc next : γ} {emitted : Nat} {x : α}

theorem handAll_onward (h : (sink acc x emitted).result = some (next, .onward)) (xs : List α) :
    sink.handAll acc emitted (x :: xs) = sink.handAll next (emitted + 1) xs := by
  rw [handAll, h]

theorem handAll_stop (h : (sink acc x emitted).result = some (next, .stop)) (xs : List α) :
    sink.handAll acc emitted (x :: xs) = some (next, emitted + 1) := by
  rw [handAll, h]

theorem handEvents_onward (h : (sink acc x emitted).result = some (next, .onward)) (xs : List α) :
    sink.handEvents acc emitted (x :: xs) =
      (sink acc x emitted).events ++ sink.handEvents next (emitted + 1) xs := by
  rw [handEvents, h]

theorem handEvents_stop (h : (sink acc x emitted).result = some (next, .stop)) (xs : List α) :
    sink.handEvents acc emitted (x :: xs) = (sink acc x emitted).events := by
  rw [handEvents, h, List.append_nil]

/-- Beside the first of these calls of its own, the run calls what the closing action calls when it
is handed the elements. -/
def Beside (sink : Sink α γ) (seed : γ) (xs : List α) (own both : List (Event α)) : Prop :=
  ∃ done, done <+: own ∧ Interleaved done (calls (sink.handEvents seed 0 xs)) both

/-- The second run has handed to its closing action what the first one collected, and no more will
be handed to it than what the first one collects from now on. -/
structure InStep (sink : Sink α γ) (seed : γ) (s : RunState α (List α)) (t : RunState α γ) :
    Prop where
  counters_eq : s.counters = t.counters
  handAll_eq : ∀ xs, sink.handAll seed 0 (s.acc.reverse ++ xs) =
    sink.handAll t.acc t.counters.emitted xs
  calls_eq : ∃ closing, Interleaved (calls s.journal.events) (calls closing)
      (calls t.journal.events)
    ∧ ∀ xs, sink.handEvents seed 0 (s.acc.reverse ++ xs) =
      closing ++ sink.handEvents t.acc t.counters.emitted xs

/-- The closing action of the second run has seen enough, whatever the first one collects. -/
structure Ahead (sink : Sink α γ) (seed : γ) (s : RunState α (List α)) (t : RunState α γ) :
    Prop where
  handAll_eq : ∀ xs, sink.handAll seed 0 (s.acc.reverse ++ xs) = some (t.acc, t.counters.emitted)
  beside : ∀ xs, sink.Beside seed (s.acc.reverse ++ xs) (calls s.journal.events)
    (calls t.journal.events)

theorem reverse_cons_append (x : α) (acc xs : List α) :
    (x :: acc).reverse ++ xs = acc.reverse ++ x :: xs := by
  rw [List.reverse_cons, List.append_assoc, List.singleton_append]

/-- What the first run does meanwhile is more on its side. -/
theorem Beside.more {seed : γ} {xs : List α} {own both : List (Event α)}
    (h : sink.Beside seed xs own both) (events : List (Event α)) :
    sink.Beside seed xs (own ++ events) both := by
  obtain ⟨done, hdone, hboth⟩ := h
  exact ⟨done, hdone.trans (List.prefix_append own events), hboth⟩

namespace InStep

variable {seed : γ} {s : RunState α (List α)} {t : RunState α γ}

theorem record (h : sink.InStep seed s t) (events : List (Event α)) :
    sink.InStep seed { s with journal := s.journal.record events }
      { t with journal := t.journal.record events } := by
  obtain ⟨closing, hboth, hclosing⟩ := h.calls_eq
  refine ⟨h.counters_eq, h.handAll_eq, closing, ?_, hclosing⟩
  simp only [Journal.events_record, calls_append]
  exact hboth.append_left _

theorem afterCall {β : Type} (h : sink.InStep seed s t) (f : Callback α β) (slot : Option Nat)
    (x : α) : sink.InStep seed (s.afterCall f slot x) (t.afterCall f slot x) := by
  obtain ⟨hcounters, hall, hcalls⟩ := h.record [f.event x (s.counters.index slot)]
  have hemitted : (t.counters.tick slot).emitted = t.counters.emitted := by cases slot <;> rfl
  have hindex : t.afterCall f slot x =
      ⟨t.counters.tick slot, t.acc, t.journal.record [f.event x (s.counters.index slot)]⟩ := by
    rw [RunState.afterCall, h.counters_eq]
  rw [hindex]
  refine ⟨congrArg (Counters.tick · slot) hcounters, ?_, ?_⟩
  · rw [hemitted]
    exact hall
  · rw [hemitted]
    exact hcalls

theorem afterGate (h : sink.InStep seed s t) (number : Nat) :
    sink.InStep seed (s.afterGate number) (t.afterGate number) :=
  ⟨congrArg (Counters.afterGate · number) h.counters_eq, h.handAll_eq, h.calls_eq⟩

/-- Both runs hand out an element, and the closing action wants more. -/
theorem onward {acc : γ} (h : sink.InStep seed s t) (x : α)
    (hresult : (sink t.acc x t.counters.emitted).result = some (acc, .onward)) :
    sink.InStep seed ⟨s.counters.emit, x :: s.acc, s.journal.record []⟩
      ⟨t.counters.emit, acc, t.journal.record (sink t.acc x t.counters.emitted).events⟩ := by
  refine ⟨congrArg Counters.emit h.counters_eq, fun xs => ?_, ?_⟩
  · rw [reverse_cons_append, h.handAll_eq, handAll_onward hresult]
    rfl
  · obtain ⟨closing, hboth, hclosing⟩ := h.calls_eq
    refine ⟨closing ++ (sink t.acc x t.counters.emitted).events, ?_, fun xs => ?_⟩
    · rw [Journal.record_nil, Journal.events_record, calls_append, calls_append]
      exact hboth.append_right _
    · rw [reverse_cons_append, hclosing, handEvents_onward hresult, List.append_assoc]
      rfl

/-- Both runs hand out an element, and the closing action has seen enough. -/
theorem stop {acc : γ} (h : sink.InStep seed s t) (x : α)
    (hresult : (sink t.acc x t.counters.emitted).result = some (acc, .stop)) :
    sink.Ahead seed ⟨s.counters.emit, x :: s.acc, s.journal.record []⟩
      ⟨t.counters.emit, acc, t.journal.record (sink t.acc x t.counters.emitted).events⟩ := by
  refine ⟨fun xs => ?_, fun xs => ?_⟩
  · rw [reverse_cons_append, h.handAll_eq, handAll_stop hresult]
    rfl
  · obtain ⟨closing, hboth, hclosing⟩ := h.calls_eq
    refine ⟨_, List.prefix_rfl, ?_⟩
    rw [reverse_cons_append, hclosing, handEvents_stop hresult, Journal.record_nil,
      Journal.events_record, calls_append, calls_append]
    exact hboth.append_right _

end InStep

namespace Ahead

variable {seed : γ} {s : RunState α (List α)} {t : RunState α γ}

theorem record (h : sink.Ahead seed s t) (events : List (Event α)) :
    sink.Ahead seed { s with journal := s.journal.record events } t := by
  refine ⟨h.handAll_eq, fun xs => ?_⟩
  rw [Journal.events_record, calls_append]
  exact (h.beside xs).more _

/-- The run that collects hands out another element. -/
theorem emit (h : sink.Ahead seed s t) (x : α) :
    sink.Ahead seed ⟨s.counters.emit, x :: s.acc, s.journal.record []⟩ t := by
  refine ⟨fun xs => ?_, fun xs => ?_⟩
  · rw [reverse_cons_append]
    exact h.handAll_eq (x :: xs)
  · rw [reverse_cons_append]
    exact h.beside (x :: xs)

end Ahead

/-- A run with a closing action that never fails goes in step with the run that collects. -/
theorem lockstep_closing (htotal : sink.Total) (seed : γ) :
    Lockstep Sink.collect sink (sink.InStep seed) (sink.Ahead seed) where
  counters_eq := fun h => h.counters_eq
  call := fun f slot x h => h.afterCall f slot x
  gate := fun number h => h.afterGate number
  emit := by
    intro s t x h
    obtain ⟨⟨acc, flow⟩, hresult⟩ := htotal t.acc x t.counters.emitted
    rw [RunM.feed_nil, RunM.feed_nil, hresult]
    cases flow with
    | onward => exact .ok .onward (h.onward x hresult)
    | stop => exact .ahead (h.stop x hresult)
  call_ahead := fun f slot x h => by
    obtain ⟨hall, hbeside⟩ := h.record [f.event x _]
    exact ⟨hall, hbeside⟩
  gate_ahead := fun number h => ⟨h.handAll_eq, h.beside⟩
  emit_ahead := fun x h => h.emit x

end Sink

/-! ## Runs -/

namespace Plan

theorem emitted_start (plan : Plan α) (opened : Opened α) : (opened.start plan).emitted = 0 := by
  have hjump : ∀ size, (plan.startAfterJump size).emitted = 0 := by
    intro size
    unfold startAfterJump
    split <;> rfl
  cases opened with
  | indexed source box => exact hjump box.size
  | owned items => exact hjump items.length
  | sequential intake => rfl

/-- Where the run that collects does not fail, any closing action that never fails is handed the
collected elements, and called beside the first ones of the calls of that run. -/
theorem run_closes (plan : Plan α) (opened : Opened α) {sink : Sink α γ} (htotal : sink.Total)
    (seed : γ) {stats : Stats} (hcollect : (plan.run .collect [] opened).result = .ok stats) :
    ∃ stats, (plan.run sink seed opened).result = .ok stats
      ∧ sink.handAll seed 0 (plan.run .collect [] opened).acc.reverse =
        some ((plan.run sink seed opened).acc, stats.emitted)
      ∧ sink.Beside seed (plan.run .collect [] opened).acc.reverse
        (calls (plan.run .collect [] opened).events)
        (calls (plan.run sink seed opened).events) := by
  have hstart : sink.InStep seed ⟨opened.start plan, [], .empty⟩
      ⟨opened.start plan, seed, .empty⟩ := by
    refine ⟨rfl, fun xs => ?_, [], .nil, fun xs => ?_⟩
    · rw [emitted_start]
      rfl
    · rw [emitted_start]
      rfl
  have hends := (Sink.lockstep_closing htotal seed).drain (fun events h => h.record events)
    (fun events h => h.record events) plan (opened.intakeFrom (opened.jump plan)) 0 hstart
  have hfinish := plan.run_eq_drain .collect [] opened
  have hfinish' := plan.run_eq_drain sink seed opened
  unfold Plan.drained at hfinish hfinish'
  have hended : ∀ culprit, (plan.drained .collect [] opened).ending ≠ .failed culprit := by
    intro culprit hculprit
    have herror := hfinish.failed culprit hculprit
    rw [hcollect] at herror
    exact absurd herror (by simp)
  unfold Plan.drained at hended
  rw [hfinish.acc_eq, hfinish.events_eq, hfinish'.acc_eq, hfinish'.events_eq, calls_append,
    calls_append, Intake.calls_release, Intake.calls_release, List.append_nil, List.append_nil]
  generalize drainIntake plan .collect _ 0 _ = drain at hends hended ⊢
  generalize drainIntake plan sink _ 0 _ = other at hends hfinish' ⊢
  cases hends with
  | alike rest scanned ending h =>
    obtain ⟨stats, hresult, -, hemitted⟩ := hfinish'.ended hended
    obtain ⟨closing, hboth, hclosing⟩ := h.calls_eq
    refine ⟨stats, hresult, ?_, _, List.prefix_rfl, ?_⟩
    · have hall := h.handAll_eq []
      rw [List.append_nil] at hall
      rw [hall, hemitted]
      rfl
    · have hnone := hclosing []
      rw [List.append_nil] at hnone
      rw [hnone]
      simp only [Sink.handEvents, List.append_nil]
      exact hboth
  | @ahead _ t rest scanned h =>
    obtain ⟨stats, hresult, -, hemitted⟩ := hfinish'.ended fun _ h => by cases h
    refine ⟨stats, hresult, ?_, ?_⟩
    · have hall := h.handAll_eq []
      rw [List.append_nil] at hall
      rw [hall, hemitted]
    · have hbeside := h.beside []
      rw [List.append_nil] at hbeside
      rw [Journal.events_record, calls_append, Intake.calls_close, List.append_nil]
      exact hbeside

end Plan

end StreamFusion
