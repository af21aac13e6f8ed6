import StreamFusion.Proofs.Plan.Appending
import StreamFusion.Proofs.Run.Feeding

/-!
# Two plans in one run

The counters of two plans can be kept in one list, those of the second plan behind those of the
first one (`Counters.join`). Every step then reads and changes its own counter as it does in the run
of its plan alone, and feeding an element through the steps of the second plan is feeding it through
that plan (`RunM.feed_behind`).
-/

namespace StreamFusion

variable {α γ : Type}

namespace Counters

/-- The counters of two plans, one behind the other. The second plan hands out the elements, and a
gate of either plan seals the run. -/
def join (first second : Counters) : Counters :=
  ⟨first.gates ++ second.gates, first.slots ++ second.slots, second.emitted,
    first.isSealed || second.isSealed⟩

variable {first second : Counters} {gates slots : Nat}

/-! ## Counters of the second plan -/

theorem index_join_behind (h : first.Sized gates slots) (slot : Option Nat) :
    (first.join second).index (slot.map (slots + ·)) = second.index slot := by
  cases slot with
  | none => rfl
  | some slot =>
    have hle : first.slots.length ≤ slots + slot := by rw [h.slots_eq]; exact Nat.le_add_right ..
    simp only [Option.map_some, index, join, List.getD_eq_getElem?_getD,
      List.getElem?_append_right hle, h.slots_eq, Nat.add_sub_cancel_left]

theorem tick_join_behind (h : first.Sized gates slots) (slot : Option Nat) :
    (first.join second).tick (slot.map (slots + ·)) = first.join (second.tick slot) := by
  cases slot with
  | none => rfl
  | some slot =>
    have hindex : (first.join second).index (some (slots + slot)) = second.index (some slot) :=
      index_join_behind h (some slot)
    have hle : first.slots.length ≤ slots + slot := by rw [h.slots_eq]; exact Nat.le_add_right ..
    rw [Option.map_some]
    simp only [tick, hindex]
    simp only [join, List.set_append_right _ _ hle, h.slots_eq, Nat.add_sub_cancel_left]

theorem window_join_behind (h : first.Sized gates slots) (number : Nat) :
    (first.join second).window (gates + number) = second.window number := by
  have hle : first.gates.length ≤ gates + number := by rw [h.gates_eq]; exact Nat.le_add_right ..
  simp only [window, join, List.getD_eq_getElem?_getD, List.getElem?_append_right hle, h.gates_eq,
    Nat.add_sub_cancel_left]

theorem afterGate_join_behind (h : first.Sized gates slots) (number : Nat) :
    (first.join second).afterGate (gates + number) = first.join (second.afterGate number) := by
  have hle : first.gates.length ≤ gates + number := by rw [h.gates_eq]; exact Nat.le_add_right ..
  simp only [afterGate, window_join_behind h]
  simp only [join, List.set_append_right _ _ hle, h.gates_eq, Nat.add_sub_cancel_left,
    Bool.or_assoc]

/-! ## Counters of the first plan -/

theorem index_join (h : first.Sized gates slots) {slot : Option Nat}
    (hslot : ∀ number, slot = some number → number < slots) :
    (first.join second).index slot = first.index slot := by
  cases slot with
  | none => rfl
  | some slot =>
    have hlt : slot < first.slots.length := by rw [h.slots_eq]; exact hslot slot rfl
    simp only [index, join, List.getD_eq_getElem?_getD, List.getElem?_append_left hlt]

theorem tick_join (h : first.Sized gates slots) {slot : Option Nat}
    (hslot : ∀ number, slot = some number → number < slots) :
    (first.join second).tick slot = (first.tick slot).join second := by
  cases slot with
  | none => rfl
  | some slot =>
    have hlt : slot < first.slots.length := by rw [h.slots_eq]; exact hslot slot rfl
    simp only [tick, index_join h hslot]
    simp only [join, List.set_append_left _ _ hlt]

theorem window_join (h : first.Sized gates slots) {number : Nat} (hnumber : number < gates) :
    (first.join second).window number = first.window number := by
  have hlt : number < first.gates.length := by rw [h.gates_eq]; exact hnumber
  simp only [window, join, List.getD_eq_getElem?_getD, List.getElem?_append_left hlt]

theorem afterGate_join (h : first.Sized gates slots) {number : Nat} (hnumber : number < gates) :
    (first.join second).afterGate number = (first.afterGate number).join second := by
  have hlt : number < first.gates.length := by rw [h.gates_eq]; exact hnumber
  simp only [afterGate, window_join h hnumber]
  simp only [join, List.set_append_left _ _ hlt, Bool.or_right_comm]

end Counters

/-- A run of a plan that was appended to another one starts with the counters of both. -/
theorem Plan.IsAppended.start_eq {plan first second : Plan α} (h : plan.IsAppended first second) :
    plan.start = first.start.join second.start := by
  rw [Plan.start, h.gates_eq, h.slots_eq, ← List.replicate_append_replicate]
  rfl

/-! ## Feeding through the second plan -/

/-- The state with the counters of another plan in front of its own. -/
def RunState.behind (s : RunState α γ) (first : Counters) : RunState α γ :=
  { s with counters := first.join s.counters }

/-- The result with the counters of another plan in front of its own. -/
def RunM.resultBehind (first : Counters) {δ : Type} :
    EStateM.Result α (RunState α γ) δ → EStateM.Result α (RunState α γ) δ
  | .ok y s => .ok y (s.behind first)
  | .error culprit s => .error culprit (s.behind first)

namespace RunM

variable {first : Counters} {gates slots : Nat} {sink : Sink α γ}

theorem each_behind {body other : α → RunM α γ Flow}
    (hbody : ∀ x s, other x (s.behind first) = resultBehind first (body x s)) (xs : List α)
    (s : RunState α γ) : each other xs (s.behind first) = resultBehind first (each body xs s) := by
  induction xs generalizing s with
  | nil => rfl
  | cons x xs ih =>
    rw [each_cons, each_cons, hbody]
    rcases body x s with ⟨_ | _, s'⟩ | ⟨culprit, s'⟩
    · exact ih s'
    · rfl
    · rfl

/-- Feeding through steps that count behind others is feeding through them alone. -/
theorem feed_behind (h : first.Sized gates slots) (steps : List (Step α)) (x : α)
    (s : RunState α γ) :
    feed sink (steps.map (Step.behind gates slots)) x (s.behind first) =
      resultBehind first (feed sink steps x s) := by
  induction steps generalizing x s with
  | nil =>
    rw [List.map_nil, feed_nil, feed_nil]
    have hemitted : (s.behind first).counters.emitted = s.counters.emitted := rfl
    have hacc : (s.behind first).acc = s.acc := rfl
    rw [hemitted, hacc]
    rcases (sink s.acc x s.counters.emitted).result with _ | ⟨acc, flow⟩
    · rfl
    · rfl
  | cons step steps ih =>
    -- the three kinds of calls differ in what they hand on, and agree in the tick
    have hindex : ∀ slot, (s.behind first).counters.index (slot.map (slots + ·)) =
        s.counters.index slot := fun slot => Counters.index_join_behind h slot
    have hcalled : ∀ {β : Type} (f : Callback α β) slot,
        (s.behind first).afterCall f (slot.map (slots + ·)) x =
          (s.afterCall f slot x).behind first := by
      intro β f slot
      have hticked : (s.behind first).counters.tick (slot.map (slots + ·)) =
          first.join (s.counters.tick slot) := Counters.tick_join_behind h slot
      rw [RunState.afterCall, hindex, hticked]
      rfl
    cases step with
    | map f slot =>
      rw [List.map_cons, Step.behind, feed_map, feed_map, hindex, hcalled]
      cases f.answer x (s.counters.index slot) with
      | none => rfl
      | some y => exact ih y _
    | test p slot =>
      rw [List.map_cons, Step.behind, feed_test, feed_test, hindex, hcalled]
      rcases p.answer x (s.counters.index slot) with _ | _ | _
      · rfl
      · rfl
      · exact ih x _
    | expand f slot =>
      rw [List.map_cons, Step.behind, feed_expand, feed_expand, hindex, hcalled]
      cases f.answer x (s.counters.index slot) with
      | none => rfl
      | some ys => exact each_behind ih ys _
    | gate number =>
      have hwindow : (s.behind first).counters.window (gates + number) =
          s.counters.window number := Counters.window_join_behind h number
      have hafter : (s.behind first).counters.afterGate (gates + number) =
          first.join (s.counters.afterGate number) := Counters.afterGate_join_behind h number
      have hasked : (s.behind first).afterGate (gates + number) =
          (s.afterGate number).behind first := by
        rw [RunState.afterGate, hafter]
        rfl
      rw [List.map_cons, Step.behind, feed_gate, feed_gate, hwindow, hasked]
      cases (s.counters.window number).ask.1 with
      | through => exact ih x _
      | dropped => rfl
      | shut => rfl

end RunM

end StreamFusion
