import StreamFusion.Plan.Compilation
import StreamFusion.Proofs.Run.Leftovers

/-!
# Behind a shut gate

In front of a gate that is shut nothing comes out any more, but the steps in front of it are still
called (`RunState.Idles`). What is left of expansions then goes no further than through the steps
behind the first one, which are those of the operations behind the first flatten
(`Draft.exists_newSteps`).
-/

namespace StreamFusion

variable {α γ : Type}

/-! ## Calls behind a flatten -/

/-- The event is a call of the callback of the step. -/
def Step.Calls : Step α → Event α → Prop
  | .map f _, event => ∃ x index, event = f.event x index
  | .test p _, event => ∃ x index, event = p.event x index
  | .expand f _, event => ∃ x index, event = f.event x index
  | .gate _, _ => False

/-- The event is a call of the callback of the operation. -/
def Op.Calls : Op α → Event α → Prop
  | .transform f, event => ∃ x index, event = f.event x index
  | .filter test _, event => ∃ x index, event = test.event x index
  | .flatten expand, event => ∃ x index, event = expand.event x index
  | _, _ => False

/-- One of the steps is called. -/
def Step.CallsAny (steps : List (Step α)) (event : Event α) : Prop :=
  ∃ step ∈ steps, step.Calls event

/-- One of the operations is called. -/
def Op.CallsAny (ops : List (Op α)) (event : Event α) : Prop := ∃ op ∈ ops, op.Calls event

namespace Step

variable {steps more : List (Step α)} {step : Step α} {event : Event α}

theorem CallsAny.mono (h : CallsAny steps event) (hsteps : steps <:+ more) :
    CallsAny more event := by
  obtain ⟨step, hstep, hcalls⟩ := h
  exact ⟨step, hsteps.subset hstep, hcalls⟩

end Step

namespace Draft

end Draft

/-! ## Behind a shut gate -/

/-- From one state to another nothing comes out and nothing happens but calls of these steps. The
gate is still shut, and a sealed run is still sealed. -/
structure RunState.Idles (number : Nat) (steps : List (Step α)) (s t : RunState α γ) : Prop where
  closed : t.counters.window number = .closed
  emitted_eq : t.counters.emitted = s.counters.emitted
  stays_sealed : s.counters.isSealed = true → t.counters.isSealed = true
  calls : ∃ later, t.journal.events = s.journal.events ++ later
    ∧ ∀ event ∈ later, Step.CallsAny steps event

namespace RunState.Idles

variable {number : Nat} {steps more : List (Step α)} {s t u : RunState α γ}

theorem refl (hclosed : s.counters.window number = .closed) (steps : List (Step α)) :
    Idles number steps s s := ⟨hclosed, rfl, id, [], (List.append_nil _).symm, nofun⟩

theorem trans (h : Idles number steps s t) (h' : Idles number steps t u) :
    Idles number steps s u := by
  obtain ⟨later, hlater, hcalls⟩ := h.calls
  obtain ⟨last, hlast, hcalls'⟩ := h'.calls
  refine ⟨h'.closed, h'.emitted_eq.trans h.emitted_eq, h'.stays_sealed ∘ h.stays_sealed,
    later ++ last, by rw [hlast, hlater, List.append_assoc], fun event hevent => ?_⟩
  exact (List.mem_append.1 hevent).elim (hcalls event) (hcalls' event)

theorem mono (h : Idles number steps s t) (hmore : steps <:+ more) : Idles number more s t := by
  obtain ⟨later, hlater, hcalls⟩ := h.calls
  exact ⟨h.closed, h.emitted_eq, h.stays_sealed, later, hlater,
    fun event hevent => (hcalls event hevent).mono hmore⟩

theorem afterCall {β : Type} {f : Callback α β} {slot : Option Nat} {x : α}
    (hclosed : s.counters.window number = .closed)
    (hcalls : ∀ index, Step.CallsAny steps (f.event x index)) :
    Idles number steps s (s.afterCall f slot x) := by
  -- the call is the only event, and counting for it leaves the gates alone
  refine ⟨?_, ?_, ?_, [f.event x (s.counters.index slot)], Journal.events_record .., ?_⟩
  · show (s.counters.tick slot).window number = .closed
    rw [Counters.window_tick]
    exact hclosed
  · cases slot <;> rfl
  · cases slot <;> exact id
  · intro event hevent
    rw [List.mem_singleton.1 hevent]
    exact hcalls _

theorem afterGate (hclosed : s.counters.window number = .closed) (other : Nat) :
    Idles number steps s (s.afterGate other) := by
  refine ⟨Counters.window_eq_closed_afterGate hclosed other, rfl, fun hsealed => ?_, [],
    (List.append_nil _).symm, nofun⟩
  show (s.counters.isSealed || _) = true
  rw [hsealed, Bool.true_or]

end RunState.Idles

namespace RunM

variable {sink : Sink α γ} {number : Nat} {steps : List (Step α)}

theorem each_idles {body : α → RunM α γ Flow}
    (hbody : ∀ x (s : RunState α γ), s.counters.window number = .closed →
      s.Idles number steps (left (body x s)))
    (xs : List α) {s : RunState α γ} (hclosed : s.counters.window number = .closed) :
    s.Idles number steps (left (each body xs s)) := by
  induction xs generalizing s with
  | nil => exact .refl hclosed steps
  | cons x xs ih =>
    have hx := hbody x s hclosed
    rw [each_cons]
    rcases hresult : body x s with ⟨_ | _, t⟩ | ⟨culprit, t⟩ <;> rw [hresult] at hx
    · exact hx.trans (ih hx.closed)
    · exact hx
    · exact hx

/-- In front of a shut gate only calls happen. -/
theorem feed_idles (hmem : .gate number ∈ steps) (x : α) {s : RunState α γ}
    (hclosed : s.counters.window number = .closed) :
    s.Idles number steps (left (feed sink steps x s)) := by
  -- a course does not tell whose callback is called, so the steps are gone through here
  induction steps generalizing x s with
  | nil => exact absurd hmem (by simp)
  | cons step steps ih =>
    have hrest : steps <:+ step :: steps := List.suffix_cons ..
    cases step with
    | map f slot =>
      have hlater : .gate number ∈ steps := by simpa using hmem
      have hcalled : s.Idles number (.map f slot :: steps) (s.afterCall f slot x) :=
        .afterCall hclosed fun index => ⟨_, List.mem_cons_self, x, index, rfl⟩
      rw [feed_map]
      cases f.answer x (s.counters.index slot) with
      | none => exact hcalled
      | some y => exact hcalled.trans ((ih hlater y hcalled.closed).mono hrest)
    | test p slot =>
      have hlater : .gate number ∈ steps := by simpa using hmem
      have hcalled : s.Idles number (.test p slot :: steps) (s.afterCall p slot x) :=
        .afterCall hclosed fun index => ⟨_, List.mem_cons_self, x, index, rfl⟩
      rw [feed_test]
      rcases p.answer x (s.counters.index slot) with _ | _ | _
      · exact hcalled
      · exact hcalled
      · exact hcalled.trans ((ih hlater x hcalled.closed).mono hrest)
    | expand f slot =>
      have hlater : .gate number ∈ steps := by simpa using hmem
      have hcalled : s.Idles number (.expand f slot :: steps) (s.afterCall f slot x) :=
        .afterCall hclosed fun index => ⟨_, List.mem_cons_self, x, index, rfl⟩
      rw [feed_expand]
      cases f.answer x (s.counters.index slot) with
      | none => exact hcalled
      | some ys =>
        have hys : (s.afterCall f slot x).Idles number steps
            (left (each (feed sink steps) ys (s.afterCall f slot x))) :=
          each_idles (fun y t ht => ih hlater y ht) ys hcalled.closed
        exact hcalled.trans (hys.mono hrest)
    | gate other =>
      have hasked : s.Idles number (.gate other :: steps) (s.afterGate other) :=
        .afterGate hclosed other
      rw [feed_gate]
      cases hask : (s.counters.window other).ask.1 with
      | dropped => exact hasked
      | shut => exact hasked
      | through =>
        -- the shut gate is another one, so it stands further behind
        have hne : number ≠ other := by
          rintro rfl
          rw [hclosed] at hask
          exact absurd hask (by simp)
        have hlater : .gate number ∈ steps := by
          refine (List.mem_cons.1 hmem).resolve_left fun h => ?_
          exact hne (Step.gate.inj h)
        exact hasked.trans ((ih hlater x hasked.closed).mono hrest)

end RunM

end StreamFusion
