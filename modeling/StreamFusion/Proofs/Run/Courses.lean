import StreamFusion.Proofs.Plan.Meaning
import StreamFusion.Run.Lemmas

/-!
# The course of a run

Feeding an element makes single moves: calls, gates, and in the end the closing action. What these
moves say about a run that goes on, that is stopped or that fails at a callback, feeding says about
it (`Course.feed`); no other statement needs an induction on the steps.
-/

namespace StreamFusion

variable {α γ ε : Type}

namespace RunM

/-- The state that a part of a run leaves, also where it fails. -/
def left : EStateM.Result α (RunState α γ) ε → RunState α γ
  | .ok _ s | .error _ s => s

@[simp] theorem left_ok (y : ε) (s : RunState α γ) :
    left (.ok y s : EStateM.Result α (RunState α γ) ε) = s := rfl

@[simp] theorem left_error (culprit : α) (s : RunState α γ) :
    left (.error culprit s : EStateM.Result α (RunState α γ) ε) = s := rfl

/-- A part of a run ends with `O` if the run goes on, with `S` if it is stopped, and with `E` if a
callback fails. -/
def Ends (O S E : RunState α γ → Prop) : EStateM.Result α (RunState α γ) Flow → Prop
  | .ok .onward s => O s
  | .ok .stop s => S s
  | .error _ s => E s

/-- Where all ends are alike, the state that is left tells them. -/
theorem ends_iff_left {K : RunState α γ → Prop} {result : EStateM.Result α (RunState α γ) Flow} :
    Ends K K K result ↔ K (left result) := by
  rcases result with ⟨_ | _, s⟩ | ⟨culprit, s⟩
  · exact Iff.rfl
  · exact Iff.rfl
  · exact Iff.rfl

end RunM

/-- Single moves along steps with `M` keep `O` while the run goes on; they lead to `S` where it is
stopped and to `E` where a callback fails. -/
structure Course (sink : Sink α γ) (M : List (Step α) → Prop) (O S E : RunState α γ → Prop) :
    Prop where
  call : ∀ {s β step steps} (f : Callback α β) x, M (step :: steps) → step.gate? = none → O s →
    M steps ∧ O (s.afterCall f step.slot? x)
  fail : ∀ {s}, O s → E s
  gate : ∀ {s number steps}, M (.gate number :: steps) → O s →
    match (s.counters.window number).ask.1 with
    | .through => M steps ∧ O (s.afterGate number)
    | .dropped => O (s.afterGate number)
    | .shut => S (s.afterGate number)
  emit : ∀ {s} x, M [] → O s → RunM.Ends O S E (RunM.feed sink [] x s)

namespace Course

variable {sink : Sink α γ} {M : List (Step α) → Prop} {O S E : RunState α γ → Prop}

theorem each {body : α → RunM α γ Flow} (hbody : ∀ x s, O s → RunM.Ends O S E (body x s))
    (xs : List α) {s : RunState α γ} (hO : O s) : RunM.Ends O S E (RunM.each body xs s) := by
  induction xs generalizing s with
  | nil => exact hO
  | cons x xs ih =>
    have hx := hbody x s hO
    rw [RunM.each_cons]
    cases hresult : body x s with
    | error culprit s' =>
      rw [hresult] at hx
      exact hx
    | ok flow s' =>
      rw [hresult] at hx
      cases flow with
      | onward => exact ih hx
      | stop => exact hx

/-- What single moves do, feeding does. -/
theorem feed (h : Course sink M O S E) {steps : List (Step α)} (hM : M steps) (x : α)
    {s : RunState α γ} (hO : O s) : RunM.Ends O S E (RunM.feed sink steps x s) := by
  induction steps generalizing x s with
  | nil => exact h.emit x hM hO
  | cons step steps ih =>
    cases step with
    | map f slot =>
      obtain ⟨hrest, hcalled⟩ := h.call f x hM rfl hO
      rw [RunM.feed_map]
      cases f.answer x (s.counters.index slot) with
      | none => exact h.fail hcalled
      | some y => exact ih hrest y hcalled
    | test p slot =>
      obtain ⟨hrest, hcalled⟩ := h.call p x hM rfl hO
      rw [RunM.feed_test]
      rcases p.answer x (s.counters.index slot) with _ | _ | _
      · exact h.fail hcalled
      · exact hcalled
      · exact ih hrest x hcalled
    | expand f slot =>
      obtain ⟨hrest, hcalled⟩ := h.call f x hM rfl hO
      rw [RunM.feed_expand]
      cases f.answer x (s.counters.index slot) with
      | none => exact h.fail hcalled
      | some ys => exact each (fun y s hO => ih hrest y hO) ys hcalled
    | gate number =>
      have hasked := h.gate hM hO
      rw [RunM.feed_gate]
      cases hask : (s.counters.window number).ask.1 with
      | through =>
        rw [hask] at hasked
        exact ih hasked.1 x hasked.2
      | dropped =>
        rw [hask] at hasked
        exact hasked
      | shut =>
        rw [hask] at hasked
        exact hasked

/-- What calls, gates and the closing action keep, whether or not they fail or stop the run. -/
theorem of_kept {K : RunState α γ → Prop}
    (call : ∀ {s β} (f : Callback α β) slot x, K s → K (s.afterCall f slot x))
    (gate : ∀ {s} number, K s → K (s.afterGate number))
    (emit : ∀ {s} x, K s → K (RunM.left (RunM.feed sink [] x s))) :
    Course sink (fun _ => True) K K K where
  call := fun f x _ _ hK => ⟨trivial, call f _ x hK⟩
  fail := id
  gate := by
    intro s number steps _ hK
    have hasked := gate number hK
    cases (s.counters.window number).ask.1 with
    | through => exact ⟨trivial, hasked⟩
    | dropped => exact hasked
    | shut => exact hasked
  emit := fun x _ hK => RunM.ends_iff_left.2 (emit x hK)

end Course

end StreamFusion
