import StreamFusion.Proofs.Run.Courses

/-!
# Runs in lockstep

Two runs of the same steps at the same elements, with different closing actions or from different
states, ask the same gates and call the same callbacks as long as their counters agree. A relation
between their states that single moves respect is therefore respected by feeding
(`Lockstep.feed`), until the closing action of one run stops it while the other goes on ahead.
-/

namespace StreamFusion

variable {α β γ δ ε : Type}

/-- How two parts of runs end: alike, with states that `Q` relates, or the second one is stopped
while the first may go on ahead, with states that `T` relates. -/
inductive EndsWith (Q T : RunState α γ → RunState α δ → Prop) :
    EStateM.Result α (RunState α γ) Flow → EStateM.Result α (RunState α δ) Flow → Prop where
  | ok (flow : Flow) {s : RunState α γ} {t : RunState α δ} (h : Q s t) :
      EndsWith Q T (.ok flow s) (.ok flow t)
  | error (culprit : α) {s : RunState α γ} {t : RunState α δ} (h : Q s t) :
      EndsWith Q T (.error culprit s) (.error culprit t)
  | ahead {result : EStateM.Result α (RunState α γ) Flow} {t : RunState α δ}
      (h : T (RunM.left result) t) : EndsWith Q T result (.ok .stop t)

/-- Single moves of two runs respect `Q`; once the second run is stopped, single moves of the first
one respect `T`. -/
structure Lockstep (first : Sink α γ) (second : Sink α δ)
    (Q T : RunState α γ → RunState α δ → Prop) : Prop where
  counters_eq : ∀ {s t}, Q s t → s.counters = t.counters
  call : ∀ {s t β} (f : Callback α β) slot x, Q s t →
    Q (s.afterCall f slot x) (t.afterCall f slot x)
  gate : ∀ {s t} number, Q s t → Q (s.afterGate number) (t.afterGate number)
  emit : ∀ {s t} x, Q s t → EndsWith Q T (RunM.feed first [] x s) (RunM.feed second [] x t)
  call_ahead : ∀ {s t β} (f : Callback α β) slot x, T s t → T (s.afterCall f slot x) t
  gate_ahead : ∀ {s t} number, T s t → T (s.afterGate number) t
  emit_ahead : ∀ {s t} x, T s t → T (RunM.left (RunM.feed first [] x s)) t

namespace Lockstep

variable {first : Sink α γ} {second : Sink α δ} {Q T : RunState α γ → RunState α δ → Prop}
  {s : RunState α γ} {t : RunState α δ} {steps : List (Step α)}

/-! ## Ahead -/

/-- The first run goes on after the second one was stopped. -/
theorem course_ahead (h : Lockstep first second Q T) (t : RunState α δ) :
    Course first (fun _ => True) (fun s => T s t) (fun s => T s t) (fun s => T s t) :=
  .of_kept (fun f slot x => h.call_ahead f slot x) (fun number => h.gate_ahead number)
    fun x => h.emit_ahead x

/-- The first run feeds another element after the second one was stopped. -/
theorem feed_ahead (h : Lockstep first second Q T) (steps : List (Step α)) (x : α) (hT : T s t) :
    T (RunM.left (RunM.feed first steps x s)) t :=
  RunM.ends_iff_left.1 ((h.course_ahead t).feed trivial x hT)

/-! ## Side by side -/

theorem each {body : α → RunM α γ Flow} {other : α → RunM α δ Flow}
    (hbody : ∀ x s t, Q s t → EndsWith Q T (body x s) (other x t))
    (hahead : ∀ t x s, T s t →
      RunM.Ends (fun s => T s t) (fun s => T s t) (fun s => T s t) (body x s))
    (xs : List α) (hQ : Q s t) :
    EndsWith Q T (RunM.each body xs s) (RunM.each other xs t) := by
  induction xs generalizing s t with
  | nil => exact .ok .onward hQ
  | cons x xs ih =>
    have hx := hbody x s t hQ
    rw [RunM.each_cons, RunM.each_cons]
    generalize hs : body x s = result at hx ⊢
    generalize ht : other x t = result' at hx ⊢
    cases hx with
    | ok flow hQ' =>
      cases flow with
      | onward => exact ih hQ'
      | stop => exact .ok .stop hQ'
    | error culprit hQ' => exact .error culprit hQ'
    | ahead hT =>
      -- the first run still has the other elements of the list to feed
      refine .ahead ?_
      rcases result with ⟨_ | _, s'⟩ | ⟨culprit, s'⟩
      · exact RunM.ends_iff_left.1 (Course.each (hahead _) xs hT)
      · exact hT
      · exact hT

/-- Feeding respects what single moves respect. -/
theorem feed (h : Lockstep first second Q T) (steps : List (Step α)) (x : α) (hQ : Q s t) :
    EndsWith Q T (RunM.feed first steps x s) (RunM.feed second steps x t) := by
  induction steps generalizing x s t with
  | nil => exact h.emit x hQ
  | cons step steps ih =>
    have hsame := h.counters_eq hQ
    cases step with
    | map f slot =>
      have hcalled := h.call f slot x hQ
      rw [RunM.feed_map, RunM.feed_map, ← hsame]
      cases f.answer x (s.counters.index slot) with
      | none => exact .error x hcalled
      | some y => exact ih y hcalled
    | test p slot =>
      have hcalled := h.call p slot x hQ
      rw [RunM.feed_test, RunM.feed_test, ← hsame]
      rcases p.answer x (s.counters.index slot) with _ | _ | _
      · exact .error x hcalled
      · exact .ok .onward hcalled
      · exact ih x hcalled
    | expand f slot =>
      have hcalled := h.call f slot x hQ
      rw [RunM.feed_expand, RunM.feed_expand, ← hsame]
      cases f.answer x (s.counters.index slot) with
      | none => exact .error x hcalled
      | some ys =>
        exact each (fun y s t hQ => ih y hQ)
          (fun t y s hT => (h.course_ahead t).feed trivial y hT) ys hcalled
    | gate number =>
      have hasked := h.gate number hQ
      rw [RunM.feed_gate, RunM.feed_gate, ← hsame]
      cases (s.counters.window number).ask.1 with
      | through => exact ih x hasked
      | dropped => exact .ok .onward hasked
      | shut => exact .ok .stop hasked

end Lockstep

/-! ## The same closing action -/

/-- The states differ in their journals only. -/
def RunState.SameAs (s t : RunState α γ) : Prop := s.counters = t.counters ∧ s.acc = t.acc

/-- The journal has no influence on a run. -/
theorem Sink.lockstep_same (sink : Sink α γ) :
    Lockstep sink sink RunState.SameAs fun _ _ => False where
  counters_eq := fun h => h.1
  call := fun f slot x h => ⟨congrArg (Counters.tick · slot) h.1, h.2⟩
  gate := fun number h => ⟨congrArg (Counters.afterGate · number) h.1, h.2⟩
  emit := by
    rintro s t x ⟨hcounters, hacc⟩
    rw [RunM.feed_nil, RunM.feed_nil, hacc, hcounters]
    have hemitted : s.counters.emit = t.counters.emit := congrArg Counters.emit hcounters
    rcases (sink t.acc x t.counters.emitted).result with _ | ⟨acc, flow⟩
    · exact .error x ⟨hemitted, hacc⟩
    · exact .ok flow ⟨hemitted, rfl⟩
  call_ahead := nofun
  gate_ahead := nofun
  emit_ahead := nofun

end StreamFusion
