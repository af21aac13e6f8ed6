import StreamFusion.Proofs.Plan.Drafts
import StreamFusion.Proofs.Operation.Laws
import StreamFusion.Proofs.Run.Stopping

/-!
# Runs in which no callback fails

If no callback of the steps fails, feeding an element fails only where the closing action does
(`Course.feed_ok`). So collecting never fails (`RunM.feed_collect`), and neither does feeding behind
a shut gate, where nothing comes to the closing action (`RunM.each_sealed`).
-/

namespace StreamFusion

variable {α γ : Type}

/-- No callback of the step fails. -/
def Step.Total : Step α → Prop
  | .map f _ => f.Total
  | .test p _ => p.Total
  | .expand f _ => f.Total
  | .gate _ => True

namespace Draft

theorem total_add (mode : RangeMode) {d : Draft α} (h : ∀ step ∈ d.steps, step.Total) {op : Op α}
    (hop : op.Total) : ∀ step ∈ (d.add mode op).steps, step.Total := by
  have hconcat : ∀ step : Step α, step.Total → ∀ other ∈ d.steps ++ [step], other.Total := by
    intro step hstep other hmem
    rcases List.mem_append.1 hmem with hmem | hmem
    · exact h other hmem
    · exact List.mem_singleton.1 hmem ▸ hstep
  cases op with
  | transform f => exact hconcat (.map f _) hop
  | filter test search => exact hconcat (.test test _) hop
  | never indexed search => exact h
  | flatten expand => exact hconcat (.expand expand _) hop
  | range start stop =>
    cases mode with
    | baseline => exact h
    | segmented =>
      by_cases hall : start = 0 ∧ stop = none
      · simp only [add, if_pos hall]
        exact h
      · simp only [add, if_neg hall]
        exact hconcat (.gate _) trivial

/-- The steps of operations whose callbacks do not fail. -/
theorem total_ofOps (mode : RangeMode) {ops : List (Op α)} (h : ∀ op ∈ ops, op.Total) :
    ∀ step ∈ (ofOps mode ops).steps, step.Total := by
  induction ops using List.reverseRecOn with
  | nil => exact nofun
  | append_singleton ops op ih =>
    rw [ofOps_concat]
    exact total_add mode (ih fun other hmem => h other (List.mem_append_left _ hmem))
      (h op (List.mem_append_right _ (List.mem_singleton_self op)))

end Draft

namespace Course

variable {sink : Sink α γ} {M : List (Step α) → Prop} {O S E : RunState α γ → Prop}

theorem each_ok {body : α → RunM α γ Flow} (hends : ∀ x s, O s → RunM.Ends O S E (body x s))
    (hbody : ∀ x s, O s → ∃ flow s', body x s = .ok flow s') (xs : List α) {s : RunState α γ}
    (hO : O s) : ∃ flow s', RunM.each body xs s = .ok flow s' := by
  induction xs generalizing s with
  | nil => exact ⟨.onward, s, rfl⟩
  | cons x xs ih =>
    obtain ⟨flow, s', hx⟩ := hbody x s hO
    have hafter := hends x s hO
    rw [hx] at hafter
    rw [RunM.each_cons, hx]
    cases flow with
    | onward => exact ih hafter
    | stop => exact ⟨.stop, s', rfl⟩

/-- If no callback fails and the closing action does not, feeding does not fail. -/
theorem feed_ok (h : Course sink M O S E)
    (hemit : ∀ x s, M [] → O s → ∃ flow s', RunM.feed sink [] x s = .ok flow s')
    {steps : List (Step α)} (htotal : ∀ step ∈ steps, step.Total) (hM : M steps) (x : α)
    {s : RunState α γ} (hO : O s) : ∃ flow s', RunM.feed sink steps x s = .ok flow s' := by
  induction steps generalizing x s with
  | nil => exact hemit x s hM hO
  | cons step steps ih =>
    obtain ⟨hstep, hrest⟩ := List.forall_mem_cons.1 htotal
    have ih := fun hM' => ih hrest hM'
    cases step with
    | map f slot =>
      obtain ⟨hM', hcalled⟩ := h.call f x hM rfl hO
      obtain ⟨y, hy⟩ := Callback.Total.answer hstep x (s.counters.index slot)
      rw [RunM.feed_map, hy]
      exact ih hM' y hcalled
    | test p slot =>
      obtain ⟨hM', hcalled⟩ := h.call p x hM rfl hO
      obtain ⟨kept, hkept⟩ := Callback.Total.answer hstep x (s.counters.index slot)
      rw [RunM.feed_test, hkept]
      cases kept with
      | true => exact ih hM' x hcalled
      | false => exact ⟨.onward, _, rfl⟩
    | expand f slot =>
      obtain ⟨hM', hcalled⟩ := h.call f x hM rfl hO
      obtain ⟨ys, hys⟩ := Callback.Total.answer hstep x (s.counters.index slot)
      rw [RunM.feed_expand, hys]
      exact each_ok (fun y s hO => h.feed hM' y hO) (fun y s hO => ih hM' y hO) ys hcalled
    | gate number =>
      have hasked := h.gate hM hO
      rw [RunM.feed_gate]
      cases hask : (s.counters.window number).ask.1 with
      | through =>
        rw [hask] at hasked
        exact ih hasked.1 x hasked.2
      | dropped => exact ⟨.onward, _, rfl⟩
      | shut => exact ⟨.stop, _, rfl⟩

end Course

namespace RunM

variable {sink : Sink α γ} {steps : List (Step α)}

/-- Collecting does not fail, and adds to what was collected. -/
theorem feed_collect (htotal : ∀ step ∈ steps, step.Total) (x : α) (a : RunState α (List α)) :
    ∃ flow a' more, feed Sink.collect steps x a = .ok flow a' ∧ a'.acc = more ++ a.acc := by
  have hcourse : Course Sink.collect (fun _ => True) (fun s => ∃ more, s.acc = more ++ a.acc)
      (fun s => ∃ more, s.acc = more ++ a.acc) (fun s => ∃ more, s.acc = more ++ a.acc) := by
    refine .of_kept (fun _ _ _ h => h) (fun _ h => h) fun y h => ?_
    obtain ⟨more, hmore⟩ := h
    exact ⟨y :: more, congrArg (y :: ·) hmore⟩
  have hstart : ∃ more, a.acc = more ++ a.acc := ⟨[], rfl⟩
  obtain ⟨flow, a', hfeed⟩ :=
    hcourse.feed_ok (fun _ _ _ _ => ⟨_, _, rfl⟩) htotal trivial x hstart
  have hends : Ends (fun s => ∃ more, s.acc = more ++ a.acc) (fun s => ∃ more, s.acc = more ++ a.acc)
      (fun s => ∃ more, s.acc = more ++ a.acc) (feed Sink.collect steps x a) :=
    hcourse.feed trivial x hstart
  rw [hfeed] at hends
  obtain ⟨more, hmore⟩ : ∃ more, a'.acc = more ++ a.acc := by
    cases flow with
    | onward => exact hends
    | stop => exact hends
  exact ⟨flow, a', more, hfeed, hmore⟩

end RunM

/-- The states have the same accumulator, and as many elements were handed out. -/
def RunState.SameTo (s t : RunState α γ) : Prop :=
  s.acc = t.acc ∧ s.counters.emitted = t.counters.emitted

/-- Once a run is sealed, nothing more comes of it. -/
theorem RunM.each_sealed (sink : Sink α γ) {steps : List (Step α)}
    (htotal : ∀ step ∈ steps, step.Total) (xs : List α) {s : RunState α γ}
    (hgate : s.counters.SealedByGate steps) (hsealed : s.counters.isSealed = true) :
    ∃ flow s', each (feed sink steps) xs s = .ok flow s' ∧ s.SameTo s'
      ∧ s'.counters.isSealed = true := by
  obtain ⟨number, hmem, hclosed⟩ := hgate hsealed
  have hcourse := Course.shut_keeps sink number
    (K := fun t => s.SameTo t ∧ t.counters.isSealed = true)
    (fun f slot x h => ⟨⟨h.1.1, by cases slot <;> exact h.1.2⟩, by cases slot <;> exact h.2⟩)
    (fun {t} other h => ⟨h.1, by
      show (t.counters.isSealed || _) = true
      rw [h.2, Bool.true_or]⟩)
  have hstart : s.counters.window number = .closed ∧ s.SameTo s ∧ s.counters.isSealed = true :=
    ⟨hclosed, ⟨rfl, rfl⟩, hsealed⟩
  have hends := Course.each (fun x t ht => hcourse.feed hmem x ht) xs hstart
  obtain ⟨flow, s', heach⟩ := Course.each_ok (fun x t ht => hcourse.feed hmem x ht)
    (fun x t ht => hcourse.feed_ok (fun _ _ hnil => absurd hnil (by simp)) htotal hmem x ht) xs
    hstart
  rw [heach] at hends
  cases flow with
  | onward => exact ⟨_, s', heach, hends.2.1, hends.2.2⟩
  | stop => exact ⟨_, s', heach, hends.2.1, hends.2.2⟩

end StreamFusion
