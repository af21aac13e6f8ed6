import StreamFusion.Proofs.Run.Agreement
import StreamFusion.Proofs.Run.Joining

/-!
# A transform that changes nothing

A plan may get a transform in front of its steps that gives every element back. It calls a callback
more for every element, and may count them; what comes of draining a list stays the same
(`Plan.IsAppended.drainList_transformed`).
-/

namespace StreamFusion

variable {α γ : Type}

/-- The callback gives every element back. -/
def Callback.GivesBack (f : Callback α α) : Prop := ∀ x index, f.run x index = some x

/-- The plan of a single transform. -/
def Callback.plan (f : Callback α α) : Plan α := (Draft.ofOps .segmented [.transform f]).toPlan

theorem Callback.steps_plan (f : Callback α α) :
    ∃ slot, f.plan.steps = [.map f slot] ∧ ∀ number, slot = some number → number < f.plan.slots := by
  refine ⟨(Draft.empty : Draft α).slot f.indexed, rfl, fun number hnumber => ?_⟩
  cases hindexed : f.indexed with
  | false =>
    rw [hindexed] at hnumber
    exact absurd hnumber (by simp [Draft.slot])
  | true =>
    have hslots : f.plan.slots = (Draft.empty : Draft α).slotsAfter f.indexed := rfl
    rw [hindexed] at hnumber hslots
    rw [hslots, ← Option.some.inj hnumber]
    exact Nat.lt_succ_self _

/-- Without an index the transform counts nothing. -/
theorem Callback.plan_of_not_indexed {f : Callback α α} (hf : f.indexed = false) :
    f.plan.steps = [.map f none] ∧ f.plan.gates = [] ∧ f.plan.slots = 0 := by
  have hslot : (Draft.empty : Draft α).slot f.indexed = none := by
    rw [hf]
    rfl
  have hslots : (Draft.empty : Draft α).slotsAfter f.indexed = 0 := by
    rw [hf]
    rfl
  exact ⟨congrArg (fun slot => [Step.map f slot]) hslot, rfl, hslots⟩

/-- The states have the same accumulator, and the counters of the second one are those of the first
one behind others, which are not sealed. -/
def RunState.CountsBehind (gates slots : Nat) (s t : RunState α γ) : Prop :=
  ∃ first : Counters, first.Sized gates slots ∧ first.isSealed = false
    ∧ t.counters = first.join s.counters ∧ t.acc = s.acc

namespace Plan

variable {plan other : Plan α} {f : Callback α α}

/-- Feeding an element through the transform is feeding it behind the transform. -/
theorem IsAppended.feed_transformed (h : plan.IsAppended f.plan other) (hf : f.GivesBack)
    (sink : Sink α γ) (x : α) {s t : RunState α γ} (hst : s.CountsBehind 0 f.plan.slots t) :
    Fed.EndsWith (RunState.CountsBehind 0 f.plan.slots) (fun _ _ => False) (other.feed sink x s)
      (plan.feed sink x t) := by
  obtain ⟨first, hsized, hsealed, hcounters, hacc⟩ := hst
  obtain ⟨slot, hsteps, hslot⟩ := f.steps_plan
  have hanswer : f.answer x (t.counters.index slot) = some x := hf x _
  -- behind the transform the state is that of the other plan, but for events and further counters
  set s' : RunState α γ := ⟨s.counters, s.acc, (t.afterCall f slot x).journal⟩
  have hcalled : t.afterCall f slot x = s'.behind (first.tick slot) := by
    have hticked : t.counters.tick slot = (first.tick slot).join s.counters := by
      rw [hcounters, Counters.tick_join hsized hslot]
    simp only [s', RunState.afterCall, RunState.behind, hticked, hacc]
  have hfeed : RunM.feed sink plan.steps x t =
      RunM.resultBehind (first.tick slot) (RunM.feed sink other.steps x s') := by
    rw [h.steps_eq, hsteps, List.singleton_append, RunM.feed_map, hanswer]
    show RunM.feed sink (other.steps.map (Step.behind 0 f.plan.slots)) x (t.afterCall f slot x) = _
    rw [hcalled]
    exact RunM.feed_behind (hsized.tick slot) other.steps x s'
  have hunsealed : (first.tick slot).isSealed = false := by
    cases slot <;> exact hsealed
  have hbehind : ∀ {u u' : RunState α γ}, u.SameAs u' →
      u.CountsBehind 0 f.plan.slots (u'.behind (first.tick slot)) := by
    intro u u' hu
    refine ⟨first.tick slot, hsized.tick slot, hunsealed, ?_, hu.2.symm⟩
    rw [hu.1]
    rfl
  have hsame : s.SameAs s' := ⟨rfl, rfl⟩
  have hlock := sink.lockstep_same.feed other.steps x hsame
  rw [Plan.feed, Plan.feed, hfeed]
  generalize RunM.feed sink other.steps x s = result at hlock ⊢
  generalize RunM.feed sink other.steps x s' = result' at hlock ⊢
  cases hlock with
  | ahead hnone => exact hnone.elim
  | error culprit hu => exact .failed culprit (hbehind hu)
  | @ok flow u u' hu =>
    cases flow with
    | stop => exact .stopped (hbehind hu)
    | onward =>
      have hseals : (u'.behind (first.tick slot)).counters.isSealed = u.counters.isSealed := by
        show ((first.tick slot).isSealed || u'.counters.isSealed) = u.counters.isSealed
        rw [hunsealed, Bool.false_or, hu.1]
      simp only [RunM.resultBehind, hseals]
      split
      · exact .stopped (hbehind hu)
      · exact .onward (hbehind hu)

/-- Draining a list through the transform comes to the same as draining it behind the transform. -/
theorem IsAppended.drainList_transformed (h : plan.IsAppended f.plan other) (hf : f.GivesBack)
    (sink : Sink α γ) (seed : γ) (xs : List α) :
    Drain.Agrees (RunState.CountsBehind 0 f.plan.slots) (other.drainList sink seed xs)
      (plan.drainList sink seed xs) := by
  have hstart : RunState.CountsBehind 0 f.plan.slots ⟨other.start, seed, .empty⟩
      ⟨plan.start, seed, (.empty : Journal α)⟩ :=
    ⟨f.plan.start, f.plan.sized_start, rfl, h.start_eq, rfl⟩
  have hdrain := drain_endsWith (fun _ h => h) (fun _ h => h)
    (fun x hst => h.feed_transformed hf sink x hst) (fun _ _ hnone => hnone.elim)
    (.owned xs) 0 hstart
  rw [drainList, drainList]
  generalize drainIntake other sink (.owned xs) 0 _ = drain at hdrain ⊢
  generalize drainIntake plan sink (.owned xs) 0 _ = drain' at hdrain ⊢
  cases hdrain with
  | alike rest scanned ending hst => exact ⟨hst, rfl, rfl⟩
  | ahead rest scanned hnone => exact hnone.elim

end Plan

end StreamFusion
