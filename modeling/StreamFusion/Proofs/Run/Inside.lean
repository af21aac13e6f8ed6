import StreamFusion.Proofs.Plan.Layout
import StreamFusion.Proofs.Run.Feedings

/-!
# Counters that are there

A gate or a slot of any number can be asked for, there or not. The plans that compilation makes use
every number that they have once and no other (`Plan.LaidOut`), and counters keep their gates and
slots, so everything that an element asks for on its way is there at that moment
(`Step.finds_trail`), in every run and in every iterator (`Plan.StaysInside`).
-/

namespace StreamFusion

variable {α γ : Type} {plan : Plan α}

/-- Every slot and every gate that is asked for is there at that moment. -/
def Counters.Finds (c : Counters) : List (Mark α) → Prop
  | [] => True
  | mark :: marks =>
    (∀ slot event, mark = .called (some slot) event → slot < c.slots.length)
      ∧ (∀ number answer, mark = .asked number answer → number < c.gates.length)
      ∧ (c.afterMark mark).Finds marks

namespace Counters

theorem Finds.append {c : Counters} {first second : List (Mark α)} (h : c.Finds first)
    (h' : (c.afterAll first).Finds second) : c.Finds (first ++ second) := by
  induction first generalizing c with
  | nil => exact h'
  | cons mark first ih => exact ⟨h.1, h.2.1, ih h.2.2 h'⟩

end Counters

/-! ## One element -/

section Trail

variable {sink : Sink α γ} {gates slots : Nat} {c : Counters}

theorem Trail.finds_each {body : Counters → γ → α → Trail α γ}
    (hbody : ∀ (c : Counters) acc x, c.Sized gates slots → c.Finds (body c acc x).marks)
    (xs : List α) (acc : γ) (hsized : c.Sized gates slots) :
    c.Finds (each body xs c acc).marks := by
  induction xs generalizing c acc with
  | nil => trivial
  | cons x xs ih =>
    rw [each_cons]
    have hfirst := hbody c acc x hsized
    rcases (body c acc x).fate with culprit | _ | _
    · exact hfirst
    · exact hfirst.append (ih _ (hsized.afterAll _))
    · exact hfirst

/-- The call of a step counts in a slot that is there. -/
theorem Counters.finds_behind_call {step : Step α} (hfits : step.Fits gates slots)
    (hsized : c.Sized gates slots) (event : Event α) {marks : List (Mark α)}
    (h : (c.tick step.slot?).Finds marks) : c.Finds (.called step.slot? event :: marks) := by
  refine ⟨fun slot other hcalled => ?_, fun _ _ hasked => absurd hasked (by simp), h⟩
  injection hcalled with hslot
  rw [hsized.slots_eq]
  exact hfits.slot_lt slot hslot

/-- All that an element asks for on its way is there. -/
theorem Step.finds_trail {steps : List (Step α)} (hfits : ∀ step ∈ steps, step.Fits gates slots)
    (hsized : c.Sized gates slots) (acc : γ) (x : α) :
    c.Finds (trail sink steps c acc x).marks := by
  induction steps generalizing c acc x with
  | nil =>
    rw [trail]
    have hhanded : ∀ events, c.Finds [.handed x events] := fun _ =>
      ⟨fun _ _ h => absurd h (by simp), fun _ _ h => absurd h (by simp), trivial⟩
    cases (sink acc x c.emitted).result with
    | none => exact hhanded _
    | some answer => exact hhanded _
  | cons step steps ih =>
    obtain ⟨hstep, hsteps⟩ := List.forall_mem_cons.1 hfits
    have hrest := fun {c : Counters} (h : c.Sized gates slots) => ih hsteps h
    cases step with
    | map f slot =>
      rw [trail]
      refine Counters.finds_behind_call hstep hsized _ ?_
      cases f.answer x (c.index slot) with
      | none => trivial
      | some y => exact hrest (hsized.tick slot) acc y
    | test p slot =>
      rw [trail]
      refine Counters.finds_behind_call hstep hsized _ ?_
      rcases p.answer x (c.index slot) with _ | _ | _
      · trivial
      · trivial
      · exact hrest (hsized.tick slot) acc x
    | expand f slot =>
      rw [trail]
      refine Counters.finds_behind_call hstep hsized _ ?_
      cases f.answer x (c.index slot) with
      | none => trivial
      | some ys => exact Trail.finds_each (fun _ acc y h => hrest h acc y) ys acc (hsized.tick slot)
    | gate number =>
      rw [trail]
      refine ⟨fun _ _ hcalled => absurd hcalled (by simp), fun other answer hasked => ?_, ?_⟩
      · injection hasked with hnumber
        rw [← hnumber, hsized.gates_eq]
        exact hstep.gate_lt number rfl
      · cases (c.window number).ask.1 with
        | through => exact hrest (hsized.afterGate number) acc x
        | dropped => trivial
        | shut => trivial

end Trail

/-! ## Runs and iterators -/

namespace Plan

/-- Whatever element is fed from these counters, all that it asks for on its way is there. -/
def Inside (plan : Plan α) (c : Counters) : Prop :=
  ∀ (γ : Type) (sink : Sink α γ) (acc : γ) (x : α),
    c.Finds (Step.trail sink plan.steps c acc x).marks

/-- No run and no iterator over the plan asks for a gate or a slot that is not there: a run feeds
elements one after the other, an iterator one from time to time, and each is fed from counters that
have all that it asks for. -/
structure StaysInside (plan : Plan α) : Prop where
  leading : ∀ number, plan.leadingGate = some number → number < plan.gates.length
  run : ∀ (γ : Type) (sink : Sink α γ) (seed : γ) (opened : Opened α), ∃ fed : List α,
    fed.map some <+: (opened.intakeFrom (opened.jump plan)).remaining.items
      ∧ (plan.drained sink seed opened).scanned = fed.length
      ∧ (plan.drained sink seed opened).state.SameAs
        (plan.feedAll sink fed ⟨opened.start plan, seed, .empty⟩)
      ∧ ∀ count, plan.Inside
        (plan.feedAll sink (fed.take count) ⟨opened.start plan, seed, .empty⟩).counters
  iterator : ∀ (opened : Opened α) (count : Nat), ∃ c ready finished below,
    (plan.intake opened).moves count = .staged plan c ready finished below ∧ plan.Inside c

theorem Numbered.inside (h : plan.Numbered) {c : Counters} (hc : plan.Reached c) :
    plan.Inside c := fun _ _ acc x => Step.finds_trail h.fits hc.sized acc x

theorem Numbered.staysInside (h : plan.Numbered) : plan.StaysInside where
  leading := by
    intro number hleading
    obtain ⟨steps, hsteps⟩ := exists_steps_of_leadingGate hleading
    exact (h.fits (.gate number) (by rw [hsteps]; exact List.mem_cons_self)).gate_lt number rfl
  run := by
    intro γ sink seed opened
    obtain ⟨fed, hprefix, hscanned, hsame⟩ := plan.drained_feeds sink seed opened
    exact ⟨fed, hprefix, hscanned, hsame, fun count =>
      h.inside ((plan.reached_start opened).feedAll (fed.take count))⟩
  iterator := by
    intro opened count
    obtain ⟨c, ready, finished, below, hmoves, hc⟩ :=
      reached_moves (plan.reached_iterStart opened) [] plan.never (opened.iterSource plan) count
    exact ⟨c, ready, finished, below, by rw [Opened.intake_eq, hmoves], h.inside hc⟩

end Plan

/-- A plan that may let something pass has the steps of its operations in their order, gates and
slots that are each used once, and no run or iterator over it asks for others. -/
theorem wellFormed_of_compile {ops : List (Op α)} {config : Config}
    (h : (compile ops config).verdict = .ok plan) (hnever : plan.never = false) :
    plan.LaidOut config.rangeMode ops ∧ plan.StaysInside :=
  ⟨laidOut_of_compile h hnever, Plan.Numbered.staysInside (numbered_of_compile h)⟩

/-- Ranges in three places, one of which keeps everything, and two callbacks with an index. -/
theorem wellFormed_segments :
    let counted : Callback Nat Nat := ⟨none, true, fun x index => some (x + index)⟩
    let even : Callback Nat Bool := .plain fun x => x % 2 == 0
    let twice : Callback Nat (List Nat) := ⟨none, true, fun x _ => some [x, x]⟩
    let ops : List (Op Nat) := [.range 1 (some 9), .transform counted, .range 0 none,
      .filter even none, .range 0 (some 3), .flatten twice, .range 2 none]
    ∃ plan, (compile ops .segmented).verdict = .ok plan ∧ plan.never = false
      ∧ plan.LaidOut .segmented ops ∧ plan.StaysInside := by
  intro counted even twice ops
  have hplan : (compile ops .segmented).verdict = .ok (Draft.ofOps .segmented ops).toPlan := rfl
  exact ⟨_, hplan, rfl, wellFormed_of_compile hplan rfl⟩

end StreamFusion
