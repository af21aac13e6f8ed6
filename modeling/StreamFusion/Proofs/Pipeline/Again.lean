import StreamFusion.Proofs.Pipeline.Iteration
import StreamFusion.Proofs.Pipeline.Repeating
import StreamFusion.Proofs.Pipeline.Together

/-!
# Running again

A repeatable pipeline over a source that can be read again begins in the same way whenever it is run
(`Pipeline.begin_agrees`). So all its terminals give the same answers, and its iterators are alike
(`Pipeline.iterate_agrees`); what `toList` gives is what they have to give (`Pipeline.iterate_has`).
-/

namespace StreamFusion

variable {α β γ : Type}

namespace Act

/-- What is related by `R` is also related by `S`. -/
theorem EndAlike.together {P P' : World α → Prop} {R S : β → γ → Prop}
    {result : EStateM.Result (Halt α) (World α) β} {other : EStateM.Result (Halt α) (World α) γ}
    (h : EndAlike P P' R result other) (hrelated : ∀ y z, R y z → S y z) :
    EndTogether (fun _ _ => True) S result other := by
  cases h with
  | ok hsame _ _ => exact .ok (hrelated _ _ hsame) trivial
  | error halt _ _ => exact .error halt trivial

end Act

/-- The plans are the same, and the opened sources differ at most in their cursors. -/
def SameStart (started other : Option (Plan α × Opened α)) : Prop :=
  Option.Rel (fun found found' => found.1 = found'.1 ∧ found.2.Alike found'.2) started other

namespace SameStart

variable {started other : Option (Plan α × Opened α)}

theorem startedAlike (h : SameStart started other) :
    StartedAlike (fun _ _ => True) started other := by
  intro γ sink _ seed
  refine ⟨?_, trivial⟩
  cases h with
  | none => exact ⟨rfl, rfl⟩
  | @some found found' h =>
    obtain ⟨plan, opened⟩ := found
    obtain ⟨hplan, hopened⟩ := h
    obtain rfl : plan = found'.1 := hplan
    obtain ⟨hacc, hresult⟩ := found'.1.run_alike sink seed hopened
    exact ⟨hacc, congrArg _ hresult⟩

/-- Recipes for elements of the same width have room for both or for neither. -/
theorem sameRoom {recipe other' : Recipe α} (hwidth : recipe.width = other'.width)
    (h : SameStart started other) : SameRoom (fun _ _ => True) recipe other' started other := by
  have hsame : recipe.RoomFor started ↔ other'.RoomFor other := by
    cases h with
    | none => exact Iff.rfl
    | @some found found' h =>
      obtain ⟨hplan, hopened⟩ := h
      rw [Recipe.RoomFor, Recipe.RoomFor, Recipe.HasRoom, Recipe.HasRoom, hplan,
        hopened.lengthHint_eq, hwidth]
  by_cases hroom : recipe.RoomFor started
  · exact .inl ⟨hroom, hsame.1 hroom⟩
  · exact .inr ⟨hroom, mt hsame.2 hroom, trivial⟩

theorem startedIntake_alike (h : SameStart started other) :
    (startedIntake started).Alike (startedIntake other) := by
  cases h with
  | none => exact .same _
  | @some found found' h =>
    obtain ⟨plan, opened⟩ := found
    obtain ⟨hplan, hopened⟩ := h
    obtain rfl : plan = found'.1 := hplan
    exact found'.1.intake_alike hopened

end SameStart

namespace Pipeline

variable {ledger later : Ledger α} {p : Pipeline α}

/-- A repeatable pipeline over a source that can be read again begins in the same way. -/
theorem begin_agrees (h : p.EnteredIn ledger) (h' : p.EnteredIn later)
    (hcontract : p.recipe.config.contract = .repeatable) (hsource : p.source.oneShot? = none) :
    Act.Agrees (World.Knows ledger) (World.Knows later) SameStart p.begin p.begin := by
  rw [begin, claim_of_repeatable hcontract, pure_bind]
  exact p.recipe.start_agrees h.recipe h'.recipe rfl
    (Source.opening_agrees h.source h'.source hsource)

/-- The iterators of such a pipeline differ at most in their cursors. -/
theorem iterate_agrees (h : p.EnteredIn ledger) (h' : p.EnteredIn later)
    (hcontract : p.recipe.config.contract = .repeatable) (hsource : p.source.oneShot? = none) :
    Act.Agrees (World.Knows ledger) (World.Knows later) Intake.Alike p.iterate p.iterate := by
  rw [iterate_eq]
  exact (begin_agrees h h' hcontract hsource).bind fun _ _ hstart =>
    .pure hstart.startedIntake_alike

end Pipeline

/-- What a run collects, the intake of its plan has to give. -/
theorem Plan.intake_has {plan : Plan α} (hnever : plan.never = false) {opened : Opened α}
    {w v : World α} {found : List α × Stats}
    (h : plan.conduct opened .collect [] w = .ok found v) :
    (plan.intake opened).Has found.1.reverse := by
  obtain ⟨-, ⟨culprit, -, herror⟩ | ⟨hculprit, hdone, hitems, stats, hok⟩⟩ :=
    Plan.run_collect hnever opened
  · simp only [conduct, herror] at h
    injection h
  · simp only [conduct, hok] at h
    have hfound : (plan.run .collect [] opened).acc = found.1 := by
      injection h with hresult _
      exact congrArg Prod.fst hresult
    exact ⟨hculprit, hfound ▸ hitems, hdone⟩

/-- An iterator in the place of `toList` has the elements of the list to give. -/
theorem Pipeline.iterate_has {p : Pipeline α} {w v : World α} {ys : List α}
    (h : p.toList w = .ok ys v) : ∃ intake w', p.iterate w = .ok intake w' ∧ intake.Has ys := by
  have hroom : p.RoomFor w := by
    by_contra hnone
    obtain ⟨⟨w', hlist⟩, -⟩ := toList_of_not_roomFor hnone
    rw [hlist] at h
    cases h
  rw [toList_of_roomFor hroom, gather_eq_conduct] at h
  rw [iterate_eq]
  cases hbegin : p.begin w with
  | error halt w₁ =>
    rw [Act.bind_error hbegin] at h
    cases h
  | ok started w₁ =>
    rw [Act.bind_ok hbegin] at h ⊢
    cases started with
    | none =>
      cases h
      exact ⟨_, _, rfl, (Intake.done_finished ..).has⟩
    | some started =>
      -- up to here both acts are the same; now one runs what the other one keeps
      obtain ⟨plan, opened⟩ := started
      refine ⟨_, _, rfl, ?_⟩
      rw [conductStarted, bind_map_left] at h
      cases hconduct : plan.conduct opened .collect [] w₁ with
      | error halt w₂ =>
        rw [Act.bind_error hconduct] at h
        cases h
      | ok found w₂ =>
        rw [Act.bind_ok hconduct] at h
        cases h
        exact Plan.intake_has (never_of_begin hbegin) hconduct

end StreamFusion
