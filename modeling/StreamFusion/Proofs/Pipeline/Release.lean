import StreamFusion.Proofs.Intake.Release
import StreamFusion.Proofs.Pipeline.Memory

/-!
# Pipelines that let their cursor go in time

The limits of a pipeline may stand right above the cursor that it reads, or below a link that
flattens (`Pipeline.LimitsBelow`). An iterator over such a pipeline is prompt
(`Pipeline.iterate_prompt`): it keeps no cursor open once it has nothing more to give.
-/

namespace StreamFusion

variable {α β : Type}

/-- A pipeline with these operations over the source has no limit above a link, unless a link that
flattens stands above the limit. -/
def Source.LimitsBelow : Source α → List (Op α) → Prop
  | .derived _ (.map _) base recipe, ops =>
    (∀ op ∈ ops, op.info.stop = none) ∧ base.LimitsBelow recipe.ops
  | .derived _ (.flatten _) _ _, ops => ∀ op ∈ ops, op.info.stop = none
  | _, _ => True

/-- The pipeline has no limit above a link, unless a link that flattens stands above the limit. -/
def Pipeline.LimitsBelow (p : Pipeline α) : Prop := p.source.LimitsBelow p.recipe.ops

/-- What was opened lets its cursor go in time if a plan for these operations runs over it. -/
def Opened.PromptFor : Opened α → List (Op α) → Prop
  | .sequential intake, ops => intake.Prompt ∧ (intake.Listens ∨ ∀ op ∈ ops, op.info.stop = none)
  | _, _ => True

variable {ledger : Ledger α}

/-- The plan of a recipe over what was opened for it. -/
theorem Plan.prompt_intake {recipe : Recipe α} {plan : Plan α} {opened : Opened α}
    (hplan : recipe.verdict = .ok plan) (hnever : plan.never = false)
    (hopened : opened.PromptFor recipe.ops) : (plan.intake opened).Prompt := by
  cases opened with
  | indexed source box => exact ⟨trivial, fun _ => rfl, .inl rfl⟩
  | owned items => exact ⟨trivial, fun _ => rfl, .inl rfl⟩
  | sequential intake =>
    obtain ⟨hprompt, hkind⟩ := hopened
    refine ⟨hprompt, fun h => absurd (hnever.symm.trans h) (by simp),
      hkind.imp_right fun hops => ?_⟩
    exact plan.unlimited_start fun w hmem => take_eq_none_of_compile hplan hops hmem

/-- A recipe over a source that is opened as its operations need it. -/
theorem Recipe.openIntake_prompt {recipe : Recipe α} {opening : Act α (Opened α)}
    (hrecipe : recipe.EnteredIn ledger)
    (hopening : Act.Leads (World.Knows ledger) opening
      (fun opened w => opened.PromptFor recipe.ops ∧ w.Knows ledger) (World.Knows ledger)) :
    Act.Leads (World.Knows ledger) (recipe.openIntake opening)
      (fun intake w => intake.Prompt ∧ w.Knows ledger) (World.Knows ledger) := by
  have hstart : Act.Leads (World.Knows ledger) (recipe.start opening)
      (fun found w => (∀ plan opened, found = some (plan, opened) → (plan.intake opened).Prompt)
        ∧ w.Knows ledger) (World.Knows ledger) := by
    refine (Recipe.plan_answers hrecipe).leads.bind fun plan => ?_
    rintro w ⟨hanswer, hw⟩
    have hplan : recipe.verdict = .ok plan := recipe.verdict_of_answer hanswer
    cases hnever : plan.never with
    | true =>
      have hnone : Act.Answers (World.Knows ledger)
          (do Act.record [.noted .notOpened]; pure none : Act α (Option (Plan α × Opened α)))
          (.ok none) := (Act.record_answers _).bind (.pure none)
      obtain ⟨w', hw', hnoted⟩ := hnone w hw
      rw [if_pos rfl, hnoted]
      exact ⟨nofun, hw'⟩
    | false =>
      rw [if_neg (by simp)]
      refine (hopening.bind fun opened => .pure ?_) w hw
      rintro w' ⟨hopened, hw'⟩
      refine ⟨fun _ _ hfound => ?_, hw'⟩
      cases hfound
      exact Plan.prompt_intake hplan hnever hopened
  refine hstart.bind fun found => ?_
  rintro w ⟨hprompt, hw⟩
  cases found with
  | none => exact ⟨⟨trivial, fun _ => rfl, .inl rfl⟩, hw⟩
  | some started => exact ⟨hprompt started.1 started.2 rfl, hw⟩

/-- Opening a source with its limits below. -/
theorem Source.opening_prompt {source : Source α} {ops : List (Op α)}
    (hentered : source.EnteredIn ledger) (hlimits : source.LimitsBelow ops) :
    Act.Leads (World.Knows ledger) source.opening
      (fun opened w => opened.PromptFor ops ∧ w.Knows ledger) (World.Knows ledger) := by
  induction source generalizing ops with
  | container id box =>
    refine (Source.readingClass_answers hentered).maintains.bind fun found => ?_
    cases found with
    | indexed => exact .pure fun _ hw => ⟨trivial, hw⟩
    | sequential => exact .pure fun _ hw => ⟨⟨trivial, .inl rfl⟩, hw⟩
  | replay id answers =>
    exact Act.fresh_knows.bind fun _ => (Act.record_answers _).maintains.bind fun _ =>
      .pure fun _ hw => ⟨⟨trivial, .inl rfl⟩, hw⟩
  | once id answers =>
    refine (Act.Leads.sourceMemo _).bind fun memo => ?_
    split
    · exact .refuse fun _ hw => hw
    · exact (Act.spend_knows id).bind fun _ => (Act.record_answers _).maintains.bind fun _ =>
        .pure fun _ hw => ⟨⟨trivial, .inl rfl⟩, hw⟩
  | derived id link base recipe ih =>
    obtain ⟨-, hrecipe, hbase⟩ := hentered
    cases link with
    | map f =>
      obtain ⟨hops, hbelow⟩ := hlimits
      exact (Recipe.openIntake_prompt hrecipe (ih hbase hbelow)).bind fun intake =>
        .pure fun _ h => ⟨⟨h.1, .inr hops⟩, h.2⟩
    | flatten items =>
      -- what is below may be of any kind
      have hopened : Act.Maintains (World.Knows ledger) (recipe.openIntake base.opening) :=
        (World.upkeep_knows ledger).openIntake hrecipe
          ((World.upkeep_knows ledger).opening hbase) []
      exact hopened.bind fun intake => .pure fun _ hw => ⟨⟨trivial, .inr hlimits⟩, hw⟩
    | slice start stop =>
      have hcollected : Act.Maintains (World.Knows ledger) (recipe.collect base.opening) :=
        (World.upkeep_knows ledger).collect hrecipe ((World.upkeep_knows ledger).opening hbase) []
      exact hcollected.bind fun found => .pure fun _ hw => ⟨trivial, hw⟩

/-- An iterator over a pipeline with its limits below is prompt. -/
theorem Pipeline.iterate_prompt {p : Pipeline α} (hentered : p.EnteredIn ledger)
    (hlimits : p.LimitsBelow) :
    Act.Leads (World.Knows ledger) p.iterate (fun intake w => intake.Prompt ∧ w.Knows ledger)
      (World.Knows ledger) :=
  ((World.upkeep_knows ledger).claim p []).bind fun _ =>
    Recipe.openIntake_prompt hentered.recipe (Source.opening_prompt hentered.source hlimits)

end StreamFusion
