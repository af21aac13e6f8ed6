import StreamFusion.Proofs.Pipeline.Repeating
import StreamFusion.Proofs.Run.Holes
import StreamFusion.Proofs.Run.Identity

/-!
# Pipelines over containers with holes

Under a segmented configuration a transform that gives every element back may be put in front of the
operations of a pipeline: the pipeline gives the same list, unless there is a hole among the
positions that it jumps over (`Pipeline.toList_transformed`). The transform keeps the range behind
it from being a leading one, so nothing is jumped over any more.
-/

namespace StreamFusion

variable {α γ : Type}

/-! ## Plans -/

/-- What planning gives for operations behind a transform goes with what it gives for them alone:
both let nothing pass, both are refused, or there are two plans, one behind the transform. -/
theorem verdict_transformed {config : Config} (hmode : config.rangeMode = .segmented)
    (f : Callback α α) (ops : List (Op α)) :
    let verdict := (compile ops config).verdict
    let transformed := (compile (.transform f :: ops) config).verdict
    (verdict = .ok .nothing ∧ transformed = .ok .nothing)
      ∨ (∃ refusal, verdict = .error refusal ∧ transformed = .error refusal)
      ∨ ∃ plan other : Plan α, verdict = .ok plan ∧ transformed = .ok other
        ∧ plan.never = false ∧ other.never = false ∧ other.IsAppended f.plan plan
        ∧ ∀ known, other.capacityHint known = plan.capacityHint known := by
  intro verdict transformed
  set d := Draft.ofOps .segmented ops
  set d' := Draft.ofOps .segmented (.transform f :: ops)
  have happended : d'.IsAppended (Draft.ofOps .segmented [.transform f]) d :=
    Draft.isAppended_ofOps [.transform f] ops
  have hgates : d'.gates = d.gates := happended.gates_eq
  have hnothing : d'.LetsNothing ↔ d.LetsNothing := Draft.letsNothing_transform f ops
  have hverdict := verdict_of_segmented hmode ops
  have hverdict' := verdict_of_segmented hmode (.transform f :: ops)
  by_cases hnone : d.LetsNothing
  · rw [if_pos hnone] at hverdict
    rw [if_pos (hnothing.2 hnone)] at hverdict'
    exact .inl ⟨hverdict, hverdict'⟩
  · rw [if_neg hnone] at hverdict
    rw [if_neg (mt hnothing.1 hnone), hgates] at hverdict'
    by_cases hfits : d.gates.length ≤ config.segmentCap ∨ config.overflow = .fallback
    · rw [if_pos hfits] at hverdict hverdict'
      exact .inr (.inr ⟨_, _, hverdict, hverdict', rfl, rfl,
        Draft.isAppended_toPlan [.transform f] ops, Draft.capacityHint_transform f ops⟩)
    · rw [if_neg hfits] at hverdict hverdict'
      exact .inr (.inl ⟨_, hverdict, hverdict'⟩)

/-! ## Runs -/

namespace Container

/-- How a container is opened: it is walked if its first position is a hole. -/
def opened (source : Ident) (box : Container α) : Opened α :=
  if box.size = 0 ∨ (box.get? 0).isSome then .indexed source box else .walk source box

/-- The plan comes to no hole by walking from the first position that it does not come to by
jumping, as there is none among the positions that it jumps over or the first position is one. -/
def Suits (box : Container α) (plan : Plan α) : Prop :=
  box.get? 0 = none ∨ box.SolidBelow (plan.jumped box.size)

theorem Suits.feeds {box : Container α} {plan : Plan α} (h : box.Suits plan) (source : Ident) :
    (box.opened source).Feeds plan (box.itemsFrom 0) := by
  unfold opened
  by_cases hindexed : box.size = 0 ∨ (box.get? 0).isSome
  · rw [if_pos hindexed]
    refine Opened.feeds_solid source (.refl box _) ?_
    rcases h with hhole | hsolid
    · have hempty : box.size = 0 := hindexed.resolve_right (by simp [hhole])
      have hjumped : plan.jumped box.size = 0 := Nat.le_zero.1 (hempty ▸ plan.jumped_le box.size)
      rw [hjumped]
      exact fun _ hlt => absurd hlt (Nat.not_lt_zero _)
    · exact hsolid
  · rw [if_neg hindexed]
    exact Opened.feeds_walk plan source box

/-- A plan that begins with a transform jumps over nothing. -/
theorem suits_transformed (box : Container α) {plan other : Plan α} {f : Callback α α}
    (h : other.IsAppended f.plan plan) : box.Suits other := by
  obtain ⟨slot, hsteps, -⟩ := f.steps_plan
  have hgate : other.leadingGate = none := by
    rw [Plan.leadingGate, h.steps_eq, hsteps]
    rfl
  have hjumped : other.jumped box.size = 0 := by rw [Plan.jumped, hgate]
  refine .inr ?_
  rw [hjumped]
  exact fun _ hlt => absurd hlt (Nat.not_lt_zero _)

end Container

/-- Runs behind the transform and without it come to the same. -/
theorem Plan.IsAppended.run_sameTo {plan other : Plan α} {f : Callback α α}
    (h : other.IsAppended f.plan plan) (hf : f.GivesBack) {box : Container α}
    (hbox : box.Suits plan) (source : Ident) (sink : Sink α γ) (seed : γ) :
    (plan.run sink seed (box.opened source)).SameTo (other.run sink seed (box.opened source)) := by
  refine ((hbox.feeds source).tells sink seed).sameTo
    (((box.suits_transformed h).feeds source).tells sink seed)
    (h.drainList_transformed hf sink seed (box.itemsFrom 0)) ?_
  rintro s t ⟨first, -, -, hcounters, hacc⟩
  exact ⟨hacc.symm, by rw [hcounters]; rfl⟩

/-! ## Pipelines -/

/-- The list of a pipeline is what its run collects, if there is room. -/
theorem Pipeline.toList_of_run {p : Pipeline α} {w w₁ w₂ : World α} {plan : Plan α}
    {opened : Opened α} {stats : Stats} (hclaim : p.claim w = .ok () w₁)
    (hstart : p.recipe.start p.source.opening w₁ = .ok (some (plan, opened)) w₂)
    (hroom : p.recipe.HasRoom (plan.capacityHint opened.lengthHint))
    (hresult : (plan.run .collect [] opened).result = .ok stats) :
    ∃ w', p.toList w = .ok (plan.run .collect [] opened).acc.reverse w' := by
  obtain ⟨w', hconduct⟩ : ∃ w', plan.conduct opened .collect [] w₂ =
      .ok ((plan.run .collect [] opened).acc, stats) w' := by
    simp only [Plan.conduct, hresult]
    exact ⟨_, rfl⟩
  refine ⟨w', ?_⟩
  rw [toList, Act.bind_ok hclaim, Recipe.collect, Act.bind_ok hstart]
  simp only
  rw [Act.bind_ok (Recipe.reserve_ok hroom w₂), Act.bind_ok hconduct]
  rfl

/-- The pipeline does what another one does, to the answers of a callback. -/
structure Pipeline.IsTransformed (q p : Pipeline α) (f : Callback α α) : Prop where
  source_eq : q.source = p.source
  width_eq : q.recipe.width = p.recipe.width
  ops_eq : q.recipe.ops = .transform f :: p.recipe.ops
  config_eq : q.recipe.config = p.recipe.config

section Acts

variable {ledger : Ledger α} {source : Ident} {box : Container α}

theorem Source.container_answers (h : (Source.container source box).EnteredIn ledger) :
    Act.Answers (World.Knows ledger) (Source.container source box).opening
      (.ok (box.opened source)) := by
  refine (Source.readingClass_answers h).bind ?_
  rw [readsAs, Container.opened]
  by_cases hindexed : box.size = 0 ∨ (box.get? 0).isSome
  · rw [if_pos hindexed, if_pos hindexed]
    exact .pure _
  · rw [if_neg hindexed, if_neg hindexed]
    exact .pure _

/-- Runs that came to the same. -/
theorem Finish.SameTo.conduct_agrees {plan other : Plan α} {opened opened' : Opened α}
    {sink : Sink α γ} {seed : γ}
    (h : (plan.run sink seed opened).SameTo (other.run sink seed opened')) :
    Act.Agrees (World.Knows ledger) (World.Knows ledger) (fun found found' => found.1 = found'.1)
      (plan.conduct opened sink seed) (other.conduct opened' sink seed) := by
  obtain ⟨hacc, hresult⟩ := h
  refine (Act.record_agrees _ _).bind fun _ _ _ => ?_
  cases hended : (plan.run sink seed opened).result with
  | error culprit =>
    cases hended' : (other.run sink seed opened').result with
    | error culprit' =>
      rw [hended, hended'] at hresult
      cases hresult
      exact .fail _
    | ok stats' =>
      rw [hended, hended'] at hresult
      cases hresult
  | ok stats =>
    cases hended' : (other.run sink seed opened').result with
    | error culprit' =>
      rw [hended, hended'] at hresult
      cases hresult
    | ok stats' => exact (Act.record_agrees _ _).bind fun _ _ _ => .pure hacc

variable {p q : Pipeline α} {f : Callback α α}

section Transformed

variable (hp : p.EnteredIn ledger) (hq : q.EnteredIn ledger) (h : q.IsTransformed p f)
  (hmode : p.recipe.config.rangeMode = .segmented) (hsource : p.source = .container source box)
  (hbox : ∀ plan, p.recipe.verdict = .ok plan → box.Suits plan)
include hp hq h hmode hsource hbox

/-- With and without the transform, planning and opening come to the same but for the plan. -/
theorem Recipe.start_transformed :
    Act.Agrees (World.Knows ledger) (World.Knows ledger)
      (Option.Rel fun started started' => started.2 = box.opened source
        ∧ started'.2 = box.opened source ∧ started'.1.IsAppended f.plan started.1
        ∧ (∀ known, started'.1.capacityHint known = started.1.capacityHint known)
        ∧ box.Suits started.1)
      (p.recipe.start p.source.opening) (q.recipe.start q.source.opening) := by
  have hopening : Act.Answers (World.Knows ledger) p.source.opening (.ok (box.opened source)) := by
    have hentered := hp.source
    rw [hsource] at hentered ⊢
    exact Source.container_answers hentered
  have hplan := Recipe.plan_answers hp.recipe
  have hplan' := Recipe.plan_answers hq.recipe
  have hverdict : q.recipe.verdict =
      (compile (.transform f :: p.recipe.ops) p.recipe.config).verdict := by
    rw [Recipe.verdict, h.ops_eq, h.config_eq]
  rw [h.source_eq]
  unfold Recipe.start
  rcases verdict_transformed hmode f p.recipe.ops with
    ⟨hfirst, hsecond⟩ | ⟨refusal, hfirst, hsecond⟩
      | ⟨plan, other, hfirst, hsecond, hnever, hnever', happended, hhint⟩
  · change p.recipe.verdict = .ok .nothing at hfirst
    rw [hfirst] at hplan
    rw [hverdict, hsecond] at hplan'
    have hnothing : Act.Agrees (World.Knows ledger) (World.Knows ledger)
        (fun plan other => plan = .nothing ∧ other = .nothing) p.recipe.plan q.recipe.plan :=
      .of_answers_ok hplan hplan' ⟨rfl, rfl⟩
    refine hnothing.bind fun plan other hboth => ?_
    rw [hboth.1, hboth.2]
    exact (Act.record_agrees _ _).bind fun _ _ _ => .pure .none
  · change p.recipe.verdict = .error refusal at hfirst
    rw [hfirst] at hplan
    rw [hverdict, hsecond] at hplan'
    have hrefused : Act.Agrees (World.Knows ledger) (World.Knows ledger) (fun _ _ => False)
        p.recipe.plan q.recipe.plan := .of_answers_error hplan hplan'
    exact hrefused.bind fun _ _ hnone => hnone.elim
  · change p.recipe.verdict = .ok plan at hfirst
    rw [hfirst] at hplan
    rw [hverdict, hsecond] at hplan'
    have hplans : Act.Agrees (World.Knows ledger) (World.Knows ledger)
        (fun found found' => found = plan ∧ found' = other) p.recipe.plan q.recipe.plan :=
      .of_answers_ok hplan hplan' ⟨rfl, rfl⟩
    refine hplans.bind fun found found' hboth => ?_
    rw [hboth.1, hboth.2, if_neg (by simp [hnever]), if_neg (by simp [hnever'])]
    have hopened : Act.Agrees (World.Knows ledger) (World.Knows ledger)
        (fun opened opened' => opened = box.opened source ∧ opened' = box.opened source)
        p.source.opening p.source.opening := .of_answers_ok hopening hopening ⟨rfl, rfl⟩
    refine hopened.bind fun opened opened' hboth => ?_
    exact .pure (.some ⟨hboth.1, hboth.2, happended, hhint, hbox plan hfirst⟩)

theorem Recipe.collect_transformed (hf : f.GivesBack) :
    Act.Agrees (World.Knows ledger) (World.Knows ledger) Eq (p.recipe.collect p.source.opening)
      (q.recipe.collect q.source.opening) := by
  refine (Recipe.start_transformed hp hq h hmode hsource hbox).bind fun found found' hfound => ?_
  cases hfound with
  | none => exact .pure rfl
  | @some started started' hstarted =>
    obtain ⟨hopened, hopened', happended, hhint, hsuits⟩ := hstarted
    have hsame : p.recipe.HasRoom (started.1.capacityHint started.2.lengthHint)
        ↔ q.recipe.HasRoom (started'.1.capacityHint started'.2.lengthHint) := by
      rw [HasRoom, HasRoom, h.width_eq, hopened, hopened', hhint]
    have hrun : (started.1.run .collect [] started.2).SameTo
        (started'.1.run .collect [] started'.2) := by
      rw [hopened, hopened']
      exact happended.run_sameTo hf hsuits source .collect []
    exact (reserve_agrees hsame).bind fun _ _ _ => hrun.conduct_agrees.bind fun _ _ hsame =>
      .pure (congrArg List.reverse hsame)

/-- Where one of the two pipelines may run if the other one may, they give the same list or are
refused for the same reason. -/
theorem Pipeline.toList_transformed (hf : f.GivesBack) {w : World α} (hw : w.Knows ledger)
    (hclaims : p.Unclaimed w ↔ q.Unclaimed w) :
    Act.EndAlike (World.Knows ledger) (World.Knows ledger) Eq (p.toList w) (q.toList w) := by
  unfold toList
  rcases p.claim_cases w with ⟨hmay, recipes, hclaim, hsame⟩ | ⟨hmay, hclaim⟩
  · rcases q.claim_cases w with ⟨-, recipes', hclaim', hsame'⟩ | ⟨hmay', -⟩
    · rw [Act.bind_ok hclaim, Act.bind_ok hclaim']
      exact Recipe.collect_transformed hp hq h hmode hsource hbox hf _ _ (hw.claimed hsame)
        (hw.claimed hsame')
    · exact absurd (hclaims.1 hmay) hmay'
  · rcases q.claim_cases w with ⟨hmay', -⟩ | ⟨-, hclaim'⟩
    · exact absurd (hclaims.2 hmay') hmay
    · rw [Act.bind_error hclaim, Act.bind_error hclaim']
      exact .error _ hw hw

end Transformed

end Acts

end StreamFusion
