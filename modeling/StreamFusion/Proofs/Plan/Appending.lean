import StreamFusion.Proofs.Plan.Compiled

/-!
# Plans of more operations

In segmented mode the plan of two lists of operations, one behind the other, is made of their plans:
the steps of the second one come behind those of the first one, with their gates and slots numbered
on (`Draft.isAppended_ofOps`). It lets nothing pass if one of the two does not.
-/

namespace StreamFusion

variable {α : Type}

/-- The step with its gates and slots numbered behind so many others. -/
def Step.behind (gates slots : Nat) : Step α → Step α
  | .map f slot => .map f (slot.map (slots + ·))
  | .test p slot => .test p (slot.map (slots + ·))
  | .expand f slot => .expand f (slot.map (slots + ·))
  | .gate number => .gate (gates + number)

@[simp] theorem Step.isExpand_behind (gates slots : Nat) (step : Step α) :
    (step.behind gates slots).isExpand = step.isExpand := by
  cases step <;> rfl

@[simp] theorem Step.isTest_behind (gates slots : Nat) (step : Step α) :
    (step.behind gates slots).isTest = step.isTest := by
  cases step <;> rfl

/-! ## Drafts -/

namespace Draft

/-- The draft is known to let nothing pass. -/
def LetsNothing (d : Draft α) : Prop := d.never = true ∨ d.maxEmits = some 0

instance (d : Draft α) : Decidable d.LetsNothing :=
  inferInstanceAs (Decidable (d.never = true ∨ d.maxEmits = some 0))

/-- The draft has the steps and counters of two others, one behind the other. -/
structure IsAppended (d first second : Draft α) : Prop where
  steps_eq : d.steps =
    first.steps ++ second.steps.map (Step.behind first.gates.length first.slots)
  gates_eq : d.gates = first.gates ++ second.gates
  slots_eq : d.slots = first.slots + second.slots
  letsNothing_iff : d.LetsNothing ↔ first.LetsNothing ∨ second.LetsNothing

variable {d first second : Draft α}

theorem IsAppended.slot (h : d.IsAppended first second) (indexed : Bool) :
    d.slot indexed = (second.slot indexed).map (first.slots + ·) := by
  cases indexed with
  | false => rfl
  | true => exact congrArg some h.slots_eq

theorem IsAppended.slotsAfter (h : d.IsAppended first second) (indexed : Bool) :
    d.slotsAfter indexed = first.slots + second.slotsAfter indexed := by
  cases indexed with
  | false => exact h.slots_eq
  | true => exact congrArg Nat.succ h.slots_eq

/-- One more step, which may count in a new slot. -/
theorem IsAppended.concat (h : d.IsAppended first second) (step : Step α) :
    d.steps ++ [step.behind first.gates.length first.slots] =
      first.steps ++ (second.steps ++ [step]).map
        (Step.behind first.gates.length first.slots) := by
  rw [h.steps_eq, List.map_append, List.append_assoc]
  rfl

theorem letsNothing_add (d : Draft α) (op : Op α) :
    (d.add .segmented op).LetsNothing ↔
      d.LetsNothing ∨ op.info.isNever = true ∨ op.info.stop.map (· - op.info.start) = some 0 := by
  obtain ⟨hnever, -, hlimit, -⟩ := add_fields .segmented d op
  have hbefore : d.maxEmits.map (· - 0) = some 0 ↔ d.maxEmits = some 0 := by
    cases d.maxEmits <;> simp
  unfold LetsNothing
  rw [hnever, hlimit, limitAfter, tighter_eq_zero, hbefore, Bool.or_eq_true]
  exact or_or_or_comm ..

/-- One more operation behind both. -/
theorem IsAppended.add (h : d.IsAppended first second) (op : Op α) :
    (d.add .segmented op).IsAppended first (second.add .segmented op) := by
  have hnothing : (d.add .segmented op).LetsNothing ↔
      first.LetsNothing ∨ (second.add .segmented op).LetsNothing := by
    rw [letsNothing_add, letsNothing_add, h.letsNothing_iff, or_assoc]
  cases op with
  | transform f =>
    refine ⟨?_, h.gates_eq, h.slotsAfter f.indexed, hnothing⟩
    show d.steps ++ [.map f (d.slot f.indexed)] = _
    rw [h.slot]
    exact h.concat (.map f (second.slot f.indexed))
  | filter test search =>
    refine ⟨?_, h.gates_eq, h.slotsAfter test.indexed, hnothing⟩
    show d.steps ++ [.test test (d.slot test.indexed)] = _
    rw [h.slot]
    exact h.concat (.test test (second.slot test.indexed))
  | never indexed search => exact ⟨h.steps_eq, h.gates_eq, h.slots_eq, hnothing⟩
  | flatten expand =>
    refine ⟨?_, h.gates_eq, h.slotsAfter expand.indexed, hnothing⟩
    show d.steps ++ [.expand expand (d.slot expand.indexed)] = _
    rw [h.slot]
    exact h.concat (.expand expand (second.slot expand.indexed))
  | range start stop =>
    by_cases hall : start = 0 ∧ stop = none
    · simp only [Draft.add, if_pos hall] at hnothing ⊢
      exact ⟨h.steps_eq, h.gates_eq, h.slots_eq, hnothing⟩
    · have hnumber : d.gates.length = first.gates.length + second.gates.length := by
        rw [h.gates_eq, List.length_append]
      simp only [Draft.add, if_neg hall] at hnothing ⊢
      refine ⟨?_, ?_, h.slots_eq, hnothing⟩
      · show d.steps ++ [.gate d.gates.length] = _
        rw [hnumber]
        exact h.concat (.gate second.gates.length)
      · show d.gates ++ [_] = _
        rw [h.gates_eq, List.append_assoc]

/-- The draft of operations, and of more operations behind them. -/
theorem isAppended_ofOps (ops more : List (Op α)) :
    (ofOps .segmented (ops ++ more)).IsAppended (ofOps .segmented ops)
      (ofOps .segmented more) := by
  -- from the back, as a draft reads one more operation at its end
  induction more using List.reverseRecOn with
  | nil =>
    rw [List.append_nil]
    refine ⟨(List.append_nil _).symm, (List.append_nil _).symm, rfl, ?_⟩
    have hnone : ¬ (ofOps .segmented ([] : List (Op α))).LetsNothing := by
      simp [LetsNothing, ofOps, empty]
    rw [or_iff_left hnone]
  | append_singleton more op ih =>
    rw [← List.append_assoc, ofOps_concat, ofOps_concat]
    exact ih.add op

/-- A transform in front lets everything pass. -/
theorem letsNothing_transform (f : Callback α α) (ops : List (Op α)) :
    (ofOps .segmented (.transform f :: ops)).LetsNothing ↔ (ofOps .segmented ops).LetsNothing := by
  have happended : (ofOps .segmented (.transform f :: ops)).IsAppended
      (ofOps .segmented [.transform f]) (ofOps .segmented ops) := isAppended_ofOps [.transform f] ops
  have hpasses : ¬ (ofOps .segmented [.transform f]).LetsNothing := by
    show ¬ (false = true ∨ none = some 0)
    simp
  rw [happended.letsNothing_iff, or_iff_right hpasses]

end Draft

/-! ## Plans -/

/-- The plan has the steps and counters of two others, one behind the other. -/
structure Plan.IsAppended (plan first second : Plan α) : Prop where
  steps_eq : plan.steps =
    first.steps ++ second.steps.map (Step.behind first.gates.length first.slots)
  gates_eq : plan.gates = first.gates ++ second.gates
  slots_eq : plan.slots = first.slots + second.slots

theorem Draft.isAppended_toPlan (ops more : List (Op α)) :
    (ofOps .segmented (ops ++ more)).toPlan.IsAppended (ofOps .segmented ops).toPlan
      (ofOps .segmented more).toPlan :=
  have h := isAppended_ofOps ops more
  ⟨h.steps_eq, h.gates_eq, h.slots_eq⟩

/-- A transform in front asks for no more room and no less. -/
theorem Draft.capacityHint_transform (f : Callback α α) (ops : List (Op α)) (known : Option Nat) :
    (ofOps .segmented (.transform f :: ops)).toPlan.capacityHint known =
      (ofOps .segmented ops).toPlan.capacityHint known := by
  obtain ⟨hsteps, -, -⟩ := isAppended_toPlan [.transform f] ops
  have hmost : (ofOps .segmented (.transform f :: ops)).toPlan.maxEmits =
      (ofOps .segmented ops).toPlan.maxEmits := by
    show (ofOps .segmented (.transform f :: ops)).maxEmits = (ofOps .segmented ops).maxEmits
    rw [maxEmits_ofOps, maxEmits_ofOps, List.map_cons, limitFrom, List.foldl_cons]
    exact congrArg (limitFrom .segmented · (ops.map Op.info)) (limitAfter_zero .segmented none)
  have hfirst : (ofOps .segmented [.transform f]).toPlan.steps =
      [.map f ((empty : Draft α).slot f.indexed)] := rfl
  have hany : ∀ {test : Step α → Bool} {gates slots : Nat},
      (∀ step, test (step.behind gates slots) = test step) → ∀ steps : List (Step α),
        (steps.map (Step.behind gates slots)).any test = steps.any test := by
    intro test gates slots htest steps
    rw [List.any_map]
    exact congrArg steps.any (funext htest)
  simp only [Plan.capacityHint, hmost]
  rw [show (ofOps .segmented (.transform f :: ops)).toPlan.steps = _ from hsteps, hfirst]
  simp only [List.any_append, List.any_cons, List.any_nil, Step.isExpand, Step.isTest,
    Bool.or_false, Bool.false_or, hany (Step.isExpand_behind _ _), hany (Step.isTest_behind _ _)]

/-- What planning gives in segmented mode. -/
theorem verdict_of_segmented {config : Config} (hmode : config.rangeMode = .segmented)
    (ops : List (Op α)) :
    (compile ops config).verdict =
      if (Draft.ofOps .segmented ops).LetsNothing then .ok .nothing
      else if (Draft.ofOps .segmented ops).gates.length ≤ config.segmentCap
          ∨ config.overflow = .fallback then .ok (Draft.ofOps .segmented ops).toPlan
      else .error (.tooManySegments (Draft.ofOps .segmented ops).gates.length config.segmentCap) := by
  rw [compile, Compilation.ofDraft, hmode]
  by_cases hnothing : (Draft.ofOps .segmented ops).LetsNothing
  · have hnever : (Draft.ofOps .segmented ops).never = true
        ∨ (Draft.ofOps .segmented ops).maxEmits = some 0 := hnothing
    rw [if_pos hnothing, if_pos hnever]
  · have hnever : ¬ ((Draft.ofOps .segmented ops).never = true
        ∨ (Draft.ofOps .segmented ops).maxEmits = some 0) := hnothing
    rw [if_neg hnothing, if_neg hnever]
    by_cases hcap : (Draft.ofOps .segmented ops).gates.length ≤ config.segmentCap
    · simp only [if_pos hcap, if_pos (show _ ∨ config.overflow = .fallback from .inl hcap)]
      rfl
    · simp only [if_neg hcap]
      cases hoverflow : config.overflow with
      | fallback =>
        rw [if_pos (.inr rfl)]
        rfl
      | reject =>
        rw [if_neg (by simp [hcap])]
        rfl

end StreamFusion
