import StreamFusion.Proofs.Plan.Compiled

/-!
# The layout of plans

Where the steps of a plan come from. Without its counters, a step is what an operation asks for
(`Op.stage?`), and the steps of a draft are those of the operations in their order, in baseline mode
without the ranges. Gates and slots are handed out in the order of the steps, so the steps of a plan
use every number once (`Step.InOrder`).
-/

namespace StreamFusion

variable {α : Type} {ops : List (Op α)} {config : Config} {plan : Plan α}

/-! ## Stages -/

/-- A step without its counters. -/
inductive Stage (α : Type) where
  | map (f : Callback α α)
  | test (p : Callback α Bool)
  | expand (f : Callback α (List α))
  | gate (w : Window)

/-- Does the stage call something? -/
def Stage.isCall : Stage α → Bool
  | .gate _ => false
  | _ => true

/-- The stage of a step that asks the gates of these counters. -/
def Step.stage (c : Counters) : Step α → Stage α
  | .map f _ => .map f
  | .test p _ => .test p
  | .expand f _ => .expand f
  | .gate number => .gate (c.window number)

/-- The stage that an operation asks for. A range that keeps everything asks for none, and neither
does a filter that keeps nothing. -/
def Op.stage? : Op α → Option (Stage α)
  | .transform f => some (.map f)
  | .filter test _ => some (.test test)
  | .never _ _ => none
  | .range start stop =>
    if start = 0 ∧ stop = none then none else some (.gate ⟨start, stop.map (· - start)⟩)
  | .flatten expand => some (.expand expand)

/-- The stages that operations ask for. -/
def Op.stages (ops : List (Op α)) : List (Stage α) := ops.filterMap Op.stage?

theorem Op.stages_append (ops others : List (Op α)) :
    stages (ops ++ others) = stages ops ++ stages others :=
  List.filterMap_append

/-- Without the ranges no gates are asked for. -/
theorem Op.stages_withoutRanges (ops : List (Op α)) :
    stages (withoutRanges ops) = (stages ops).filter Stage.isCall := by
  induction ops with
  | nil => rfl
  | cons op ops ih =>
    have hsplit : stages (op :: ops) = stages [op] ++ stages ops := stages_append [op] ops
    have hrest : stages (withoutRanges (op :: ops)) =
        stages (withoutRanges [op]) ++ stages (withoutRanges ops) := by
      rw [← stages_append, ← withoutRanges_append, List.singleton_append]
    have hop : stages (withoutRanges [op]) = (stages [op]).filter Stage.isCall := by
      cases op with
      | range start stop =>
        by_cases hall : start = 0 ∧ stop = none
        · simp [stages, stage?, withoutRanges, info, OpInfo.isRange, hall]
        · simp [stages, stage?, withoutRanges, info, OpInfo.isRange, hall, Stage.isCall]
      | _ => rfl
    rw [hsplit, List.filter_append, hrest, hop, ih]

/-- The stages of a plan, with its gates as they are when a run starts. -/
def Plan.layout (plan : Plan α) : List (Stage α) := plan.steps.map (Step.stage plan.start)

/-! ## Numbers in order -/

namespace Step

/-- The steps use the numbers of this many gates and slots in their order, each of them once, and a
step has a slot if its callback takes an index. -/
structure InOrder (gates slots : Nat) (steps : List (Step α)) : Prop where
  gates_eq : steps.filterMap gate? = List.range gates
  slots_eq : steps.filterMap slot? = List.range slots
  slot_isSome : ∀ step ∈ steps, step.slot?.isSome = step.isIndexed

variable {gates slots : Nat} {steps : List (Step α)}

theorem InOrder.concat_gate (h : InOrder gates slots steps) :
    InOrder (gates + 1) slots (steps ++ [.gate gates]) where
  gates_eq := by
    rw [List.filterMap_append, h.gates_eq, List.range_succ]
    rfl
  slots_eq := by
    rw [List.filterMap_append, h.slots_eq]
    exact List.append_nil _
  slot_isSome := by
    intro step hstep
    rcases List.mem_append.1 hstep with hold | hnew
    · exact h.slot_isSome step hold
    · rw [List.mem_singleton.1 hnew]
      rfl

/-- The first gate can stand in front of all steps. -/
theorem InOrder.cons_gate (h : InOrder 0 slots steps) : InOrder 1 slots (.gate 0 :: steps) where
  gates_eq := by
    show 0 :: steps.filterMap gate? = List.range 1
    rw [h.gates_eq]
    rfl
  slots_eq := h.slots_eq
  slot_isSome := List.forall_mem_cons.2 ⟨rfl, h.slot_isSome⟩

end Step

namespace Draft

variable {d e : Draft α}

/-- The numbers of a draft are handed out in the order of its steps. -/
def InOrder (d : Draft α) : Prop := Step.InOrder d.gates.length d.slots d.steps

theorem inOrder_call (step : Step α) (h : d.InOrder)
    (hgate : step.gate? = none) (hslot : step.slot? = d.slot step.isIndexed) :
    Step.InOrder d.gates.length (d.slotsAfter step.isIndexed) (d.steps ++ [step]) where
  gates_eq := by
    rw [List.filterMap_append, h.gates_eq, List.filterMap_cons_none hgate]
    exact List.append_nil _
  slots_eq := by
    rw [List.filterMap_append, h.slots_eq]
    cases hindexed : step.isIndexed with
    | false =>
      rw [hindexed] at hslot
      rw [List.filterMap_cons_none hslot]
      exact List.append_nil _
    | true =>
      rw [hindexed] at hslot
      rw [List.filterMap_cons_some hslot]
      exact List.range_succ.symm
  slot_isSome := by
    intro other hother
    rcases List.mem_append.1 hother with hold | hnew
    · exact h.slot_isSome other hold
    · rw [List.mem_singleton.1 hnew, hslot]
      cases step.isIndexed <;> rfl

/-- A draft hands out its numbers in order. -/
theorem inOrder_ofOps (mode : RangeMode) (ops : List (Op α)) : (ofOps mode ops).InOrder := by
  induction ops using List.reverseRecOn with
  | nil => exact ⟨rfl, rfl, nofun⟩
  | append_singleton ops op ih =>
    rw [ofOps_concat]
    cases op with
    | transform f => exact inOrder_call (.map f _) ih rfl rfl
    | filter test search => exact inOrder_call (.test test _) ih rfl rfl
    | never indexed search => exact ih
    | flatten expand => exact inOrder_call (.expand expand _) ih rfl rfl
    | range start stop =>
      cases mode with
      | baseline => exact ih
      | segmented =>
        by_cases hall : start = 0 ∧ stop = none
        · simp only [add, if_pos hall]
          exact ih
        · simp only [add, if_neg hall, InOrder, List.length_append]
          exact ih.concat_gate

/-! ## The steps of drafts -/

/-- Steps that find their gates do not notice that more gates are handed out. -/
theorem map_stage_start (h : d.toPlan.Numbered) (hgates : d.gates <+: e.gates) :
    d.steps.map (Step.stage e.toPlan.start) = d.toPlan.layout := by
  refine List.map_congr_left fun step hstep => ?_
  have hsame := sameIn_start hgates (h.fits step hstep)
  cases step with
  | gate number => exact congrArg Stage.gate (hsame.window_eq number rfl)
  | _ => rfl

theorem layout_concat {more : List (Step α)} (h : d.toPlan.Numbered) (hgates : d.gates <+: e.gates)
    (hsteps : e.steps = d.steps ++ more) :
    e.toPlan.layout = d.toPlan.layout ++ more.map (Step.stage e.toPlan.start) := by
  show e.steps.map _ = _
  rw [hsteps, List.map_append, map_stage_start h hgates]

theorem layout_add (mode : RangeMode) (h : d.toPlan.Numbered) (op : Op α) :
    (d.add mode op).toPlan.layout = d.toPlan.layout ++ Op.stages (kept mode [op]) := by
  have hsame : ∀ {e : Draft α}, e.gates = d.gates → e.steps = d.steps →
      e.toPlan.layout = d.toPlan.layout ++ [] := fun hgates hsteps =>
    layout_concat h (hgates ▸ List.prefix_refl _) (hsteps.trans (List.append_nil _).symm)
  have hcall : ∀ {e : Draft α} (step : Step α), e.gates = d.gates → e.steps = d.steps ++ [step] →
      e.toPlan.layout = d.toPlan.layout ++ [step.stage e.toPlan.start] := fun step hgates hsteps =>
    layout_concat h (hgates ▸ List.prefix_refl _) hsteps
  cases op with
  | transform f => cases mode <;> exact hcall (.map f _) rfl rfl
  | filter test search => cases mode <;> exact hcall (.test test _) rfl rfl
  | never indexed search => cases mode <;> exact hsame rfl rfl
  | flatten expand => cases mode <;> exact hcall (.expand expand _) rfl rfl
  | range start stop =>
    cases mode with
    | baseline => exact hsame rfl rfl
    | segmented =>
      by_cases hall : start = 0 ∧ stop = none
      · simp only [kept, Op.stages, List.filterMap, Op.stage?, if_pos hall]
        refine hsame ?_ ?_
        · rw [add, if_pos hall]
        · rw [add, if_pos hall]
      · simp only [kept, Op.stages, List.filterMap, Op.stage?, if_neg hall]
        have hgates : (d.add .segmented (.range start stop)).gates =
            d.gates ++ [⟨start, stop.map (· - start)⟩] := by rw [add, if_neg hall]
        have hsteps : (d.add .segmented (.range start stop)).steps =
            d.steps ++ [.gate d.gates.length] := by rw [add, if_neg hall]
        rw [layout_concat h (hgates ▸ List.prefix_append ..) hsteps, List.map_singleton, Step.stage,
          window_newGate hgates]

/-- The steps of a draft are what the operations among them ask for. -/
theorem layout_ofOps (mode : RangeMode) (ops : List (Op α)) :
    (ofOps mode ops).toPlan.layout = Op.stages (kept mode ops) := by
  induction ops using List.reverseRecOn with
  | nil => cases mode <;> rfl
  | append_singleton ops op ih =>
    rw [ofOps_concat, layout_add mode (numbered_ofOps mode ops), ih, kept_append, Op.stages_append]

/-- In baseline mode no range gets a gate. -/
theorem gates_baseline (ops : List (Op α)) : (ofOps .baseline ops).gates = [] := by
  induction ops using List.reverseRecOn with
  | nil => rfl
  | append_singleton ops op ih =>
    rw [ofOps_concat]
    cases op <;> exact ih

end Draft

/-! ## The steps of plans -/

/-- The gate that drops the first elements, unless none are dropped. -/
def Stage.skipping (count : Nat) : List (Stage α) :=
  if count = 0 then [] else [.gate ⟨count, none⟩]

/-- The gate that lets only the first elements pass, if there is a limit. -/
def Stage.limiting : Option Nat → List (Stage α)
  | none => []
  | some most => [.gate ⟨0, some most⟩]

/-- The plan has the steps of these operations and gates for their ranges: in baseline mode one in
front and one behind, in segmented mode one for every range at its place. -/
structure Plan.LaidOut (plan : Plan α) (mode : RangeMode) (ops : List (Op α)) : Prop where
  inOrder : Step.InOrder plan.gates.length plan.slots plan.steps
  calls_eq : plan.layout.filter Stage.isCall = (Op.stages ops).filter Stage.isCall
  one_le_take : ∀ w ∈ plan.gates, ∀ take, w.take = some take → 1 ≤ take
  baseline : mode = .baseline → plan.gates.length ≤ 2
    ∧ plan.layout = Stage.skipping plan.skipInitial ++ (Op.stages ops).filter Stage.isCall
      ++ Stage.limiting plan.maxEmits
  segmented : mode = .segmented → plan.layout = Op.stages ops

namespace Draft

variable {d : Draft α}

theorem inOrder_withLeadingGate (h : d.InOrder) (hgates : d.gates = []) :
    d.withLeadingGate.InOrder ∧ d.withLeadingGate.gates.length ≤ 1 := by
  unfold withLeadingGate InOrder at *
  split
  · rw [hgates] at h ⊢
    exact ⟨h, Nat.zero_le _⟩
  · rw [hgates] at h ⊢
    exact ⟨h.cons_gate, Nat.le_refl _⟩

theorem inOrder_withTrailingGate (h : d.InOrder) :
    d.withTrailingGate.InOrder ∧ d.withTrailingGate.gates.length ≤ d.gates.length + 1 := by
  unfold withTrailingGate InOrder at *
  split
  · exact ⟨h, Nat.le_succ _⟩
  · simp only [List.length_append]
    exact ⟨h.concat_gate, Nat.le_refl _⟩

theorem skipInitial_withTrailingGate (d : Draft α) :
    d.withTrailingGate.skipInitial = d.skipInitial := by
  unfold withTrailingGate
  split <;> rfl

theorem skipInitial_withLeadingGate (d : Draft α) :
    d.withLeadingGate.skipInitial = d.skipInitial := by
  unfold withLeadingGate
  split <;> rfl

theorem layout_withLeadingGate (h : d.toPlan.Numbered) :
    d.withLeadingGate.toPlan.layout = Stage.skipping d.skipInitial ++ d.toPlan.layout := by
  unfold withLeadingGate Stage.skipping
  by_cases hskip : d.skipInitial = 0
  · rw [if_pos hskip, if_pos hskip]
    rfl
  · rw [if_neg hskip, if_neg hskip]
    show Step.stage _ (.gate d.gates.length) :: d.steps.map _ = _
    rw [map_stage_start h (List.prefix_append ..), Step.stage, window_newGate rfl]
    rfl

theorem layout_withTrailingGate (h : d.toPlan.Numbered) :
    d.withTrailingGate.toPlan.layout = d.toPlan.layout ++ Stage.limiting d.maxEmits := by
  unfold withTrailingGate
  cases hlimit : d.maxEmits with
  | none => exact (List.append_nil _).symm
  | some most =>
    simp only
    rw [layout_concat h (List.prefix_append ..) rfl, List.map_singleton, Step.stage,
      window_newGate rfl]
    rfl

/-- The baseline gates stand around the operations without the ranges. -/
theorem laidOut_baseline (ops : List (Op α)) {plan : Plan α}
    (hplan : plan = (ofOps .baseline ops).withLeadingGate.withTrailingGate.toPlan)
    (htakes : ∀ w ∈ plan.gates, ∀ take, w.take = some take → 1 ≤ take) :
    plan.LaidOut .baseline ops := by
  set d := ofOps .baseline ops with hd
  have hnumbered : d.toPlan.Numbered := numbered_ofOps .baseline ops
  obtain ⟨hleading, hone⟩ :=
    inOrder_withLeadingGate (inOrder_ofOps .baseline ops) (gates_baseline ops)
  obtain ⟨htrailing, htwo⟩ := inOrder_withTrailingGate hleading
  have hskip : plan.skipInitial = d.skipInitial := by
    rw [hplan]
    exact (skipInitial_withTrailingGate _).trans (skipInitial_withLeadingGate d)
  have hlimit : plan.maxEmits = d.maxEmits := by
    rw [hplan]
    exact (maxEmits_withTrailingGate _).trans (maxEmits_withLeadingGate d)
  have hlayout : plan.layout = Stage.skipping plan.skipInitial
      ++ (Op.stages ops).filter Stage.isCall ++ Stage.limiting plan.maxEmits := by
    rw [hskip, hlimit, hplan, layout_withTrailingGate (numbered_withLeadingGate hnumbered),
      layout_withLeadingGate hnumbered, maxEmits_withLeadingGate, hd, layout_ofOps, kept,
      Op.stages_withoutRanges]
  refine ⟨?_, ?_, htakes, fun _ => ⟨?_, hlayout⟩, fun h => absurd h (by simp)⟩
  · rw [hplan]
    exact htrailing
  · have hleft : (Stage.skipping plan.skipInitial : List (Stage α)).filter Stage.isCall = [] := by
      unfold Stage.skipping
      split <;> rfl
    have hright : (Stage.limiting plan.maxEmits : List (Stage α)).filter Stage.isCall = [] := by
      cases plan.maxEmits <;> rfl
    rw [hlayout, List.filter_append, List.filter_append, hleft, hright, List.nil_append,
      List.append_nil, List.filter_filter]
    simp only [Bool.and_self]
  · rw [hplan]
    exact Nat.le_trans htwo (Nat.succ_le_succ hone)

theorem laidOut_segmented (ops : List (Op α)) {plan : Plan α}
    (hplan : plan = (ofOps .segmented ops).toPlan)
    (htakes : ∀ w ∈ plan.gates, ∀ take, w.take = some take → 1 ≤ take) :
    plan.LaidOut .segmented ops := by
  have hlayout : plan.layout = Op.stages ops := by
    rw [hplan, layout_ofOps]
    rfl
  refine ⟨?_, by rw [hlayout], htakes, fun h => absurd h (by simp), fun _ => hlayout⟩
  rw [hplan]
  exact inOrder_ofOps .segmented ops

end Draft

/-- A plan that may let something pass is laid out as its operations ask. -/
theorem laidOut_of_compile (h : (compile ops config).verdict = .ok plan)
    (hnever : plan.never = false) : plan.LaidOut config.rangeMode ops := by
  have htakes : ∀ w ∈ plan.gates, ∀ take, w.take = some take → 1 ≤ take := by
    intro w hmem take htake
    refine Nat.one_le_iff_ne_zero.2 fun hzero => take_ne_zero_of_compile h hmem ?_
    rw [htake, hzero]
  rcases compile_cases h with ⟨-, rfl⟩ | ⟨-, ⟨hmode, hplan⟩ | ⟨hmode, hplan⟩⟩
  · exact absurd hnever (by simp [Plan.nothing])
  · rw [hmode] at hplan ⊢
    exact Draft.laidOut_segmented ops hplan htakes
  · rw [hmode] at hplan ⊢
    exact Draft.laidOut_baseline ops (Draft.baselinePlan_ok hplan).1 htakes

end StreamFusion
