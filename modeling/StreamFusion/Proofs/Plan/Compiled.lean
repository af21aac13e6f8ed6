import StreamFusion.Proofs.Plan.Bounds

/-!
# Compiled plans

What a list of operations compiles to, if it compiles. The steps of the plan count each on its own.
In segmented mode the plan means what the operations mean; in baseline mode it means what they mean
without the ranges, behind one skip and in front of one limit.
-/

namespace StreamFusion

variable {α : Type} {ops : List (Op α)} {config : Config} {plan : Plan α}

/-- The three ways to a plan. -/
theorem compile_cases (h : (compile ops config).verdict = .ok plan) :
    let d := Draft.ofOps config.rangeMode ops
    ((d.never = true ∨ d.maxEmits = some 0) ∧ plan = .nothing)
      ∨ (¬ (d.never = true ∨ d.maxEmits = some 0)
        ∧ ((config.rangeMode = .segmented ∧ plan = d.toPlan)
          ∨ (config.rangeMode = .baseline ∧ d.baselinePlan = .ok plan))) := by
  intro d
  rw [compile, Compilation.ofDraft] at h
  split at h
  · rename_i hnever
    exact .inl ⟨hnever, (Except.ok.inj h).symm⟩
  · rename_i hnever
    refine .inr ⟨hnever, ?_⟩
    split at h
    · rename_i hmode
      split at h
      · rename_i accepted haccepted
        exact .inr ⟨hmode, haccepted.trans (congrArg _ (Except.ok.inj h))⟩
      · exact absurd h (by simp [Compilation.refused])
    · rename_i hmode
      have hplan : .ok d.toPlan = (.ok plan : Except Refusal (Plan α)) := by
        by_cases hcap : d.gates.length ≤ config.segmentCap
        · rw [if_pos hcap] at h
          exact h
        · rw [if_neg hcap] at h
          cases hoverflow : config.overflow with
          | fallback =>
            rw [hoverflow] at h
            exact h
          | reject =>
            rw [hoverflow] at h
            exact absurd h (by simp [Compilation.refused])
      exact .inl ⟨hmode, (Except.ok.inj hplan).symm⟩

/-- No operations make a plan without steps. -/
theorem compile_nil (config : Config) :
    (compile ([] : List (Op α)) config).verdict = .ok Draft.empty.toPlan := by
  let d : Draft α := .empty
  have hpasses : ¬ (d.never = true ∨ d.maxEmits = some 0) := by simp [d, Draft.empty]
  show (Compilation.ofDraft config d).verdict = .ok d.toPlan
  rw [Compilation.ofDraft, if_neg hpasses]
  cases config.rangeMode with
  | baseline => rfl
  | segmented => exact congrArg Compilation.verdict (if_pos (Nat.zero_le _))

/-- A baseline plan has its gates around the steps, and skips nothing if it may reshape. -/
theorem Draft.baselinePlan_ok {d : Draft α} (h : d.baselinePlan = .ok plan) :
    plan = d.withLeadingGate.withTrailingGate.toPlan
      ∧ (d.reshaping.isSome → d.skipInitial = 0) := by
  unfold baselinePlan at h
  split at h
  · split at h
    · exact absurd h (by simp)
    · rename_i hskip
      have hskip : d.skipInitial = 0 := Decidable.not_not.1 hskip
      have hleading : d.withLeadingGate = d := by rw [withLeadingGate, if_pos hskip]
      split at h
      · exact absurd h (by simp)
      · rw [hleading]
        exact ⟨(Except.ok.inj h).symm, fun _ => hskip⟩
  · rename_i hnone
    exact ⟨(Except.ok.inj h).symm, fun hsome => absurd hsome (by simp [hnone])⟩

theorem numbered_of_compile (h : (compile ops config).verdict = .ok plan) : plan.Numbered := by
  have hdraft := Draft.numbered_ofOps config.rangeMode ops
  rcases compile_cases h with ⟨-, rfl⟩ | ⟨-, ⟨-, rfl⟩ | ⟨-, hplan⟩⟩
  · exact ⟨nofun, .nil⟩
  · exact hdraft
  · rw [(Draft.baselinePlan_ok hplan).1]
    exact Draft.numbered_withTrailingGate (Draft.numbered_withLeadingGate hdraft)

/-- The gates of a plan are those of the ranges, that of the skip and that of the limit. -/
theorem mem_gates_of_compile (h : (compile ops config).verdict = .ok plan) {w : Window}
    (hmem : w ∈ plan.gates) :
    let d := Draft.ofOps config.rangeMode ops
    ¬ (d.never = true ∨ d.maxEmits = some 0)
      ∧ (w ∈ d.gates ∨ w.take = none ∨ w.take = d.maxEmits) := by
  intro d
  rcases compile_cases h with ⟨-, rfl⟩ | ⟨hpasses, ⟨-, rfl⟩ | ⟨-, hplan⟩⟩
  · exact absurd hmem (by simp [Plan.nothing])
  · exact ⟨hpasses, .inl hmem⟩
  · refine ⟨hpasses, ?_⟩
    rw [(Draft.baselinePlan_ok hplan).1] at hmem
    have hgates : w ∈ d.withLeadingGate.gates ∨ w.take = d.maxEmits := by
      change w ∈ d.withLeadingGate.withTrailingGate.gates at hmem
      unfold Draft.withTrailingGate at hmem
      split at hmem
      · exact .inl hmem
      · rename_i most hmost
        refine (List.mem_append.1 hmem).imp_right fun hlast => ?_
        rw [List.mem_singleton.1 hlast, ← Draft.maxEmits_withLeadingGate, hmost]
    rcases hgates with hgates | hlimit
    · unfold Draft.withLeadingGate at hgates
      split at hgates
      · exact .inl hgates
      · refine (List.mem_append.1 hgates).imp_right fun hlast => .inl ?_
        rw [List.mem_singleton.1 hlast]
    · exact .inr (.inr hlimit)

/-- No gate of a plan is shut from the start. -/
theorem take_ne_zero_of_compile (h : (compile ops config).verdict = .ok plan)
    {w : Window} (hmem : w ∈ plan.gates) : w.take ≠ some 0 := by
  intro htake
  obtain ⟨hpasses, hgate | hnone | hlimit⟩ := mem_gates_of_compile h hmem
  · exact hpasses (.inr (Draft.maxEmits_of_gate hgate htake))
  · rw [hnone] at htake
    exact absurd htake (by simp)
  · exact hpasses (.inr (hlimit.symm.trans htake))

/-- A plan that lets nothing pass asks for no capacity. -/
theorem Plan.capacityHint_of_never (h : (compile ops config).verdict = .ok plan)
    (hnever : plan.never = true) (known : Option Nat) : plan.capacityHint known = 0 := by
  rcases compile_cases h with ⟨-, rfl⟩ | ⟨-, ⟨-, rfl⟩ | ⟨-, haccepted⟩⟩
  · exact Nat.zero_min (known.getD 0)
  · exact absurd hnever (by simp [Draft.toPlan])
  · rw [(Draft.baselinePlan_ok haccepted).1] at hnever
    exact absurd hnever (by simp [Draft.toPlan])

/-- The plan of operations without limits has no gate with a limit. -/
theorem take_eq_none_of_compile (h : (compile ops config).verdict = .ok plan)
    (hops : ∀ op ∈ ops, op.info.stop = none) {w : Window} (hmem : w ∈ plan.gates) :
    w.take = none := by
  obtain ⟨hgates, hlimit⟩ := Draft.unlimited_ofOps config.rangeMode hops
  obtain ⟨-, hgate | hnone | hmost⟩ := mem_gates_of_compile h hmem
  · exact hgates w hgate
  · exact hnone
  · exact hmost.trans hlimit

/-! ## Segmented mode -/

/-- In segmented mode a limit of zero is the limit of one range. -/
theorem Draft.mostFrom_of_segmented {infos : List OpInfo}
    (h : limitFrom .segmented none infos = some 0) (most : Option Nat) :
    OpInfo.mostFrom most infos = some 0 := by
  induction infos using List.reverseRecOn with
  | nil => exact absurd h (by simp [limitFrom])
  | append_singleton infos info ih =>
    rw [OpInfo.mostFrom_concat]
    rw [limitFrom, List.foldl_append] at h
    change limitAfter .segmented (limitFrom .segmented none infos) info.start info.stop =
      some 0 at h
    rw [limitAfter, Draft.tighter_eq_zero] at h
    rcases h with hlimit | hstop
    · have hbefore : limitFrom .segmented none infos = some 0 := by
        rw [← hlimit]
        exact Option.map_id'.symm
      rw [ih hbefore, OpInfo.mostAfter_zero]
    · cases info with
      | range start stop =>
        rw [OpInfo.mostAfter, limitAfter, tighter_eq_zero]
        exact .inr hstop
      | _ => exact absurd hstop (by simp [OpInfo.stop])

/-- A segmented plan does what its operations do, one after the other. -/
theorem onList_of_segmented (hmode : config.rangeMode = .segmented)
    (h : (compile ops config).verdict = .ok plan) {xs ys : List α}
    (hys : Op.allOnList ops xs = some ys) : plan.onList xs = some ys := by
  rcases compile_cases h with ⟨hnever | hlimit, rfl⟩ | ⟨hnot, ⟨-, rfl⟩ | ⟨hbaseline, -⟩⟩
  · rw [Op.eq_nil_of_never (Draft.exists_isNever hnever) hys]
    rfl
  · rw [Draft.maxEmits_ofOps, hmode] at hlimit
    rw [Op.eq_nil_of_mostFrom (within_none xs) (Draft.mostFrom_of_segmented hlimit none) hys]
    rfl
  · have hkeeps := Draft.isNever_eq_false fun h => hnot (.inl h)
    rw [Draft.onList_ofOps _ hkeeps, hmode]
    exact hys
  · exact absurd (hmode.symm.trans hbaseline) (by simp)

/-! ## Baseline mode -/

/-- Without filters and flattens nothing is refused. -/
theorem exists_plan_of_no_construct (hmode : config.rangeMode = .baseline)
    (hops : ∀ op ∈ ops, op.info.construct? = none) :
    ∃ plan, (compile ops config).verdict = .ok plan := by
  have hnone : (Draft.ofOps .baseline ops).reshaping = none := by
    rw [Draft.reshaping_ofOps, List.findSome?_eq_none_iff]
    intro info hinfo
    obtain ⟨op, hop, rfl⟩ := List.mem_map.1 hinfo
    exact hops op hop
  have haccepted : (Draft.ofOps .baseline ops).baselinePlan =
      .ok (Draft.ofOps .baseline ops).withLeadingGate.withTrailingGate.toPlan := by
    rw [Draft.baselinePlan, hnone]
  rw [compile, hmode, Compilation.ofDraft]
  split
  · exact ⟨_, rfl⟩
  · simp only [hmode, haccepted]
    exact ⟨_, rfl⟩

/-- Without filters and flattens no step of a draft tests or expands. -/
theorem Draft.one_to_one_ofOps (mode : RangeMode) (hops : ∀ op ∈ ops, op.info.construct? = none) :
    ∀ step ∈ (ofOps mode ops).steps, step.isExpand = false ∧ step.isTest = false := by
  induction ops using List.reverseRecOn with
  | nil => exact nofun
  | append_singleton ops op ih =>
    obtain ⟨hops, hop⟩ := List.forall_mem_append.1 hops
    have hbefore := ih hops
    have hone : op.info.construct? = none := hop op (List.mem_singleton_self op)
    have hconcat : ∀ {step : Step α}, step.isExpand = false ∧ step.isTest = false →
        ∀ other ∈ (ofOps mode ops).steps ++ [step],
          other.isExpand = false ∧ other.isTest = false := fun hstep =>
      List.forall_mem_append.2 ⟨hbefore, List.forall_mem_singleton.2 hstep⟩
    rw [ofOps_concat]
    cases op with
    | transform f => exact hconcat ⟨rfl, rfl⟩
    | range start stop =>
      cases mode with
      | baseline => exact hbefore
      | segmented =>
        by_cases hall : start = 0 ∧ stop = none
        · simp only [add, if_pos hall]
          exact hbefore
        · simp only [add, if_neg hall]
          exact hconcat ⟨rfl, rfl⟩
    | _ => exact absurd hone (by simp [Op.info, OpInfo.construct?])

/-- Without filters and flattens a plan asks for room for as many elements as its limit allows, or as
the source is known to have. -/
theorem capacityHint_of_no_construct (hmode : config.rangeMode = .baseline)
    (h : (compile ops config).verdict = .ok plan) (hops : ∀ op ∈ ops, op.info.construct? = none)
    (known : Option Nat) :
    plan.capacityHint known =
      match Draft.limitFrom .baseline none (ops.map Op.info) with
      | some most => min most (known.getD most)
      | none => known.getD 0 := by
  have hlimits := Draft.maxEmits_ofOps .baseline ops
  rcases compile_cases h with ⟨hnever | hlimit, rfl⟩ | ⟨hnot, ⟨hsegmented, -⟩ | ⟨-, hplan⟩⟩
  · obtain ⟨op, hop, hnever⟩ := Draft.exists_isNever hnever
    have hone := hops op hop
    cases op with
    | never indexed search => exact absurd hone (by simp [Op.info, OpInfo.construct?])
    | filter test search => exact absurd hone (by simp [Op.info, OpInfo.construct?])
    | _ => exact absurd hnever (by simp [Op.info, OpInfo.isNever])
  · rw [hmode, hlimits] at hlimit
    rw [hlimit]
    rfl
  · exact absurd (hmode.symm.trans hsegmented) (by simp)
  · rw [hmode] at hplan
    set d := Draft.ofOps .baseline ops
    have hsteps : ∀ step ∈ d.withLeadingGate.withTrailingGate.steps,
        step.isExpand = false ∧ step.isTest = false := by
      intro step hstep
      rcases Draft.mem_steps_of_framed hstep with hmem | ⟨number, rfl⟩
      · exact Draft.one_to_one_ofOps .baseline hops step hmem
      · exact ⟨rfl, rfl⟩
    have hmost : d.withLeadingGate.withTrailingGate.maxEmits =
        Draft.limitFrom .baseline none (ops.map Op.info) := by
      rw [Draft.maxEmits_withTrailingGate, Draft.maxEmits_withLeadingGate, hlimits]
    have hexpands : d.withLeadingGate.withTrailingGate.steps.any Step.isExpand = false :=
      List.any_eq_false.2 fun step hstep => by simp [(hsteps step hstep).1]
    have htests : d.withLeadingGate.withTrailingGate.steps.any Step.isTest = false :=
      List.any_eq_false.2 fun step hstep => by simp [(hsteps step hstep).2]
    rw [(Draft.baselinePlan_ok hplan).1, ← hmost]
    simp only [Plan.capacityHint, Draft.toPlan, hexpands, htests]
    cases d.withLeadingGate.withTrailingGate.maxEmits <;> cases known <;> rfl

/-- A baseline plan does what its operations do without the ranges, to the elements behind the skip,
and gives as many as the limit allows. -/
theorem onList_of_baseline (hmode : config.rangeMode = .baseline)
    (h : (compile ops config).verdict = .ok plan) {xs : List α} (hxs : xs.length ≤ maxCount)
    {ys : List α}
    (hys : Op.allOnList (Op.withoutRanges ops) (xs.drop (OpInfo.skips (ops.map Op.info))) =
      some ys) :
    plan.onList xs = some (upTo (Draft.limitFrom .baseline none (ops.map Op.info)) ys) := by
  have hlimits := Draft.maxEmits_ofOps .baseline ops
  rcases compile_cases h with ⟨hnever | hlimit, rfl⟩ | ⟨hnot, ⟨hsegmented, -⟩ | ⟨-, hplan⟩⟩
  · obtain ⟨op, hop, hnever⟩ := Draft.exists_isNever hnever
    have hrange : op.info.isRange = false := by
      cases op with
      | range start stop => exact absurd hnever (by simp [Op.info, OpInfo.isNever])
      | _ => rfl
    have hmem : op ∈ Op.withoutRanges ops := List.mem_filter.2 ⟨hop, by rw [hrange]; rfl⟩
    rw [Op.eq_nil_of_never ⟨op, hmem, hnever⟩ hys, upTo_nil]
    rfl
  · rw [hmode, hlimits] at hlimit
    rw [hlimit]
    rfl
  · exact absurd (hmode.symm.trans hsegmented) (by simp)
  · have hkeeps := Draft.isNever_eq_false fun h => hnot (.inl h)
    have hdrop : xs.drop (Draft.ofOps .baseline ops).skipInitial =
        xs.drop (OpInfo.skips (ops.map Op.info)) := by
      rw [Draft.skipInitial_ofOps]
      -- a skip that is no count any more passes over the whole list, and so does the largest count
      by_cases hskip : OpInfo.skips (ops.map Op.info) ≤ maxCount
      · rw [Nat.min_eq_left hskip]
      · rw [List.drop_eq_nil_of_le (by omega), List.drop_eq_nil_of_le (by omega)]
    rw [hmode] at hplan
    have hnumbered := Draft.numbered_ofOps .baseline ops
    have hsteps : (Draft.ofOps .baseline ops).withLeadingGate.toPlan.onList xs = some ys := by
      rw [Draft.onList_withLeadingGate hnumbered, hdrop, Draft.onList_ofOps _ hkeeps]
      exact hys
    rw [(Draft.baselinePlan_ok hplan).1,
      Draft.onList_withTrailingGate (Draft.numbered_withLeadingGate hnumbered), hsteps,
      Option.map_some, Draft.maxEmits_withLeadingGate, hlimits]

end StreamFusion
