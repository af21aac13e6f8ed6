import StreamFusion.Proofs.Pipeline.Results

/-!
# Static emptiness

When a plan that lets nothing pass is right. In segmented mode it always is. In baseline mode a
start behind a flatten shortens a limit in front of it, and planning asks for a limit of zero before
it looks for a skip that should be refused: then the pipeline is empty although elements would come
out.
-/

namespace StreamFusion

variable {α : Type}

namespace OpInfo

theorem mostFrom_zero (infos : List OpInfo) : mostFrom (some 0) infos = some 0 := by
  induction infos with
  | nil => rfl
  | cons info infos ih => rw [mostFrom_cons, mostAfter_zero, ih]

theorem mostFrom_of_never {infos : List OpInfo} (h : ∃ info ∈ infos, info.isNever = true)
    (most : Option Nat) : mostFrom most infos = some 0 := by
  induction infos generalizing most with
  | nil => exact absurd h (by simp)
  | cons info infos ih =>
    obtain ⟨other, hother, hnever⟩ := h
    rcases List.mem_cons.1 hother with rfl | hlater
    · cases other with
      | filter indexed never search =>
        have hnever : never = true := hnever
        rw [mostFrom_cons, mostAfter, if_pos hnever, mostFrom_zero]
      | _ => exact absurd hnever (by simp [isNever])
    · exact ih ⟨other, hlater, hnever⟩ _

/-- Without filters and flattens the bound is the limit of baseline mode. -/
theorem mostFrom_of_no_construct {infos : List OpInfo} (h : ∀ info ∈ infos, info.construct? = none)
    (most : Option Nat) : mostFrom most infos = Draft.limitFrom .baseline most infos := by
  induction infos generalizing most with
  | nil => rfl
  | cons info infos ih =>
    obtain ⟨hinfo, hinfos⟩ := List.forall_mem_cons.1 h
    have hafter : mostAfter most info = Draft.limitAfter .baseline most info.start info.stop := by
      cases info with
      | range start stop => rfl
      | transform indexed => exact (Draft.limitAfter_zero .baseline most).symm
      | _ => exact absurd hinfo (by simp [construct?])
    rw [mostFrom_cons, hafter]
    exact ih hinfos _

end OpInfo

namespace Draft

/-- Without starts both modes have the same limit. -/
theorem limitFrom_mode {infos : List OpInfo} (h : OpInfo.skips infos = 0) (limit : Option Nat) :
    limitFrom .baseline limit infos = limitFrom .segmented limit infos := by
  induction infos generalizing limit with
  | nil => rfl
  | cons info infos ih =>
    rw [OpInfo.skips_cons, Nat.add_eq_zero_iff] at h
    have hafter : limitAfter .baseline limit info.start info.stop =
        limitAfter .segmented limit info.start info.stop := by rw [h.1]; rfl
    change limitFrom .baseline (limitAfter .baseline limit info.start info.stop) infos = _
    rw [hafter]
    exact ih h.2 _

/-- A limit of zero that is not the bound comes with a skip and a filter or flatten, which would
have been refused. -/
theorem baselinePlan_of_limit_zero {ops : List (Op α)} {size : Nat}
    (hlimit : limitFrom .baseline none (ops.map Op.info) = some 0)
    (hmost : OpInfo.mostFrom (some size) (ops.map Op.info) ≠ some 0) :
    ∃ skip construct,
      (ofOps .baseline ops).baselinePlan = .error (.skipWithFilter skip construct) := by
  have hskips : (ofOps .baseline ops).skipInitial ≠ 0 := by
    rw [skipInitial_ofOps]
    intro hzero
    -- without starts no limit is shortened, as in segmented mode
    have hskips : OpInfo.skips (ops.map Op.info) = 0 := by
      unfold maxCount at hzero
      omega
    rw [limitFrom_mode hskips] at hlimit
    exact hmost (mostFrom_of_segmented hlimit _)
  cases hreshaping : (ofOps .baseline ops).reshaping with
  | none =>
    -- without a filter or flatten the limit is the bound
    rw [reshaping_ofOps, List.findSome?_eq_none_iff] at hreshaping
    refine absurd ?_ hmost
    rw [OpInfo.mostFrom_of_no_construct hreshaping, limitFrom_baseline, hlimit, tighter_eq_zero]
    exact .inr rfl
  | some construct =>
    refine ⟨(ofOps .baseline ops).skipInitial, construct, ?_⟩
    rw [baselinePlan, hreshaping]
    exact if_pos hskips

end Draft

/-- A plan that lets nothing pass is right for all callbacks and all sources of at most so many
elements if and only if the descriptions allow no element to come out. If they allow some, the
ranges are in baseline mode, and the skip would have been refused but for the emptiness. -/
theorem never_right_iff [Nonempty α] {ops : List (Op α)} {config : Config} {plan : Plan α}
    (h : (compile ops config).verdict = .ok plan) (hnever : plan.never = true) (size : Nat) :
    ((∀ (others : List (Op α)) (xs ys : List α), others.map Op.info = ops.map Op.info →
          xs.length ≤ size → Op.allOnList others xs = some ys → ys = [])
        ↔ OpInfo.mostFrom (some size) (ops.map Op.info) = some 0)
      ∧ (OpInfo.mostFrom (some size) (ops.map Op.info) ≠ some 0 →
        config.rangeMode = .baseline ∧ ∃ skip construct,
          (Draft.ofOps .baseline ops).baselinePlan = .error (.skipWithFilter skip construct)) := by
  constructor
  · constructor
    · intro hright
      by_contra hmost
      obtain ⟨others, xs, ys, hinfos, hsize, hys, hsome⟩ := OpInfo.exists_generous (α := α) hmost
      exact hsome (hright others xs ys hinfos hsize hys)
    · intro hmost others xs ys hinfos hsize hys
      have hwithin : Within (some size) xs := fun n hn => Option.some.inj hn ▸ hsize
      exact Op.eq_nil_of_mostFrom hwithin (hinfos ▸ hmost) hys
  · intro hmost
    rcases compile_cases h with ⟨hempty | hlimit, -⟩ | ⟨-, ⟨-, rfl⟩ | ⟨-, hplan⟩⟩
    · obtain ⟨op, hop, hop'⟩ := Draft.exists_isNever hempty
      exact absurd (OpInfo.mostFrom_of_never ⟨op.info, List.mem_map_of_mem hop, hop'⟩ _) hmost
    · rw [Draft.maxEmits_ofOps] at hlimit
      cases hmode : config.rangeMode with
      | segmented =>
        rw [hmode] at hlimit
        exact absurd (Draft.mostFrom_of_segmented hlimit _) hmost
      | baseline =>
        rw [hmode] at hlimit
        exact ⟨rfl, Draft.baselinePlan_of_limit_zero hlimit hmost⟩
    · exact absurd hnever (by simp [Draft.toPlan])
    · rw [(Draft.baselinePlan_ok hplan).1] at hnever
      exact absurd hnever (by simp [Draft.toPlan])

/-- A start behind a smaller limit: whatever the callbacks are, nothing comes out of five
elements. -/
theorem never_right_behind_limit :
    let ops : List (Op Nat) :=
      [.transform (.plain fun x => x + 1), .range 0 (some 2), .range 3 none]
    ∀ (others : List (Op Nat)) (xs ys : List Nat), others.map Op.info = ops.map Op.info →
      xs.length ≤ 5 → Op.allOnList others xs = some ys → ys = [] := by
  intro ops
  have hplan : (compile ops .standard).verdict = .ok .nothing := rfl
  exact (never_right_iff hplan rfl 5).1.2 (by decide)

/-- A limit of one, a flatten, and a start of one: planning finds nothing left, but the flatten
makes two elements of one. -/
theorem never_wrong_behind_flatten :
    let p : Pipeline Nat := ⟨.container ⟨0, none⟩ (.ofList [1]),
      ⟨0, [.range 0 (some 1), .flatten (.plain fun x => [x, x + 10]), .range 1 none], .standard,
        8⟩⟩
    (∃ plan, p.recipe.verdict = .ok plan ∧ plan.never = true)
      ∧ (∃ w', p.toList World.initial = .ok [] w')
      ∧ Op.allOnList p.recipe.ops [1] = some [11]
      ∧ (Draft.ofOps .baseline p.recipe.ops).baselinePlan =
        .error (.skipWithFilter 1 "flatten") := by
  intro p
  have hready : p.Ready World.initial [1] := Pipeline.ready_ofList ..
  have hplan : p.recipe.verdict = .ok .nothing := rfl
  exact ⟨⟨_, hplan, rfl⟩, Pipeline.toList_of_onList hready hplan rfl (by decide), by decide, rfl⟩

end StreamFusion
