import Mathlib.Data.Nat.Basic
import StreamFusion.Proofs.Pipeline.Results

/-!
# Indices in baseline mode

When the transforms of a baseline pipeline are called with the indices that they would see if every
operation ran on the whole list. A start passes over elements before any transform is called, so a
transform in front of it counts from zero at an element that is not the first of its list. Unless
nothing comes out at all, that changes what some callback answers. There also has to be room for as
many elements as the limit allows, or as the source can have (`Pipeline.indices_iff`).
-/

namespace StreamFusion

variable {α : Type}

/-! ## A callback that tells the first element -/

/-- Answers `a` at the index zero and `b` elsewhere. -/
def Callback.telling (a b : α) : Callback α α :=
  ⟨none, true, fun _ index => some (if index = 0 then a else b)⟩

namespace Callback

theorem total_telling (a b : α) : (telling a b).Total := fun _ _ => ⟨_, rfl⟩

theorem telling_head {a b : α} {x : α} {xs ys : List α}
    (h : (telling a b).answersFrom 0 (x :: xs) = some ys) : ∃ rest, ys = a :: rest := by
  obtain ⟨y, rest, hy, -, rfl⟩ := (answersFrom_cons ..).1 h
  exact ⟨rest, by rw [← Option.some.inj hy]; rfl⟩

theorem telling_later {a b : α} {first : Nat} (hfirst : 0 < first) {xs ys : List α}
    (h : (telling a b).answersFrom first xs = some ys) : ∀ y ∈ ys, y = b := by
  induction xs generalizing first ys with
  | nil =>
    rw [← Option.some.inj h]
    exact nofun
  | cons x xs ih =>
    obtain ⟨y, rest, hy, hrest, rfl⟩ := (answersFrom_cons ..).1 h
    refine List.forall_mem_cons.2 ⟨?_, ih (Nat.succ_pos _) hrest⟩
    rw [← Option.some.inj hy]
    exact if_neg (Nat.ne_of_gt hfirst)

end Callback

/-! ## Operations that change nothing but the number of elements -/

namespace Op

/-- A transform that answers every list with itself, or a range. -/
def Idle : Op α → Prop
  | .transform f => f.Total ∧ ∀ first xs, f.answersFrom first xs = some xs
  | .range _ _ => True
  | _ => False

theorem exists_idle {infos : List OpInfo} (h : ∀ info ∈ infos, info.construct? = none) :
    ∃ ops : List (Op α), ops.map Op.info = infos ∧ ∀ op ∈ ops, op.Idle := by
  induction infos with
  | nil => exact ⟨[], rfl, nofun⟩
  | cons info infos ih =>
    obtain ⟨hinfo, hinfos⟩ := List.forall_mem_cons.1 h
    obtain ⟨ops, rfl, hops⟩ := ih hinfos
    cases info with
    | transform indexed =>
      set f : Callback α α := ⟨none, indexed, fun x _ => some x⟩
      have hsame : ∀ first xs, f.answersFrom first xs = some xs := by
        intro first xs
        induction xs generalizing first with
        | nil => rfl
        | cons x xs ih => exact (Callback.answersFrom_cons ..).2 ⟨x, xs, rfl, ih _, rfl⟩
      exact ⟨.transform f :: ops, rfl, List.forall_mem_cons.2 ⟨⟨fun x _ => ⟨x, rfl⟩, hsame⟩, hops⟩⟩
    | range start stop =>
      exact ⟨.range start stop :: ops, rfl, List.forall_mem_cons.2 ⟨trivial, hops⟩⟩
    | _ => exact absurd hinfo (by simp [OpInfo.construct?])

theorem Idle.total {op : Op α} (h : op.Idle) : op.Total := by
  cases op with
  | transform f => exact h.1
  | range start stop => trivial
  | _ => exact h.elim

theorem allOnList_withoutRanges_idle {ops : List (Op α)} (hops : ∀ op ∈ ops, op.Idle)
    (xs : List α) : allOnList (withoutRanges ops) xs = some xs := by
  induction ops generalizing xs with
  | nil => rfl
  | cons op ops ih =>
    obtain ⟨hop, hrest⟩ := List.forall_mem_cons.1 hops
    cases op with
    | transform f =>
      rw [withoutRanges_cons_of_not rfl, allOnList, onList, hop.2]
      exact ih hrest xs
    | range start stop => exact ih hrest xs
    | _ => exact hop.elim

/-- What comes out of idle operations stood behind all the elements that they pass over. -/
theorem mem_drop_of_idle {ops : List (Op α)} (hops : ∀ op ∈ ops, op.Idle) {xs ys : List α}
    (h : allOnList ops xs = some ys) : ∀ y ∈ ys, y ∈ xs.drop (OpInfo.skips (ops.map Op.info)) := by
  induction ops generalizing xs with
  | nil =>
    rw [← Option.some.inj h]
    exact fun y hy => hy
  | cons op ops ih =>
    obtain ⟨hop, hrest⟩ := List.forall_mem_cons.1 hops
    obtain ⟨zs, hzs, hlater⟩ := Option.bind_eq_some_iff.1 h
    intro y hy
    have hmem := ih hrest hlater y hy
    cases op with
    | transform f =>
      have hstart : (transform f).info.start = 0 := rfl
      rw [onList, hop.2, Option.some.injEq] at hzs
      rw [List.map_cons, OpInfo.skips_cons, hstart, Nat.zero_add, hzs]
      exact hmem
    | range start stop =>
      have hstart : (range start stop : Op α).info.start = start := rfl
      rw [onList_range, Option.some.injEq] at hzs
      rw [List.map_cons, OpInfo.skips_cons, hstart]
      rw [← hzs, Window.pass, drop_upTo, List.drop_drop] at hmem
      exact mem_of_mem_upTo hmem
    | _ => exact hop.elim

/-- Idle operations around a callback that tells the first element, and a start behind it: nothing
can come out if lowered indices make no difference. -/
theorem eq_nil_of_telling {a b : α} (hab : a ≠ b) {before behind : List (Op α)}
    (hbefore : ∀ op ∈ before, op.Idle) (hbehind : ∀ op ∈ behind, op.Idle)
    (hskips : 0 < OpInfo.skips (behind.map Op.info)) {ops : List (Op α)}
    (hops : ops = before ++ .transform (.telling a b) :: behind)
    (hconstructs : ∀ op ∈ ops, op.info.construct? = none) (htotal : ∀ op ∈ ops, op.Total)
    {xs ys : List α} (hys : allOnList ops xs = some ys)
    (hlowered : allOnList (lowered ops) xs = some ys) : ys = [] := by
  -- where the ranges stand, the first element never comes out
  have hall : ∀ y ∈ ys, y = b := by
    rw [hops, allOnList_append, Option.bind_eq_some_iff] at hys
    obtain ⟨us, -, hus⟩ := hys
    obtain ⟨vs, hvs, hrest⟩ := Option.bind_eq_some_iff.1 hus
    have hdropped := Callback.answersFrom_drop hvs (OpInfo.skips (behind.map Op.info))
    intro y hy
    exact Callback.telling_later (by omega) hdropped y (mem_drop_of_idle hbehind hrest y hy)
  -- behind the skip, it comes out first
  rw [allOnList_lowered hconstructs htotal, Option.map_eq_some_iff] at hlowered
  obtain ⟨rs, hrs, rfl⟩ := hlowered
  rw [hops, withoutRanges_append, allOnList_append, allOnList_withoutRanges_idle hbefore,
    Option.bind_some, withoutRanges_cons_of_not rfl] at hrs
  obtain ⟨vs, hvs, hrest⟩ := Option.bind_eq_some_iff.1 hrs
  rw [allOnList_withoutRanges_idle hbehind, Option.some.injEq] at hrest
  subst hrest
  generalize xs.drop _ = us at hvs
  cases us with
  | nil =>
    rw [← Option.some.inj hvs]
    exact upTo_nil _
  | cons x us =>
    obtain ⟨rest, rfl⟩ := Callback.telling_head hvs
    generalize Draft.limitFrom _ _ _ = limit at hall ⊢
    rcases limit with _ | _ | most
    · exact absurd (hall a List.mem_cons_self) hab
    · rfl
    · exact absurd (hall a List.mem_cons_self) hab

end Op

/-! ## Room for all sources -/

namespace Pipeline

/-- There is room for the elements of any source of at most so many, if there is room for the limit,
or for that many. -/
theorem hasRoom_of_no_construct {p : Pipeline α} {plan : Plan α}
    (hmode : p.recipe.config.rangeMode = .baseline) (hplan : p.recipe.verdict = .ok plan)
    (hinfos : ∀ info ∈ p.describe, info.construct? = none) {length size : Nat}
    (hlength : length ≤ size)
    (hroom : (Draft.limitFrom .baseline none p.describe).getD size * p.recipe.width ≤ maxBytes) :
    p.HasRoom plan length := by
  refine Nat.le_trans (Nat.mul_le_mul_right _ ?_) hroom
  have hops : ∀ op ∈ p.recipe.ops, op.info.construct? = none := fun op hop =>
    hinfos op.info (List.mem_map_of_mem hop)
  rw [capacityHint_of_no_construct hmode hplan hops]
  change _ ≤ (Draft.limitFrom .baseline none (p.recipe.ops.map Op.info)).getD size
  cases Draft.limitFrom .baseline none (p.recipe.ops.map Op.info) with
  | some most => exact Nat.min_le_left ..
  | none =>
    unfold Source.lengthHint
    cases p.source.readsAs with
    | indexed => exact hlength
    | sequential => exact Nat.zero_le _

/-- Otherwise some source is without room: one that has to be pulled, if there is a limit, and one of
that many elements, if there is none. -/
theorem exists_without_room [Nonempty α] {infos : List OpInfo}
    (hinfos : ∀ info ∈ infos, info.construct? = none) {size width : Nat} (hsize : size ≤ maxCount)
    (hroom : ¬ (Draft.limitFrom .baseline none infos).getD size * width ≤ maxBytes) :
    ∃ (p : Pipeline α) (w : World α) (xs : List α), p.describe = infos
      ∧ p.recipe.config.rangeMode = .baseline ∧ p.recipe.width = width
      ∧ (∀ op ∈ p.recipe.ops, op.Total) ∧ p.Ready w xs ∧ xs.length ≤ size
      ∧ ∃ w', p.toList w = .error .noRoom w' := by
  obtain ⟨ops, rfl, hidle⟩ := Op.exists_idle (α := α) hinfos
  have htotal : ∀ op ∈ ops, op.Total := fun op hop => (hidle op hop).total
  have hops : ∀ op ∈ ops, op.info.construct? = none := fun op hop =>
    hinfos op.info (List.mem_map_of_mem hop)
  set recipe : Recipe α := ⟨0, ops, .standard, width⟩
  obtain ⟨plan, hplan⟩ : ∃ plan, recipe.verdict = .ok plan := exists_plan_of_no_construct rfl hops
  have hmode : recipe.config.rangeMode = .baseline := rfl
  have hhint := capacityHint_of_no_construct hmode hplan hops
  -- a source whose hint is the limit, or the size
  obtain ⟨source, xs, hready, hxs, hcount⟩ : ∃ (source : Source α) (xs : List α),
      Ready ⟨source, recipe⟩ World.initial xs ∧ xs.length ≤ size
        ∧ plan.capacityHint (source.lengthHint xs.length) =
          (Draft.limitFrom .baseline none (ops.map Op.info)).getD size := by
    cases hlimit : Draft.limitFrom .baseline none (ops.map Op.info) with
    | some most =>
      refine ⟨.replay ⟨0, none⟩ [], [], ready_replay .., Nat.zero_le _, ?_⟩
      rw [hhint, hlimit]
      exact Nat.min_self most
    | none =>
      obtain ⟨a⟩ := ‹Nonempty α›
      have hlength : (List.replicate size a).length = size := List.length_replicate
      have hreads := Source.readsAs_of_holds ⟨0, none⟩
        (Container.holds_ofList (List.replicate size a))
      refine ⟨.container ⟨0, none⟩ (.ofList (List.replicate size a)), _, ready_ofList ..,
        Nat.le_of_eq hlength, ?_⟩
      rw [hhint, hlimit, Source.lengthHint, hreads, hlength]
      rfl
  set p : Pipeline α := ⟨source, recipe⟩
  have hnot : ¬ p.HasRoom plan xs.length := fun hhas => hroom (hcount ▸ hhas)
  obtain ⟨ys, w', -, hw'⟩ :=
    toList_lowered (p := p) rfl hplan hinfos htotal hready (Nat.le_trans hxs hsize)
  rw [if_neg hnot] at hw'
  exact ⟨p, World.initial, xs, rfl, rfl, rfl, htotal, hready, hxs, w', hw'⟩

end Pipeline

/-! ## A source for which the index is another one -/

/-- Of transforms and ranges where a start stands behind an index, one transform takes the index. -/
theorem OpInfo.exists_indexed {infos : List OpInfo}
    (hinfos : ∀ info ∈ infos, info.construct? = none)
    (h : ¬ infos.Pairwise fun info later => info.isIndexed = true → later.start = 0) :
    ∃ before behind, infos = before ++ .transform true :: behind ∧ 0 < skips behind := by
  induction infos with
  | nil => exact absurd .nil h
  | cons info infos ih =>
    obtain ⟨hinfo, hrest⟩ := List.forall_mem_cons.1 hinfos
    by_cases hlater : infos.Pairwise fun info later => info.isIndexed = true → later.start = 0
    · rw [List.pairwise_cons, not_and] at h
      have hindexed : info.isIndexed = true := by
        by_contra hnot
        exact h (fun later _ hindexed => absurd hindexed hnot) hlater
      have hskips : skips infos ≠ 0 := fun hzero =>
        h (fun later hmem _ => skips_eq_zero.1 hzero later hmem) hlater
      cases info with
      | transform indexed =>
        have hindexed : indexed = true := hindexed
        exact ⟨[], infos, by rw [hindexed]; rfl, Nat.pos_of_ne_zero hskips⟩
      | range start stop => exact absurd hindexed (by simp [isIndexed])
      | _ => exact absurd hinfo (by simp [construct?])
    · obtain ⟨before, behind, rfl, hskips⟩ := ih hrest hlater
      exact ⟨info :: before, behind, rfl, hskips⟩

/-- Where a start stands behind an index and something may come out, some pipeline does not do one
operation after the other. -/
theorem Pipeline.exists_other_index [Nontrivial α] {infos : List OpInfo}
    (hinfos : ∀ info ∈ infos, info.construct? = none) {size width : Nat} (hsize : size ≤ maxCount)
    (hmost : OpInfo.mostFrom (some size) infos ≠ some 0)
    (hindices : ¬ infos.Pairwise fun info later => info.isIndexed = true → later.start = 0)
    (hroom : (Draft.limitFrom .baseline none infos).getD size * width ≤ maxBytes) :
    ∃ (p : Pipeline α) (w : World α) (xs : List α), p.describe = infos
      ∧ p.recipe.config.rangeMode = .baseline ∧ p.recipe.width = width
      ∧ (∀ op ∈ p.recipe.ops, op.Total) ∧ p.Ready w xs ∧ xs.length ≤ size
      ∧ ∃ ys zs w', Op.allOnList p.recipe.ops xs = some ys ∧ p.toList w = .ok zs w' ∧ ys ≠ zs := by
  -- one transform tells the first element, and all other operations stand idle around it
  obtain ⟨before, behind, rfl, hskips⟩ := OpInfo.exists_indexed hinfos hindices
  obtain ⟨a, b, hab⟩ := exists_pair_ne α
  obtain ⟨hbefore, hbehind⟩ := List.forall_mem_append.1 hinfos
  obtain ⟨firsts, rfl, hfirsts⟩ := Op.exists_idle (α := α) hbefore
  obtain ⟨lasts, rfl, hlasts⟩ := Op.exists_idle (α := α) (List.forall_mem_cons.1 hbehind).2
  set ops := firsts ++ .transform (.telling a b) :: lasts with hops
  have hdescribe : ops.map Op.info =
      firsts.map Op.info ++ .transform true :: lasts.map Op.info := List.map_append
  rw [← hdescribe] at hinfos hmost hroom ⊢
  have hconstructs : ∀ op ∈ ops, op.info.construct? = none := fun op hop =>
    hinfos op.info (List.mem_map_of_mem hop)
  have htotal : ∀ op ∈ ops, op.Total := by
    refine List.forall_mem_append.2 ⟨fun op hop => (hfirsts op hop).total, ?_⟩
    exact List.forall_mem_cons.2 ⟨Callback.total_telling a b, fun op hop => (hlasts op hop).total⟩
  -- a source that is long enough for something to come out
  set xs := List.replicate size b
  have hlength : xs.length = size := List.length_replicate
  set p : Pipeline α := ⟨.container ⟨0, none⟩ (.ofList xs), ⟨0, ops, .standard, width⟩⟩
  have hready : p.Ready World.initial xs := ready_ofList ..
  obtain ⟨plan, hplan⟩ : ∃ plan, p.recipe.verdict = .ok plan :=
    exists_plan_of_no_construct rfl hconstructs
  have hhas : p.HasRoom plan xs.length :=
    hasRoom_of_no_construct rfl hplan hinfos (Nat.le_of_eq hlength) hroom
  obtain ⟨zs, w, hzs, hw⟩ :=
    toList_lowered (p := p) rfl hplan hinfos htotal hready (hlength ▸ hsize)
  rw [if_pos hhas] at hw
  obtain ⟨ys, hys, hreach⟩ := Op.allOnList_reaches
    (fun op hop => Op.generous_of_total (htotal op hop) (hconstructs op hop) _)
    (Nat.le_refl (OpInfo.skips (ops.map Op.info) + 1))
    (.inr ⟨size, rfl, Nat.le_of_eq hlength.symm⟩)
  have hsome : ys ≠ [] := ne_nil_of_reaches hreach hmost
  refine ⟨p, World.initial, xs, rfl, rfl, rfl, htotal, hready, Nat.le_of_eq hlength, ys, zs, w,
    hys, hw, fun hsame => hsome ?_⟩
  exact Op.eq_nil_of_telling hab hfirsts hlasts hskips hops hconstructs htotal hys (hsame ▸ hzs)

/-! ## The law of indices -/

/-- Baseline pipelines of transforms and ranges do one operation after the other, for all sources of
at most so many elements of a width, if and only if nothing can come out of them or no start stands
behind a transform that takes an index, and there is room for the limit, or for that many
elements. -/
theorem Pipeline.indices_iff [Nontrivial α] {infos : List OpInfo}
    (hinfos : ∀ info ∈ infos, info.construct? = none) {size : Nat} (hsize : size ≤ maxCount)
    (width : Nat) :
    (∀ (p : Pipeline α) (w : World α) (xs : List α), p.describe = infos →
        p.recipe.config.rangeMode = .baseline → p.recipe.width = width →
        (∀ op ∈ p.recipe.ops, op.Total) → p.Ready w xs → xs.length ≤ size →
        ∃ ys w', Op.allOnList p.recipe.ops xs = some ys ∧ p.toList w = .ok ys w')
      ↔ (OpInfo.mostFrom (some size) infos = some 0
          ∨ infos.Pairwise fun info later => info.isIndexed = true → later.start = 0)
        ∧ (Draft.limitFrom .baseline none infos).getD size * width ≤ maxBytes := by
  constructor
  · intro hlaw
    have hroom : (Draft.limitFrom .baseline none infos).getD size * width ≤ maxBytes := by
      by_contra hroom
      obtain ⟨p, w, xs, hdescribe, hmode, hwidth, htotal, hready, hxs, w', hw'⟩ :=
        exists_without_room (α := α) hinfos hsize hroom
      obtain ⟨ys, v, -, hv⟩ := hlaw p w xs hdescribe hmode hwidth htotal hready hxs
      exact absurd (hw'.symm.trans hv) (by simp)
    refine ⟨?_, hroom⟩
    by_contra hnot
    obtain ⟨hmost, hindices⟩ := not_or.1 hnot
    obtain ⟨p, w, xs, hdescribe, hmode, hwidth, htotal, hready, hxs, ys, zs, w', hys, hzs, hne⟩ :=
      exists_other_index (α := α) hinfos hsize hmost hindices hroom
    obtain ⟨us, v, hus, hv⟩ := hlaw p w xs hdescribe hmode hwidth htotal hready hxs
    cases hzs.symm.trans hv
    exact hne (Option.some.inj (hys.symm.trans hus))
  · rintro ⟨hcondition, hroom⟩ p w xs rfl hmode rfl htotal hready hlength
    obtain ⟨plan, hplan⟩ : ∃ plan, p.recipe.verdict = .ok plan :=
      exists_plan_of_no_construct hmode fun op hop => hinfos op.info (List.mem_map_of_mem hop)
    obtain ⟨ys, w', hys, hw'⟩ := toList_lowered hmode hplan hinfos htotal hready (by omega)
    rw [if_pos (hasRoom_of_no_construct hmode hplan hinfos hlength hroom)] at hw'
    refine ⟨ys, w', ?_, hw'⟩
    rcases hcondition with hmost | hindices
    · -- the same descriptions, so nothing comes out either way
      obtain ⟨zs, hzs⟩ := Op.allOnList_total htotal xs
      have hwithin : Within (some size) xs := fun n hn => Option.some.inj hn ▸ hlength
      have hlowered : OpInfo.mostFrom (some size) ((Op.lowered p.recipe.ops).map Op.info) =
          some 0 := by
        rw [Op.map_info_lowered]
        exact hmost
      rw [hzs, Op.eq_nil_of_mostFrom hwithin hmost hzs, Op.eq_nil_of_mostFrom hwithin hlowered hys]
    · rw [← Op.allOnList_lowered_of hindices]
      exact hys

/-- A start in front of the transform that takes the index. -/
theorem Pipeline.indices_behind_start :
    let p : Pipeline Nat := ⟨.container ⟨0, none⟩ (.ofList [10, 20, 30]),
      ⟨0, [.range 1 none, .transform ⟨none, true, fun x index => some (x + index)⟩], .standard,
        8⟩⟩
    ∃ w', p.toList World.initial = .ok [20, 31] w' := by
  intro p
  have htotal : ∀ op ∈ p.recipe.ops, op.Total := by
    simp only [p, List.forall_mem_cons]
    exact ⟨trivial, fun x index => ⟨_, rfl⟩, nofun⟩
  have hready : p.Ready World.initial [10, 20, 30] := ready_ofList ..
  have hsize : 3 ≤ maxCount := by decide
  have hinfos : ∀ info ∈ p.describe, info.construct? = none := by decide
  obtain ⟨ys, w', hys, hw'⟩ := (indices_iff hinfos hsize 8).2 ⟨.inr (by decide), by decide⟩ p
    World.initial [10, 20, 30] rfl rfl rfl htotal hready (by decide)
  have hvalue : Op.allOnList p.recipe.ops [10, 20, 30] = some [20, 31] := by decide
  rw [← Option.some.inj (hys.symm.trans hvalue)]
  exact ⟨w', hw'⟩

/-- A start behind the transform that takes the index: the second element is called with the index
of the first. -/
theorem Pipeline.indices_before_start :
    let p : Pipeline Nat := ⟨.container ⟨0, none⟩ (.ofList [10, 20]),
      ⟨0, [.transform ⟨none, true, fun x index => some (x + index)⟩, .range 1 none], .standard,
        8⟩⟩
    (∃ w', p.toList World.initial = .ok [20] w')
      ∧ Op.allOnList p.recipe.ops [10, 20] = some [21] := by
  intro p
  have hready : p.Ready World.initial [10, 20] := ready_ofList ..
  exact ⟨toList_of_onList hready rfl rfl (by decide), by decide⟩

end StreamFusion
