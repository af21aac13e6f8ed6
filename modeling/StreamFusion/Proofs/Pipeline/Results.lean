import StreamFusion.Pipeline.Description
import StreamFusion.Proofs.Pipeline.Sources
import StreamFusion.Proofs.Plan.Folding

/-!
# Results of pipelines

What `toList` gives for a pipeline that is ready to run: what the plan makes of the elements of the
source, if there is room for as many as the plan hints at (`Pipeline.toList_eq`). In segmented mode
that is the operations one after the other; in baseline mode the ranges are folded into one window
around the other operations. The hint is no more than the elements of a source that can be read by
position; for any other source it is the limit, however few elements there are.
-/

namespace StreamFusion

variable {α : Type}

namespace Pipeline

/-- The pipeline may run, its source gives these elements, and what is remembered of its recipes is
what planning gives for them. -/
structure Ready (p : Pipeline α) (w : World α) (xs : List α) : Prop where
  unclaimed : p.recipe.config.contract = .singleUse →
    (w.recipes p.recipe.serial).isConsumed = false
  remembered : ∃ book, w.Keeps book ∧ ∀ recipe ∈ p.recipe :: p.source.recipes, recipe.ListedIn book
  gives : p.source.Gives w.sources xs

/-- As long as nothing is remembered of recipes, a pipeline that reads no other one is ready. -/
theorem ready_of_unplanned {p : Pipeline α} {w : World α} {xs : List α}
    (hrecipes : w.recipes = World.initial.recipes) (hbelow : p.source.recipes = [])
    (hgives : p.source.Gives w.sources xs) : p.Ready w xs where
  unclaimed := fun _ => by
    rw [hrecipes]
    rfl
  remembered := by
    have hkeeps : w.Keeps fun _ => p.recipe.verdict := (World.keeps_initial _).of_recipes_eq hrecipes
    refine ⟨_, hkeeps, fun recipe hmem => ?_⟩
    rw [hbelow, List.mem_singleton] at hmem
    rw [hmem]
    rfl
  gives := hgives

/-- In the first world every pipeline over a list is ready. -/
theorem ready_ofList (id : Ident) (items : List α) (recipe : Recipe α) :
    Ready ⟨.container id (.ofList items), recipe⟩ World.initial items :=
  ready_of_unplanned rfl rfl
    (.container (Container.holds_ofList items) (by simp [World.initial]))

/-- In the first world every pipeline over a cursor is ready. -/
theorem ready_replay (id : Ident) (answers : List (Option α)) (recipe : Recipe α) :
    Ready ⟨.replay id answers, recipe⟩ World.initial (heard answers) :=
  ready_of_unplanned rfl rfl (.replay id answers)

theorem claim_ok {p : Pipeline α} {w : World α} {book : Nat → Except Refusal (Plan α)}
    (hunclaimed : p.recipe.config.contract = .singleUse →
      (w.recipes p.recipe.serial).isConsumed = false) (hkeeps : w.Keeps book) :
    ∃ w', p.claim w = .ok () w' ∧ w'.sources = w.sources ∧ w'.Keeps book := by
  unfold claim
  cases hcontract : p.recipe.config.contract with
  | repeatable => exact ⟨w, rfl, rfl, hkeeps⟩
  | singleUse =>
    have hmemo : Act.recipeMemo p.recipe.serial w = .ok (w.recipes p.recipe.serial) w := rfl
    simp only
    rw [Act.bind_ok hmemo, if_neg (by rw [hunclaimed hcontract]; simp)]
    exact hkeeps.updateRecipe _ _ fun verdict hverdict => hkeeps _ _ hverdict

variable {p : Pipeline α} {w : World α} {xs ys : List α} {plan : Plan α}

/-- All elements of a pipeline are what its plan makes of the elements of the source, if there is
room for as many as it hints at. -/
theorem toList_eq (h : p.Ready w xs) (hplan : p.recipe.verdict = .ok plan)
    (hys : plan.onList xs = some ys) :
    ∃ w', p.toList w =
      if p.HasRoom plan xs.length then .ok ys w' else .error .noRoom w' := by
  obtain ⟨book, hkeeps, hlisted⟩ := h.remembered
  obtain ⟨hrecipe, hsource⟩ := List.forall_mem_cons.1 hlisted
  obtain ⟨w₁, hclaim, hsources, hkeeps₁⟩ := claim_ok h.unclaimed hkeeps
  have hopens : Act.Opens book w₁.sources (p.source.lengthHint xs.length) xs
      p.source.opening := by
    rw [hsources]
    exact h.gives.opens hsource
  obtain ⟨w₂, hcollect, -⟩ := p.recipe.collect_eq hkeeps₁ hrecipe hplan hopens hys
  rw [toList, Act.bind_ok hclaim]
  exact ⟨w₂, hcollect⟩

theorem toList_of_onList (h : p.Ready w xs) (hplan : p.recipe.verdict = .ok plan)
    (hys : plan.onList xs = some ys) (hroom : p.HasRoom plan xs.length) :
    ∃ w', p.toList w = .ok ys w' := by
  obtain ⟨w', hw'⟩ := toList_eq h hplan hys
  rw [if_pos hroom] at hw'
  exact ⟨w', hw'⟩

theorem toList_of_not_hasRoom (h : p.Ready w xs) (hplan : p.recipe.verdict = .ok plan)
    (hys : plan.onList xs = some ys) (hroom : ¬ p.HasRoom plan xs.length) :
    ∃ w', p.toList w = .error .noRoom w' := by
  obtain ⟨w', hw'⟩ := toList_eq h hplan hys
  rw [if_neg hroom] at hw'
  exact ⟨w', hw'⟩

/-! ## Segmented mode -/

/-- A segmented pipeline does one operation after the other, each on the whole list, if there is
room for as many elements as its plan hints at; otherwise it gives no list. -/
theorem toList_segmented (hmode : p.recipe.config.rangeMode = .segmented)
    (hplan : p.recipe.verdict = .ok plan) (htotal : ∀ op ∈ p.recipe.ops, op.Total)
    (h : p.Ready w xs) :
    ∃ ys w', Op.allOnList p.recipe.ops xs = some ys
      ∧ p.toList w = if p.HasRoom plan xs.length then .ok ys w' else .error .noRoom w' := by
  obtain ⟨ys, hys⟩ := Op.allOnList_total htotal xs
  obtain ⟨w', hw'⟩ := toList_eq h hplan (onList_of_segmented hmode hplan hys)
  exact ⟨ys, w', hys, hw'⟩

/-- Numbers that are marked by their index, cut, doubled and cut again. -/
theorem toList_segmented_cut_twice :
    let p : Pipeline Nat := ⟨.container ⟨0, none⟩ (.ofList [5, 6, 7, 8]),
      ⟨0, [.transform ⟨none, true, fun x index => some (x * 10 + index)⟩, .range 1 none,
        .flatten (.plain fun x => [x, x + 1]), .range 1 (some 4)], .segmented, 8⟩⟩
    ∃ w', p.toList World.initial = .ok [62, 72, 73] w' := by
  intro p
  have htotal : ∀ op ∈ p.recipe.ops, op.Total := by
    simp only [p, List.forall_mem_cons]
    exact ⟨fun x index => ⟨_, rfl⟩, trivial, Callback.total_plain _, trivial, nofun⟩
  have hready : p.Ready World.initial [5, 6, 7, 8] := ready_ofList ..
  obtain ⟨ys, w', hys, hw'⟩ := toList_segmented (p := p) rfl rfl htotal hready
  have hvalue : Op.allOnList p.recipe.ops [5, 6, 7, 8] = some [62, 72, 73] := by decide
  rw [if_pos (by decide)] at hw'
  rw [← Option.some.inj (hys.symm.trans hvalue)]
  exact ⟨w', hw'⟩

/-- Three elements of a cursor, under the largest limit: there is no room for as many elements. -/
theorem toList_segmented_without_room :
    let p : Pipeline Nat := ⟨.replay ⟨0, none⟩ [some 1, some 2, some 3],
      ⟨1, [.range 0 (some maxCount)], .segmented, 8⟩⟩
    Op.allOnList p.recipe.ops [1, 2, 3] = some [1, 2, 3]
      ∧ ∃ w', p.toList World.initial = .error .noRoom w' := by
  intro p
  have hready : p.Ready World.initial [1, 2, 3] := ready_replay ..
  exact ⟨rfl, toList_of_not_hasRoom hready rfl rfl (by decide)⟩

/-! ## Baseline mode -/

/-- A baseline pipeline of transforms and ranges does one operation after the other, but with every
index lowered by the starts behind it. -/
theorem toList_lowered (hmode : p.recipe.config.rangeMode = .baseline)
    (hplan : p.recipe.verdict = .ok plan) (hops : ∀ info ∈ p.describe, info.construct? = none)
    (htotal : ∀ op ∈ p.recipe.ops, op.Total) (h : p.Ready w xs) (hxs : xs.length ≤ maxCount) :
    ∃ ys w', Op.allOnList (Op.lowered p.recipe.ops) xs = some ys
      ∧ p.toList w = if p.HasRoom plan xs.length then .ok ys w' else .error .noRoom w' := by
  have hops' : ∀ op ∈ p.recipe.ops, op.info.construct? = none := fun op hop =>
    hops op.info (List.mem_map_of_mem hop)
  obtain ⟨ys, hys⟩ := Op.allOnList_total (Op.total_withoutRanges htotal)
    (xs.drop (OpInfo.skips p.describe))
  obtain ⟨w', hw'⟩ := toList_eq h hplan (onList_of_baseline hmode hplan hxs hys)
  refine ⟨_, w', ?_, hw'⟩
  have hfold := Op.allOnList_lowered hops' htotal xs
  rw [describe] at hys
  rw [hfold, hys, Option.map_some]

/-- A baseline pipeline of transforms and ranges does one operation after the other if no start
stands behind a transform that takes an index. Without starts, a baseline pipeline of any operations
gives the first elements that the operations give without the ranges, up to the smallest stop. Both
hold if there is room for as many elements as the plan hints at; otherwise there is no list. -/
theorem toList_baseline (hmode : p.recipe.config.rangeMode = .baseline)
    (hplan : p.recipe.verdict = .ok plan) (htotal : ∀ op ∈ p.recipe.ops, op.Total)
    (h : p.Ready w xs) (hxs : xs.length ≤ maxCount) :
    ((∀ info ∈ p.describe, info.construct? = none) →
        (p.describe.Pairwise fun info later => info.isIndexed = true → later.start = 0) →
        ∃ ys w', Op.allOnList p.recipe.ops xs = some ys
          ∧ p.toList w = if p.HasRoom plan xs.length then .ok ys w' else .error .noRoom w')
      ∧ ((∀ info ∈ p.describe, info.start = 0) →
        ∃ ys w', Op.allOnList (Op.withoutRanges p.recipe.ops) xs = some ys
          ∧ p.toList w = if p.HasRoom plan xs.length then
              .ok (upTo (p.describe.filterMap OpInfo.stop).min? ys) w'
            else .error .noRoom w') := by
  constructor
  · intro hops hindices
    obtain ⟨ys, w', hys, hw'⟩ := toList_lowered hmode hplan hops htotal h hxs
    rw [Op.allOnList_lowered_of hindices] at hys
    exact ⟨ys, w', hys, hw'⟩
  · intro hstarts
    have hskips : OpInfo.skips p.describe = 0 := OpInfo.skips_eq_zero.2 hstarts
    obtain ⟨ys, hys⟩ := Op.allOnList_total (Op.total_withoutRanges htotal) xs
    have hskipped :
        Op.allOnList (Op.withoutRanges p.recipe.ops) (xs.drop (OpInfo.skips p.describe)) =
          some ys := by
      rw [hskips]
      exact hys
    obtain ⟨w', hw'⟩ := toList_eq h hplan (onList_of_baseline hmode hplan hxs hskipped)
    have hlimit : Draft.limitFrom .baseline none (p.recipe.ops.map Op.info) =
        (p.describe.filterMap OpInfo.stop).min? := Draft.limitFrom_of_no_starts hskips
    rw [hlimit] at hw'
    exact ⟨ys, w', hys, hw'⟩

/-- Starts whose sum is no count any more, with an index behind the last of them, and a filter with
an index between two limits. -/
theorem toList_baseline_two_runs :
    let p : Pipeline Nat := ⟨.container ⟨0, none⟩ (.ofList [5, 6, 7]),
      ⟨0, [.transform (.plain fun x => x * 10), .range maxCount none, .range 1 (some 2),
        .transform ⟨none, true, fun x index => some (x + index)⟩], .standard, 8⟩⟩
    let q : Pipeline Nat := ⟨.container ⟨0, none⟩ (.ofList [5, 6, 7, 8, 9]),
      ⟨0, [.range 0 (some 3), .filter ⟨none, true, fun _ index => some (index != 1)⟩ none,
        .range 0 (some 2)], .standard, 8⟩⟩
    (∃ w', p.toList World.initial = .ok [] w') ∧ ∃ w', q.toList World.initial = .ok [5, 7] w' := by
  intro p q
  constructor
  · have htotal : ∀ op ∈ p.recipe.ops, op.Total := by
      simp only [p, List.forall_mem_cons]
      exact ⟨Callback.total_plain _, trivial, trivial, fun x index => ⟨_, rfl⟩, nofun⟩
    have hready : p.Ready World.initial [5, 6, 7] := ready_ofList ..
    obtain ⟨hfold, -⟩ := toList_baseline (p := p) rfl rfl htotal hready (by decide)
    obtain ⟨ys, w', hys, hw'⟩ := hfold (by decide) (by decide)
    have hvalue : Op.allOnList p.recipe.ops [5, 6, 7] = some [] := rfl
    rw [if_pos (by decide)] at hw'
    rw [← Option.some.inj (hys.symm.trans hvalue)]
    exact ⟨w', hw'⟩
  · have htotal : ∀ op ∈ q.recipe.ops, op.Total := by
      simp only [q, List.forall_mem_cons]
      exact ⟨trivial, fun x index => ⟨_, rfl⟩, trivial, nofun⟩
    have hready : q.Ready World.initial [5, 6, 7, 8, 9] := ready_ofList ..
    obtain ⟨-, hlimit⟩ := toList_baseline (p := q) rfl rfl htotal hready (by decide)
    obtain ⟨ys, w', hys, hw'⟩ := hlimit (by decide)
    have hvalue : Op.allOnList (Op.withoutRanges q.recipe.ops) [5, 6, 7, 8, 9] =
        some [5, 7, 8, 9] := by decide
    rw [if_pos (by decide), Option.some.inj (hys.symm.trans hvalue)] at hw'
    exact ⟨w', hw'⟩

/-- Three elements of a cursor under the largest limit, with and without a filter: there is no room
for as many elements. -/
theorem toList_baseline_without_room :
    let source : Source Nat := .replay ⟨0, none⟩ [some 1, some 2, some 3]
    let p : Pipeline Nat := ⟨source, ⟨1, [.range 0 (some maxCount)], .standard, 8⟩⟩
    let q : Pipeline Nat :=
      ⟨source, ⟨2, [.filter (.plain fun x => x != 2) none, .range 0 (some maxCount)], .standard, 8⟩⟩
    (Op.allOnList p.recipe.ops [1, 2, 3] = some [1, 2, 3]
        ∧ ∃ w', p.toList World.initial = .error .noRoom w')
      ∧ Op.allOnList (Op.withoutRanges q.recipe.ops) [1, 2, 3] = some [1, 3]
      ∧ ∃ w', q.toList World.initial = .error .noRoom w' := by
  intro source p q
  have hp : p.Ready World.initial [1, 2, 3] := ready_replay ..
  have hq : q.Ready World.initial [1, 2, 3] := ready_replay ..
  exact ⟨⟨rfl, toList_of_not_hasRoom hp rfl rfl (by decide)⟩, rfl,
    toList_of_not_hasRoom hq rfl rfl (by decide)⟩

end Pipeline

end StreamFusion
