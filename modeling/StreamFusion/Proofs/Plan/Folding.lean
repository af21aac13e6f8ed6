import StreamFusion.Proofs.Plan.Compiled

/-!
# Folding ranges into one window

The baseline plan of transforms and ranges skips once and limits once. That is what the ranges do in
their places, but for the indices: a transform that stands before a start no longer sees the
elements that the start passes over. With every index lowered by the starts behind it, the folded
ranges and the ranges in their places agree (`Op.allOnList_lowered`).
-/

namespace StreamFusion

variable {α β : Type}

/-! ## Limits one after the other -/

theorem upTo_upTo (limit other : Option Nat) (xs : List α) :
    upTo limit (upTo other xs) = upTo (Draft.tighter other limit) xs := by
  cases limit <;> cases other <;> simp only [upTo, Draft.tighter, List.take_take]
  rw [Nat.min_comm]

theorem drop_upTo (limit : Option Nat) (count : Nat) (xs : List α) :
    (upTo limit xs).drop count = upTo (limit.map (· - count)) (xs.drop count) := by
  cases limit
  · rfl
  · exact List.drop_take

theorem mem_of_mem_upTo {limit : Option Nat} {x : α} {xs : List α} (h : x ∈ upTo limit xs) :
    x ∈ xs := by
  cases limit
  · exact h
  · exact List.mem_of_mem_take h

namespace Draft

theorem tighter_assoc (a b c : Option Nat) : tighter (tighter a b) c = tighter a (tighter b c) := by
  cases a <;> cases b <;> cases c <;> simp only [tighter]
  rw [Nat.min_assoc]

theorem map_sub_tighter (a b : Option Nat) (count : Nat) :
    (tighter a b).map (· - count) = tighter (a.map (· - count)) (b.map (· - count)) := by
  cases a <;> cases b <;> simp only [tighter, Option.map_none, Option.map_some]
  rw [Nat.sub_min_sub_right]

theorem map_sub_map_sub (limit : Option Nat) (count more : Nat) :
    (limit.map (· - count)).map (· - more) = limit.map (· - (count + more)) := by
  cases limit
  · rfl
  · simp only [Option.map_some, Nat.sub_sub]

/-- An earlier limit is shortened by all the starts behind it. -/
theorem limitFrom_baseline (limit : Option Nat) (infos : List OpInfo) :
    limitFrom .baseline limit infos =
      tighter (limit.map (· - OpInfo.skips infos)) (limitFrom .baseline none infos) := by
  induction infos generalizing limit with
  | nil => cases limit <;> rfl
  | cons info infos ih =>
    rw [OpInfo.skips_cons]
    change limitFrom .baseline (limitAfter .baseline limit info.start info.stop) infos =
      tighter _ (limitFrom .baseline (limitAfter .baseline none info.start info.stop) infos)
    rw [ih (limitAfter .baseline limit info.start info.stop),
      ih (limitAfter .baseline none info.start info.stop), limitAfter, limitAfter,
      map_sub_tighter, map_sub_map_sub, tighter_assoc]
    rfl

theorem limitFrom_baseline_cons (info : OpInfo) (infos : List OpInfo) :
    limitFrom .baseline none (info :: infos) =
      tighter ((info.stop.map (· - info.start)).map (· - OpInfo.skips infos))
        (limitFrom .baseline none infos) :=
  limitFrom_baseline _ infos

/-- Without starts the limit is the smallest stop. -/
theorem limitFrom_of_no_starts {infos : List OpInfo} (h : OpInfo.skips infos = 0) :
    limitFrom .baseline none infos = (infos.filterMap OpInfo.stop).min? := by
  induction infos with
  | nil => rfl
  | cons info infos ih =>
    rw [OpInfo.skips_cons, Nat.add_eq_zero_iff] at h
    rw [limitFrom_baseline_cons, h.1, h.2, ih h.2]
    cases hstop : info.stop with
    | none =>
      rw [List.filterMap_cons_none hstop]
      rfl
    | some stop =>
      rw [List.filterMap_cons_some hstop, List.min?_cons]
      cases (infos.filterMap OpInfo.stop).min? <;> rfl

end Draft

/-! ## Lowered indices -/

/-- The callback with every index lowered. -/
def Callback.lower (count : Nat) (f : Callback α β) : Callback α β :=
  { f with run := fun x index => f.run x (index - count) }

namespace Callback

theorem Total.lower {f : Callback α β} (h : f.Total) (count : Nat) : (f.lower count).Total :=
  fun x index => h x (index - count)

theorem answersFrom_lower (f : Callback α β) (count first : Nat) (xs : List α) :
    (f.lower count).answersFrom (first + count) xs = f.answersFrom first xs := by
  induction xs generalizing first with
  | nil => rfl
  | cons x xs ih =>
    have hx : (f.lower count).answer x (first + count) = f.answer x first := by
      cases hindexed : f.indexed <;> simp [answer, Callback.lower, hindexed]
    rw [answersFrom, answersFrom, hx, show first + count + 1 = first + 1 + count by omega, ih]

theorem answersFrom_lower_of {f : Callback α β} {count : Nat}
    (h : f.indexed = true → count = 0) (first : Nat) (xs : List α) :
    (f.lower count).answersFrom first xs = f.answersFrom first xs := by
  cases hindexed : f.indexed with
  | false =>
    have hlower : (f.lower count).indexed = false := hindexed
    rw [answersFrom_of_not_indexed hlower first (first + count), answersFrom_lower]
  | true =>
    obtain rfl := h hindexed
    exact answersFrom_lower f 0 first xs

end Callback

namespace Op

/-- The operation with the indices of a transform lowered. -/
def lower (count : Nat) : Op α → Op α
  | .transform f => .transform (f.lower count)
  | op => op

/-- The operations with every index lowered by the starts behind it. -/
def lowered : List (Op α) → List (Op α)
  | [] => []
  | op :: ops => op.lower (OpInfo.skips (ops.map Op.info)) :: lowered ops

theorem map_info_lowered (ops : List (Op α)) : (lowered ops).map Op.info = ops.map Op.info := by
  induction ops with
  | nil => rfl
  | cons op ops ih =>
    have hop : (op.lower (OpInfo.skips (ops.map Op.info))).info = op.info := by cases op <;> rfl
    rw [lowered, List.map_cons, List.map_cons, hop, ih]

/-- Indices stay as they are if no start stands behind a transform that takes one. -/
theorem allOnList_lowered_of {ops : List (Op α)}
    (h : (ops.map Op.info).Pairwise fun info later => info.isIndexed = true → later.start = 0)
    (xs : List α) : allOnList (lowered ops) xs = allOnList ops xs := by
  induction ops generalizing xs with
  | nil => rfl
  | cons op ops ih =>
    rw [List.map_cons, List.pairwise_cons] at h
    have hop : (op.lower (OpInfo.skips (ops.map Op.info))).onList xs = op.onList xs := by
      cases op with
      | transform f =>
        refine Callback.answersFrom_lower_of (fun hindexed => ?_) 0 xs
        exact OpInfo.skips_eq_zero.2 fun later hlater => h.1 later hlater hindexed
      | _ => rfl
    rw [lowered, allOnList, hop]
    exact congrArg _ (funext fun ys => ih h.2 ys)

/-! ## The folding -/

/-- Transforms of the first elements are the first ones of all that are transformed. -/
theorem allOnList_upTo {ops : List (Op α)} (hops : ∀ op ∈ ops, op.info.construct? = none)
    {xs ys : List α} (hys : allOnList (withoutRanges ops) xs = some ys) (limit : Option Nat) :
    allOnList (withoutRanges ops) (upTo limit xs) = some (upTo limit ys) := by
  cases limit with
  | none => exact hys
  | some most =>
    simp only [upTo]
    induction ops generalizing xs with
    | nil =>
      rw [← Option.some.inj hys]
      rfl
    | cons op ops ih =>
      obtain ⟨hop, hrest⟩ := List.forall_mem_cons.1 hops
      cases op with
      | transform f =>
        rw [withoutRanges_cons_of_not rfl] at hys ⊢
        obtain ⟨zs, hzs, hlater⟩ := Option.bind_eq_some_iff.1 hys
        have htake : (transform f).onList (xs.take most) = some (zs.take most) :=
          Callback.answersFrom_take hzs most
        rw [allOnList, htake]
        exact ih hrest hlater
      | range start stop => exact ih hrest hys
      | _ => exact absurd hop (by simp [info, OpInfo.construct?])

/-- Ranges in their places, with lowered indices, are one skip in front of the transforms and one
limit behind them. -/
theorem allOnList_lowered {ops : List (Op α)} (hops : ∀ op ∈ ops, op.info.construct? = none)
    (htotal : ∀ op ∈ ops, op.Total) (xs : List α) :
    allOnList (lowered ops) xs =
      (allOnList (withoutRanges ops) (xs.drop (OpInfo.skips (ops.map Op.info)))).map
        (upTo (Draft.limitFrom .baseline none (ops.map Op.info))) := by
  -- from the front, since an index is lowered by the starts that are still to come
  induction ops generalizing xs with
  | nil => rfl
  | cons op ops ih =>
    obtain ⟨hop, hrest⟩ := List.forall_mem_cons.1 hops
    obtain ⟨hfirst, hlater⟩ := List.forall_mem_cons.1 htotal
    set skips := OpInfo.skips (ops.map Op.info)
    rw [lowered, List.map_cons, OpInfo.skips_cons, Draft.limitFrom_baseline_cons]
    cases op with
    | transform f =>
      obtain ⟨ys, hys⟩ := (Callback.Total.lower hfirst skips).answersFrom 0 xs
      -- behind the skip, the callback is asked with the indices from zero on
      have hskipped : f.answersFrom 0 (xs.drop skips) = some (ys.drop skips) := by
        rw [← Callback.answersFrom_lower f skips]
        exact Callback.answersFrom_drop hys skips
      have hstart : (transform f).info.start + skips = skips := Nat.zero_add _
      rw [hstart, withoutRanges_cons_of_not rfl, allOnList, allOnList, lower, onList, hys, onList,
        hskipped]
      exact ih hrest hlater ys
    | range start stop =>
      obtain ⟨zs, hzs⟩ := allOnList_total (total_withoutRanges hlater) (xs.drop (start + skips))
      have hlower : (range start stop : Op α).lower skips = range start stop := rfl
      have hstart : (range start stop : Op α).info.start = start := rfl
      have hstop : (range start stop : Op α).info.stop = stop := rfl
      -- the limit of this range is shortened by the starts behind it, and then tightened
      rw [withoutRanges_cons_range, hstart, hstop, hzs, Option.map_some, ← upTo_upTo, allOnList,
        hlower, onList_range]
      refine (ih hrest hlater _).trans ?_
      rw [Window.pass, drop_upTo, List.drop_drop, allOnList_upTo hrest hzs, Option.map_some]
    | _ => exact absurd hop (by simp [info, OpInfo.construct?])

end Op

end StreamFusion
