import StreamFusion.Pipeline.Building
import StreamFusion.Proofs.Pipeline.Cutting
import StreamFusion.Proofs.Pipeline.Repeating
import StreamFusion.Proofs.Pipeline.Results

/-!
# Slices

A slice is a range behind the other operations, or, where a bound counts from the end, a pipeline
that first collects all elements (`Pipeline.IsSlice`). Both keep what lies between the same two
positions (`sliceItems_eq`, `Op.onList_range_eq`), so what a slice gives does not depend on how it
is made (`Pipeline.toList_ranged`, `Pipeline.toList_collected`); only the room that is made for it
does. A range may ask for more room than its elements need, a collected slice asks for just that.
-/

namespace StreamFusion

variable {α : Type}

/-! ## Bounds -/

/-- The position that a bound means in a list of the given length. A bound below zero counts from
the end, and a bound outside of the list means the nearer end of it. -/
def boundPlace (length : Nat) (bound : Int) : Nat :=
  if bound < 0 then (max 0 ((length : Int) - bound.natAbs)).toNat else (min bound length).toNat

/-- The position where a slice ends: without a bound that is the end of the list, and it is never
before the position where the slice begins. -/
def sliceEnd (length : Nat) (start : Int) (stop : Option Int) : Nat :=
  max (stop.elim length (boundPlace length)) (boundPlace length start)

theorem boundPlace_le (length : Nat) (bound : Int) : boundPlace length bound ≤ length := by
  unfold boundPlace
  split <;> omega

theorem boundPlace_natCast (length bound : Nat) : boundPlace length bound = min bound length := by
  rw [boundPlace, if_neg (by omega)]
  omega

theorem boundPlace_le_sliceEnd (length : Nat) (start : Int) (stop : Option Int) :
    boundPlace length start ≤ sliceEnd length start stop := Nat.le_max_right _ _

theorem sliceEnd_le (length : Nat) (start : Int) (stop : Option Int) :
    sliceEnd length start stop ≤ length := by
  refine Nat.max_le.2 ⟨?_, boundPlace_le length start⟩
  cases stop with
  | none => exact Nat.le_refl length
  | some bound => exact boundPlace_le length bound

theorem sliceBounds_eq (length : Nat) (start : Int) (stop : Option Int) :
    sliceBounds length start stop = (boundPlace length start, sliceEnd length start stop) := by
  have hplace : ∀ bound : Int,
      (if bound < 0 then length - bound.natAbs else min bound.natAbs length) =
        boundPlace length bound := by
    intro bound
    unfold boundPlace
    split <;> omega
  cases stop with
  | none => simp only [sliceBounds, hplace, sliceEnd, Option.elim]
  | some bound => simp only [sliceBounds, hplace, sliceEnd, Option.elim]

/-- To cut off what lies behind the second position, and then what lies before the first one, leaves
what lies between them. -/
theorem sliceItems_eq (items : List α) (start : Int) (stop : Option Int) :
    sliceItems items start stop =
      items.extract (boundPlace items.length start) (sliceEnd items.length start stop) := by
  rw [sliceItems, sliceBounds_eq, List.extract_eq_take_drop, List.drop_take]

/-- A range keeps the items between its bounds. -/
theorem Op.onList_range_eq (lower : Nat) (upper : Option Nat) (xs : List α) :
    (Op.range lower upper).onList xs = some (sliceItems xs lower (upper.map Nat.cast)) := by
  have hdrop : xs.drop (min lower xs.length) = xs.drop lower := by
    rcases Nat.le_total lower xs.length with hle | hle
    · rw [Nat.min_eq_left hle]
    · rw [Nat.min_eq_right hle, List.drop_length, List.drop_of_length_le hle]
  rw [onList_range, sliceItems_eq, List.extract_eq_take_drop, sliceEnd, boundPlace_natCast, hdrop,
    Window.pass]
  congr 1
  cases upper with
  | none =>
    rw [Option.map_none, Option.map_none, Option.elim, List.take_of_length_le]
    · rfl
    · rw [List.length_drop]
      omega
  | some upper =>
    rw [Option.map_some, Option.map_some, Option.elim, boundPlace_natCast]
    show (xs.drop lower).take (upper - lower) = _
    rw [List.take_eq_take_iff, List.length_drop]
    omega

/-! ## How a slice is made -/

/-- What a source that can be read again gives does not depend on which cursors were used up. -/
theorem Source.Gives.elsewhere {sources : Nat → SourceMemo} {source : Source α} {xs : List α}
    (h : source.Gives sources xs) (hsource : source.oneShot? = none) {ledger : Ledger α}
    (hentered : source.EnteredIn ledger) {w : World α} (hw : w.Knows ledger) :
    source.Gives w.sources xs := by
  induction h with
  | @container id box xs holds =>
    refine .container holds fun hknown => ?_
    have hfound := (hw.classes _ _ hknown).symm.trans hentered.1
    rw [readsAs_of_holds id holds] at hfound
    cases hfound
  | replay id answers => exact .replay id answers
  | once answers unused => exact absurd hsource (by simp [oneShot?])
  | mapped below makes answers ih => exact .mapped (ih hsource hentered.2.2) makes answers
  | flattened below makes ih => exact .flattened (ih hsource hentered.2.2) makes
  | sliced below planned makes room ih =>
    exact .sliced (ih hsource hentered.2.2) planned makes room

namespace Pipeline

variable {ledger later : Ledger α} {p q : Pipeline α} {start : Int} {stop : Option Int}

/-- One more range, under a number. -/
def ranged (p : Pipeline α) (lower : Nat) (upper : Option Nat) (serial : Nat) : Pipeline α :=
  ⟨p.source, ⟨serial, p.recipe.ops ++ [.range lower upper], p.recipe.config, p.recipe.width⟩⟩

/-- No operations, over what `p` gives between two bounds. -/
def collected (p : Pipeline α) (start : Int) (stop : Option Int) (id : Ident)
    (below serial : Nat) : Pipeline α :=
  ⟨.derived id (.slice start stop) p.source { p.recipe with serial := below },
    ⟨serial, [], p.recipe.config, p.recipe.width⟩⟩

/-- A bound of the slice counts from the end. -/
def CountsBack (start : Int) (stop : Option Int) : Prop := start < 0 ∨ ∃ bound ∈ stop, bound < 0

theorem not_countsBack_natCast (lower : Nat) (upper : Option Nat) :
    ¬ CountsBack lower (upper.map Nat.cast) := by
  rintro (hneg | ⟨bound, hmem, hneg⟩)
  · omega
  · obtain ⟨n, -, rfl⟩ := Option.map_eq_some_iff.1 hmem
    omega

/-- The pipeline is the one that slicing `p` makes: a range, unless a bound counts from the end. -/
inductive IsSlice (p : Pipeline α) : Int → Option Int → Pipeline α → Prop where
  | ranged (lower : Nat) (upper : Option Nat) (serial : Nat) :
      IsSlice p lower (upper.map Nat.cast) (p.ranged lower upper serial)
  | collected {start : Int} {stop : Option Int} (hback : CountsBack start stop) (id : Ident)
      (below serial : Nat) : IsSlice p start stop (p.collected start stop id below serial)

/-- A slice is always made. -/
theorem slice_ok (p : Pipeline α) (start : Int) (stop : Option Int) (w : World α) :
    ∃ q w', p.slice start stop w = .ok q w' ∧ p.IsSlice start stop q := by
  have hcollected : CountsBack start stop →
      ∃ q w', p.link (.slice start stop) p.recipe.width w = .ok q w' ∧ p.IsSlice start stop q :=
    fun hback => ⟨_, _, rfl, .collected hback _ _ _⟩
  unfold slice
  split
  · exact ⟨_, _, rfl, .ranged _ none _⟩
  · exact ⟨_, _, rfl, .ranged _ (some _) _⟩
  · rename_i hstart hstop
    refine hcollected ?_
    cases start with
    | negSucc n => exact .inl (Int.negSucc_lt_zero n)
    | ofNat lower =>
      cases stop with
      | none => exact absurd rfl (hstart lower rfl)
      | some bound =>
        cases bound with
        | ofNat upper => exact absurd rfl (hstop lower upper rfl)
        | negSucc n => exact .inr ⟨_, rfl, Int.negSucc_lt_zero n⟩

section Sliced

variable {w w' v : World α} {ys : List α} (hp : p.EnteredIn ledger) (hw : w.Knows ledger)
  (hcontract : p.recipe.config.contract = .repeatable) (hsource : p.source.oneShot? = none)
  (hlist : p.toList w = .ok ys v) (hw' : w'.Knows later)
include hp hw hcontract hsource hlist hw'

/-- With one more range, a segmented pipeline gives the items between the bounds, if there is room
for as many as its plan hints at. -/
theorem toList_ranged {lower : Nat} {upper : Option Nat} {serial : Nat}
    (hq : (p.ranged lower upper serial).EnteredIn later) (hfalls : p.recipe.config.FallsBack)
    (htotal : ∀ op ∈ p.recipe.ops, op.Total) {xs : List α} (hgives : p.source.Gives w.sources xs)
    {plan : Plan α} (hplan : (p.ranged lower upper serial).recipe.verdict = .ok plan) :
    ∃ v', (p.ranged lower upper serial).toList w' =
      if (p.ranged lower upper serial).HasRoom plan xs.length then
        .ok (sliceItems ys lower (upper.map Nat.cast)) v'
      else .error .noRoom v' := by
  -- the list is what the operations make of the elements of the source
  obtain ⟨whole, hwhole⟩ := hfalls.exists_plan p.recipe.ops
  obtain ⟨found, u, hfound, hmade⟩ := toList_segmented hfalls.rangeMode_eq hwhole htotal
    (ready_of_entered hp hw hcontract hgives)
  rw [hlist] at hmade
  split at hmade
  · obtain rfl : ys = found := (EStateM.Result.ok.inj hmade).1
    have hcut : Op.allOnList (p.recipe.ops ++ [.range lower upper]) xs =
        some (sliceItems ys lower (upper.map Nat.cast)) := by
      rw [Op.allOnList_concat, hfound, Option.bind_some, Op.onList_range_eq]
    have hready : (p.ranged lower upper serial).Ready w' xs :=
      ready_of_entered hq hw' hcontract (hgives.elsewhere hsource hq.source hw')
    exact toList_eq hready hplan (onList_of_segmented hfalls.rangeMode_eq hplan hcut)
  · cases hmade

/-- A pipeline without operations gives what it collects, if there is room for that. -/
theorem toList_collected {id : Ident} {below serial : Nat}
    (hq : (p.collected start stop id below serial).EnteredIn later) :
    ∃ v', (p.collected start stop id below serial).toList w' =
      if p.recipe.HasRoom (sliceItems ys start stop).length then
        .ok (sliceItems ys start stop) v'
      else .error .noRoom v' := by
  set q : Pipeline α := p.collected start stop id below serial
  let base : Recipe α := { p.recipe with serial := below }
  obtain ⟨-, hbase, hbelow⟩ : _ ∧ base.EnteredIn later ∧ p.source.EnteredIn later := hq.source
  let plan : Plan α := Draft.empty.toPlan
  have hverdict : q.recipe.verdict = .ok plan := compile_nil p.recipe.config
  obtain ⟨u, hu, hplan⟩ := q.recipe.plan_answers hq.recipe w' hw'
  rw [hverdict] at hplan
  -- the recipe below does what `p` does, so it collects the list again
  have hagain : ∃ u', base.collect p.source.opening u = .ok ys u' ∧ u'.Knows later := by
    rw [toList, claim_of_repeatable hcontract, pure_bind] at hlist
    have hagrees := Recipe.collect_agrees hp.recipe hbase rfl
      (Source.opening_agrees hp.source hbelow hsource) rfl w u hw hu
    rw [hlist] at hagrees
    generalize base.collect p.source.opening u = result at hagrees
    cases hagrees with
    | ok hsame _ hu' => exact ⟨_, by rw [hsame], hu'⟩
  obtain ⟨u', hcollect, hu'⟩ := hagain
  let items : List α := sliceItems ys start stop
  have hopening : q.source.opening u = .ok (.owned items) u' := Act.bind_ok hcollect
  have hstart : q.recipe.start q.source.opening w' = .ok (some (plan, .owned items)) u' := by
    rw [Recipe.start, Act.bind_ok hplan, if_neg (by simp [plan, Draft.toPlan]),
      Act.bind_ok hopening]
    rfl
  have hholds : (Opened.owned items).Holds items := rfl
  rw [toList, claim_of_repeatable (p := q) hcontract, pure_bind, Recipe.collect,
    Act.bind_ok hstart]
  by_cases hroom : p.recipe.HasRoom items.length
  · have hroom' : q.recipe.HasRoom (plan.capacityHint (Opened.owned items).lengthHint) := hroom
    obtain ⟨stats, v', hconduct, -, -⟩ := Plan.conduct_ok (numbered_of_compile hverdict) hholds rfl
      (Sink.handAll_collect [] 0 items) hu'.keeps
    rw [List.append_nil] at hconduct
    refine ⟨v', ?_⟩
    simp only
    rw [Act.bind_ok (Recipe.reserve_ok hroom' u'), Act.bind_ok hconduct, if_pos hroom]
    simp only [List.reverse_reverse]
    rfl
  · have hroom' : ¬ q.recipe.HasRoom (plan.capacityHint (Opened.owned items).lengthHint) := hroom
    refine ⟨{ u' with journal := u'.journal.record (Opened.owned items).discard }, ?_⟩
    rw [if_neg hroom]
    exact Act.bind_error (Recipe.reserve_error hroom' u')

/-- A slice with a bound that counts from the end. -/
theorem IsSlice.toList_back (h : p.IsSlice start stop q) (hback : CountsBack start stop)
    (hq : q.EnteredIn later) :
    ∃ v', q.toList w' =
      if p.recipe.HasRoom (sliceItems ys start stop).length then
        .ok (sliceItems ys start stop) v'
      else .error .noRoom v' := by
  cases h with
  | ranged lower upper serial => exact absurd hback (not_countsBack_natCast lower upper)
  | collected _ id below serial => exact toList_collected hp hw hcontract hsource hlist hw' hq

/-- A slice without such a bound. -/
theorem IsSlice.toList_forth (h : p.IsSlice start stop q) (hforth : ¬ CountsBack start stop)
    (hq : q.EnteredIn later) (hfalls : p.recipe.config.FallsBack)
    (htotal : ∀ op ∈ p.recipe.ops, op.Total) {xs : List α} (hgives : p.source.Gives w.sources xs)
    {plan : Plan α} (hplan : q.recipe.verdict = .ok plan) :
    ∃ v', q.toList w' =
      if q.HasRoom plan xs.length then .ok (sliceItems ys start stop) v'
      else .error .noRoom v' := by
  cases h with
  | ranged lower upper serial =>
    exact toList_ranged hp hw hcontract hsource hlist hw' hq hfalls htotal hgives hplan
  | collected hback id below serial => exact absurd hback hforth

end Sliced

theorem IsSlice.config_eq (h : p.IsSlice start stop q) : q.recipe.config = p.recipe.config := by
  cases h <;> rfl

end Pipeline

end StreamFusion
