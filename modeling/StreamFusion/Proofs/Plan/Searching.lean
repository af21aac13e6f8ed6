import Mathlib.Data.List.Forall2
import StreamFusion.Proofs.Plan.Layout
import StreamFusion.Proofs.Plan.Verdicts

/-!
# Text filters and plain filters

A text filter is planned like a filter that asks for the answer of its query, unless the query is
rejected: then nothing is planned at all. With plain filters in the place of the text filters, the
plan is the same, or it has a test that no element passes, wherever the filter of a rejected query
stands (`verdict_of_searches`).
-/

namespace StreamFusion

variable {α : Type}

/-- The operations are the same, or the first one is a text filter and the second one a plain filter
that asks for the answer of the query. -/
inductive Op.Searches : Op α → Op α → Prop where
  | same (op : Op α) : Searches op op
  | text (query : TextQuery) (field : α → String → Option String) :
    Searches (.textFilter query field) (.filter (.plain fun x => query.accepts (field x)) none)

/-- No element passes the test. -/
def Callback.NeverHolds (test : Callback α Bool) : Prop :=
  ∀ x index, test.answer x index ≠ some true

/-- A step with a test that no element passes. -/
def Step.DropsAll : Step α → Prop
  | .test p _ => p.NeverHolds
  | _ => False

/-- Nothing can come out of the plan. -/
def Plan.DropsAll (plan : Plan α) : Prop := ∃ step ∈ plan.steps, step.DropsAll

section Rejected

variable {query : TextQuery} (h : query.isRejected = true)
include h

theorem TextQuery.accepts_of_isRejected (field : String → Option String) :
    query.accepts field = false := if_pos h

theorem Op.textFilter_of_isRejected (field : α → String → Option String) :
    textFilter query field = .never false (some query) := if_pos h

theorem TextQuery.neverHolds (field : α → String → Option String) :
    (Callback.plain fun x => query.accepts (field x)).NeverHolds := by
  intro x index
  show some (query.accepts (field x)) ≠ some true
  rw [accepts_of_isRejected h]
  simp

end Rejected

/-! ## Drafts -/

namespace Draft

/-- Which query made a filter is not planned. -/
theorem add_textFilter {query : TextQuery} (h : query.isRejected = false)
    (field : α → String → Option String) (mode : RangeMode) (d : Draft α) :
    d.add mode (.textFilter query field) =
      d.add mode (.filter (.plain fun x => query.accepts (field x)) none) := by
  rw [Op.textFilter, if_neg (by simp [h])]
  rfl

/-- The drafts are the same, or there is a filter that is known to keep nothing, and in its place a
test that no element passes. -/
theorem ofOps_of_searches {ops plain : List (Op α)} (h : List.Forall₂ Op.Searches ops plain) :
    (∀ mode, ofOps mode ops = ofOps mode plain)
      ∨ (∃ op ∈ ops, op.info.isNever = true)
        ∧ ∃ test : Callback α Bool, test.NeverHolds ∧ .filter test none ∈ plain := by
  suffices hfold : (∀ mode (d : Draft α), ops.foldl (add mode) d = plain.foldl (add mode) d)
      ∨ (∃ op ∈ ops, op.info.isNever = true)
        ∧ ∃ test : Callback α Bool, test.NeverHolds ∧ .filter test none ∈ plain from
    hfold.imp_left fun hsame mode => hsame mode empty
  induction h with
  | nil => exact .inl fun _ _ => rfl
  | @cons op other ops plain hop _ ih =>
    -- what is found behind the first operation is found in the whole lists
    rcases ih with hsame | ⟨⟨never, hmem, hnever⟩, test, htest, hmem'⟩
    · have hfirst : (∀ mode (d : Draft α), d.add mode op = d.add mode other) →
          ∀ mode (d : Draft α), (op :: ops).foldl (add mode) d =
            (other :: plain).foldl (add mode) d := by
        intro hadd mode d
        rw [List.foldl_cons, List.foldl_cons, hadd, hsame]
      cases hop with
      | same op => exact .inl (hfirst fun _ _ => rfl)
      | text query field =>
        cases hrejected : query.isRejected with
        | false => exact .inl (hfirst (add_textFilter hrejected field))
        | true =>
          refine .inr ⟨⟨_, List.mem_cons_self .., ?_⟩, _, TextQuery.neverHolds hrejected field,
            List.mem_cons_self ..⟩
          rw [Op.textFilter_of_isRejected hrejected]
          rfl
    · exact .inr ⟨⟨never, List.mem_cons_of_mem _ hmem, hnever⟩, test, htest,
        List.mem_cons_of_mem _ hmem'⟩

end Draft

/-! ## Plans -/

variable {ops plain : List (Op α)} {config : Config} {plan : Plan α}

/-- A filter that is known to keep nothing leaves nothing to plan. -/
theorem verdict_of_isNever {op : Op α} (hmem : op ∈ ops) (hnever : op.info.isNever = true)
    (config : Config) : (compile ops config).verdict = .ok .nothing := by
  refine verdict_of_letsNothing (.inl ?_)
  rw [Draft.never_ofOps, List.any_map, List.any_eq_true]
  exact ⟨op, hmem, hnever⟩

/-- Every filter is a step of the plan. -/
theorem exists_test_of_compile (hplan : (compile ops config).verdict = .ok plan)
    (hnever : plan.never = false) {test : Callback α Bool} {search : Option TextQuery}
    (hmem : .filter test search ∈ ops) : ∃ slot, .test test slot ∈ plan.steps := by
  have hstage : .test test ∈ (Op.stages ops).filter Stage.isCall :=
    List.mem_filter.2 ⟨List.mem_filterMap.2 ⟨_, hmem, rfl⟩, rfl⟩
  rw [← (laidOut_of_compile hplan hnever).calls_eq] at hstage
  obtain ⟨step, hstep, hcalls⟩ := List.mem_map.1 (List.mem_filter.1 hstage).1
  cases step with
  | test p slot =>
    obtain rfl := Stage.test.inj hcalls
    exact ⟨slot, hstep⟩
  | _ => exact absurd hcalls (by simp [Step.stage])

/-- With plain filters in the place of text filters the verdict is the same, or the text filters
let nothing pass, and nothing comes out of a plan with the plain filters. -/
theorem verdict_of_searches (h : List.Forall₂ Op.Searches ops plain) (config : Config) :
    (compile ops config).verdict = (compile plain config).verdict
      ∨ (compile ops config).verdict = .ok .nothing
        ∧ ∀ plan, (compile plain config).verdict = .ok plan →
          plan.never = true ∨ plan.DropsAll := by
  rcases Draft.ofOps_of_searches h with hsame | ⟨⟨op, hmem, hnever⟩, test, htest, hmem'⟩
  · left
    rw [compile, compile, hsame]
  · refine .inr ⟨verdict_of_isNever hmem hnever config, fun plan hplan => ?_⟩
    cases hlets : plan.never with
    | true => exact .inl rfl
    | false =>
      obtain ⟨slot, hstep⟩ := exists_test_of_compile hplan hlets hmem'
      exact .inr ⟨_, hstep, htest⟩

end StreamFusion
