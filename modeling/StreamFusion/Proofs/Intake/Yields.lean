import StreamFusion.Proofs.Run.Results
import StreamFusion.Run.Sinks

/-!
# What intakes yield

Which elements every kind of intake gives, from the elements of the intake below it. A staged intake
yields what its plan makes of the elements below (`Plan.yields_intake`).
-/

namespace StreamFusion

variable {α : Type}

/-- The elements that a cursor gives before it first has nothing to give. -/
def heard : List (Option α) → List α
  | some x :: answers => x :: heard answers
  | _ => []

/-- Collecting hands out all elements. -/
theorem Sink.handAll_collect (acc : List α) (emitted : Nat) (xs : List α) :
    Sink.collect.handAll acc emitted xs = some (xs.reverse ++ acc, emitted + xs.length) := by
  induction xs generalizing acc emitted with
  | nil => rfl
  | cons x xs ih =>
    rw [handAll]
    change Sink.collect.handAll (x :: acc) (emitted + 1) xs = _
    rw [ih, List.reverse_cons, List.append_assoc, List.singleton_append, List.length_cons]
    congr 2
    omega

namespace Intake

theorem yields_shelf {box : Container α} {xs : List α} (h : box.Holds xs) (source : Ident)
    (position : Nat) : (shelf source box position).Yields (xs.drop position) := by
  induction hleft : xs.length - position generalizing position with
  | zero =>
    have hnot : ¬ position < box.size := by rw [h.size_eq]; omega
    rw [List.drop_eq_nil_of_le (by omega)]
    exact .nothing (by rw [pull, if_neg hnot])
  | succ n ih =>
    have hlt : position < xs.length := by omega
    have hsize : position < box.size := by rw [h.size_eq]; exact hlt
    have hread : box.get? position = some xs[position] := by
      rw [h.get?_eq position hsize, List.getElem?_eq_getElem hlt]
    rw [List.drop_eq_getElem_cons hlt]
    exact .item (by rw [pull, if_pos hsize, hread]) (ih (position + 1) (by omega))

theorem yields_owned (items : List α) : (owned items).Yields items := by
  induction items with
  | nil => exact .nothing rfl
  | cons x items ih => exact .item rfl ih

theorem yields_cursor (source : Ident) (answers : List (Option α)) :
    (cursor source answers true).Yields (heard answers) := by
  induction answers with
  | nil => exact .nothing rfl
  | cons answer answers ih =>
    cases answer with
    | none => exact .nothing rfl
    | some x => exact .item rfl ih

theorem yields_mapped {f : Callback α α} {below : Intake α} {xs ys : List α}
    (hbelow : below.Yields xs) (h : List.Forall₂ (fun x y => f.answer x 0 = some y) xs ys) :
    (mapped f below).Yields ys := by
  induction hbelow generalizing ys with
  | nothing moved =>
    cases h
    exact .nothing (by rw [pull, moved])
  | again moved later ih => exact .again (by rw [pull, moved]) (ih h)
  | @item intake rest events x xs moved later ih =>
    obtain _ | ⟨hx, hxs⟩ := h
    rename_i y ys
    have hpull : (mapped f intake).pull = ⟨events ++ [f.event x 0], .item y, mapped f rest⟩ := by
      rw [pull, moved]
      simp only [replace, hx]
    exact .item hpull (ih hxs)

theorem yields_flattened {items : α → List α} {below : Intake α} {xs : List α}
    (hbelow : below.Yields xs) (ready : List α) :
    (flattened items ready below).Yields (ready ++ xs.flatMap items) := by
  have hready : ∀ {below : Intake α} {zs : List α}, (flattened items [] below).Yields zs →
      ∀ ready, (flattened items ready below).Yields (ready ++ zs) := by
    intro below zs h ready
    induction ready with
    | nil => exact h
    | cons x ready ih => exact .item rfl ih
  induction hbelow generalizing ready with
  | nothing moved => exact hready (.nothing (by rw [pull, moved])) ready
  | again moved later ih => exact hready (.again (by rw [pull, moved]) (ih [])) ready
  | @item intake rest events x xs moved later ih =>
    refine hready (.again (by rw [pull, moved]) ?_) ready
    rw [List.flatMap_cons]
    exact ih (items x)

theorem yields_ready {plan : Plan α} {counters : Counters} {finished : Bool} {below : Intake α}
    {zs : List α} (h : (staged plan counters [] finished below).Yields zs) (ready : List α) :
    (staged plan counters ready finished below).Yields (ready ++ zs) := by
  induction ready with
  | nil => exact h
  | cons x ready ih => exact .item rfl ih

theorem yields_finished (plan : Plan α) (counters : Counters) (ready : List α) (below : Intake α) :
    (staged plan counters ready true below).Yields ready := by
  have hempty : (staged plan counters [] true below).Yields [] := .nothing rfl
  have hready := yields_ready hempty ready
  rw [List.append_nil] at hready
  exact hready

end Intake

namespace Plan

variable {plan : Plan α} {xs ys : List α}

/-- What was collected before stands in front of what is still to be collected. -/
theorem Underway.collect {s : RunState α (List α)} {final : List α × Nat}
    (h : plan.Underway Sink.collect s xs final) :
    ∃ later, plan.Underway Sink.collect ⟨s.counters, [], .empty⟩ xs later
      ∧ final.1.reverse = s.acc.reverse ++ later.1.reverse := by
  obtain ⟨ys, hys, hfinal⟩ := h.pending
  rw [Sink.handAll_collect, Option.some.injEq] at hfinal
  refine ⟨_, ⟨h.sized, h.isSealed, ys, hys, Sink.handAll_collect [] _ ys⟩, ?_⟩
  rw [← hfinal, List.append_nil, List.reverse_append, List.reverse_reverse]

theorem Underway.yields_staged (hnumbered : plan.Numbered) {below : Intake α}
    (hbelow : below.Yields xs) {counters : Counters} {final : List α × Nat}
    (h : plan.Underway Sink.collect ⟨counters, [], .empty⟩ xs final) :
    (Intake.staged plan counters [] false below).Yields final.1.reverse := by
  induction hbelow generalizing counters final with
  | nothing moved =>
    rw [h.eq_of_nil]
    exact .nothing (by rw [Intake.pull, moved])
  | again moved later ih => exact .again (by rw [Intake.pull, moved]) (ih h)
  | @item intake rest events x xs moved later ih =>
    have hpull : (Intake.staged plan counters [] false intake).pull =
        Intake.stage plan counters events x rest := by
      rw [Intake.pull, moved]
    rcases h.feed hnumbered with ⟨s', hfeed, h'⟩ | ⟨s', hfeed, hs'⟩
    · obtain ⟨final', hfinal', hsplit⟩ := h'.collect
      refine .again (hpull.trans (by rw [Intake.stage, hfeed])) ?_
      rw [hsplit]
      exact Intake.yields_ready (ih hfinal') _
    · refine .again (hpull.trans (by rw [Intake.stage, hfeed])) ?_
      rw [hs']
      exact Intake.yields_finished plan _ _ _

/-- The intake of a plan yields what the plan makes of the elements of the source. -/
theorem yields_intake (hnumbered : plan.Numbered) {opened : Opened α} (hholds : opened.Holds xs)
    (hresults : plan.onList xs = some ys) : (plan.intake opened).Yields ys := by
  rw [onList] at hresults
  cases hnever : plan.never with
  | true =>
    rw [hnever, if_pos rfl, Option.some.injEq] at hresults
    subst hresults
    cases opened <;> simp only [intake, hnever] <;> exact Intake.yields_finished ..
  | false =>
    rw [hnever, if_neg (by simp)] at hresults
    have hcollect := Sink.handAll_collect [] 0 ys
    have hreverse : ys = (ys.reverse ++ []).reverse := by
      rw [List.append_nil, List.reverse_reverse]
    rw [hreverse]
    cases opened with
    | indexed source box =>
      rw [intake, hnever]
      exact (underway_startAfterJump hnumbered hresults hcollect _).yields_staged hnumbered
        (Intake.yields_shelf hholds source _)
    | owned items =>
      rw [intake, hnever]
      exact (underway_start hresults hcollect).yields_staged hnumbered
        (hholds ▸ Intake.yields_owned items)
    | sequential intake =>
      rw [Plan.intake, hnever]
      exact (underway_start hresults hcollect).yields_staged hnumbered hholds

end Plan

end StreamFusion
