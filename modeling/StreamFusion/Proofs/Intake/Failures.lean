import StreamFusion.Proofs.Intake.Resuming
import StreamFusion.Proofs.Run.Holes
import StreamFusion.Proofs.Run.Stopping
import StreamFusion.Proofs.Run.Trails

/-!
# Iterators and failures

A callback that fails while an iterator is asked takes away the element that it failed at and what
was to come of the same element of the source behind it. What came out before is given by the next
calls, and the counters stand as the failure has left them. So an iterator that is asked past all
failures gives what came out of one element of the source after another (`Plan.outlasts_failures`).
-/

namespace StreamFusion

variable {α : Type}

/-! ## The life of an iterator -/

namespace Trail

variable (trail : Trail α (List α))

/-- The elements that came out of the plan. -/
def emitted : List α := trail.acc.reverse

/-- Nothing is fed behind this trail, which began with these counters. A failure ends nothing. -/
def ends (c : Counters) : Bool :=
  match trail.fate with
  | .ok .onward => (c.afterAll trail.marks).isSealed
  | .ok .stop => true
  | .error _ => false

/-- What an iterator answers for an element of the source: first that a callback failed, if one did,
and then what came out. -/
def outcomes : List (Intake.Outcome α) :=
  match trail.fate with
  | .ok _ => trail.emitted.map .item
  | .error culprit => .failed culprit :: trail.emitted.map .item

end Trail

namespace Plan

variable (plan : Plan α)

/-- The trail of one element of the source, from these counters on. -/
def trail (c : Counters) (x : α) : Trail α (List α) := Step.trail .collect plan.steps c [] x

/-- The trails of the elements of the source, each from the counters that the one before has left.
Nobody asks whether the run should stop. -/
def trails : Counters → List α → List (Trail α (List α))
  | _, [] => []
  | c, x :: xs => plan.trail c x :: trails (c.afterAll (plan.trail c x).marks) xs

/-- The same up to the first trail that ends the run. -/
def trailsToEnd : Counters → List α → List (Trail α (List α))
  | _, [] => []
  | c, x :: xs =>
    let first := plan.trail c x
    if first.ends c then [first] else first :: trailsToEnd (c.afterAll first.marks) xs

theorem left_feed (c : Counters) (x : α) :
    RunM.left (RunM.feed .collect plan.steps x ⟨c, [], .empty⟩) =
      (plan.trail c x).left ⟨c, [], .empty⟩ := by
  rw [RunM.feed_eq_trail, Trail.result, trail]
  split <;> rfl

/-- What an iterator does with an element of the source. -/
theorem feed_eq_trail (c : Counters) (x : α) :
    plan.feed .collect x ⟨c, [], .empty⟩ =
      match (plan.trail c x).fate with
      | .error culprit => .failed culprit ((plan.trail c x).left ⟨c, [], .empty⟩)
      | .ok _ =>
        if (plan.trail c x).ends c then .stopped ((plan.trail c x).left ⟨c, [], .empty⟩)
        else .onward ((plan.trail c x).left ⟨c, [], .empty⟩) := by
  rw [feed, RunM.feed_eq_trail, Trail.result, Trail.ends, trail]
  rcases (Step.trail .collect plan.steps c [] x).fate with culprit | _ | _
  · rfl
  · rfl
  · rfl

/-! ## Asking past failures -/

variable {plan}

/-- Asked past all failures, an iterator answers for one element of the source after another. -/
theorem answers_trails {below : Intake α} {xs : List α} (h : below.Yields xs) (c : Counters) :
    (Intake.staged plan c [] false below).Answers
      ((plan.trailsToEnd c xs).flatMap Trail.outcomes) := by
  induction h generalizing c with
  | nothing moved =>
    exact .of_nothing (Intake.pull_exhausted moved) (Intake.done_finished ..).answers
  | again moved later ih => exact .of_again (Intake.pull_again moved) (ih c)
  | @item intake rest events x xs moved later ih =>
    have hfed := plan.feed_eq_trail c x
    -- the rest is fed from the counters that the trail has left, whatever came of it
    have hrest := ih (c.afterAll (plan.trail c x).marks)
    have hready := hrest.ready (plan.trail c x).emitted
    rw [trailsToEnd]
    cases hfate : (plan.trail c x).fate with
    | error culprit =>
      have hends : (plan.trail c x).ends c = false := by rw [Trail.ends, hfate]
      have houtcomes : (plan.trail c x).outcomes =
          .failed culprit :: (plan.trail c x).emitted.map .item := by
        rw [Trail.outcomes, hfate]
      rw [hfate] at hfed
      rw [if_neg (by rw [hends]; simp), List.flatMap_cons, houtcomes, List.cons_append]
      exact .of_failed (Intake.pull_failed moved hfed) hready
    | ok flow =>
      have houtcomes : (plan.trail c x).outcomes = (plan.trail c x).emitted.map .item := by
        rw [Trail.outcomes, hfate]
      rw [hfate] at hfed
      simp only at hfed
      cases hends : (plan.trail c x).ends c with
      | true =>
        rw [hends, if_pos rfl] at hfed
        rw [if_pos rfl, List.flatMap_singleton, houtcomes]
        exact .of_again (Intake.pull_stopped moved hfed) (Intake.answers_finished _ _ _ _)
      | false =>
        rw [hends, if_neg (by simp)] at hfed
        rw [if_neg (by simp), List.flatMap_cons, houtcomes]
        exact .of_again (Intake.pull_onward moved hfed) hready

/-! ## Behind the end -/

/-- Behind a trail the run is still sealed only where a gate is shut. -/
theorem sealedByGate_trail {c : Counters} (h : c.SealedByGate plan.steps) (x : α) :
    (c.afterAll (plan.trail c x).marks).SealedByGate plan.steps := by
  have hfed := plan.feedAll_counters (P := fun c => c.SealedByGate plan.steps) .collect
    (fun _ _ _ h => h.tick _) (fun _ hmem _ h => h.afterGate hmem) (fun _ h => h) [x]
    (s := ⟨c, [], .empty⟩) h
  have hleft : plan.feedAll .collect [x] ⟨c, [], .empty⟩ =
      (plan.trail c x).left ⟨c, [], .empty⟩ := plan.left_feed c x
  rw [hleft] at hfed
  exact hfed

/-- Behind a shut gate nothing comes out of any element. -/
theorem emitted_trails_of_closed {number : Nat} (hmem : .gate number ∈ plan.steps) {c : Counters}
    (hclosed : c.window number = .closed) (xs : List α) :
    (plan.trails c xs).flatMap Trail.emitted = [] := by
  induction xs generalizing c with
  | nil => rfl
  | cons x xs ih =>
    have hshut := RunM.ends_iff_left.1
      ((Course.shut .collect number []).feed hmem x (s := ⟨c, [], .empty⟩) ⟨hclosed, rfl⟩)
    rw [left_feed] at hshut
    obtain ⟨hstays, hacc⟩ := hshut
    have hnone : (plan.trail c x).emitted = [] := by
      have hacc : (plan.trail c x).acc = [] := hacc
      rw [Trail.emitted, hacc, List.reverse_nil]
    rw [trails, List.flatMap_cons, hnone, List.nil_append]
    exact ih hstays

end Plan

/-- A gate is shut only if it let its last element pass. -/
theorem Window.eq_closed_of_shut {w : Window} (h : w.ask.1 = .shut) : w = .closed := by
  rcases w with ⟨_ | skip, _ | _ | take⟩
  · exact absurd h (by simp [ask])
  · rfl
  all_goals exact absurd h (by simp [ask])

namespace Plan

variable {plan : Plan α}

/-- A part of a collecting run is stopped by a shut gate. -/
theorem course_stop (plan : Plan α) :
    Course .collect (fun steps => ∀ number, .gate number ∈ steps → .gate number ∈ plan.steps)
      (fun _ => True)
      (fun s : RunState α (List α) =>
        ∃ number, .gate number ∈ plan.steps ∧ s.counters.window number = .closed)
      (fun _ => True) where
  call := fun f x hmem _ _ =>
    ⟨fun number hlater => hmem number (List.mem_cons_of_mem _ hlater), trivial⟩
  fail := fun _ => trivial
  gate := by
    intro s number steps hmem _
    cases hask : (s.counters.window number).ask.1 with
    | through => exact ⟨fun other hlater => hmem other (List.mem_cons_of_mem _ hlater), trivial⟩
    | dropped => trivial
    | shut =>
      have hclosed := Window.eq_closed_of_shut hask
      exact ⟨number, hmem number List.mem_cons_self,
        Counters.window_eq_closed_afterGate hclosed number⟩
  emit := fun x _ _ => by
    rw [RunM.feed_nil]
    trivial

/-- Where the run ends, a gate is shut. -/
theorem exists_closed_of_ends {c : Counters} {x : α} (hgate : c.SealedByGate plan.steps)
    (hends : (plan.trail c x).ends c = true) :
    ∃ number, .gate number ∈ plan.steps
      ∧ (c.afterAll (plan.trail c x).marks).window number = .closed := by
  have hafter := sealedByGate_trail hgate x
  have hcourse := plan.course_stop.feed (fun _ h => h) x (s := ⟨c, [], .empty⟩) trivial
  rw [RunM.feed_eq_trail] at hcourse
  change RunM.Ends _ _ _ ((plan.trail c x).result _) at hcourse
  rw [Trail.result] at hcourse
  rw [Trail.ends] at hends
  rcases hfate : (plan.trail c x).fate with culprit | _ | _
  · rw [hfate] at hends
    exact absurd hends (by simp)
  · rw [hfate] at hends
    exact hafter hends
  · rw [hfate] at hcourse
    exact hcourse

/-- What is not fed behind the end would give nothing. -/
theorem emitted_trailsToEnd {c : Counters} (hgate : c.SealedByGate plan.steps) (xs : List α) :
    (plan.trailsToEnd c xs).flatMap Trail.emitted = (plan.trails c xs).flatMap Trail.emitted := by
  induction xs generalizing c with
  | nil => rfl
  | cons x xs ih =>
    rw [trailsToEnd, trails, List.flatMap_cons]
    cases hends : (plan.trail c x).ends c with
    | true =>
      obtain ⟨number, hmem, hclosed⟩ := exists_closed_of_ends hgate hends
      rw [if_pos rfl, List.flatMap_singleton, emitted_trails_of_closed hmem hclosed,
        List.append_nil]
    | false =>
      rw [if_neg (by simp), List.flatMap_cons, ih (sealedByGate_trail hgate x)]

/-- In the whole life of an iterator the gates answer as the counters say. -/
theorem tells_trailsToEnd (c : Counters) (xs : List α) :
    c.Tells ((plan.trailsToEnd c xs).flatMap Trail.marks) := by
  induction xs generalizing c with
  | nil => trivial
  | cons x xs ih =>
    have hfirst : c.Tells (plan.trail c x).marks := Step.tells_trail .collect plan.steps c [] x
    rw [trailsToEnd]
    split
    · rw [List.flatMap_singleton]
      exact hfirst
    · rw [List.flatMap_cons]
      exact hfirst.append (ih _)

end Plan

/-! ## Direct sources -/

namespace Opened

/-- The elements that an iterator pulls from a direct source: a container, read up to its first hole,
a list, or the cursor of a user. -/
def pulled? (plan : Plan α) : Opened α → Option (List α)
  | .indexed _ box => some (box.itemsFrom (plan.jumped box.size))
  | .owned items => some items
  | .sequential (.shelf _ box position) => some (box.itemsFrom position)
  | .sequential (.cursor _ answers true) => some (heard answers)
  | .sequential _ => none

theorem yields_of_pulled {plan : Plan α} {opened : Opened α} {xs : List α}
    (h : opened.pulled? plan = some xs) : (opened.iterSource plan).Yields xs := by
  cases opened with
  | indexed source box =>
    obtain rfl := Option.some.inj h
    exact Intake.yields_from source box _
  | owned items =>
    obtain rfl := Option.some.inj h
    exact Intake.yields_owned items
  | sequential intake =>
    cases intake with
    | shelf source box position =>
      obtain rfl := Option.some.inj h
      exact Intake.yields_from source box position
    | cursor source answers isOpen =>
      cases isOpen with
      | false => exact absurd h (by simp [pulled?])
      | true =>
        obtain rfl := Option.some.inj h
        exact Intake.yields_cursor source answers
    | _ => exact absurd h (by simp [pulled?])

end Opened

/-- An iterator over a direct source that is asked past all failures answers for one element of the
source after another: it says that a callback failed, if one did, gives what came out before that,
and goes on from the counters as the failure has left them. It gives all that would come out if every
element were fed, no gate lets more pass in its whole life than its limit, and behind the last answer
there is nothing for ever. -/
theorem Plan.outlasts_failures (plan : Plan α) {opened : Opened α} {xs : List α}
    (hdirect : opened.pulled? plan = some xs) :
    let fed := if plan.never then [] else xs
    let life := plan.trailsToEnd (opened.iterStart plan) fed
    (∀ count, ((plan.intake opened).asked count).map Intake.Fetched.outcome =
        (life.flatMap Trail.outcomes ++ List.replicate count Intake.Outcome.nothing).take count)
      ∧ life.flatMap Trail.emitted =
        (plan.trails (opened.iterStart plan) fed).flatMap Trail.emitted
      ∧ ∀ number most, (plan.start.window number).take = some most →
        (life.flatMap Trail.marks).countP (·.passes number) ≤ most := by
  intro fed life
  refine ⟨?_, ?_, ?_⟩
  · show (plan.intake opened).Answers (life.flatMap Trail.outcomes)
    rw [opened.intake_eq]
    cases hnever : plan.never with
    | true =>
      have hlife : life = [] := by
        show plan.trailsToEnd _ (if plan.never then [] else xs) = []
        rw [hnever]
        rfl
      rw [hlife]
      exact (Intake.done_finished ..).answers
    | false =>
      have hlife : life = plan.trailsToEnd (opened.iterStart plan) xs := by
        show plan.trailsToEnd _ (if plan.never then [] else xs) = _
        rw [hnever, if_neg (by simp)]
      rw [hlife]
      exact answers_trails (opened.yields_of_pulled hdirect) _
  · refine emitted_trailsToEnd ?_ fed
    intro hsealed
    rw [opened.isSealed_iterStart] at hsealed
    exact absurd hsealed (by simp)
  · intro number most htake
    rw [← opened.take_iterStart plan number] at htake
    exact (tells_trailsToEnd _ fed).passes_le htake

/-- Every element is expanded to two, a transform fails at one of them, and the limit is three. The
element before the failure is given behind it, and it is the last one that the limit allows. -/
theorem Plan.outlasts_failures_expanded :
    let plusTen : Callback Nat (List Nat) := .plain fun x => [x, x + 10]
    let failing : Callback Nat Nat := ⟨none, true, fun x i => if x = 12 then none else some (x * i)⟩
    let ops : List (Op Nat) := [.flatten plusTen, .transform failing, .range 0 (some 3)]
    let plan := (Draft.ofOps .baseline ops).withTrailingGate.toPlan
    let opened : Opened Nat := .indexed ⟨0, none⟩ (.ofList [1, 2, 3])
    (compile ops .standard).verdict = .ok plan ∧ opened.pulled? plan = some [1, 2, 3]
      ∧ ((plan.intake opened).asked 6).map Intake.Fetched.outcome =
        [.item 0, .item 11, .failed 12, .item 4, .nothing, .nothing] := by
  -- with the names put in, the terms are closed and can be evaluated
  dsimp only
  refine ⟨rfl, rfl, ?_⟩
  refine Eq.trans ((@Plan.outlasts_failures Nat _ _ [1, 2, 3] ?_).1 6) ?_
  · rfl
  · rfl

end StreamFusion
