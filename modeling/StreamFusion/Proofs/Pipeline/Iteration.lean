import StreamFusion.Proofs.Intake.Iteration
import StreamFusion.Proofs.Pipeline.Acts
import StreamFusion.Proofs.Pipeline.Results
import StreamFusion.Proofs.Pipeline.Together

/-!
# Iterators over pipelines

An iterator over a pipeline gives one by one what `toList` gives at once, and the same happens for
it in the same order, as far as there is room for the list (`Pipeline.iterate_of_toList`). Both begin
by opening the source; from there on one is the intake of the plan and the other its run. An
iterator needs no room, so it also gives the elements where `toList` has to give up.
-/

namespace StreamFusion

variable {α β γ : Type}

/-- A plan that lets nothing pass is not started. -/
theorem Recipe.never_of_start {recipe : Recipe α} {opening : Act α (Opened α)} {plan : Plan α}
    {opened : Opened α} {w w' : World α}
    (h : recipe.start opening w = .ok (some (plan, opened)) w') : plan.never = false := by
  have hstart : Act.Leads (fun _ : World α => True) (recipe.start opening)
      (fun found _ => ∀ started, found = some started → started.1.never = false)
      fun _ => True := by
    refine Act.Leads.bind (Q := fun _ _ => True) (fun w _ => ?_) fun plan => ?_
    · split <;> trivial
    · cases hnever : plan.never with
      | true => exact Act.Leads.bind (Q := fun _ _ => True) (fun _ _ => trivial) fun _ _ _ => nofun
      | false =>
        refine Act.Leads.bind (Q := fun _ _ => True) (fun w _ => ?_) fun opened w _ => ?_
        · split <;> trivial
        · rintro started ⟨⟩
          exact hnever
  have hfound := hstart w trivial
  rw [h] at hfound
  exact hfound _ rfl

namespace Plan

/-- The run that collects over an opened source, told by what the intake of the plan gives. -/
theorem run_collect {plan : Plan α} (hnever : plan.never = false) (opened : Opened α) :
    (plan.run .collect [] opened).events =
        (plan.intake opened).remaining.events ++ (plan.intake opened).remaining.rest.release
      ∧ ((∃ culprit, (plan.intake opened).remaining.culprit = some culprit
          ∧ (plan.run .collect [] opened).result = .error culprit)
        ∨ (plan.intake opened).remaining.culprit = none
          ∧ (plan.intake opened).remaining.rest.Done
          ∧ (plan.intake opened).remaining.items =
            (plan.run .collect [] opened).acc.reverse.map some
          ∧ ∃ stats, (plan.run .collect [] opened).result = .ok stats) := by
  have hcollects := intake_collects hnever opened
  have hfinish := plan.run_eq_drain .collect [] opened
  constructor
  · rw [hfinish.events_eq, hcollects.events_eq, hcollects.released]
    rfl
  · by_cases hfailed : ∃ culprit, (plan.drained .collect [] opened).ending = .failed culprit
    · obtain ⟨culprit, hculprit⟩ := hfailed
      exact .inl ⟨culprit, hcollects.failed culprit hculprit, hfinish.failed culprit hculprit⟩
    · have hended : ∀ culprit, (plan.drained .collect [] opened).ending ≠ .failed culprit :=
        fun culprit hculprit => hfailed ⟨culprit, hculprit⟩
      obtain ⟨hnone, hdone, ys, hitems, hacc⟩ := hcollects.ended hended
      obtain ⟨stats, hresult, -⟩ := hfinish.ended hended
      have hys : (plan.run .collect [] opened).acc.reverse = ys := by
        rw [hfinish.acc_eq, hacc, List.append_nil, List.reverse_reverse]
      exact .inr ⟨hnone, hdone, hys ▸ hitems, stats, hresult⟩

end Plan

/-- The intake gives these elements and then nothing for ever: asked any number of times, it gives
the first of them, and does the first of what it does in all. -/
structure Intake.Lists (intake : Intake α) (ys : List α) : Prop where
  remaining_eq : intake.remaining.items = ys.map some
  culprit_eq : ∀ count, (intake.nextTimes count).culprit = none
  items_eq : ∀ count, (intake.nextTimes count).items =
    (ys.map some ++ List.replicate count none).take count
  events_prefix : ∀ count, (intake.nextTimes count).events <+: intake.remaining.events
  drained : ∀ count, ys.length < count → (intake.nextTimes count).events = intake.remaining.events
    ∧ (intake.nextTimes count).rest = intake.remaining.rest

theorem Intake.lists_of_remaining {intake : Intake α} {ys : List α}
    (hculprit : intake.remaining.culprit = none) (hdone : intake.remaining.rest.Done)
    (hitems : intake.remaining.items = ys.map some) : intake.Lists ys where
  remaining_eq := hitems
  culprit_eq := fun count => (nextTimes_of_remaining hculprit hdone count).1
  items_eq := fun count => by
    rw [(nextTimes_of_remaining hculprit hdone count).2.1, hitems]
  events_prefix := fun count => (nextTimes_of_remaining hculprit hdone count).2.2.1
  drained := fun count hlt => by
    refine (nextTimes_of_remaining hculprit hdone count).2.2.2 ?_
    rw [hitems, List.length_map]
    exact hlt

/-- An iterator that was made in the place of a list does as the list. If there is a list, the
iterator gives its elements one by one; what happens while it is drained and then let go is what
happened for the list, but for notes in the log. If there is none, neither is there an iterator, or
the iterator comes to the same failing callback after the same events. -/
inductive IteratesAs : EStateM.Result (Halt α) (World α) (List α) →
    EStateM.Result (Halt α) (World α) (Intake α) → Prop where
  | listed {ys : List α} {intake : Intake α} {w₁ w₂ : World α} (notes : List Note)
      (lists : intake.Lists ys)
      (events : w₂.journal.events = w₁.journal.events ++ intake.remaining.events
        ++ intake.remaining.rest.release ++ notes.map .noted) :
      IteratesAs (.ok ys w₂) (.ok intake w₁)
  | halted (halt : Halt α) (w₁ : World α) : IteratesAs (.error halt w₁) (.error halt w₁)
  | failed {culprit : α} {intake : Intake α} {w₁ w₂ : World α}
      (fails : intake.remaining.culprit = some culprit)
      (events : w₂.journal.events = w₁.journal.events ++ intake.remaining.events
        ++ intake.remaining.rest.release) :
      IteratesAs (.error (.failed culprit) w₂) (.ok intake w₁)

/-- From an opened source on, the run that collects is told by the intake of the plan. -/
theorem Plan.conduct_iterates {plan : Plan α} (hnever : plan.never = false) (opened : Opened α)
    (w : World α) :
    IteratesAs ((plan.conduct opened .collect [] >>= fun found => pure found.1.reverse) w)
      (.ok (plan.intake opened) w) := by
  obtain ⟨hevents, hresult⟩ := Plan.run_collect hnever opened
  have hrecorded : ∀ events : List (Event α), (w.journal.record events).events =
      w.journal.events ++ events := w.journal.events_record
  rcases hresult with ⟨culprit, hculprit, herror⟩ | ⟨hnone, hdone, hitems, stats, hok⟩
  · have hconduct : plan.conduct opened .collect [] w =
        .error (.failed culprit)
          { w with journal := w.journal.record (plan.run .collect [] opened).events } := by
      simp only [conduct, herror]
      rfl
    rw [Act.bind_error hconduct]
    refine .failed hculprit ?_
    rw [hrecorded, hevents, List.append_assoc]
  · obtain ⟨w₂, hconduct, hw₂⟩ : ∃ w₂, plan.conduct opened .collect [] w =
          .ok ((plan.run .collect [] opened).acc, stats) w₂
        ∧ w₂.journal.events = (w.journal.record (plan.run .collect [] opened).events).events
          ++ [.noted (.runFinished stats)] := by
      simp only [conduct, hok]
      exact ⟨_, rfl, Journal.events_record _ _⟩
    rw [Act.bind_ok hconduct]
    refine .listed [.runFinished stats] (Intake.lists_of_remaining hnone hdone hitems) ?_
    rw [hw₂, hrecorded, hevents, ← List.append_assoc]
    rfl

namespace Pipeline

variable {p : Pipeline α} {w : World α}

/-- All elements, by a run for which no room is made. -/
def gather (p : Pipeline α) : Act α (List α) := List.reverse <$> p.runWith .collect []

/-- If the pipeline begins, there is room for as many elements as its plan hints at. -/
def RoomFor (p : Pipeline α) (w : World α) : Prop :=
  ∀ started w', p.begin w = .ok started w' → p.recipe.RoomFor started

theorem gather_eq_conduct (p : Pipeline α) :
    p.gather = p.begin >>= fun started =>
      conductStarted .collect [] started >>= fun found => pure (outcome [] found).1.reverse := by
  rw [gather, runWith_eq, runWith?_eq, map_eq_pure_bind, bind_assoc, bind_assoc]
  rfl

/-- Where there is room, to make it changes nothing. -/
theorem toList_of_roomFor (h : p.RoomFor w) : p.toList w = p.gather w := by
  rw [toList_eq_conduct, gather_eq_conduct]
  cases hbegin : p.begin w with
  | error halt w₁ => rw [Act.bind_error hbegin, Act.bind_error hbegin]
  | ok started w₁ =>
    rw [Act.bind_ok hbegin, Act.bind_ok hbegin,
      Recipe.reserveStarted_of_roomFor (h started w₁ hbegin)]
    rfl

/-- Where there is no room, there is no list; an iterator is made all the same. -/
theorem toList_of_not_roomFor (h : ¬ p.RoomFor w) :
    (∃ w', p.toList w = .error .noRoom w') ∧ ∃ intake w', p.iterate w = .ok intake w' := by
  simp only [RoomFor, not_forall, exists_prop] at h
  obtain ⟨started, w₁, hbegin, hroom⟩ := h
  rw [toList_eq_conduct, iterate_eq, Act.bind_ok hbegin, Act.bind_ok hbegin,
    Recipe.reserveStarted_of_not_roomFor hroom]
  exact ⟨⟨_, rfl⟩, _, _, rfl⟩

/-- A run gathers what the plan makes of the elements of the source. -/
theorem gather_of_onList {plan : Plan α} {xs ys : List α} (h : p.Ready w xs)
    (hplan : p.recipe.verdict = .ok plan) (hys : plan.onList xs = some ys) :
    ∃ w', p.gather w = .ok ys w' := by
  -- elements that take up no bytes always have room, and to gather does not look at the width
  let q : Pipeline α := ⟨p.source, { p.recipe with width := 0 }⟩
  have hroom : ∀ count, q.recipe.HasRoom count := fun count => Nat.zero_le _
  have hfits : q.RoomFor w := by
    rintro (_ | started) w' -
    · trivial
    · exact hroom _
  obtain ⟨book, hkeeps, hlisted⟩ := h.remembered
  obtain ⟨hrecipe, hbelow⟩ := List.forall_mem_cons.1 hlisted
  have hready : q.Ready w xs :=
    ⟨h.unclaimed, ⟨book, hkeeps, List.forall_mem_cons.2 ⟨hrecipe, hbelow⟩⟩, h.gives⟩
  obtain ⟨w', hlist⟩ := toList_of_onList hready hplan hys (hroom _)
  exact ⟨w', (toList_of_roomFor hfits).symm.trans hlist⟩

theorem never_of_begin {plan : Plan α} {opened : Opened α} {w' : World α}
    (h : p.begin w = .ok (some (plan, opened)) w') : plan.never = false := by
  unfold begin at h
  cases hclaim : p.claim w with
  | error halt w₁ =>
    rw [Act.bind_error hclaim] at h
    cases h
  | ok _ w₁ =>
    rw [Act.bind_ok hclaim] at h
    exact Recipe.never_of_start h

/-- What a run gathers, an iterator gives. -/
theorem gather_iterates (p : Pipeline α) (w : World α) :
    IteratesAs (p.gather w) (p.iterate w) := by
  rw [gather_eq_conduct, iterate_eq]
  cases hbegin : p.begin w with
  | error halt w₁ =>
    rw [Act.bind_error hbegin, Act.bind_error hbegin]
    exact .halted halt w₁
  | ok found w₁ =>
    rw [Act.bind_ok hbegin, Act.bind_ok hbegin]
    cases found with
    | some started =>
      rw [conductStarted, bind_map_left]
      exact Plan.conduct_iterates (never_of_begin hbegin) started.2 w₁
    | none =>
      -- nothing was opened, and the iterator is finished from the start
      have hdone : (Plan.nothing.intake (.owned []) : Intake α).Done := Intake.done_finished ..
      have hremaining : (Plan.nothing.intake (.owned []) : Intake α).remaining =
          ⟨[], [], none, Plan.nothing.intake (.owned [])⟩ := Intake.remaining_finished ..
      refine .listed [] (Intake.lists_of_remaining ?_ ?_ ?_) ?_
      · rw [startedIntake, hremaining]
      · rw [startedIntake, hremaining]
        exact hdone
      · rw [startedIntake, hremaining]
        rfl
      · rw [startedIntake, hremaining]
        simp only [List.append_nil, List.map_nil]
        exact (List.append_nil _).symm

/-- An iterator gives the elements that a run gathers one by one and then nothing, and the same
happens for it in the same order. So it does as `toList` if there is room for the list, and only
then: otherwise `toList` gives none, where the iterator still gives its elements. -/
theorem iterate_of_toList (p : Pipeline α) (w : World α) :
    IteratesAs (p.gather w) (p.iterate w)
      ∧ (IteratesAs (p.toList w) (p.iterate w) ↔ p.RoomFor w)
      ∧ (¬ p.RoomFor w → ∃ w', p.toList w = .error .noRoom w') := by
  refine ⟨p.gather_iterates w, ⟨fun hsame => ?_, fun hroom => ?_⟩, fun hroom =>
    (toList_of_not_roomFor hroom).1⟩
  · by_contra hroom
    obtain ⟨⟨w₁, hlist⟩, intake, w₂, hiterate⟩ := toList_of_not_roomFor hroom
    rw [hlist, hiterate] at hsame
    cases hsame
  · rw [toList_of_roomFor hroom]
    exact p.gather_iterates w

/-- Three elements of a cursor, under the largest limit: the iterator gives them one by one, but
there is no room for a list. -/
theorem iterate_without_room :
    let p : Pipeline Nat := ⟨.replay ⟨0, none⟩ [some 1, some 2, some 3],
      ⟨1, [.range 0 (some maxCount)], .standard, 8⟩⟩
    (∃ intake w, p.iterate World.initial = .ok intake w ∧ intake.Lists [1, 2, 3])
      ∧ ∃ w, p.toList World.initial = .error .noRoom w := by
  intro p
  have hready : p.Ready World.initial [1, 2, 3] := ready_replay ..
  obtain ⟨w, hgather⟩ := gather_of_onList hready rfl rfl
  have hiterates := p.gather_iterates World.initial
  rw [hgather] at hiterates
  generalize p.iterate World.initial = result at hiterates ⊢
  cases hiterates with
  | listed notes hlists _ =>
    exact ⟨⟨_, _, rfl, hlists⟩, toList_of_not_hasRoom hready rfl rfl (by decide)⟩

end Pipeline

end StreamFusion
