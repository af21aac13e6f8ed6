import Mathlib.Logic.Relation
import Mathlib.Order.WellFounded
import StreamFusion.Proofs.Intake.Resuming
import StreamFusion.Proofs.Run.Limits
import StreamFusion.Proofs.Run.Stopping

/-!
# Full gates

A gate that has let its last element pass is full, and nothing comes out of the plan any more. A call
that returns has then finished the staged intake, so that later calls only deliver what is ready. A
call that fails has not: the next one reads the source again, unless the source is done
(`Plan.onlyDelivers_iff`). All that comes of it is failures (`Plan.exists_culprits`).
-/

namespace StreamFusion

variable {α : Type}

/-! ## Right marks -/

/-- The mark of the counters is right, and what it stands for is a gate among the steps. -/
structure Plan.Marks (plan : Plan α) (c : Counters) : Prop where
  marked : c.Marked
  byGate : c.SealedByGate plan.steps

namespace Plan

variable {plan : Plan α} {c : Counters}

theorem Marks.feed (h : plan.Marks c) (x : α) :
    plan.Marks (plan.feed .collect x ⟨c, [], .empty⟩).state.counters := by
  rw [plan.state_feed]
  constructor
  · exact plan.feedAll_counters (s := ⟨c, [], .empty⟩) .collect (fun _ _ _ h => h.tick _)
      (fun number _ _ h => h.afterGate number) (fun _ h => h) [x] h.marked
  · exact plan.feedAll_counters (s := ⟨c, [], .empty⟩)
      (P := fun c => c.SealedByGate plan.steps) .collect (fun _ _ _ h => h.tick _)
      (fun _ hmem _ h => h.afterGate hmem) (fun _ h => h) [x] h.byGate

/-- A run goes on only if it is not sealed. -/
theorem isSealed_of_onward {sink : Sink α (List α)} {x : α} {s t : RunState α (List α)}
    (h : plan.feed sink x s = .onward t) : t.counters.isSealed = false := by
  unfold feed at h
  rcases hresult : RunM.feed sink plan.steps x s with ⟨_ | _, u⟩ | ⟨culprit, u⟩ <;>
    rw [hresult] at h
  · cases hsealed : u.counters.isSealed with
    | false =>
      simp only [hsealed] at h
      injection h with heq
      rw [← heq, hsealed]
    | true =>
      simp only [hsealed, if_true] at h
      injection h
  · injection h
  · injection h

/-- An iterator starts with all gates open. -/
theorem marks_iterStart {ops : List (Op α)} {config : Config}
    (hplan : (compile ops config).verdict = .ok plan) (opened : Opened α) :
    plan.Marks (opened.iterStart plan) := by
  have hopen : ∀ number, (plan.start.window number).take ≠ some 0 := by
    intro number htake
    cases hnever : plan.never with
    | false =>
      have hmarked := (onward_start hplan ([] : List α)).marked
      exact absurd (hmarked.2 ⟨number, htake⟩) (by simp [start])
    | true =>
      rcases compile_cases hplan with ⟨-, rfl⟩ | ⟨-, ⟨-, rfl⟩ | ⟨-, hbaseline⟩⟩
      · exact absurd htake (by simp [start, nothing, Counters.window])
      · exact absurd hnever (by simp [Draft.toPlan])
      · rw [(Draft.baselinePlan_ok hbaseline).1] at hnever
        exact absurd hnever (by simp [Draft.toPlan])
  have hunsealed := opened.isSealed_iterStart plan
  refine ⟨⟨?_, ?_⟩, ?_⟩
  · intro hsealed
    rw [hunsealed] at hsealed
    exact absurd hsealed (by simp)
  · rintro ⟨number, htake⟩
    rw [opened.take_iterStart] at htake
    exact absurd htake (hopen number)
  · intro hsealed
    rw [hunsealed] at hsealed
    exact absurd hsealed (by simp)

end Plan

/-! ## One call -/

namespace Intake

/-- What moves keep while no callback fails, a call keeps. If it fails, its last move says what
holds. -/
theorem next_keeps {P Q : Intake α → Prop}
    (hmove : ∀ intake, P intake →
      match intake.pull.answer with
      | .failed _ => Q intake.pull.rest
      | _ => P intake.pull.rest)
    {intake : Intake α} (h : P intake) :
    ((∀ culprit, intake.next.outcome ≠ .failed culprit) → P intake.next.rest)
      ∧ ∀ culprit, intake.next.outcome = .failed culprit → Q intake.next.rest := by
  have hfinite := intake.finite
  induction hfinite with
  | intro intake _ ih =>
    have hmoved := hmove intake h
    rw [next_eq]
    cases hanswer : intake.pull.answer with
    | again =>
      rw [hanswer] at hmoved
      exact ih intake.pull.rest ⟨rfl, by rw [hanswer]; simp⟩ hmoved
    | failed culprit =>
      rw [hanswer] at hmoved
      exact ⟨fun hreturned => absurd rfl (hreturned culprit), fun _ _ => hmoved⟩
    | item x =>
      rw [hanswer] at hmoved
      exact ⟨fun _ => hmoved, fun _ hfailed => absurd hfailed (by simp)⟩
    | nothing =>
      rw [hanswer] at hmoved
      exact ⟨fun _ => hmoved, fun _ hfailed => absurd hfailed (by simp)⟩

theorem next_kept {P : Intake α → Prop} (hmove : ∀ intake, P intake → P intake.pull.rest)
    {intake : Intake α} (h : P intake) : P intake.next.rest := by
  have hstep : ∀ intake : Intake α, P intake →
      match intake.pull.answer with
      | .failed _ => P intake.pull.rest
      | _ => P intake.pull.rest := by
    intro intake hP
    have hmoved := hmove intake hP
    cases intake.pull.answer <;> exact hmoved
  obtain ⟨hreturned, hfailed⟩ := next_keeps (P := P) (Q := P) hstep h
  by_cases hfails : ∃ culprit, intake.next.outcome = .failed culprit
  · obtain ⟨culprit, hculprit⟩ := hfails
    exact hfailed culprit hculprit
  · exact hreturned fun culprit hculprit => hfails ⟨culprit, hculprit⟩

/-- The intake runs the plan, and what it has come to satisfies `P`. -/
def Runs (plan : Plan α) (P : Counters → Bool → Intake α → Prop) (intake : Intake α) : Prop :=
  ∃ c ready finished below, intake = .staged plan c ready finished below ∧ P c finished below

variable {plan : Plan α} {c : Counters} {finished : Bool} {below : Intake α}

/-- A call that does not fail leaves an intake that is finished, or counters that no element has
moved since, or a run that is not sealed. A call that fails does not finish the intake. -/
theorem next_marks (hmarks : plan.Marks c) (ready : List α) (finished : Bool) (below : Intake α) :
    let call := (staged plan c ready finished below).next
    ((∀ culprit, call.outcome ≠ .failed culprit) → call.rest.Runs plan fun c' finished' _ =>
        plan.Marks c' ∧ (finished' = true ∨ c' = c ∨ c'.isSealed = false))
      ∧ ∀ culprit, call.outcome = .failed culprit → call.rest.Runs plan fun c' finished' _ =>
        plan.Marks c' ∧ finished' = false := by
  -- only feeding moves the counters, and a run that goes on behind it is not sealed
  let P : Intake α → Prop := fun intake => intake.Runs plan fun c' finished' _ =>
    plan.Marks c' ∧ (finished' = true ∨ c' = c ∨ c'.isSealed = false)
  refine next_keeps (P := P) ?_ ⟨c, ready, finished, below, rfl, hmarks, .inr (.inl rfl)⟩
  rintro _ ⟨d, ready, finished, below, rfl, hd, hsince⟩
  have hmoved := pull_staged plan d ready finished below
  generalize (staged plan d ready finished below).pull = move at hmoved ⊢
  cases hmoved with
  | deliver x ready => exact ⟨d, ready, finished, below, rfl, hd, hsince⟩
  | rest => exact ⟨d, [], true, below, rfl, hd, .inl rfl⟩
  | exhausted pulled => exact ⟨d, [], true, _, rfl, hd, .inl rfl⟩
  | again pulled => exact ⟨d, [], false, _, rfl, hd, hsince⟩
  | failedBelow pulled => exact ⟨d, [], false, _, rfl, hd, rfl⟩
  | @onward _ _ x _ s pulled fed =>
    have hs := hd.feed x
    rw [fed] at hs
    exact ⟨s.counters, _, false, _, rfl, hs, .inr (.inr (Plan.isSealed_of_onward fed))⟩
  | @stopped _ _ x _ s pulled fed =>
    have hs := hd.feed x
    rw [fed] at hs
    exact ⟨s.counters, _, true, _, rfl, hs, .inl rfl⟩
  | @failed _ _ x culprit _ s pulled fed =>
    have hs := hd.feed x
    rw [fed] at hs
    exact ⟨s.counters, _, false, _, rfl, hs, rfl⟩

/-- However often the intake of a plan is asked, its marks are right. -/
theorem after_marks {intake : Intake α} (h : intake.Runs plan fun c _ _ => plan.Marks c)
    (count : Nat) : (intake.after count).Runs plan fun c _ _ => plan.Marks c := by
  induction count generalizing intake with
  | zero => exact h
  | succ count ih =>
    obtain ⟨c, ready, finished, below, rfl, hmarks⟩ := h
    obtain ⟨hreturned, hfailed⟩ := next_marks hmarks ready finished below
    apply ih
    by_cases hfails : ∃ culprit,
        (staged plan c ready finished below).next.outcome = .failed culprit
    · obtain ⟨culprit, hculprit⟩ := hfails
      obtain ⟨d, ready, finished, below, hrest, hd, -⟩ := hfailed culprit hculprit
      exact ⟨d, ready, finished, below, hrest, hd⟩
    · obtain ⟨d, ready, finished, below, hrest, hd, -⟩ :=
        hreturned fun culprit hculprit => hfails ⟨culprit, hculprit⟩
      exact ⟨d, ready, finished, below, hrest, hd⟩

/-! ## Calls behind a full gate -/

/-- The elements that came out of the plan of a staged intake and were not given yet. -/
def ready : Intake α → List α
  | .staged _ _ ready _ _ => ready
  | _ => []

/-- What a staged intake pulls from. -/
def source : Intake α → Intake α
  | .staged _ _ _ _ below => below
  | intake => intake

/-- The gate of this number has let its last element pass. -/
def IsFull (number : Nat) : Intake α → Prop
  | .staged _ c _ _ _ => (c.window number).take = some 0
  | _ => False

/-- However often the intake is asked, nothing happens, and its source is not pulled. -/
def Rests (intake : Intake α) : Prop :=
  ∀ count, (∀ fetched ∈ intake.asked count, fetched.events = [])
    ∧ (intake.after count).source = intake.source

/-- The intake gives what is ready and then nothing for ever, and it does nothing else. -/
structure OnlyDelivers (intake : Intake α) : Prop where
  answers : intake.Answers (intake.ready.map .item)
  rests : intake.Rests

theorem Rests.cons {intake : Intake α} (hevents : intake.next.events = [])
    (hsource : intake.next.rest.source = intake.source) (h : intake.next.rest.Rests) :
    intake.Rests := by
  intro count
  cases count with
  | zero => exact ⟨nofun, rfl⟩
  | succ count =>
    obtain ⟨hsilent, hkept⟩ := h count
    refine ⟨?_, hkept.trans hsource⟩
    intro fetched hmem
    rcases List.mem_cons.1 hmem with rfl | hmem
    · exact hevents
    · exact hsilent fetched hmem

theorem Rests.head {intake : Intake α} (h : intake.Rests) :
    intake.next.events = [] ∧ intake.next.rest.source = intake.source :=
  ⟨(h 1).1 intake.next List.mem_cons_self, (h 1).2⟩

theorem Rests.tail {intake : Intake α} (h : intake.Rests) : intake.next.rest.Rests := by
  intro count
  obtain ⟨hsilent, hkept⟩ := h (count + 1)
  refine ⟨fun fetched hmem => hsilent fetched (List.mem_cons_of_mem _ hmem), ?_⟩
  exact hkept.trans h.head.2.symm

theorem Done.rests {intake : Intake α} (h : intake.Done) : intake.Rests := by
  intro count
  induction count with
  | zero => exact ⟨nofun, rfl⟩
  | succ count ih =>
    rw [asked, after, h.next_eq]
    refine ⟨?_, ih.2⟩
    intro fetched hmem
    rcases List.mem_cons.1 hmem with rfl | hmem
    · rfl
    · exact ih.1 fetched hmem

theorem next_ready (plan : Plan α) (c : Counters) (x : α) (ready : List α) (finished : Bool)
    (below : Intake α) :
    (staged plan c (x :: ready) finished below).next =
      ⟨[], .item x, staged plan c ready finished below⟩ := next_of_item rfl

/-- What is ready can be given without doing anything. -/
theorem rests_ready_iff (ready : List α) :
    (staged plan c ready finished below).Rests ↔ (staged plan c [] finished below).Rests := by
  induction ready with
  | nil => exact Iff.rfl
  | cons x ready ih =>
    rw [← ih]
    have hnext := next_ready plan c x ready finished below
    constructor
    · intro h
      have htail := h.tail
      rw [hnext] at htail
      exact htail
    · intro h
      refine .cons ?_ ?_ ?_ <;> rw [hnext]
      · rfl
      · exact h

theorem onlyDelivers_finished (plan : Plan α) (c : Counters) (ready : List α) (below : Intake α) :
    (staged plan c ready true below).OnlyDelivers :=
  ⟨answers_finished plan c ready below, (rests_ready_iff ready).2 (done_finished plan c below).rests⟩

theorem onlyDelivers_of_done (hdone : below.Done) (ready : List α) :
    (staged plan c ready false below).OnlyDelivers := by
  have hpull : (staged plan c [] false below).pull =
      ⟨[], .nothing, staged plan c [] true below⟩ := pull_exhausted hdone
  have hfinished := done_finished plan c below
  constructor
  · have hanswers : (staged plan c [] false below).Answers [] :=
      .of_nothing hpull hfinished.answers
    have hready := hanswers.ready ready
    rw [List.append_nil] at hready
    exact hready
  · rw [rests_ready_iff]
    have hnext : (staged plan c [] false below).next =
        ⟨[], .nothing, staged plan c [] true below⟩ := by
      rw [next_eq, hpull]
    exact .cons (by rw [hnext]) (by rw [hnext]; rfl) (by rw [hnext]; exact hfinished.rests)

/-! ## Pulling is seen -/

/-- The first intake is what moves make of the second one, or it has nothing to give. -/
def Behind (later earlier : Intake α) : Prop :=
  Relation.TransGen Follows later earlier ∨ later.pull.answer = .nothing

theorem pull_of_nothing {intake : Intake α} (h : intake.pull.answer = .nothing) :
    intake.pull = ⟨intake.pull.events, .nothing, intake.pull.rest⟩ := by
  rw [← h]

/-- Where there was nothing to give, there is nothing to give. -/
theorem nothing_stays {intake : Intake α} (h : intake.pull.answer = .nothing) :
    intake.pull.rest.pull.answer = .nothing := by
  induction intake with
  | shelf source box position =>
    rw [pull] at h ⊢
    split at h
    · rename_i hlt
      rw [if_pos hlt]
      cases hx : box.get? position with
      | none => simp only [pull, if_pos hlt, hx]
      | some x =>
        rw [hx] at h
        exact absurd h (by simp)
    · rename_i hnot
      rw [if_neg hnot]
      simp only [pull, if_neg hnot]
  | owned items =>
    cases items with
    | nil => rfl
    | cons x items => exact absurd h (by simp [pull])
  | cursor source answers isOpen =>
    cases isOpen with
    | false => simp [pull]
    | true =>
      rcases answers with _ | ⟨_ | x, answers⟩
      · simp [pull]
      · simp [pull]
      · exact absurd h (by simp [pull])
  | staged plan c ready finished below ih =>
    have hmoved := pull_staged plan c ready finished below
    generalize (staged plan c ready finished below).pull = move at h hmoved ⊢
    cases hmoved with
    | rest => rfl
    | exhausted pulled => rfl
    | _ => exact absurd h (by simp)
  | mapped f below ih =>
    rw [pull] at h ⊢
    rcases hbelow : below.pull with ⟨events, answer, rest⟩
    rw [hbelow] at h ih
    cases answer with
    | nothing =>
      have hrest : rest.pull.answer = .nothing := ih rfl
      rw [pull, pull_of_nothing hrest]
    | item x =>
      change (replace f events x rest).answer = .nothing at h
      unfold replace at h
      split at h <;> exact absurd h (by simp)
    | again => exact absurd h (by simp)
    | failed culprit => exact absurd h (by simp)
  | flattened items ready below ih =>
    cases ready with
    | cons x ready => exact absurd h (by simp [pull])
    | nil =>
      rw [pull] at h ⊢
      rcases hbelow : below.pull with ⟨events, answer, rest⟩
      rw [hbelow] at h
      cases answer with
      | nothing => rfl
      | _ => exact absurd h (by simp)
  | spent => rfl

theorem behind_pull {earlier later : Intake α} (h : later.Behind earlier) :
    later.pull.rest.Behind earlier := by
  by_cases hnothing : later.pull.answer = .nothing
  · exact .inr (nothing_stays hnothing)
  · exact .inl (.head ⟨rfl, hnothing⟩ (h.resolve_right hnothing))

theorem behind_close {earlier later : Intake α} (h : later.Behind earlier) :
    later.close.2.Behind earlier := by
  cases later with
  | cursor source answers isOpen =>
    cases isOpen with
    | false => exact h
    | true => exact .inr (by simp [close, pull])
  | _ => exact h

/-- An intake that has something to give does not come back to what it was. -/
theorem not_behind_self {intake : Intake α} (h : intake.pull.answer ≠ .nothing) :
    ¬ intake.Behind intake := by
  rintro (hback | hnothing)
  · have hwell : WellFounded (Relation.TransGen (Follows (α := α))) := .transGen ⟨finite⟩
    exact hwell.irrefl.irrefl intake hback
  · exact h hnothing

theorem pull_behind {earlier : Intake α} (plan : Plan α) (c : Counters)
    (hpulled : below.pull.rest.Behind earlier) :
    (staged plan c [] false below).pull.rest.Runs plan fun _ _ later => later.Behind earlier := by
  have hmoved := pull_staged plan c [] false below
  generalize (staged plan c [] false below).pull = move at hmoved ⊢
  cases hmoved with
  | exhausted pulled | again pulled | failedBelow pulled | onward pulled fed | failed pulled fed =>
    rw [pulled] at hpulled
    exact ⟨_, _, _, _, rfl, hpulled⟩
  | stopped pulled fed =>
    rw [pulled] at hpulled
    exact ⟨_, _, _, _, rfl, behind_close hpulled⟩

/-- A call that is made when nothing is ready takes the source to what it never was before. -/
theorem next_behind (plan : Plan α) (c : Counters) (h : below.pull.answer ≠ .nothing) :
    (staged plan c [] false below).next.rest.Runs plan fun _ _ later => later.Behind below := by
  have hmove : ∀ intake : Intake α, (intake.Runs plan fun _ _ later => later.Behind below) →
      intake.pull.rest.Runs plan fun _ _ later => later.Behind below := by
    rintro _ ⟨d, ready, finished, later, rfl, hbehind⟩
    rcases ready with _ | ⟨x, ready⟩
    · cases finished with
      | true => exact ⟨d, [], true, later, by rw [pull], hbehind⟩
      | false => exact pull_behind plan d (behind_pull hbehind)
    · exact ⟨d, ready, finished, later, by rw [pull], hbehind⟩
  have hpulled : below.pull.rest.Behind below := .inl (.single ⟨rfl, h⟩)
  have hfirst := pull_behind plan c hpulled
  rw [next_eq]
  cases (staged plan c [] false below).pull.answer with
  | again => exact next_kept hmove hfirst
  | _ => exact hfirst

/-- If a call is not seen to pull from the source, the source is done. -/
theorem done_of_rests (h : (staged plan c [] false below).Rests) : below.Done := by
  obtain ⟨hevents, hsource⟩ := h.head
  by_cases hnothing : below.pull.answer = .nothing
  · have hpull := pull_of_nothing hnothing
    rw [next_eq, pull_exhausted hpull] at hevents hsource
    have hsilent : below.pull.events = [] := hevents
    have hsame : below.pull.rest = below := hsource
    rw [Done, hpull, hsilent, hsame]
  · obtain ⟨d, ready, finished, later, hrest, hbehind⟩ := next_behind plan c hnothing
    rw [hrest] at hsource
    have hlater : later = below := hsource
    exact absurd (hlater ▸ hbehind) (not_behind_self hnothing)

end Intake

/-! ## Failures behind a full gate -/

namespace Plan

variable {plan : Plan α} {c : Counters} {number : Nat}

/-- An element that is fed behind a shut gate stops the run or fails, and nothing comes out. -/
theorem feed_shut (hmem : .gate number ∈ plan.steps) (hclosed : c.window number = .closed)
    (hsealed : c.isSealed = true) (x : α) :
    ∃ s, (plan.feed .collect x ⟨c, [], .empty⟩ = .stopped s
        ∨ ∃ culprit, plan.feed .collect x ⟨c, [], .empty⟩ = .failed culprit s)
      ∧ s.acc = [] ∧ s.counters.window number = .closed ∧ s.counters.isSealed = true := by
  have hshut := RunM.ends_iff_left.1
    ((Course.shut .collect number []).feed hmem x (s := ⟨c, [], .empty⟩) ⟨hclosed, rfl⟩)
  have hidles : RunState.Idles number plan.steps ⟨c, [], .empty⟩
      (RunM.left (RunM.feed .collect plan.steps x ⟨c, [], .empty⟩)) :=
    RunM.feed_idles hmem x hclosed
  have hstays := hidles.stays_sealed hsealed
  exact ⟨_, plan.feed_of_sealed .collect x hstays, hshut.2, hshut.1, hstays⟩

/-- Asked again behind a shut gate, the intake fails a number of times, and then gives nothing. -/
theorem exists_culprits (hmem : .gate number ∈ plan.steps) (hclosed : c.window number = .closed)
    (hsealed : c.isSealed = true) (below : Intake α) :
    ∃ culprits : List α, (Intake.staged plan c [] false below).Answers (culprits.map .failed) := by
  have hfinite := below.finite
  -- on how often the source can still be pulled
  induction hfinite generalizing c with
  | intro below _ ih =>
    have hlater := fun (d : Counters) hne => ih (c := d) below.pull.rest ⟨rfl, hne⟩
    rcases hpulled : below.pull with ⟨events, answer, rest⟩
    rw [hpulled] at hlater
    cases answer with
    | nothing =>
      exact ⟨[], .of_nothing (Intake.pull_exhausted hpulled) (Intake.done_finished ..).answers⟩
    | again =>
      obtain ⟨culprits, hrest⟩ := hlater c (by simp) hclosed hsealed
      exact ⟨culprits, .of_again (Intake.pull_again hpulled) hrest⟩
    | failed culprit =>
      obtain ⟨culprits, hrest⟩ := hlater c (by simp) hclosed hsealed
      exact ⟨culprit :: culprits, .of_failed (Intake.pull_failedBelow hpulled) hrest⟩
    | item x =>
      obtain ⟨s, hfed | ⟨culprit, hfed⟩, hacc, hclosed, hsealed⟩ :=
        feed_shut hmem hclosed hsealed x
      · have hpull := Intake.pull_stopped hpulled hfed
        rw [hacc] at hpull
        exact ⟨[], .of_again hpull (Intake.done_finished ..).answers⟩
      · have hpull := Intake.pull_failed hpulled hfed
        rw [hacc] at hpull
        obtain ⟨culprits, hrest⟩ := hlater s.counters (by simp) hclosed hsealed
        exact ⟨culprit :: culprits, .of_failed hpull hrest⟩

/-! ## Calls that fill a gate -/

variable {ops : List (Op α)} {config : Config}

/-- After the call in which a gate lets its last element pass, an iterator only delivers what is
ready if and only if the call has not failed or the source is done. In any case nothing more comes
out: what is ready is given, and then there are failures only, and then nothing. -/
theorem onlyDelivers_iff (hplan : (compile ops config).verdict = .ok plan) (opened : Opened α)
    {count : Nat} (hbefore : ¬ ((plan.intake opened).after count).IsFull number)
    (hfull : ((plan.intake opened).after (count + 1)).IsFull number) :
    let call := ((plan.intake opened).after count).next
    (call.rest.OnlyDelivers ↔
        (∀ culprit, call.outcome ≠ .failed culprit) ∨ call.rest.source.Done)
      ∧ ∃ culprits : List α,
        call.rest.Answers (call.rest.ready.map .item ++ culprits.map .failed) := by
  intro call
  have hstart : (plan.intake opened).Runs plan fun c _ _ => plan.Marks c :=
    ⟨_, _, _, _, opened.intake_eq plan, marks_iterStart hplan opened⟩
  obtain ⟨c, ready, finished, below, hintake, hmarks⟩ := Intake.after_marks hstart count
  obtain ⟨hreturned, hfailed⟩ := Intake.next_marks hmarks ready finished below
  rw [← hintake] at hreturned hfailed
  rw [hintake] at hbefore
  rw [Intake.after_succ] at hfull
  change call.rest.IsFull number at hfull
  by_cases hfails : ∃ culprit, call.outcome = .failed culprit
  · obtain ⟨culprit, hculprit⟩ := hfails
    obtain ⟨d, ready', finished', below', hrest, hd, rfl⟩ := hfailed culprit hculprit
    change call.rest = _ at hrest
    rw [hrest] at hfull ⊢
    have hsealed : d.isSealed = true := hd.marked.2 ⟨number, hfull⟩
    obtain ⟨other, hmem, hclosed⟩ := hd.byGate hsealed
    refine ⟨⟨fun honly => .inr ?_, ?_⟩, ?_⟩
    · exact Intake.done_of_rests ((Intake.rests_ready_iff ready').1 honly.rests)
    · rintro (hnone | hdone)
      · exact absurd hculprit (hnone culprit)
      · exact Intake.onlyDelivers_of_done hdone ready'
    · obtain ⟨culprits, hculprits⟩ := exists_culprits hmem hclosed hsealed below'
      exact ⟨culprits, hculprits.ready ready'⟩
  · have hreturns : ∀ culprit, call.outcome ≠ .failed culprit :=
      fun culprit hculprit => hfails ⟨culprit, hculprit⟩
    obtain ⟨d, ready', finished', below', hrest, hd, hsince⟩ := hreturned hreturns
    change call.rest = _ at hrest
    rw [hrest] at hfull ⊢
    -- the gate was not full before, and a full gate seals the run
    have hsealed : d.isSealed = true := hd.marked.2 ⟨number, hfull⟩
    have hfinished : finished' = true := by
      rcases hsince with hfinished | hsame | hunsealed
      · exact hfinished
      · rw [hsame] at hfull
        exact absurd hfull hbefore
      · rw [hsealed] at hunsealed
        exact absurd hunsealed (by simp)
    rw [hfinished]
    have honly := Intake.onlyDelivers_finished plan d ready' below'
    refine ⟨⟨fun _ => .inl hreturns, fun _ => honly⟩, [], ?_⟩
    rw [List.map_nil, List.append_nil]
    exact honly.answers

/-- A limit of two is used up by one element that is expanded to two. -/
theorem onlyDelivers_iff_expanded :
    let plusTen : Callback Nat (List Nat) := .plain fun x => [x, x + 10]
    let ops : List (Op Nat) := [.flatten plusTen, .range 0 (some 2)]
    let plan := (Draft.ofOps .baseline ops).withTrailingGate.toPlan
    let opened : Opened Nat := .indexed ⟨0, none⟩ (.ofList [1, 2])
    ¬ (plan.intake opened).IsFull 0 ∧ (plan.intake opened).next.rest.IsFull 0
      ∧ (plan.intake opened).next.rest.OnlyDelivers := by
  intro plusTen ops plan opened
  have hplan : (compile ops .standard).verdict = .ok plan := rfl
  have hbefore : ¬ ((plan.intake opened).after 0).IsFull 0 := by
    show ¬ (some 2 : Option Nat) = some 0
    simp
  have hagain : (plan.intake opened).pull.answer = .again := rfl
  have hitem : (plan.intake opened).pull.rest.pull.answer = .item 1 := rfl
  have hnext := Intake.next_of_again hagain
  rw [Intake.next_of_item hitem] at hnext
  have hfull : ((plan.intake opened).after 1).IsFull 0 := by
    rw [Intake.after, hnext]
    show (some 0 : Option Nat) = some 0
    rfl
  have hreturned : ∀ culprit, (plan.intake opened).next.outcome ≠ .failed culprit := by
    intro culprit
    rw [hnext]
    simp
  exact ⟨hbefore, hfull, (onlyDelivers_iff hplan opened hbefore hfull).1.2 (.inl hreturned)⟩

/-- An element is expanded to two. The first one uses up the limit, and at the second one a transform
fails. The call after the next one reads the source again and calls the callbacks. -/
theorem reads_behind_full :
    let plusTen : Callback Nat (List Nat) := .plain fun x => [x, x + 10]
    let failing : Callback Nat Nat := ⟨some "t", false, fun x _ => if x = 11 then none else some x⟩
    let ops : List (Op Nat) := [.flatten plusTen, .transform failing, .range 0 (some 1)]
    let source : Ident := ⟨0, none⟩
    let opened : Opened Nat := .indexed source (.ofList [1, 2])
    ∃ plan later, (compile ops .standard).verdict = .ok plan
      ∧ ¬ (plan.intake opened).IsFull 0 ∧ (plan.intake opened).next.rest.IsFull 0
      ∧ (plan.intake opened).next.outcome = .failed 11
      ∧ (plan.intake opened).next.rest.next = ⟨[], .item 1, later⟩
      ∧ later.next.outcome = .nothing
      ∧ later.next.events = [.read source 1, .called none 2 none, .called (some "t") 2 none] := by
  intro plusTen failing ops source opened
  let plan := (Draft.ofOps .baseline ops).withTrailingGate.toPlan
  let later : Intake Nat := .staged plan ⟨[⟨0, some 0⟩], [], 1, true⟩ [] false
    (.shelf source (.ofList [1, 2]) 1)
  have hfails : (plan.intake opened).next =
      ⟨[.read source 0, .called none 1 none, .called (some "t") 1 none, .called (some "t") 11 none],
        .failed 11, .staged plan ⟨[⟨0, some 0⟩], [], 1, true⟩ [1] false
          (.shelf source (.ofList [1, 2]) 1)⟩ := Intake.next_of_failed rfl
  have hlater : later.next = ⟨[.read source 1, .called none 2 none, .called (some "t") 2 none],
      .nothing, later.pull.rest⟩ := by
    have hagain : later.pull.answer = .again := rfl
    have hnothing : later.pull.rest.pull.answer = .nothing := rfl
    rw [Intake.next_of_again hagain, Intake.next_of_nothing hnothing]
    rfl
  refine ⟨plan, later, rfl, ?_, ?_, ?_, ?_, ?_, ?_⟩
  · show ¬ (some 1 : Option Nat) = some 0
    simp
  · rw [hfails]
    show (some 0 : Option Nat) = some 0
    rfl
  · rw [hfails]
  · rw [hfails]
    exact Intake.next_of_item rfl
  · rw [hlater]
  · rw [hlater]

end Plan

end StreamFusion
