import StreamFusion.Proofs.Plan.Layout
import StreamFusion.Proofs.Plan.Verdicts
import StreamFusion.Proofs.Run.Closing
import StreamFusion.Proofs.Run.Feedings

/-!
# How many elements are handed out

A plan knows one limit, while the limiting is done by gates at their places. A limit bounds what a
run hands out as soon as one gate of this limit has no flatten behind it: whatever is handed out
came through that gate then, one element for each that passed (`Step.handed_le_passes`). Without
flattens nothing is handed out that was not fed, so the capacity that a plan asks for is enough
whenever it asks for any (`Plan.emissions_bounded`).
-/

namespace StreamFusion

variable {α γ : Type}

/-! ## What one element does -/

/-- Was an element handed to the closing action? -/
def Mark.isHanded : Mark α → Bool
  | .handed _ _ => true
  | _ => false

namespace Counters

theorem emitted_afterAll (c : Counters) (marks : List (Mark α)) :
    (c.afterAll marks).emitted = c.emitted + marks.countP Mark.isHanded := by
  induction marks generalizing c with
  | nil => rfl
  | cons mark marks ih =>
    have hmarks : (c.afterAll (mark :: marks)).emitted =
        (c.afterMark mark).emitted + marks.countP Mark.isHanded := ih (c.afterMark mark)
    rw [hmarks, List.countP_cons]
    cases mark with
    | called slot event => cases slot <;> rfl
    | asked number answer => rfl
    | handed x events =>
      show c.emitted + 1 + _ = c.emitted + (_ + 1)
      omega

end Counters

section Trail

variable {steps : List (Step α)}

/-- What holds of the counts of single trails holds of trails one after another. -/
theorem Trail.countP_each_le {body : Counters → γ → α → Trail α γ} {few many : Mark α → Bool}
    (hbody : ∀ c acc x, (body c acc x).marks.countP few ≤ (body c acc x).marks.countP many)
    (xs : List α) (c : Counters) (acc : γ) :
    (each body xs c acc).marks.countP few ≤ (each body xs c acc).marks.countP many := by
  induction xs generalizing c acc with
  | nil => exact Nat.le_refl _
  | cons x xs ih =>
    rw [each_cons]
    have hfirst := hbody c acc x
    rcases (body c acc x).fate with culprit | _ | _
    · exact hfirst
    · simp only [List.countP_append]
      exact Nat.add_le_add hfirst (ih ..)
    · exact hfirst

/-- Without flattens an element is handed out once at most. -/
theorem Step.handed_le_one (sink : Sink α γ) (hsteps : ∀ step ∈ steps, step.isExpand = false)
    (c : Counters) (acc : γ) (x : α) :
    (trail sink steps c acc x).marks.countP Mark.isHanded ≤ 1 := by
  induction steps generalizing c acc x with
  | nil =>
    rw [trail]
    cases (sink acc x c.emitted).result <;> exact Nat.le_refl _
  | cons step steps ih =>
    obtain ⟨hstep, hrest⟩ := List.forall_mem_cons.1 hsteps
    cases step with
    | map f slot =>
      rw [trail]
      cases f.answer x (c.index slot) with
      | none => exact Nat.zero_le _
      | some y => exact ih hrest (c.tick slot) acc y
    | test p slot =>
      rw [trail]
      rcases p.answer x (c.index slot) with _ | _ | _
      · exact Nat.zero_le _
      · exact Nat.zero_le _
      · exact ih hrest (c.tick slot) acc x
    | expand f slot => exact absurd hstep (by simp [isExpand])
    | gate number =>
      rw [trail]
      cases (c.window number).ask.1 with
      | through => exact ih hrest (c.afterGate number) acc x
      | dropped => exact Nat.zero_le _
      | shut => exact Nat.zero_le _

/-- A mark that hands nothing out keeps the count of the elements that passed a gate ahead. -/
theorem Mark.handed_le_passes_cons {mark : Mark α} (hmark : mark.isHanded = false) {number : Nat}
    {marks : List (Mark α)}
    (h : marks.countP Mark.isHanded ≤ marks.countP (·.passes number)) :
    (mark :: marks).countP Mark.isHanded ≤ (mark :: marks).countP (·.passes number) := by
  rw [List.countP_cons, List.countP_cons, hmark]
  exact Nat.add_le_add h (Nat.zero_le _)

/-- Behind the last flatten, whatever is handed out came through the gate. -/
theorem Step.handed_le_passes (sink : Sink α γ) (number : Nat) (before : List (Step α))
    {behind : List (Step α)} (hbehind : ∀ step ∈ behind, step.isExpand = false) (c : Counters)
    (acc : γ) (x : α) :
    let marks := (trail sink (before ++ .gate number :: behind) c acc x).marks
    marks.countP Mark.isHanded ≤ marks.countP (·.passes number) := by
  induction before generalizing c acc x with
  | nil =>
    simp only [List.nil_append]
    rw [trail]
    cases (c.window number).ask.1 with
    | through =>
      have hone := handed_le_one sink hbehind (c.afterGate number) acc x
      have hpassed : (Mark.asked number .through : Mark α).passes number = true := by
        simp [Mark.passes]
      simp only [Trail.behind, List.countP_cons, hpassed, if_true]
      exact Nat.le_trans hone (Nat.le_add_left ..)
    | dropped => exact Nat.zero_le _
    | shut => exact Nat.zero_le _
  | cons step before ih =>
    simp only [List.cons_append] at ih ⊢
    cases step with
    | map f slot =>
      rw [trail]
      refine Mark.handed_le_passes_cons rfl ?_
      cases f.answer x (c.index slot) with
      | none => exact Nat.le_refl _
      | some y => exact ih (c.tick slot) acc y
    | test p slot =>
      rw [trail]
      refine Mark.handed_le_passes_cons rfl ?_
      rcases p.answer x (c.index slot) with _ | _ | _
      · exact Nat.le_refl _
      · exact Nat.le_refl _
      · exact ih (c.tick slot) acc x
    | expand f slot =>
      rw [trail]
      refine Mark.handed_le_passes_cons rfl ?_
      cases f.answer x (c.index slot) with
      | none => exact Nat.le_refl _
      | some ys => exact Trail.countP_each_le ih ys (c.tick slot) acc
    | gate other =>
      rw [trail]
      refine Mark.handed_le_passes_cons rfl ?_
      cases (c.window other).ask.1 with
      | through => exact ih (c.afterGate other) acc x
      | dropped => exact Nat.le_refl _
      | shut => exact Nat.le_refl _

end Trail

/-! ## What a run does -/

/-- So many elements were handed out that, with what is left of the gate, they are within its
limit. -/
def Counters.Within (number most : Nat) (c : Counters) : Prop :=
  ∃ left, (c.window number).take = some left ∧ c.emitted + left ≤ most

namespace Plan

variable {plan : Plan α} {number most : Nat}

/-- Without flattens, a run hands out as many elements as it feeds at most. -/
theorem emitted_feedAll_le (sink : Sink α γ)
    (hsteps : ∀ step ∈ plan.steps, step.isExpand = false) (xs : List α) (s : RunState α γ) :
    (plan.feedAll sink xs s).counters.emitted ≤ s.counters.emitted + xs.length := by
  induction xs generalizing s with
  | nil => exact Nat.le_refl _
  | cons x xs ih =>
    have hrest := ih (RunM.left (RunM.feed sink plan.steps x s))
    have hone := Step.handed_le_one sink hsteps s.counters s.acc x
    rw [RunM.counters_feed, Counters.emitted_afterAll] at hrest
    rw [List.length_cons]
    exact Nat.le_trans hrest (by omega)

/-- With a gate behind the last flatten, a run stays within the limit of the gate. -/
theorem within_feedAll (sink : Sink α γ) {before behind : List (Step α)}
    (hsteps : plan.steps = before ++ .gate number :: behind)
    (hbehind : ∀ step ∈ behind, step.isExpand = false) (xs : List α) {s : RunState α γ}
    (h : s.counters.Within number most) : (plan.feedAll sink xs s).counters.Within number most := by
  induction xs generalizing s with
  | nil => exact h
  | cons x xs ih =>
    refine ih ?_
    obtain ⟨left, hleft, hmost⟩ := h
    have hpassed :=
      Step.handed_le_passes sink number before hbehind s.counters s.acc x
    rw [← hsteps] at hpassed
    obtain ⟨later, hlater, hsum⟩ :=
      (Step.tells_trail sink plan.steps s.counters s.acc x).take_afterAll hleft
    refine ⟨later, by rw [RunM.counters_feed]; exact hlater, ?_⟩
    rw [RunM.counters_feed, Counters.emitted_afterAll]
    omega

end Plan

/-! ## The gate of the limit -/

namespace Plan

variable {ops : List (Op α)} {config : Config} {plan : Plan α} {most : Nat}

/-- The steps that a stage of the plan comes from. -/
theorem exists_gate_of_mem_layout {w : Window} (h : .gate w ∈ plan.layout) :
    ∃ number, .gate number ∈ plan.steps ∧ plan.start.window number = w := by
  obtain ⟨step, hstep, hstage⟩ := List.mem_map.1 h
  cases step with
  | gate number => exact ⟨number, hstep, Stage.gate.inj hstage⟩
  | _ => exact absurd hstage (by simp [Step.stage])

/-- In segmented mode the limit of the plan is the limit of one of the ranges. -/
theorem exists_stage_of_segmented (hmode : config.rangeMode = .segmented)
    (hplan : (compile ops config).verdict = .ok plan) (hnever : plan.never = false)
    (hmost : plan.maxEmits = some most) :
    ∃ start, .gate ⟨start, some most⟩ ∈ Op.stages ops := by
  rcases compile_cases hplan with ⟨-, rfl⟩ | ⟨-, ⟨-, rfl⟩ | ⟨hbaseline, -⟩⟩
  · exact absurd hnever (by simp [nothing])
  · change (Draft.ofOps config.rangeMode ops).maxEmits = some most at hmost
    rw [hmode, Draft.maxEmits_ofOps, ← OpInfo.composedLimit_eq] at hmost
    obtain ⟨info, hinfo, hextent⟩ := List.mem_filterMap.1 (List.min?_mem hmost)
    obtain ⟨op, hop, rfl⟩ := List.mem_map.1 hinfo
    rw [OpInfo.extent?_eq] at hextent
    cases op with
    | range start stop =>
      have hstop : stop.map (· - start) = some most := hextent
      refine ⟨start, List.mem_filterMap.2 ⟨_, hop, ?_⟩⟩
      rw [Op.stage?, hstop, if_neg]
      rintro ⟨-, rfl⟩
      exact absurd hstop (by simp)
    | _ => exact absurd hextent (by simp [Op.info, OpInfo.stop])
  · exact absurd (hmode.symm.trans hbaseline) (by simp)

/-- Without flattens, and in baseline mode even with them, there is a gate of the limit behind the
last flatten. -/
theorem exists_limitingGate (hplan : (compile ops config).verdict = .ok plan)
    (hnever : plan.never = false) (hmost : plan.maxEmits = some most)
    (h : config.rangeMode = .baseline ∨ ∀ step ∈ plan.steps, step.isExpand = false) :
    ∃ before number behind, plan.steps = before ++ .gate number :: behind
      ∧ (plan.start.window number).take = some most
      ∧ ∀ step ∈ behind, step.isExpand = false := by
  have hlaid := laidOut_of_compile hplan hnever
  cases hmode : config.rangeMode with
  | baseline =>
    obtain ⟨-, hlayout⟩ := hlaid.baseline hmode
    rw [hmost] at hlayout
    obtain ⟨steps, last, hsteps, -, hlast⟩ := List.map_eq_append_iff.1 hlayout
    obtain ⟨step, rfl, hstep⟩ := List.map_eq_singleton_iff.1 hlast
    cases step with
    | gate number =>
      refine ⟨steps, number, [], hsteps, ?_, nofun⟩
      rw [Stage.gate.inj hstep]
    | _ => exact absurd hstep (by simp [Step.stage])
  | segmented =>
    have hexpand := h.resolve_left (by simp [hmode])
    obtain ⟨start, hstage⟩ := exists_stage_of_segmented hmode hplan hnever hmost
    rw [← hlaid.segmented hmode] at hstage
    obtain ⟨number, hmem, hwindow⟩ := exists_gate_of_mem_layout hstage
    obtain ⟨before, behind, hsteps⟩ := List.append_of_mem hmem
    refine ⟨before, number, behind, hsteps, by rw [hwindow], fun step hstep => hexpand step ?_⟩
    rw [hsteps]
    exact List.mem_append_right _ (List.mem_cons_of_mem _ hstep)

end Plan

/-! ## Sources and their lengths -/

namespace Intake

/-- A container has no more to give than its positions. -/
theorem length_remaining_shelf (source : Ident) (box : Container α) (position : Nat) :
    (shelf source box position).remaining.items.length ≤ box.size - position := by
  induction hleft : box.size - position generalizing position with
  | zero =>
    rw [remaining_eq, pull, if_neg (by omega)]
    exact Nat.le_refl _
  | succ n ih =>
    rw [remaining_eq, pull, if_pos (by omega)]
    cases box.get? position with
    | none => exact Nat.zero_le _
    | some x => exact Nat.succ_le_succ (ih (position + 1) (by omega))

theorem length_remaining_owned (items : List α) :
    (owned items).remaining.items.length = items.length := by
  induction items with
  | nil =>
    rw [remaining_eq]
    rfl
  | cons x items ih =>
    rw [remaining_eq]
    exact congrArg (· + 1) ih

end Intake

namespace Opened

/-- The number of elements of the source; where elements can only be pulled, of those that come when
all are pulled. -/
def length : Opened α → Nat
  | .indexed _ box => box.size
  | .owned items => items.length
  | .sequential intake => intake.remaining.items.length

theorem lengthHint_eq (opened : Opened α) {length : Nat} (h : opened.lengthHint = some length) :
    opened.length = length := by
  cases opened with
  | sequential intake => exact absurd h (by simp [lengthHint])
  | _ => exact Option.some.inj h

theorem length_remaining_le (plan : Plan α) (opened : Opened α) :
    (opened.intakeFrom (opened.jump plan)).remaining.items.length ≤ opened.length := by
  cases opened with
  | indexed source box =>
    exact Nat.le_trans (Intake.length_remaining_shelf source box _) (Nat.sub_le ..)
  | owned items =>
    refine Nat.le_trans (Nat.le_of_eq (Intake.length_remaining_owned _)) ?_
    rw [List.length_drop]
    exact Nat.sub_le ..
  | sequential intake => exact Nat.le_refl _

end Opened

/-! ## Bounds -/

namespace Plan

variable {ops : List (Op α)} {config : Config} {plan : Plan α} {most : Nat}

/-- How many elements are handed out when the plan is set going over an opened source. A plan that
lets nothing pass is not run. -/
def emissions (plan : Plan α) (sink : Sink α γ) (seed : γ) (opened : Opened α) : Nat :=
  if plan.never then 0 else (plan.drained sink seed opened).state.counters.emitted

theorem emissions_of_never (hnever : plan.never = true) (sink : Sink α γ) (seed : γ)
    (opened : Opened α) : plan.emissions sink seed opened = 0 := if_pos hnever

theorem emissions_of_not_never (hnever : plan.never = false) (sink : Sink α γ) (seed : γ)
    (opened : Opened α) :
    plan.emissions sink seed opened = (plan.drained sink seed opened).state.counters.emitted :=
  if_neg (by simp [hnever])

/-- What a run reports as emitted. -/
theorem emitted_run (hnever : plan.never = false) {sink : Sink α γ} {seed : γ} {opened : Opened α}
    {stats : Stats} (h : (plan.run sink seed opened).result = .ok stats) :
    stats.emitted = plan.emissions sink seed opened := by
  rw [emissions_of_not_never hnever]
  exact (plan.run_eq_drain sink seed opened).emitted_eq h

theorem emissions_le_length (hsteps : ∀ step ∈ plan.steps, step.isExpand = false)
    (sink : Sink α γ) (seed : γ) (opened : Opened α) :
    plan.emissions sink seed opened ≤ opened.length := by
  cases hnever : plan.never with
  | true =>
    rw [emissions_of_never hnever]
    exact Nat.zero_le _
  | false =>
    obtain ⟨fed, hprefix, -, hsame⟩ := plan.drained_feeds sink seed opened
    have hfed : fed.length ≤ opened.length := by
      refine Nat.le_trans ?_ (opened.length_remaining_le plan)
      rw [← List.length_map some]
      exact hprefix.length_le
    have hemitted := plan.emitted_feedAll_le sink hsteps fed
      ⟨opened.start plan, seed, .empty⟩
    rw [emitted_start, Nat.zero_add] at hemitted
    rw [emissions_of_not_never hnever, hsame.1]
    exact Nat.le_trans hemitted hfed

theorem take_start (plan : Plan α) (opened : Opened α) (number : Nat) :
    ((opened.start plan).window number).take = (plan.start.window number).take := by
  cases opened with
  | indexed source box => exact plan.take_startAfterJump box.size number
  | owned items => exact plan.take_startAfterJump items.length number
  | sequential intake => rfl

theorem emissions_le_most (hplan : (compile ops config).verdict = .ok plan)
    (hmost : plan.maxEmits = some most)
    (h : config.rangeMode = .baseline ∨ ∀ step ∈ plan.steps, step.isExpand = false)
    (sink : Sink α γ) (seed : γ) (opened : Opened α) :
    plan.emissions sink seed opened ≤ most := by
  cases hnever : plan.never with
  | true =>
    rw [emissions_of_never hnever]
    exact Nat.zero_le _
  | false =>
    obtain ⟨before, number, behind, hsteps, htake, hbehind⟩ :=
      exists_limitingGate hplan hnever hmost h
    obtain ⟨fed, -, -, hsame⟩ := plan.drained_feeds sink seed opened
    have hstart : (opened.start plan).Within number most := by
      refine ⟨most, (take_start plan opened number).trans htake, Nat.le_of_eq ?_⟩
      rw [emitted_start, Nat.zero_add]
    obtain ⟨left, -, hwithin⟩ := within_feedAll sink hsteps hbehind fed
      (s := ⟨opened.start plan, seed, .empty⟩) hstart
    rw [emissions_of_not_never hnever, hsame.1]
    omega

/-- Capacity is asked for only without flattens, and then it is the limit, the length of the source
or the smaller one of both. -/
theorem capacityHint_cases {known : Option Nat} (h : plan.capacityHint known ≠ 0) :
    (∀ step ∈ plan.steps, step.isExpand = false)
      ∧ ((∃ most, plan.maxEmits = some most ∧ plan.capacityHint known = min most (known.getD most))
        ∨ known = some (plan.capacityHint known)) := by
  cases hexpand : plan.steps.any Step.isExpand with
  | true =>
    refine absurd ?_ h
    simp only [capacityHint, hexpand]
    cases plan.maxEmits <;> cases known <;> rfl
  | false =>
    refine ⟨fun step hstep => by simpa using List.any_eq_false.1 hexpand step hstep, ?_⟩
    simp only [capacityHint, hexpand] at h ⊢
    cases hmost : plan.maxEmits with
    | some most => exact .inl ⟨most, rfl, rfl⟩
    | none =>
      rw [hmost] at h
      cases known with
      | none => exact absurd rfl h
      | some length =>
        cases htest : plan.steps.any Step.isTest with
        | true =>
          rw [htest] at h
          exact absurd rfl h
        | false => exact .inr rfl

/-- The capacity that a plan asks for is enough, if it asks for any. -/
theorem emissions_le_capacityHint (hplan : (compile ops config).verdict = .ok plan)
    (opened : Opened α) (hhint : plan.capacityHint opened.lengthHint ≠ 0) (sink : Sink α γ)
    (seed : γ) : plan.emissions sink seed opened ≤ plan.capacityHint opened.lengthHint := by
  obtain ⟨hsteps, ⟨most, hmost, hcapacity⟩ | hknown⟩ := capacityHint_cases hhint
  · have hwithin := emissions_le_most hplan hmost (.inr hsteps) sink seed opened
    rw [hcapacity]
    refine Nat.le_min.2 ⟨hwithin, ?_⟩
    cases hknown : opened.lengthHint with
    | none => exact hwithin
    | some length =>
      exact opened.lengthHint_eq hknown ▸ emissions_le_length hsteps sink seed opened
  · exact opened.lengthHint_eq hknown ▸ emissions_le_length hsteps sink seed opened

/-- A run that collects has as many elements as were handed out. -/
theorem length_collected (hnever : plan.never = false) (opened : Opened α) :
    (plan.run .collect [] opened).acc.length = plan.emissions .collect [] opened := by
  obtain ⟨fed, -, -, hsame⟩ := plan.drained_feeds .collect [] opened
  have hcourse : Course (Sink.collect : Sink α (List α)) (fun _ => True)
      (fun s => s.acc.length = s.counters.emitted) (fun s => s.acc.length = s.counters.emitted)
      (fun s => s.acc.length = s.counters.emitted) :=
    .of_kept (fun f slot x hs => by cases slot <;> exact hs) (fun number hs => hs)
      (fun x hs => congrArg (· + 1) hs)
  have hstart : ([] : List α).length = (opened.start plan).emitted :=
    (emitted_start plan opened).symm
  have hacc := (plan.run_eq_drain .collect [] opened).acc_eq
  rw [hacc, emissions_of_not_never hnever, hsame.1, hsame.2]
  exact plan.feedAll_keeps hcourse trivial fed hstart

/-- Bounds on what a terminal is handed by any run over any source, also one that fails: without
flattens the limit of the plan and the length of the source, in baseline mode the limit, and the
capacity that the plan asks for, if it asks for any, which is then enough to collect the results. -/
theorem emissions_bounded (hplan : (compile ops config).verdict = .ok plan) (opened : Opened α) :
    (∀ (γ : Type) (sink : Sink α γ) (seed : γ),
      let emissions := plan.emissions sink seed opened
      ((∀ step ∈ plan.steps, step.isExpand = false) →
          emissions ≤ opened.length ∧ ∀ most, plan.maxEmits = some most → emissions ≤ most)
        ∧ (config.rangeMode = .baseline → ∀ most, plan.maxEmits = some most → emissions ≤ most)
        ∧ (plan.capacityHint opened.lengthHint ≠ 0 →
          emissions ≤ plan.capacityHint opened.lengthHint)
        ∧ (plan.never = false → ∀ stats, (plan.run sink seed opened).result = .ok stats →
          stats.emitted = emissions))
    ∧ (plan.capacityHint opened.lengthHint ≠ 0 →
      (plan.run .collect [] opened).acc.length ≤ plan.capacityHint opened.lengthHint) := by
  refine ⟨fun γ sink seed => ⟨fun hsteps => ⟨?_, fun most hmost => ?_⟩, fun hmode most hmost => ?_,
    fun hhint => ?_, fun hnever stats hstats => ?_⟩, fun hhint => ?_⟩
  · exact emissions_le_length hsteps sink seed opened
  · exact emissions_le_most hplan hmost (.inr hsteps) sink seed opened
  · exact emissions_le_most hplan hmost (.inl hmode) sink seed opened
  · exact emissions_le_capacityHint hplan opened hhint sink seed
  · exact emitted_run hnever hstats
  · cases hnever : plan.never with
    | true => exact absurd (capacityHint_of_never hplan hnever _) hhint
    | false =>
      rw [length_collected hnever]
      exact emissions_le_capacityHint hplan opened hhint .collect []

/-- Two gates with a filter in between: of the seven elements of a source no more than two come
through, and for so many capacity is asked for. -/
theorem emissions_bounded_two_gates :
    let large : Callback Nat Bool := .plain fun x => 3 < x
    let ops : List (Op Nat) := [.range 1 (some 6), .filter large none, .range 0 (some 2)]
    let opened : Opened Nat := .indexed ⟨0, none⟩ (.ofList [1, 2, 3, 4, 5, 6, 7])
    ∃ plan, (compile ops .segmented).verdict = .ok plan ∧ plan.capacityHint opened.lengthHint = 2
      ∧ (plan.run .collect [] opened).acc.length ≤ 2 ∧ plan.emissions .count () opened ≤ 2 := by
  intro large ops opened
  have hplan : (compile ops .segmented).verdict = .ok (Draft.ofOps .segmented ops).toPlan := rfl
  have hhint : (Draft.ofOps .segmented ops).toPlan.capacityHint opened.lengthHint = 2 := rfl
  obtain ⟨hruns, hcollected⟩ := emissions_bounded hplan opened
  rw [hhint] at hcollected
  exact ⟨_, hplan, hhint, hcollected (by simp), (hruns _ .count ()).2.2.1 (by rw [hhint]; simp)⟩

end Plan

end StreamFusion
