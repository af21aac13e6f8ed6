import StreamFusion.Proofs.Intake.Iteration
import StreamFusion.Proofs.Run.Counting

/-!
# Counters and histories

What the counters of a run say about its history at every moment, also in the midst of an expansion
and behind a failure (`Plan.histories_counted`): every gate and every slot stands at one place and
counts the arrivals there, and a run is sealed if and only if a gate has nothing left to take.
Behind such a gate nothing comes to the closing action any more
(`Plan.Goes.place_le_of_closed`).
-/

namespace StreamFusion

variable {α γ : Type}

namespace Plan

variable {plan : Plan α} {place : Nat} {history : List (Arrival α)} {c c' : Counters}

/-! ## Shut gates -/

/-- A gate that let its last element pass stays shut. -/
theorem Meeting.closed {x : α} {sent : Option (List α)} (hmeeting : plan.Meeting place x c c' sent)
    {number : Nat} (hclosed : c.window number = .closed) : c'.window number = .closed := by
  cases hmeeting with
  | closing _ _ => exact hclosed
  | call _ _ _ =>
    rw [Counters.window_tick]
    exact hclosed
  | gate _ => exact Counters.window_eq_closed_afterGate hclosed _

/-- In front of a shut gate an element goes no further than to the gate. -/
theorem Meeting.place_lt_of_closed {x : α} {sent : Option (List α)} {ys : List α}
    (hmeeting : plan.Meeting place x c c' sent) {shut number : Nat}
    (hgate : plan.gateAt shut = some number) (hclosed : c.window number = .closed)
    (hle : place ≤ shut) (hsent : sent = some ys) : place < shut := by
  refine Nat.lt_of_le_of_ne hle ?_
  rintro rfl
  have hstep := gateAt_eq_some.1 hgate
  cases hmeeting with
  | closing hnone _ =>
    rw [hstep] at hnone
    exact absurd hnone (by simp)
  | call _ hcall hother =>
    rw [hstep, Option.some.injEq] at hcall
    subst hcall
    exact absurd hother (by simp [Step.gate?])
  | gate hasked =>
    rw [hstep, Option.some.injEq] at hasked
    injection hasked with hnumber
    subst hnumber
    rw [hclosed] at hsent
    exact absurd hsent (by simp [Admission.sent])

/-- Behind a shut gate nothing comes to any place. -/
theorem Goes.place_le_of_closed {shut number : Nat} (hgate : plan.gateAt shut = some number)
    {origin m : Midway α γ} (hclosed : origin.state.counters.window number = .closed)
    (hwaiting : ∀ part ∈ origin.waiting, part.1 ≤ shut) (h : plan.Goes origin history m) :
    (∀ arrival ∈ history, arrival.place ≤ shut)
      ∧ m.state.counters.window number = .closed ∧ ∀ part ∈ m.waiting, part.1 ≤ shut := by
  -- an element at the gate stops the run, so only what waits in front of it goes on
  induction h with
  | origin => exact ⟨nofun, hclosed, hwaiting⟩
  | feed x acc journal _ ih =>
    refine ⟨ih.1, ih.2.1, fun part hpart => ?_⟩
    rw [List.mem_singleton.1 hpart]
    exact Nat.zero_le _
  | @arrive _ s place x rest sink step met _ ih =>
    obtain ⟨harrivals, hstays, hrest⟩ := ih
    have hmeeting := meeting_of_met met sink x s
    have hle : place ≤ shut := hrest (place, x) List.mem_cons_self
    refine ⟨fun arrival harrival => ?_, hmeeting.closed hstays, fun part hpart => ?_⟩
    · rcases List.mem_append.1 harrival with hold | hnew
      · exact harrivals arrival hold
      · rw [List.mem_singleton.1 hnew]
        exact hle
    · rcases Midway.mem_behind hpart with hold | ⟨hplace, ys, hsent, -⟩
      · exact hrest part (List.mem_cons_of_mem _ hold)
      · rw [hplace]
        exact hmeeting.place_lt_of_closed hgate hstays hle hsent

end Plan

/-! ## Counters that are there -/

namespace Counters

theorem getElem?_gates {c : Counters} {number : Nat} (h : number < c.gates.length) :
    c.gates[number]? = some (c.window number) := by
  rw [window, List.getD_eq_getElem?_getD, List.getElem?_eq_getElem h, Option.getD_some]

theorem getElem?_slots {c : Counters} {slot : Nat} (h : slot < c.slots.length) :
    c.slots[slot]? = some (c.index (some slot)) := by
  rw [index, List.getD_eq_getElem?_getD, List.getElem?_eq_getElem h, Option.getD_some]

/-- A number with a limit is that of a gate. -/
theorem lt_of_take {c : Counters} {number most : Nat} (h : (c.window number).take = some most) :
    number < c.gates.length := by
  by_contra hge
  rw [window, List.getD_eq_getElem?_getD, List.getElem?_eq_none (Nat.le_of_not_lt hge)] at h
  exact absurd h (by simp)

/-- A gate has nothing left to take. -/
theorem exists_take_iff {c : Counters} :
    (∃ number, (c.window number).take = some 0) ↔ ∃ left ∈ c.gates, left.take = some 0 := by
  constructor
  · rintro ⟨number, htake⟩
    exact ⟨_, List.mem_of_getElem? (getElem?_gates (lt_of_take htake)), htake⟩
  · rintro ⟨left, hmem, htake⟩
    obtain ⟨number, hlt, rfl⟩ := List.getElem_of_mem hmem
    refine ⟨number, ?_⟩
    have hwindow := getElem?_gates hlt
    rw [List.getElem?_eq_getElem hlt, Option.some.injEq] at hwindow
    rw [← hwindow, htake]

end Counters

namespace Plan

variable {plan : Plan α} {number slot : Nat}

/-- Numbers that are used in order each have a place. -/
theorem exists_place {number? : Step α → Option Nat} {count number : Nat}
    (h : plan.steps.filterMap number? = List.range count) (hlt : number < count) :
    ∃ place : Nat, plan.steps[place]?.bind number? = some number := by
  have hmem : number ∈ plan.steps.filterMap number? := by
    rw [h]
    exact List.mem_range.2 hlt
  obtain ⟨step, hstep, hnumber⟩ := List.mem_filterMap.1 hmem
  obtain ⟨place, hplace⟩ := List.mem_iff_getElem?.1 hstep
  exact ⟨place, by rw [hplace, Option.bind_some, hnumber]⟩

theorem exists_gateAt (h : Step.InOrder plan.gates.length plan.slots plan.steps)
    (hlt : number < plan.gates.length) : ∃ place, plan.gateAt place = some number :=
  exists_place h.gates_eq hlt

theorem exists_slotAt (h : Step.InOrder plan.gates.length plan.slots plan.steps)
    (hlt : slot < plan.slots) : ∃ place, plan.slotAt place = some slot :=
  exists_place h.slots_eq hlt

end Plan

/-! ## Histories and counters -/

/-- Every gate and every slot stands at one place of the plan and is told by the arrivals there. So
is the emitted count, and the run is sealed if and only if a gate has nothing left to take. -/
structure Plan.Counts (plan : Plan α) (history : List (Arrival α)) (c : Counters) : Prop where
  gate : ∀ number w, plan.gates[number]? = some w → ∃ place left,
    (∀ other, plan.gateAt other = some number ↔ other = place)
      ∧ c.gates[number]? = some left ∧ w.Counts left (arrivalsAt place history)
  slot : ∀ slot < plan.slots, ∃ place,
    (∀ other, plan.slotAt other = some slot ↔ other = place)
      ∧ c.slots[slot]? = some (arrivalsAt place history).length
  emitted : c.emitted = (arrivalsAt plan.steps.length history).length
  isSealed : c.isSealed = true ↔ ∃ left ∈ c.gates, left.take = some 0

/-- Whatever element is fed to these counters, nothing comes to the closing action, whatever that
is, and whatever the callbacks answer. -/
structure Plan.HandsNothing (plan : Plan α) (c : Counters) : Prop where
  arrivals : ∀ (γ : Type) (s : RunState α γ) x history m, s.counters = c →
    plan.Goes ⟨s, [(0, x)]⟩ history m → arrivalsAt plan.steps.length history = []
  feed : ∀ (γ : Type) (sink : Sink α γ) (s : RunState α γ) x, s.counters = c →
    (RunM.left (RunM.feed sink plan.steps x s)).acc = s.acc
      ∧ (RunM.left (RunM.feed sink plan.steps x s)).counters.emitted = c.emitted

namespace Plan

variable {plan : Plan α} {history : List (Arrival α)} {c : Counters}

theorem Tallies.counts (hnumbered : plan.Numbered)
    (horder : Step.InOrder plan.gates.length plan.slots plan.steps)
    (h : plan.Tallies history c) : plan.Counts history c where
  gate := by
    intro number w hw
    have hlt : number < plan.gates.length := (List.getElem?_eq_some_iff.1 hw).1
    obtain ⟨place, hplace⟩ := exists_gateAt horder hlt
    have hwindow : plan.start.window number = w :=
      Option.some.inj ((Counters.getElem?_gates (c := plan.start) hlt).symm.trans hw)
    refine ⟨place, c.window number, fun other => ⟨fun hother => ?_, ?_⟩, ?_, ?_⟩
    · exact hnumbered.gateAt_inj hother hplace
    · rintro rfl
      exact hplace
    · exact Counters.getElem?_gates (h.sized.gates_eq ▸ hlt)
    · exact hwindow ▸ h.gate place number hplace
  slot := by
    intro slot hlt
    obtain ⟨place, hplace⟩ := exists_slotAt horder hlt
    refine ⟨place, fun other => ⟨fun hother => ?_, ?_⟩, ?_⟩
    · exact hnumbered.slotAt_inj hother hplace
    · rintro rfl
      exact hplace
    · rw [Counters.getElem?_slots (h.sized.slots_eq ▸ hlt), h.slot place slot hplace]
  emitted := h.emitted
  isSealed := Iff.trans h.marked Counters.exists_take_iff

/-- A run is sealed only where a gate is shut. -/
theorem Tallies.exists_closed (horder : Step.InOrder plan.gates.length plan.slots plan.steps)
    (hmarked : plan.start.Marked) (h : plan.Tallies history c) (hsealed : c.isSealed = true) :
    ∃ place number, plan.gateAt place = some number ∧ c.window number = .closed := by
  obtain ⟨number, htake⟩ := h.marked.1 hsealed
  have hlt : number < plan.gates.length := h.sized.gates_eq ▸ Counters.lt_of_take htake
  obtain ⟨place, hplace⟩ := exists_gateAt horder hlt
  -- the gate let something pass when the run started, so its take was touched
  have hopen : (plan.start.window number).take ≠ some 0 := fun hzero =>
    absurd (hmarked.2 ⟨number, hzero⟩) (by simp [start])
  have hskip : (c.window number).skip = 0 :=
    (h.gate place number hplace).skip_eq_zero fun hsame => hopen (hsame.symm.trans htake)
  refine ⟨place, number, hplace, ?_⟩
  generalize c.window number = w at htake hskip
  rcases w with ⟨skip, take⟩
  rw [Window.closed, Window.mk.injEq]
  exact ⟨hskip, htake⟩

theorem handsNothing_of_closed {place number : Nat} (hplace : plan.gateAt place = some number)
    (hclosed : c.window number = .closed) : plan.HandsNothing c where
  arrivals := by
    rintro γ s x history m rfl hgoes
    have hfrom : ∀ part ∈ [(0, x)], part.1 ≤ place := by
      intro part hpart
      rw [List.mem_singleton.1 hpart]
      exact Nat.zero_le _
    obtain ⟨harrivals, -, -⟩ := hgoes.place_le_of_closed hplace hclosed hfrom
    have hlt : place < plan.steps.length := place_lt (gateAt_eq_some.1 hplace)
    refine List.filter_eq_nil_iff.2 fun arrival harrival => ?_
    have hle := harrivals arrival harrival
    rw [beq_iff_eq]
    omega
  feed := by
    rintro γ sink s x rfl
    have hmem : .gate number ∈ plan.steps := List.mem_of_getElem? (gateAt_eq_some.1 hplace)
    have hshut := (Course.shut_keeps sink number
      (K := fun t => t.acc = s.acc ∧ t.counters.emitted = s.counters.emitted)
      (fun _ slot _ h => ⟨h.1, by cases slot <;> exact h.2⟩) (fun _ h => h)).feed hmem x
      ⟨hclosed, rfl, rfl⟩
    exact (RunM.ends_iff_left.1 hshut).2

end Plan

/-! ## Passing over elements -/

namespace Plan

variable {ops : List (Op α)} {config : Config} {plan : Plan α} {number : Nat}

/-- To pass over elements is to let the leading gate drop as many. -/
theorem leads_jump (hleading : plan.leadingGate = some number) (x : α) {s : RunState α γ}
    (hsealed : s.counters.isSealed = false) {count : Nat}
    (hcount : count ≤ (s.counters.window number).skip) :
    plan.Leads ⟨s, []⟩ ⟨{ s with counters := s.counters.jump number count }, []⟩ := by
  -- one element after another: each jump by one is a feed that the leading gate drops
  induction count generalizing s with
  | zero =>
    rw [Counters.jump_zero]
    exact ⟨[], .origin⟩
  | succ count ih =>
    let sink : Sink α γ := fun acc _ _ => ⟨[], some (acc, .onward)⟩
    let t : RunState α γ := { s with counters := s.counters.jump number 1 }
    have hfeed : RunM.left (RunM.feed sink plan.steps x s) = t := by
      rw [← plan.state_feed, feed_dropped hleading sink x hsealed (Nat.lt_of_lt_of_le
        (Nat.succ_pos _) hcount)]
      rfl
    have hfed : plan.Leads ⟨s, []⟩ ⟨s, [(0, x)]⟩ := ⟨[], .feed x s.acc s.journal .origin⟩
    have hone := hfed.trans (leads_feed sink x s)
    rw [hfeed] at hone
    have hleft : count ≤ (t.counters.window number).skip := by
      show count ≤ ((s.counters.jump number 1).window number).skip
      rw [Counters.window_jump_self]
      exact Nat.le_sub_one_of_lt hcount
    have hlater := hone.trans (ih (s := t) hsealed hleft)
    rw [Nat.add_comm count 1, ← Counters.jump_jump]
    exact hlater

/-- A run that passes over elements starts as if so many had been fed. -/
theorem leads_startAfterJump (x : α) (size : Nat) (seed : γ) :
    plan.Leads ⟨⟨plan.start, seed, .empty⟩, []⟩
      ⟨⟨plan.startAfterJump size, seed, .empty⟩, []⟩ := by
  unfold startAfterJump
  cases hleading : plan.leadingGate with
  | none => exact ⟨[], .origin⟩
  | some number =>
    refine leads_jump hleading x rfl ?_
    rw [jumped, hleading]
    exact Nat.min_le_left _ _

/-! ## The histories of a run -/

/-- At every moment of a run, whatever callbacks and closing actions do and wherever they fail or
stop the run, the counters are told by the history, and where the run is sealed, nothing that is fed
later comes to the closing action. When nothing is on its way any more the run can be fed, which is
one more part of the history; and a run that passes over elements has dropped as many. -/
theorem histories_counted (hplan : (compile ops config).verdict = .ok plan)
    (hnever : plan.never = false) {seed : γ} {history : List (Arrival α)} {m : Midway α γ}
    (h : plan.Goes ⟨⟨plan.start, seed, .empty⟩, []⟩ history m) :
    plan.Counts history m.state.counters
      ∧ (m.state.counters.isSealed = true → plan.HandsNothing m.state.counters)
      ∧ (m.waiting = [] → ∀ (sink : Sink α γ) (x : α), ∃ later,
        plan.Goes ⟨⟨plan.start, seed, .empty⟩, []⟩ (history ++ later)
          ⟨RunM.left (RunM.feed sink plan.steps x m.state), []⟩)
      ∧ (Nonempty α → ∀ size, ∃ dropped, plan.Goes ⟨⟨plan.start, seed, .empty⟩, []⟩ dropped
        ⟨⟨plan.startAfterJump size, seed, .empty⟩, []⟩) := by
  have hnumbered := numbered_of_compile hplan
  have horder := (laidOut_of_compile hplan hnever).inOrder
  have hmarked : plan.start.Marked := (onward_start hplan ([] : List α)).marked
  obtain ⟨htallies, -⟩ := h.tallies hnumbered (tallies_start hmarked) rfl
  refine ⟨htallies.counts hnumbered horder, fun hsealed => ?_, fun hwaiting sink x => ?_,
    fun ⟨x⟩ size => leads_startAfterJump x size seed⟩
  · obtain ⟨place, number, hplace, hclosed⟩ :=
      htallies.exists_closed horder hmarked hsealed
    exact handsNothing_of_closed hplace hclosed
  · obtain ⟨s, waiting⟩ := m
    subst hwaiting
    obtain ⟨later, hlater⟩ : plan.Leads ⟨s, [(0, x)]⟩
        ⟨RunM.left (RunM.feed sink plan.steps x s), []⟩ := leads_feed sink x s
    exact ⟨later, (Goes.feed x s.acc s.journal h).trans hlater⟩

/-- A gate that skips one element, an expansion to two, a callback with an index and a limit of one.
The second element that is fed is in the midst of its expansion when the limit is reached. -/
theorem histories_counted_midway :
    let plusTen : Callback Nat (List Nat) := .plain fun x => [x, x + 10]
    let counted : Callback Nat Nat := ⟨none, true, fun x index => some (x + index)⟩
    let ops : List (Op Nat) :=
      [.range 1 none, .flatten plusTen, .transform counted, .range 0 (some 1)]
    let plan := (Draft.ofOps .segmented ops).toPlan
    let history : List (Arrival Nat) := [⟨0, some []⟩, ⟨0, some [2]⟩, ⟨1, some [2, 12]⟩,
      ⟨2, some [2]⟩, ⟨3, some [2]⟩, ⟨4, some []⟩]
    (compile ops .segmented).verdict = .ok plan ∧ plan.never = false
      ∧ ∃ m : Midway Nat Unit, plan.Goes ⟨⟨plan.start, (), .empty⟩, []⟩ history m
        ∧ m.waiting = [(2, 12)] ∧ m.state.counters.isSealed = true
        ∧ plan.Counts history m.state.counters ∧ plan.HandsNothing m.state.counters := by
  intro plusTen counted ops plan history
  have hplan : (compile ops .segmented).verdict = .ok plan := rfl
  have hfirst : plan.Goes ⟨⟨plan.start, (), .empty⟩, []⟩ []
      ⟨⟨plan.start, (), .empty⟩, [(0, 1)]⟩ := .feed 1 () .empty .origin
  have hdropped := Goes.arrive Sink.count (.some (.refl (.gate 0))) hfirst
  have hsecond := Goes.feed 2 () .empty hdropped
  have hpassed := Goes.arrive Sink.count (.some (.refl (.gate 0))) hsecond
  have hexpanded := Goes.arrive Sink.count (.some (.refl (.expand plusTen none))) hpassed
  have hcalled := Goes.arrive Sink.count (.some (.refl (.map counted (some 0)))) hexpanded
  have hlast := Goes.arrive Sink.count (.some (.refl (.gate 1))) hcalled
  have hhanded := Goes.arrive Sink.count .none hlast
  obtain ⟨hcounts, hnothing, -⟩ := histories_counted hplan rfl hhanded
  exact ⟨hplan, rfl, _, hhanded, rfl, rfl, hcounts, hnothing rfl⟩

end Plan

end StreamFusion
