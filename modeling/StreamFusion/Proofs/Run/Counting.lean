import StreamFusion.Proofs.Plan.Layout
import StreamFusion.Proofs.Run.Arrivals
import StreamFusion.Proofs.Run.Stopping

/-!
# What counters count

At every moment of a run, also in the midst of an expansion, its counters are told by the arrivals
that led there: what is left of a gate and which elements it let pass, how many elements reached a
step, and how many came to the closing action (`Plan.Tallies`). One arrival is counted where the
element came to (`Plan.Tallies.arrive`), and so are all arrivals of a run (`Plan.Goes.tallies`).
-/

namespace StreamFusion

variable {α γ : Type}

/-! ## A gate behind a number of elements -/

namespace Window

/-- What is left of a gate behind so many elements. -/
def behind (w : Window) (count : Nat) : Window :=
  ⟨w.skip - count, w.take.map (· - (count - w.skip))⟩

@[simp] theorem behind_zero (w : Window) : w.behind 0 = w := by
  rcases w with ⟨skip, _ | most⟩
  · rfl
  · simp [behind]

theorem behind_of_lt {w : Window} {count : Nat} (h : count < w.skip) :
    w.behind count = ⟨w.skip - (count + 1) + 1, w.take⟩ := by
  have hskip : w.skip - count = w.skip - (count + 1) + 1 := by omega
  have htake : count - w.skip = 0 := by omega
  rw [behind, hskip, htake]
  cases w.take <;> rfl

theorem behind_of_le {w : Window} {count : Nat} (h : w.skip ≤ count) :
    w.behind count = ⟨0, w.take.map (· - (count - w.skip))⟩ := by
  rw [behind, Nat.sub_eq_zero_of_le h]

/-- One more element leaves what is left behind one more. -/
theorem ask_behind (w : Window) (count : Nat) : (w.behind count).ask.2 = w.behind (count + 1) := by
  by_cases hskip : count < w.skip
  · have hnext : count + 1 - w.skip = 0 := by omega
    rw [behind_of_lt hskip, ask, behind, hnext]
    cases w.take <;> rfl
  · have hle : w.skip ≤ count := Nat.le_of_not_lt hskip
    have hnext : count + 1 - w.skip = count - w.skip + 1 := by omega
    rw [behind_of_le hle, behind_of_le (Nat.le_succ_of_le hle), hnext]
    cases w.take with
    | none => rfl
    | some most =>
      simp only [Option.map_some, Nat.sub_add_eq]
      cases most - (count - w.skip) <;> rfl

/-- A gate drops as many elements as it skips, and lets pass as many as it takes then. -/
theorem through_behind_iff (w : Window) (count : Nat) :
    (w.behind count).ask.1 = .through ↔
      w.skip ≤ count ∧ ∀ most, w.take = some most → count < w.skip + most := by
  by_cases hskip : count < w.skip
  · rw [behind_of_lt hskip, ask]
    refine ⟨fun h => absurd h (by simp), fun h => ?_⟩
    exact absurd h.1 (Nat.not_le_of_lt hskip)
  · have hle : w.skip ≤ count := Nat.le_of_not_lt hskip
    rw [behind_of_le hle]
    cases w.take with
    | none =>
      refine ⟨fun _ => ⟨hle, fun most hmost => ?_⟩, fun _ => rfl⟩
      exact absurd hmost (by simp)
    | some most =>
      rw [Option.map_some]
      cases hleft : most - (count - w.skip) with
      | zero =>
        refine ⟨fun h => absurd h (by simp [ask]), fun h => ?_⟩
        have hlt := h.2 most rfl
        omega
      | succ left =>
        refine ⟨fun _ => ⟨hle, fun other hother => ?_⟩, fun _ => rfl⟩
        rw [← Option.some.inj hother]
        omega

/-- The take is touched only where nothing more is skipped. -/
theorem skip_behind_eq_zero {w : Window} {count : Nat} (h : (w.behind count).take ≠ w.take) :
    (w.behind count).skip = 0 := by
  by_cases hskip : count < w.skip
  · rw [behind_of_lt hskip] at h
    exact absurd rfl h
  · rw [behind_of_le (Nat.le_of_not_lt hskip)]

end Window

/-! ## Arrivals at one place -/

/-- The arrivals at a place, in their order. -/
def arrivalsAt (place : Nat) (history : List (Arrival α)) : List (Arrival α) :=
  history.filter (·.place == place)

section Concat

variable {place other : Nat} (history : List (Arrival α)) (sent : Option (List α))

theorem arrivalsAt_concat_self :
    arrivalsAt place (history ++ [⟨place, sent⟩]) =
      arrivalsAt place history ++ [⟨place, sent⟩] := by
  rw [arrivalsAt, List.filter_append, List.filter_cons_of_pos (by simp)]
  rfl

theorem arrivalsAt_concat_of_ne (h : place ≠ other) :
    arrivalsAt other (history ++ [⟨place, sent⟩]) = arrivalsAt other history := by
  rw [arrivalsAt, List.filter_append, List.filter_cons_of_neg (by simpa using h)]
  exact List.append_nil _

end Concat

/-- These elements came to a gate one after the other, and this is left of it: what it lets pass is
told by its skip and its take. -/
structure Window.Counts (w left : Window) (arrivals : List (Arrival α)) : Prop where
  left_eq : left = w.behind arrivals.length
  passed_iff : ∀ k arrival, arrivals[k]? = some arrival →
    (arrival.passed = true ↔ w.skip ≤ k ∧ ∀ most, w.take = some most → k < w.skip + most)
  skip_eq_zero : left.take ≠ w.take → left.skip = 0

namespace Window.Counts

variable {w left : Window} {arrivals : List (Arrival α)} {arrival : Arrival α}

theorem nil (w : Window) : w.Counts w ([] : List (Arrival α)) :=
  ⟨w.behind_zero.symm, fun _ _ h => absurd h (by simp), fun h => absurd rfl h⟩

/-- One more element comes to the gate. -/
theorem concat (h : w.Counts left arrivals)
    (hpassed : arrival.passed = true ↔ left.ask.1 = .through) :
    w.Counts left.ask.2 (arrivals ++ [arrival]) := by
  have hleft : left.ask.2 = w.behind (arrivals ++ [arrival]).length := by
    rw [h.left_eq, ask_behind, List.length_append, List.length_singleton]
  refine ⟨hleft, fun k other hother => ?_, fun htake => ?_⟩
  · rcases Nat.lt_trichotomy k arrivals.length with hearlier | rfl | hlater
    · rw [List.getElem?_append_left hearlier] at hother
      exact h.passed_iff k other hother
    · rw [List.getElem?_concat_length] at hother
      rw [← Option.some.inj hother, hpassed, h.left_eq, through_behind_iff]
    · have hlength : (arrivals ++ [arrival]).length ≤ k := by
        rw [List.length_append, List.length_singleton]
        omega
      rw [List.getElem?_eq_none hlength] at hother
      exact absurd hother (by simp)
  · rw [hleft] at htake ⊢
    exact skip_behind_eq_zero htake

end Window.Counts

/-! ## Places of gates and slots -/

namespace Plan

/-- The number of the gate at a place. -/
def gateAt (plan : Plan α) (place : Nat) : Option Nat := plan.steps[place]?.bind Step.gate?

/-- The slot in which the step at a place counts. -/
def slotAt (plan : Plan α) (place : Nat) : Option Nat := plan.steps[place]?.bind Step.slot?

variable {plan : Plan α} {place other number slot : Nat}

theorem gateAt_eq_some :
    plan.gateAt place = some number ↔ plan.steps[place]? = some (.gate number) := by
  rw [gateAt, Option.bind_eq_some_iff]
  constructor
  · rintro ⟨step, hstep, hgate⟩
    cases step with
    | gate other => rw [hstep, Option.some.inj hgate]
    | _ => exact absurd hgate (by simp [Step.gate?])
  · exact fun hstep => ⟨_, hstep, rfl⟩

theorem gateAt_eq {step : Step α} (hstep : plan.steps[place]? = some step) :
    plan.gateAt place = step.gate? := by
  rw [gateAt, hstep, Option.bind_some]

theorem slotAt_eq {step : Step α} (hstep : plan.steps[place]? = some step) :
    plan.slotAt place = step.slot? := by
  rw [slotAt, hstep, Option.bind_some]

/-- The steps at two places share no counter. -/
theorem Numbered.apart (h : plan.Numbered) (hne : place ≠ other) {step later : Step α}
    (hstep : plan.steps[place]? = some step) (hlater : plan.steps[other]? = some later) :
    step.Apart later := by
  obtain ⟨hplace, rfl⟩ := List.getElem?_eq_some_iff.1 hstep
  obtain ⟨hother, rfl⟩ := List.getElem?_eq_some_iff.1 hlater
  have hpairs := List.pairwise_iff_getElem.1 (Step.Numbered.apart h)
  rcases Nat.lt_or_gt_of_ne hne with hlt | hgt
  · exact hpairs place other hplace hother hlt
  · exact (hpairs other place hother hplace hgt).symm

/-- A gate stands at one place only. -/
theorem Numbered.gateAt_inj (h : plan.Numbered) (hplace : plan.gateAt place = some number)
    (hother : plan.gateAt other = some number) : place = other := by
  by_contra hne
  exact (h.apart hne (gateAt_eq_some.1 hplace) (gateAt_eq_some.1 hother)).gate number rfl rfl

/-- Only one step counts in a slot. -/
theorem Numbered.slotAt_inj (h : plan.Numbered) (hplace : plan.slotAt place = some slot)
    (hother : plan.slotAt other = some slot) : place = other := by
  by_contra hne
  obtain ⟨step, hstep, hslot⟩ := Option.bind_eq_some_iff.1 hplace
  obtain ⟨later, hlater, hsame⟩ := Option.bind_eq_some_iff.1 hother
  exact (h.apart hne hstep hlater).slot slot hslot hsame

theorem Numbered.slotAt_lt (h : plan.Numbered) (hplace : plan.slotAt place = some slot) :
    slot < plan.slots := by
  obtain ⟨step, hstep, hslot⟩ := Option.bind_eq_some_iff.1 hplace
  exact (h.fits step (List.mem_of_getElem? hstep)).slot_lt slot hslot

end Plan

/-! ## What an arrival does -/

/-- What an element can do that comes to a place: the counters behind it and what goes on from
there. -/
inductive Plan.Meeting (plan : Plan α) (place : Nat) (x : α) (c : Counters) :
    Counters → Option (List α) → Prop where
  | closing {sent : Option (List α)} (hstep : plan.steps[place]? = none)
      (hsent : sent = some [] ∨ sent = none) : Meeting plan place x c c.emit sent
  | call {step : Step α} (sent : Option (List α)) (hstep : plan.steps[place]? = some step)
      (hgate : step.gate? = none) : Meeting plan place x c (c.tick step.slot?) sent
  | gate {number : Nat} (hstep : plan.steps[place]? = some (.gate number)) :
      Meeting plan place x c (c.afterGate number) ((c.window number).ask.1.sent x)

namespace Plan

variable {plan : Plan α} {place : Nat}

/-- There is nothing else that it can do, whatever the callback and the closing action are. -/
theorem meeting_of_met {step : Option (Step α)}
    (met : Option.Rel Step.Alike plan.steps[place]? step) (sink : Sink α γ) (x : α)
    (s : RunState α γ) :
    plan.Meeting place x s.counters (RunM.left (RunM.meet sink x step s)).counters
      (RunM.sent (RunM.meet sink x step s)) := by
  generalize hstep : plan.steps[place]? = planned at met
  cases met with
  | none =>
    rw [RunM.meet_none, RunM.feed_nil]
    rcases (sink s.acc x s.counters.emitted).result with _ | ⟨acc, _ | _⟩
    · exact .closing hstep (.inr rfl)
    · exact .closing hstep (.inl rfl)
    · exact .closing hstep (.inr rfl)
  | some halike =>
    cases halike with
    | map f g slot =>
      rw [RunM.meet_map]
      cases g.answer x (s.counters.index slot) <;> exact .call _ hstep rfl
    | test p q slot =>
      rw [RunM.meet_test]
      cases q.answer x (s.counters.index slot) <;> exact .call _ hstep rfl
    | expand f g slot =>
      rw [RunM.meet_expand]
      cases g.answer x (s.counters.index slot) <;> exact .call _ hstep rfl
    | gate number =>
      rw [RunM.meet_gate]
      exact .gate hstep

end Plan

/-- What waits behind an arrival waited before or went on from there. -/
theorem Midway.mem_behind {place : Nat} {rest : List (Nat × α)}
    {result : EStateM.Result α (RunState α γ) (Option (List α))} {part : Nat × α}
    (h : part ∈ (behind place rest result).waiting) :
    part ∈ rest ∨ (part.1 = place + 1 ∧ ∃ ys, RunM.sent result = some ys ∧ part.2 ∈ ys) := by
  rw [behind] at h
  cases hsent : RunM.sent result with
  | none =>
    simp only [hsent] at h
    exact absurd h (by simp)
  | some ys =>
    simp only [hsent] at h
    rcases List.mem_append.1 h with hnew | hold
    · obtain ⟨y, hy, rfl⟩ := List.mem_map.1 hnew
      exact .inr ⟨rfl, ys, rfl, hy⟩
    · exact .inl hold

/-! ## Counters and histories -/

/-- The counters are told by the arrivals: every counter by those at its place. -/
structure Plan.Tallies (plan : Plan α) (history : List (Arrival α)) (c : Counters) : Prop where
  sized : c.Sized plan.gates.length plan.slots
  gate : ∀ place number, plan.gateAt place = some number →
    (plan.start.window number).Counts (c.window number) (arrivalsAt place history)
  slot : ∀ place slot, plan.slotAt place = some slot →
    c.index (some slot) = (arrivalsAt place history).length
  emitted : c.emitted = (arrivalsAt plan.steps.length history).length
  marked : c.Marked

namespace Plan

variable {plan : Plan α} {place : Nat} {history : List (Arrival α)} {c c' : Counters}

theorem tallies_start (hmarked : plan.start.Marked) : plan.Tallies [] plan.start where
  sized := plan.sized_start
  gate := fun _ _ _ => .nil _
  slot := fun _ slot _ => plan.index_start (some slot)
  emitted := rfl
  marked := hmarked

theorem place_lt {step : Step α} (h : plan.steps[place]? = some step) :
    place < plan.steps.length := (List.getElem?_eq_some_iff.1 h).1

/-- An element comes to the closing action. -/
theorem Tallies.closing (h : plan.Tallies history c) (hplace : plan.steps[place]? = none)
    (hle : place ≤ plan.steps.length) (sent : Option (List α)) :
    plan.Tallies (history ++ [⟨place, sent⟩]) c.emit := by
  obtain rfl : place = plan.steps.length :=
    Nat.le_antisymm hle (List.getElem?_eq_none_iff.1 hplace)
  refine ⟨⟨h.sized.gates_eq, h.sized.slots_eq⟩, ?_, ?_, ?_, h.marked⟩
  · intro other number hgate
    have hlt : other < plan.steps.length := place_lt (gateAt_eq_some.1 hgate)
    rw [arrivalsAt_concat_of_ne history sent (Nat.ne_of_gt hlt)]
    exact h.gate other number hgate
  · intro other slot hslot
    obtain ⟨step, hstep, -⟩ := Option.bind_eq_some_iff.1 hslot
    rw [arrivalsAt_concat_of_ne history sent (Nat.ne_of_gt (place_lt hstep)),
      Counters.index_emit]
    exact h.slot other slot hslot
  · rw [arrivalsAt_concat_self, List.length_append, ← h.emitted]
    rfl

/-- An element comes to a step that calls. -/
theorem Tallies.call (hnumbered : plan.Numbered) (h : plan.Tallies history c) {step : Step α}
    (hstep : plan.steps[place]? = some step) (hgate : step.gate? = none) (sent : Option (List α)) :
    plan.Tallies (history ++ [⟨place, sent⟩]) (c.tick step.slot?) := by
  have hslot : plan.slotAt place = step.slot? := slotAt_eq hstep
  refine ⟨h.sized.tick _, ?_, ?_, ?_, h.marked.tick _⟩
  · intro other number hother
    have hne : place ≠ other := by
      rintro rfl
      rw [gateAt_eq hstep, hgate] at hother
      exact absurd hother (by simp)
    rw [arrivalsAt_concat_of_ne history sent hne, Counters.window_tick]
    exact h.gate other number hother
  · intro other slot hother
    by_cases hsame : place = other
    · subst hsame
      have hlt : slot < c.slots.length := h.sized.slots_eq ▸ hnumbered.slotAt_lt hother
      rw [arrivalsAt_concat_self, List.length_append, ← hslot, hother,
        Counters.index_tick_self hlt, h.slot place slot hother]
      rfl
    · rw [arrivalsAt_concat_of_ne history sent hsame, ← h.slot other slot hother]
      -- the step at the other place counts in another slot
      cases hcounted : step.slot? with
      | none => rfl
      | some counted =>
        refine Counters.index_tick_of_ne c ?_
        rintro rfl
        exact hsame (hnumbered.slotAt_inj (hslot.trans hcounted) hother)
  · rw [arrivalsAt_concat_of_ne history sent (Nat.ne_of_lt (place_lt hstep)), ← h.emitted]
    cases step.slot? <;> rfl

/-- An element comes to a gate. -/
theorem Tallies.ask (hnumbered : plan.Numbered) (h : plan.Tallies history c) {number : Nat}
    (hstep : plan.steps[place]? = some (.gate number)) {sent : Option (List α)}
    (hpassed : (⟨place, sent⟩ : Arrival α).passed = true ↔ (c.window number).ask.1 = .through) :
    plan.Tallies (history ++ [⟨place, sent⟩]) (c.afterGate number) := by
  have hplace : plan.gateAt place = some number := gateAt_eq_some.2 hstep
  refine ⟨h.sized.afterGate _, ?_, ?_, ?_, h.marked.afterGate _⟩
  · intro other asked hother
    by_cases hsame : place = other
    · subst hsame
      obtain rfl : number = asked := Option.some.inj (hplace.symm.trans hother)
      rw [arrivalsAt_concat_self, Counters.window_afterGate_self]
      exact (h.gate place number hplace).concat hpassed
    · -- the gate at the other place has another number
      have hne : asked ≠ number := by
        rintro rfl
        exact hsame (hnumbered.gateAt_inj hplace hother)
      rw [arrivalsAt_concat_of_ne history sent hsame, Counters.window_afterGate_of_ne c hne]
      exact h.gate other asked hother
  · intro other slot hother
    have hne : place ≠ other := by
      rintro rfl
      rw [slotAt_eq hstep] at hother
      exact absurd hother (by simp [Step.slot?])
    rw [arrivalsAt_concat_of_ne history sent hne, Counters.index_afterGate]
    exact h.slot other slot hother
  · rw [arrivalsAt_concat_of_ne history sent (Nat.ne_of_lt (place_lt hstep)), ← h.emitted]
    rfl

/-- An arrival is counted where it came to, and nowhere else. -/
theorem Tallies.arrive (hnumbered : plan.Numbered) (h : plan.Tallies history c)
    (hle : place ≤ plan.steps.length) {x : α} {sent : Option (List α)}
    (hmeeting : plan.Meeting place x c c' sent) :
    plan.Tallies (history ++ [⟨place, sent⟩]) c' := by
  cases hmeeting with
  | closing hstep hsent => exact h.closing hstep hle sent
  | call sent hstep hgate => exact h.call hnumbered hstep hgate sent
  | @gate number hstep =>
    refine h.ask hnumbered hstep ?_
    rw [Arrival.passed]
    cases (c.window number).ask.1 <;> simp [Admission.sent]

/-- Only in front of a step does something go on. -/
theorem Meeting.place_lt {x y : α} {sent : Option (List α)} {ys : List α}
    (hmeeting : plan.Meeting place x c c' sent) (hsent : sent = some ys) (hy : y ∈ ys) :
    place < plan.steps.length := by
  cases hmeeting with
  | closing _ hnone =>
    rcases hnone with rfl | rfl
    · rw [← Option.some.inj hsent] at hy
      exact absurd hy (by simp)
    · exact absurd hsent (by simp)
  | call _ hstep _ => exact Plan.place_lt hstep
  | gate hstep => exact Plan.place_lt hstep

/-- At every moment of a run its counters are told by its history. -/
theorem Goes.tallies (hnumbered : plan.Numbered) {origin m : Midway α γ}
    (horigin : plan.Tallies [] origin.state.counters) (hwaiting : origin.waiting = [])
    (h : plan.Goes origin history m) :
    plan.Tallies history m.state.counters ∧ ∀ part ∈ m.waiting, part.1 ≤ plan.steps.length := by
  -- an arrival behind the closing action would be counted nowhere, so what waits is told as well
  induction h with
  | origin =>
    rw [hwaiting]
    exact ⟨horigin, nofun⟩
  | feed x acc journal _ ih =>
    refine ⟨ih.1, fun part hpart => ?_⟩
    rw [List.mem_singleton.1 hpart]
    exact Nat.zero_le _
  | @arrive _ s place x rest sink step met _ ih =>
    obtain ⟨htallies, hrest⟩ := ih
    have hmeeting := meeting_of_met met sink x s
    have hle : place ≤ plan.steps.length := hrest (place, x) List.mem_cons_self
    refine ⟨htallies.arrive hnumbered hle hmeeting, fun part hpart => ?_⟩
    rcases Midway.mem_behind hpart with hold | ⟨hplace, ys, hsent, hy⟩
    · exact hrest part (List.mem_cons_of_mem _ hold)
    · rw [hplace]
      exact hmeeting.place_lt hsent hy

end Plan

end StreamFusion
