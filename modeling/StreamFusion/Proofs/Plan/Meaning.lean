import StreamFusion.Proofs.Operation.Laws
import StreamFusion.Run.Counters

/-!
# The meaning of plans

What the steps of a plan do to a whole list of elements, one step after the other, from given
counters on. A step reads one gate or one slot; as long as no two steps share one, counting for one
step leaves the meaning of the others as it is (`allOnList_congr`).
-/

namespace StreamFusion

variable {α β : Type}

/-- At most so many elements, all of them without a limit. -/
def upTo : Option Nat → List α → List α
  | none, xs => xs
  | some most, xs => xs.take most

@[simp] theorem upTo_nil (limit : Option Nat) : upTo limit ([] : List α) = [] := by
  cases limit
  · rfl
  · exact List.take_nil

namespace Window

/-- What a gate lets pass of a list. -/
def pass (w : Window) (xs : List α) : List α := upTo w.take (xs.drop w.skip)

@[simp] theorem pass_nil (w : Window) : w.pass ([] : List α) = [] := by
  rw [pass, List.drop_nil, upTo_nil]

/-- What passes of a list is what passes of its head, and then of the rest. -/
theorem pass_cons (w : Window) (x : α) (xs : List α) :
    w.pass (x :: xs) =
      match w.ask.1 with
      | .through => x :: w.ask.2.pass xs
      | .dropped => w.ask.2.pass xs
      | .shut => [] := by
  rcases w with ⟨_ | skip, _ | _ | take⟩ <;> rfl

/-- A gate that let its last element pass. -/
def closed : Window := ⟨0, some 0⟩

@[simp] theorem pass_closed (xs : List α) : closed.pass xs = [] := rfl

@[simp] theorem ask_closed : closed.ask = (.shut, closed) := rfl

/-- A gate closes when it lets its last element pass. -/
theorem ask_eq_closed {w : Window} (hthrough : w.ask.1 = .through) (hlast : w.ask.2.take = some 0) :
    w.ask.2 = closed := by
  rcases w with ⟨_ | skip, _ | _ | take⟩
  · exact absurd hlast (by simp [ask])
  · exact absurd hthrough (by simp [ask])
  · rw [ask, Option.some.injEq] at hlast
    subst hlast
    rfl
  all_goals exact absurd hthrough (by simp [ask])

end Window

theorem Op.onList_range (start : Nat) (stop : Option Nat) (xs : List α) :
    (Op.range start stop).onList xs = some (Window.pass ⟨start, stop.map (· - start)⟩ xs) := by
  cases stop <;> rfl

/-! ## Reading counters -/

namespace Counters

theorem index_tick_self {c : Counters} {slot : Nat} (h : slot < c.slots.length) :
    (c.tick (some slot)).index (some slot) = c.index (some slot) + 1 := by
  simp only [tick, index, List.getD_eq_getElem?_getD, List.getElem?_set_self h, Option.getD_some]

theorem index_tick_of_ne (c : Counters) {slot other : Nat} (h : other ≠ slot) :
    (c.tick (some slot)).index (some other) = c.index (some other) := by
  simp only [tick, index, List.getD_eq_getElem?_getD, List.getElem?_set_ne h.symm]

@[simp] theorem window_tick (c : Counters) (slot : Option Nat) (number : Nat) :
    (c.tick slot).window number = c.window number := by
  cases slot <;> rfl

/-- A number without a gate lets everything pass, before and after. -/
theorem window_afterGate_self (c : Counters) (number : Nat) :
    (c.afterGate number).window number = (c.window number).ask.2 := by
  by_cases h : number < c.gates.length
  · simp only [afterGate, window, List.getD_eq_getElem?_getD, List.getElem?_set_self h,
      Option.getD_some]
  · have hle := Nat.le_of_not_lt h
    simp only [afterGate, window, List.getD_eq_getElem?_getD, List.set_eq_of_length_le hle,
      List.getElem?_eq_none hle, Option.getD_none, Window.ask]

theorem window_afterGate_of_ne (c : Counters) {number other : Nat} (h : other ≠ number) :
    (c.afterGate number).window other = c.window other := by
  simp only [afterGate, window, List.getD_eq_getElem?_getD, List.getElem?_set_ne h.symm]

@[simp] theorem index_afterGate (c : Counters) (number : Nat) (slot : Option Nat) :
    (c.afterGate number).index slot = c.index slot := by
  cases slot <;> rfl

@[simp] theorem index_emit (c : Counters) (slot : Option Nat) :
    c.emit.index slot = c.index slot := by
  cases slot <;> rfl

/-- The counters have this many gates and slots. -/
structure Sized (c : Counters) (gates slots : Nat) : Prop where
  gates_eq : c.gates.length = gates
  slots_eq : c.slots.length = slots

variable {c : Counters} {gates slots : Nat}

theorem Sized.tick (h : c.Sized gates slots) (slot : Option Nat) :
    (c.tick slot).Sized gates slots := by
  cases slot with
  | none => exact h
  | some slot => exact ⟨h.gates_eq, by rw [Counters.tick, List.length_set]; exact h.slots_eq⟩

theorem Sized.afterGate (h : c.Sized gates slots) (number : Nat) :
    (c.afterGate number).Sized gates slots :=
  ⟨by rw [Counters.afterGate, List.length_set]; exact h.gates_eq, h.slots_eq⟩

end Counters

/-! ## Steps on a list -/

namespace Step

/-- The gate that a step asks. -/
def gate? : Step α → Option Nat
  | .gate number => some number
  | _ => none

/-- The slot that a step counts in. -/
def slot? : Step α → Option Nat
  | .map _ slot | .test _ slot | .expand _ slot => slot
  | .gate _ => none

/-- Does the callback of the step take an index? -/
def isIndexed : Step α → Bool
  | .map f _ => f.indexed
  | .test p _ => p.indexed
  | .expand f _ => f.indexed
  | .gate _ => false

/-- The step on a whole list, from these counters on. -/
def onList (c : Counters) (xs : List α) : Step α → Option (List α)
  | .map f slot => f.answersFrom (c.index slot) xs
  | .test p slot => (p.answersFrom (c.index slot) xs).map (keepWhere xs)
  | .expand f slot => (f.answersFrom (c.index slot) xs).map List.flatten
  | .gate number => some ((c.window number).pass xs)

/-- The steps on a whole list, one after the other. -/
def allOnList (c : Counters) : List (Step α) → List α → Option (List α)
  | [], xs => some xs
  | step :: steps, xs => do allOnList c steps (← step.onList c xs)

theorem onList_nil (c : Counters) (step : Step α) : step.onList c [] = some [] := by
  cases step <;> simp [onList, Callback.answersFrom, keepWhere]

theorem allOnList_nil (c : Counters) (steps : List (Step α)) : allOnList c steps [] = some [] := by
  induction steps with
  | nil => rfl
  | cons step steps ih =>
    rw [allOnList, onList_nil]
    exact ih

theorem allOnList_append (c : Counters) (steps others : List (Step α)) (xs : List α) :
    allOnList c (steps ++ others) xs = (allOnList c steps xs).bind (allOnList c others) := by
  induction steps generalizing xs with
  | nil => rfl
  | cons step steps ih =>
    simp only [List.cons_append, allOnList, Option.bind_eq_bind, Option.bind_assoc, ih]

theorem allOnList_concat (c : Counters) (steps : List (Step α)) (step : Step α) (xs : List α) :
    allOnList c (steps ++ [step]) xs = (allOnList c steps xs).bind (step.onList c) := by
  rw [allOnList_append]
  congr 1
  funext ys
  simp only [allOnList, Option.bind_eq_bind]
  cases step.onList c ys <;> rfl

/-- Behind a closed gate nothing is left. -/
theorem eq_nil_of_closed {c : Counters} {steps : List (Step α)} {number : Nat} {xs ys : List α}
    (hmem : .gate number ∈ steps) (hclosed : c.window number = .closed)
    (h : allOnList c steps xs = some ys) : ys = [] := by
  obtain ⟨before, behind, rfl⟩ := List.append_of_mem hmem
  rw [allOnList_append, Option.bind_eq_some_iff] at h
  obtain ⟨zs, -, hzs⟩ := h
  rw [allOnList, onList, hclosed, Window.pass_closed] at hzs
  change allOnList c behind [] = some ys at hzs
  rw [allOnList_nil, Option.some.injEq] at hzs
  exact hzs.symm

/-! ## Counting for one step only -/

/-- The step reads the same in both counters. -/
structure SameIn (step : Step α) (c d : Counters) : Prop where
  window_eq : ∀ number, step.gate? = some number → c.window number = d.window number
  index_eq : c.index step.slot? = d.index step.slot?

theorem sameIn_refl (step : Step α) (c : Counters) : step.SameIn c c := ⟨fun _ _ => rfl, rfl⟩

theorem SameIn.trans {step : Step α} {c d e : Counters} (hcd : step.SameIn c d)
    (hde : step.SameIn d e) : step.SameIn c e :=
  ⟨fun number h => (hcd.window_eq number h).trans (hde.window_eq number h),
    hcd.index_eq.trans hde.index_eq⟩

theorem SameIn.onList {step : Step α} {c d : Counters} (h : step.SameIn c d) (xs : List α) :
    step.onList c xs = step.onList d xs := by
  cases step with
  | gate number => rw [Step.onList, Step.onList, h.window_eq number rfl]
  | _ =>
    have hindex := h.index_eq
    simp only [slot?] at hindex
    simp only [Step.onList, hindex]

/-- Steps that read the same have the same meaning. -/
theorem allOnList_congr {c d : Counters} {steps : List (Step α)}
    (h : ∀ step ∈ steps, step.SameIn c d) (xs : List α) :
    allOnList c steps xs = allOnList d steps xs := by
  induction steps generalizing xs with
  | nil => rfl
  | cons step steps ih =>
    have hsteps := ih fun later hmem => h later (List.mem_cons_of_mem _ hmem)
    simp only [allOnList, (h step List.mem_cons_self).onList, hsteps]

/-- Two steps that share neither a gate nor a slot. -/
structure Apart (step later : Step α) : Prop where
  gate : ∀ number, step.gate? = some number → later.gate? ≠ some number
  slot : ∀ slot, step.slot? = some slot → later.slot? ≠ some slot

theorem Apart.symm {step later : Step α} (h : step.Apart later) : later.Apart step :=
  ⟨fun number hn hm => h.gate number hm hn, fun slot hn hm => h.slot slot hm hn⟩

theorem Apart.sameIn_tick {step later : Step α} (h : step.Apart later) (c : Counters) :
    later.SameIn c (c.tick step.slot?) := by
  refine ⟨fun number _ => (c.window_tick _ number).symm, ?_⟩
  cases hslot : step.slot? with
  | none => rfl
  | some slot =>
    cases hlater : later.slot? with
    | none => rfl
    | some other =>
      -- the slots differ, as the steps are apart
      have hne : other ≠ slot := fun he => h.slot slot hslot (he ▸ hlater)
      exact (c.index_tick_of_ne hne).symm

theorem Apart.sameIn_afterGate {step later : Step α} (h : step.Apart later) {number : Nat}
    (hnumber : step.gate? = some number) (c : Counters) :
    later.SameIn c (c.afterGate number) := by
  refine ⟨fun other hother => ?_, (c.index_afterGate number _).symm⟩
  have hne : other ≠ number := fun he => h.gate number hnumber (he ▸ hother)
  exact (c.window_afterGate_of_ne hne).symm

/-- The step finds its counter among so many gates and slots, and a step that counts nothing has a
callback that takes no index. -/
structure Fits (gates slots : Nat) (step : Step α) : Prop where
  gate_lt : ∀ number, step.gate? = some number → number < gates
  slot_lt : ∀ slot, step.slot? = some slot → slot < slots
  not_indexed : step.slot? = none → step.isIndexed = false

theorem Fits.mono {gates slots moreGates moreSlots : Nat} {step : Step α}
    (h : step.Fits gates slots) (hgates : gates ≤ moreGates) (hslots : slots ≤ moreSlots) :
    step.Fits moreGates moreSlots :=
  ⟨fun number hn => Nat.lt_of_lt_of_le (h.gate_lt number hn) hgates,
    fun slot hs => Nat.lt_of_lt_of_le (h.slot_lt slot hs) hslots, h.not_indexed⟩

/-- Every step counts on its own, with a counter among so many gates and slots. -/
structure Numbered (gates slots : Nat) (steps : List (Step α)) : Prop where
  fits : ∀ step ∈ steps, step.Fits gates slots
  apart : steps.Pairwise Apart

theorem Numbered.tail {gates slots : Nat} {step : Step α} {steps : List (Step α)}
    (h : Numbered gates slots (step :: steps)) : Numbered gates slots steps :=
  ⟨fun later hmem => h.fits later (List.mem_cons_of_mem _ hmem), h.apart.of_cons⟩

theorem Numbered.apart_head {gates slots : Nat} {step : Step α} {steps : List (Step α)}
    (h : Numbered gates slots (step :: steps)) : ∀ later ∈ steps, step.Apart later :=
  fun _ => List.rel_of_pairwise_cons h.apart

/-! ## Steps on the head of a list

What a step does to `x :: xs` is what it does to `x`, and then to `xs` with the counters that `x`
left. -/

section Head

variable {c : Counters} {gates slots : Nat} {slot : Option Nat} {x : α} {xs ws : List α}

theorem answersFrom_tick {f : Callback α β} (hsized : c.Sized gates slots)
    (hlt : ∀ number, slot = some number → number < slots)
    (hindexed : slot = none → f.indexed = false) (xs : List α) :
    f.answersFrom (c.index slot + 1) xs = f.answersFrom ((c.tick slot).index slot) xs := by
  cases slot with
  | none => exact Callback.answersFrom_of_not_indexed (hindexed rfl) _ _ xs
  | some number =>
    have hnumber : number < c.slots.length := hsized.slots_eq ▸ hlt number rfl
    rw [Counters.index_tick_self hnumber]

theorem onList_map_cons {f : Callback α α} (hfits : (map f slot).Fits gates slots)
    (hsized : c.Sized gates slots) (h : (map f slot).onList c (x :: xs) = some ws) :
    ∃ y rest, f.answer x (c.index slot) = some y
      ∧ (map f slot).onList (c.tick slot) xs = some rest ∧ ws = y :: rest := by
  obtain ⟨y, rest, hy, hrest, rfl⟩ := (Callback.answersFrom_cons ..).1 h
  have htick : f.answersFrom (c.index slot + 1) xs = f.answersFrom ((c.tick slot).index slot) xs :=
    answersFrom_tick hsized hfits.slot_lt hfits.not_indexed xs
  exact ⟨y, rest, hy, by rw [onList, ← htick, hrest], rfl⟩

theorem onList_test_cons {p : Callback α Bool} (hfits : (test p slot).Fits gates slots)
    (hsized : c.Sized gates slots) (h : (test p slot).onList c (x :: xs) = some ws) :
    ∃ kept rest, p.answer x (c.index slot) = some kept
      ∧ (test p slot).onList (c.tick slot) xs = some rest
      ∧ ws = if kept then x :: rest else rest := by
  obtain ⟨answers, hanswers, rfl⟩ := Option.map_eq_some_iff.1 h
  obtain ⟨kept, others, hkept, hothers, rfl⟩ := (Callback.answersFrom_cons ..).1 hanswers
  have htick : p.answersFrom (c.index slot + 1) xs = p.answersFrom ((c.tick slot).index slot) xs :=
    answersFrom_tick hsized hfits.slot_lt hfits.not_indexed xs
  exact ⟨kept, keepWhere xs others, hkept, by rw [onList, ← htick, hothers, Option.map_some], rfl⟩

theorem onList_expand_cons {f : Callback α (List α)} (hfits : (expand f slot).Fits gates slots)
    (hsized : c.Sized gates slots) (h : (expand f slot).onList c (x :: xs) = some ws) :
    ∃ part rest, f.answer x (c.index slot) = some part
      ∧ (expand f slot).onList (c.tick slot) xs = some rest ∧ ws = part ++ rest := by
  obtain ⟨parts, hparts, rfl⟩ := Option.map_eq_some_iff.1 h
  obtain ⟨part, others, hpart, hothers, rfl⟩ := (Callback.answersFrom_cons ..).1 hparts
  have htick : f.answersFrom (c.index slot + 1) xs = f.answersFrom ((c.tick slot).index slot) xs :=
    answersFrom_tick hsized hfits.slot_lt hfits.not_indexed xs
  exact ⟨part, others.flatten, hpart, by rw [onList, ← htick, hothers, Option.map_some],
    List.flatten_cons⟩

theorem onList_gate_cons (c : Counters) (number : Nat) (x : α) (xs : List α) :
    (gate number).onList c (x :: xs) =
      match (c.window number).ask.1 with
      | .through => ((gate number).onList (c.afterGate number) xs).map (x :: ·)
      | .dropped => (gate number).onList (c.afterGate number) xs
      | .shut => some [] := by
  simp only [onList, Window.pass_cons, Counters.window_afterGate_self]
  cases (c.window number).ask.1 <;> rfl

end Head

end Step

/-! ## Plans on a list -/

/-- A plan on a whole list. -/
def Plan.onList (plan : Plan α) (xs : List α) : Option (List α) :=
  if plan.never then some [] else Step.allOnList plan.start plan.steps xs

/-- The steps of a plan count each on its own. -/
def Plan.Numbered (plan : Plan α) : Prop := Step.Numbered plan.gates.length plan.slots plan.steps

theorem Plan.sized_start (plan : Plan α) : plan.start.Sized plan.gates.length plan.slots :=
  ⟨rfl, List.length_replicate⟩

end StreamFusion
