import StreamFusion.Proofs.Run.Courses

/-!
# Trails

What an element does on its way through the steps, as a list of marks: the callbacks that are called,
the gates that are asked and the elements that are handed out. `Step.trail` says it without a state;
feeding an element is leaving its trail (`RunM.feed_eq_trail`). The counters behind a trail are told
by its marks, and no gate lets more pass on it than is left of the gate (`Counters.Tells.passes_le`).
-/

namespace StreamFusion

variable {α γ : Type}

/-! ## Marks -/

/-- What an element does to the counters of a run. -/
inductive Mark (α : Type) where
  /-- It reached a step, which counts in the slot, and a callback was called. -/
  | called (slot : Option Nat) (event : Event α)
  /-- It came to a gate, which answered. -/
  | asked (number : Nat) (answer : Admission)
  /-- It was handed to the closing action, which noted these events. -/
  | handed (x : α) (events : List (Event α))

namespace Mark

/-- What is seen of it. -/
def events : Mark α → List (Event α)
  | .called _ event => [event]
  | .asked _ _ => []
  | .handed _ events => events

/-- Did the gate of this number let an element pass? -/
def passes (number : Nat) : Mark α → Bool
  | .asked other answer => other == number && answer == .through
  | _ => false

end Mark

namespace Counters

/-- The counters behind a mark. -/
def afterMark (c : Counters) : Mark α → Counters
  | .called slot _ => c.tick slot
  | .asked number _ => c.afterGate number
  | .handed _ _ => c.emit

/-- The counters behind marks. -/
def afterAll (c : Counters) (marks : List (Mark α)) : Counters := marks.foldl afterMark c

theorem afterAll_append (c : Counters) (first second : List (Mark α)) :
    c.afterAll (first ++ second) = (c.afterAll first).afterAll second :=
  List.foldl_append

/-- The gates have answered as the counters say. -/
def Tells (c : Counters) : List (Mark α) → Prop
  | [] => True
  | mark :: marks =>
    (∀ number answer, mark = .asked number answer → answer = (c.window number).ask.1)
      ∧ (c.afterMark mark).Tells marks

theorem Tells.append {c : Counters} {first second : List (Mark α)} (h : c.Tells first)
    (h' : (c.afterAll first).Tells second) : c.Tells (first ++ second) := by
  induction first generalizing c with
  | nil => exact h'
  | cons mark first ih => exact ⟨h.1, ih h.2 h'⟩

end Counters

/-- What is left of a limit behind an answer, and whether the element passed. -/
theorem Window.take_ask_add (w : Window) {most : Nat} (h : w.take = some most) :
    ∃ left, w.ask.2.take = some left ∧ left + (w.ask.1 == .through).toNat = most := by
  rcases w with ⟨_ | skip, _ | _ | take⟩
  · exact absurd h (by simp)
  · exact ⟨0, rfl, Option.some.inj h⟩
  · exact ⟨take, rfl, Option.some.inj h⟩
  · exact absurd h (by simp)
  · exact ⟨0, rfl, Option.some.inj h⟩
  · exact ⟨take + 1, rfl, Option.some.inj h⟩

namespace Counters

/-- Behind a mark a gate has so much less left as it let pass. -/
theorem take_afterMark {c : Counters} {mark : Mark α} {number most : Nat}
    (hmark : ∀ other answer, mark = .asked other answer → answer = (c.window other).ask.1)
    (htake : (c.window number).take = some most) :
    ∃ left, ((c.afterMark mark).window number).take = some left
      ∧ left + (mark.passes number).toNat = most := by
  cases mark with
  | called slot event =>
    refine ⟨most, ?_, rfl⟩
    show ((c.tick slot).window number).take = some most
    rw [window_tick]
    exact htake
  | handed x events => exact ⟨most, htake, rfl⟩
  | asked other answer =>
    have hanswer : answer = (c.window other).ask.1 := hmark other answer rfl
    by_cases hsame : other = number
    · subst hsame
      obtain ⟨left, hleft, hpassed⟩ := Window.take_ask_add _ htake
      refine ⟨left, ?_, ?_⟩
      · show ((c.afterGate other).window other).take = some left
        rw [window_afterGate_self]
        exact hleft
      · rw [Mark.passes, hanswer, beq_self_eq_true, Bool.true_and]
        exact hpassed
    · refine ⟨most, ?_, ?_⟩
      · show ((c.afterGate other).window number).take = some most
        rw [window_afterGate_of_ne _ (Ne.symm hsame)]
        exact htake
      · have hother : (other == number) = false := beq_eq_false_iff_ne.2 hsame
        rw [Mark.passes, hother, Bool.false_and]
        rfl

/-- Behind marks a gate has so much less left as it let pass. -/
theorem Tells.take_afterAll {c : Counters} {marks : List (Mark α)} (h : c.Tells marks)
    {number most : Nat} (htake : (c.window number).take = some most) :
    ∃ left, ((c.afterAll marks).window number).take = some left
      ∧ left + marks.countP (·.passes number) = most := by
  induction marks generalizing c most with
  | nil => exact ⟨most, htake, rfl⟩
  | cons mark marks ih =>
    obtain ⟨between, hbetween, hsum⟩ := take_afterMark h.1 htake
    obtain ⟨left, hleft, hrest⟩ := ih h.2 hbetween
    refine ⟨left, hleft, ?_⟩
    rw [List.countP_cons]
    cases hpasses : mark.passes number with
    | true =>
      rw [hpasses, Bool.toNat_true] at hsum
      rw [if_pos rfl]
      omega
    | false =>
      rw [hpasses, Bool.toNat_false] at hsum
      rw [if_neg (by simp)]
      omega

/-- No more elements pass a gate than are left of it. -/
theorem Tells.passes_le {c : Counters} {marks : List (Mark α)} (h : c.Tells marks)
    {number most : Nat} (htake : (c.window number).take = some most) :
    marks.countP (·.passes number) ≤ most := by
  obtain ⟨left, -, hsum⟩ := h.take_afterAll htake
  omega

end Counters

/-! ## Trails -/

/-- What comes of an element: what it did, the accumulator behind it, and either the element at which
a callback failed, or whether the run goes on. -/
structure Trail (α γ : Type) where
  marks : List (Mark α)
  acc : γ
  fate : Except α Flow

namespace Trail

/-- The trail behind a mark. -/
def behind (mark : Mark α) (trail : Trail α γ) : Trail α γ :=
  { trail with marks := mark :: trail.marks }

/-- The trails of elements one after another. Behind one that does not go on, the others are
abandoned. -/
def each (body : Counters → γ → α → Trail α γ) : List α → Counters → γ → Trail α γ
  | [], _, acc => ⟨[], acc, .ok .onward⟩
  | x :: xs, c, acc =>
    let first := body c acc x
    match first.fate with
    | .ok .onward =>
      let later := each body xs (c.afterAll first.marks) first.acc
      ⟨first.marks ++ later.marks, later.acc, later.fate⟩
    | _ => first

section Each

variable {body : Counters → γ → α → Trail α γ}

theorem each_cons (x : α) (xs : List α) (c : Counters) (acc : γ) :
    each body (x :: xs) c acc =
      match (body c acc x).fate with
      | .ok .onward =>
        let later := each body xs (c.afterAll (body c acc x).marks) (body c acc x).acc
        ⟨(body c acc x).marks ++ later.marks, later.acc, later.fate⟩
      | _ => body c acc x := rfl

theorem tells_each (hbody : ∀ (c : Counters) acc x, c.Tells (body c acc x).marks) (xs : List α) (c : Counters)
    (acc : γ) : c.Tells (each body xs c acc).marks := by
  induction xs generalizing c acc with
  | nil => trivial
  | cons x xs ih =>
    rw [each_cons]
    rcases (body c acc x).fate with culprit | _ | _
    · exact hbody c acc x
    · exact (hbody c acc x).append (ih ..)
    · exact hbody c acc x

end Each

/-- The state of a run behind a trail. -/
def left (trail : Trail α γ) (s : RunState α γ) : RunState α γ :=
  ⟨s.counters.afterAll trail.marks, trail.acc, s.journal.record (trail.marks.flatMap Mark.events)⟩

/-- What a part of a run comes to that leaves this trail. -/
def result (trail : Trail α γ) (s : RunState α γ) : EStateM.Result α (RunState α γ) Flow :=
  match trail.fate with
  | .ok flow => .ok flow (trail.left s)
  | .error culprit => .error culprit (trail.left s)

/-- What is done behind a mark is done from the state behind it. -/
theorem result_behind (mark : Mark α) (trail : Trail α γ) (s : RunState α γ) :
    (trail.behind mark).result s =
      trail.result ⟨s.counters.afterMark mark, s.acc, s.journal.record mark.events⟩ := by
  have hleft : (trail.behind mark).left s =
      trail.left ⟨s.counters.afterMark mark, s.acc, s.journal.record mark.events⟩ := by
    show RunState.mk _ _ (s.journal.record (mark.events ++ trail.marks.flatMap Mark.events)) = _
    rw [Journal.record_append]
    rfl
  unfold result
  rw [hleft]
  rfl

end Trail

/-- The trail of an element through the steps. -/
def Step.trail (sink : Sink α γ) : List (Step α) → Counters → γ → α → Trail α γ
  | [], c, acc, x =>
    let closing := sink acc x c.emitted
    match closing.result with
    | some (acc, flow) => ⟨[.handed x closing.events], acc, .ok flow⟩
    | none => ⟨[.handed x closing.events], acc, .error x⟩
  | .map f slot :: steps, c, acc, x =>
    .behind (.called slot (f.event x (c.index slot))) <|
      match f.answer x (c.index slot) with
      | some y => trail sink steps (c.tick slot) acc y
      | none => ⟨[], acc, .error x⟩
  | .test p slot :: steps, c, acc, x =>
    .behind (.called slot (p.event x (c.index slot))) <|
      match p.answer x (c.index slot) with
      | some true => trail sink steps (c.tick slot) acc x
      | some false => ⟨[], acc, .ok .onward⟩
      | none => ⟨[], acc, .error x⟩
  | .expand f slot :: steps, c, acc, x =>
    .behind (.called slot (f.event x (c.index slot))) <|
      match f.answer x (c.index slot) with
      | some ys => .each (trail sink steps) ys (c.tick slot) acc
      | none => ⟨[], acc, .error x⟩
  | .gate number :: steps, c, acc, x =>
    .behind (.asked number (c.window number).ask.1) <|
      match (c.window number).ask.1 with
      | .through => trail sink steps (c.afterGate number) acc x
      | .dropped => ⟨[], acc, .ok .onward⟩
      | .shut => ⟨[], acc, .ok .stop⟩

/-- On a trail the gates answer as the counters say. -/
theorem Step.tells_trail (sink : Sink α γ) (steps : List (Step α)) (c : Counters) (acc : γ)
    (x : α) : c.Tells (trail sink steps c acc x).marks := by
  induction steps generalizing c acc x with
  | nil =>
    rw [trail]
    cases (sink acc x c.emitted).result with
    | none => exact ⟨nofun, trivial⟩
    | some answer => exact ⟨nofun, trivial⟩
  | cons step steps ih =>
    cases step with
    | map f slot =>
      rw [trail]
      refine ⟨nofun, ?_⟩
      cases f.answer x (c.index slot) with
      | none => trivial
      | some y => exact ih (c.tick slot) acc y
    | test p slot =>
      rw [trail]
      refine ⟨nofun, ?_⟩
      rcases p.answer x (c.index slot) with _ | _ | _
      · trivial
      · trivial
      · exact ih (c.tick slot) acc x
    | expand f slot =>
      rw [trail]
      refine ⟨nofun, ?_⟩
      cases f.answer x (c.index slot) with
      | none => trivial
      | some ys => exact Trail.tells_each ih ys (c.tick slot) acc
    | gate number =>
      rw [trail]
      refine ⟨?_, ?_⟩
      · intro other answer hasked
        injection hasked with hnumber hanswer
        rw [← hnumber, hanswer]
      · cases (c.window number).ask.1 with
        | through => exact ih (c.afterGate number) acc x
        | dropped => trivial
        | shut => trivial

/-! ## Feeding leaves trails -/

namespace RunM

variable {sink : Sink α γ}

theorem each_eq_trail {body : α → RunM α γ Flow} {trail : Counters → γ → α → Trail α γ}
    (hbody : ∀ x s, body x s = (trail s.counters s.acc x).result s) (xs : List α)
    (s : RunState α γ) : each body xs s = (Trail.each trail xs s.counters s.acc).result s := by
  induction xs generalizing s with
  | nil => rfl
  | cons x xs ih =>
    rw [each_cons, hbody, Trail.each_cons]
    rcases hfirst : trail s.counters s.acc x with ⟨marks, acc, culprit | _ | _⟩
    · rfl
    · -- the later elements are fed from the state that the first one left
      have hlater := ih ((⟨marks, acc, .ok .onward⟩ : Trail α γ).left s)
      simp only [Trail.result, Trail.left] at hlater ⊢
      rw [hlater, Counters.afterAll_append, List.flatMap_append, Journal.record_append]
    · rfl

/-- To feed an element is to leave its trail. -/
theorem feed_eq_trail (steps : List (Step α)) (x : α) (s : RunState α γ) :
    feed sink steps x s = (Step.trail sink steps s.counters s.acc x).result s := by
  induction steps generalizing x s with
  | nil =>
    rw [feed_nil, Step.trail]
    rcases hresult : (sink s.acc x s.counters.emitted).result with _ | ⟨acc, flow⟩
    · simp only [Trail.result, Trail.left]
      rw [List.flatMap_singleton]
      rfl
    · simp only [Trail.result, Trail.left]
      rw [List.flatMap_singleton]
      rfl
  | cons step steps ih =>
    cases step with
    | map f slot =>
      rw [feed_map, Step.trail, Trail.result_behind]
      cases f.answer x (s.counters.index slot) with
      | none => rfl
      | some y => exact ih y (s.afterCall f slot x)
    | test p slot =>
      rw [feed_test, Step.trail, Trail.result_behind]
      rcases p.answer x (s.counters.index slot) with _ | _ | _
      · rfl
      · rfl
      · exact ih x (s.afterCall p slot x)
    | expand f slot =>
      rw [feed_expand, Step.trail, Trail.result_behind]
      cases f.answer x (s.counters.index slot) with
      | none => rfl
      | some ys => exact each_eq_trail ih ys (s.afterCall f slot x)
    | gate number =>
      rw [feed_gate, Step.trail, Trail.result_behind]
      cases (s.counters.window number).ask.1 with
      | through => exact ih x (s.afterGate number)
      | dropped => rfl
      | shut => rfl

end RunM

end StreamFusion
