import StreamFusion.Proofs.Run.Feeding
import StreamFusion.Run.Loop

/-!
# Results of runs

What a run over an opened source comes to is the meaning of the plan on the elements of the source,
handed to the closing action: `Plan.run_holds` for containers, lists and intakes alike. Jumping over
the elements that a leading gate drops makes no difference.
-/

namespace StreamFusion

variable {α γ : Type}

/-! ## What an opened source holds -/

/-- The container gives these elements, at all its positions. -/
structure Container.Holds (box : Container α) (xs : List α) : Prop where
  size_eq : box.size = xs.length
  get?_eq : ∀ position, position < box.size → box.get? position = xs[position]?

theorem Container.holds_ofList (items : List α) : (Container.ofList items).Holds items :=
  ⟨Container.size_ofList items, fun position _ => Container.get?_ofList items position⟩

/-- The intake gives these elements and then nothing more, and no callback fails. -/
inductive Intake.Yields : Intake α → List α → Prop where
  | nothing {intake rest : Intake α} {events : List (Event α)}
      (moved : intake.pull = ⟨events, .nothing, rest⟩) : Yields intake []
  | again {intake rest : Intake α} {events : List (Event α)} {xs : List α}
      (moved : intake.pull = ⟨events, .again, rest⟩) (later : Yields rest xs) : Yields intake xs
  | item {intake rest : Intake α} {events : List (Event α)} {x : α} {xs : List α}
      (moved : intake.pull = ⟨events, .item x, rest⟩) (later : Yields rest xs) :
      Yields intake (x :: xs)

/-- The opened source gives these elements. -/
def Opened.Holds (xs : List α) : Opened α → Prop
  | .indexed _ box => box.Holds xs
  | .owned items => items = xs
  | .sequential intake => intake.Yields xs

/-! ## Jumping -/

namespace Counters

theorem window_jump_self (c : Counters) (number count : Nat) :
    (c.jump number count).window number =
      ⟨(c.window number).skip - count, (c.window number).take⟩ := by
  simp only [jump, window, List.getD_eq_getElem?_getD, List.getElem?_modify_eq]
  cases c.gates[number]? with
  | none => simp
  | some w => simp

theorem window_jump_of_ne (c : Counters) {number other : Nat} (h : other ≠ number) (count : Nat) :
    (c.jump number count).window other = c.window other := by
  simp only [jump, window, List.getD_eq_getElem?_getD, List.getElem?_modify_ne _ _ h.symm]

@[simp] theorem index_jump (c : Counters) (number count : Nat) (slot : Option Nat) :
    (c.jump number count).index slot = c.index slot := by
  cases slot <;> rfl

theorem Sized.jump {c : Counters} {gates slots : Nat} (h : c.Sized gates slots)
    (number count : Nat) : (c.jump number count).Sized gates slots :=
  ⟨by rw [Counters.jump, List.length_modify]; exact h.gates_eq, h.slots_eq⟩

end Counters

/-- A gate that skips fewer elements lets the same pass of what is left. -/
theorem Window.pass_drop {w : Window} {count : Nat} (h : count ≤ w.skip) (xs : List α) :
    Window.pass ⟨w.skip - count, w.take⟩ (xs.drop count) = w.pass xs := by
  simp only [pass, List.drop_drop, Nat.add_sub_cancel' h]

namespace Plan

variable {plan : Plan α} {sink : Sink α γ} {seed : γ} {xs ys : List α} {final : γ × Nat}

theorem sized_startAfterJump (plan : Plan α) (size : Nat) :
    (plan.startAfterJump size).Sized plan.gates.length plan.slots := by
  unfold startAfterJump
  split
  · exact plan.sized_start.jump _ _
  · exact plan.sized_start

/-- To pass over elements takes nothing from a limit. -/
theorem take_startAfterJump (plan : Plan α) (size number : Nat) :
    ((plan.startAfterJump size).window number).take = (plan.start.window number).take := by
  unfold startAfterJump
  cases plan.leadingGate with
  | none => rfl
  | some leading =>
    by_cases hsame : number = leading
    · rw [hsame, Counters.window_jump_self]
    · rw [Counters.window_jump_of_ne _ hsame]

theorem exists_steps_of_leadingGate {number : Nat} (h : plan.leadingGate = some number) :
    ∃ steps, plan.steps = .gate number :: steps := by
  unfold leadingGate at h
  split at h
  · rename_i first steps hsteps
    exact ⟨steps, by rw [hsteps, Option.some.inj h]⟩
  · exact absurd h (by simp)

/-- With the counters after the jump, what is left of the list means what the whole list means. -/
theorem allOnList_startAfterJump (hnumbered : plan.Numbered) (xs : List α) (size : Nat) :
    Step.allOnList (plan.startAfterJump size) plan.steps (xs.drop (plan.jumped size)) =
      Step.allOnList plan.start plan.steps xs := by
  unfold startAfterJump
  cases hgate : plan.leadingGate with
  | none =>
    have hjumped : plan.jumped size = 0 := by rw [jumped, hgate]
    rw [hjumped, List.drop_zero]
  | some number =>
    obtain ⟨steps, hsteps⟩ := exists_steps_of_leadingGate hgate
    have hsplit : Step.Numbered plan.gates.length plan.slots (.gate number :: steps) := by
      rw [← hsteps]
      exact hnumbered
    have hskip : plan.jumped size ≤ (plan.start.window number).skip := by
      rw [jumped, hgate]
      exact Nat.min_le_left _ _
    -- no later step asks the leading gate
    have hsame : ∀ later ∈ steps,
        later.SameIn (plan.start.jump number (plan.jumped size)) plan.start := by
      refine fun later hmem => ⟨fun other hother => ?_, Counters.index_jump ..⟩
      have hne : other ≠ number := fun he =>
        (hsplit.apart_head later hmem).gate number rfl (he ▸ hother)
      exact Counters.window_jump_of_ne _ hne _
    simp only [hsteps, Step.allOnList, Step.onList, Counters.window_jump_self,
      Window.pass_drop hskip, Option.bind_eq_bind, Option.bind_some, Step.allOnList_congr hsame]

theorem underway_startAfterJump (hnumbered : plan.Numbered)
    (hresults : Step.allOnList plan.start plan.steps xs = some ys)
    (hfinal : sink.handAll seed 0 ys = some final) (size : Nat) :
    plan.Underway sink ⟨plan.startAfterJump size, seed, .empty⟩ (xs.drop (plan.jumped size))
      final := by
  have hemitted : (plan.startAfterJump size).emitted = 0 := by
    unfold startAfterJump
    split <;> rfl
  have hunsealed : (plan.startAfterJump size).isSealed = false := by
    unfold startAfterJump
    split <;> rfl
  refine ⟨plan.sized_startAfterJump size, fun h => ?_, ys, ?_, ?_⟩
  · rw [hunsealed] at h
    exact absurd h (by simp)
  · rw [allOnList_startAfterJump hnumbered]
    exact hresults
  · rw [hemitted]
    exact hfinal

/-! ## The two loops -/

/-- Reading a shelf from a position on brings a run that is on its way to its end. -/
theorem scanShelf_underway (hnumbered : plan.Numbered) {shelf : Shelf α}
    (hholds : shelf.box.Holds xs) (position scanned : Nat) (s : RunState α γ)
    (h : plan.Underway sink s (xs.drop position) final) :
    final = ((scanShelf plan sink shelf position scanned s).state.acc,
        (scanShelf plan sink shelf position scanned s).state.counters.emitted)
      ∧ ∀ culprit, (scanShelf plan sink shelf position scanned s).ending ≠ .failed culprit := by
  induction hleft : xs.length - position generalizing position scanned s with
  | zero =>
    have hnot : ¬ position < shelf.box.size := by rw [hholds.size_eq]; omega
    rw [scanShelf, if_neg hnot]
    rw [List.drop_eq_nil_of_le (by omega)] at h
    exact ⟨h.eq_of_nil, fun _ => by simp⟩
  | succ n ih =>
    have hlt : position < xs.length := by omega
    have hread : shelf.box.get? position = some xs[position] := by
      rw [hholds.get?_eq position (by rw [hholds.size_eq]; exact hlt), List.getElem?_eq_getElem hlt]
    rw [List.drop_eq_getElem_cons hlt] at h
    rw [scanShelf, if_pos (by rw [hholds.size_eq]; exact hlt)]
    simp only [hread]
    rcases (h.record (shelf.reading position)).feed hnumbered with
      ⟨s', hfeed, h'⟩ | ⟨s', hfeed, hs'⟩
    · rw [hfeed]
      exact ih (position + 1) (scanned + 1) s' h' (by omega)
    · rw [hfeed]
      exact ⟨hs', fun _ => by simp⟩

theorem drainIntake_eq (plan : Plan α) (sink : Sink α γ) (intake : Intake α) (scanned : Nat)
    (s : RunState α γ) :
    drainIntake plan sink intake scanned s =
      let s := { s with journal := s.journal.record intake.pull.events }
      match intake.pull.answer with
      | .nothing => ⟨s, intake.pull.rest, scanned, .exhausted⟩
      | .failed culprit => ⟨s, intake.pull.rest, scanned, .failed culprit⟩
      | .again => drainIntake plan sink intake.pull.rest scanned s
      | .item x =>
        match plan.feed sink x s with
        | .onward s => drainIntake plan sink intake.pull.rest (scanned + 1) s
        | .stopped s =>
          ⟨{ s with journal := s.journal.record intake.pull.rest.close.1 },
            intake.pull.rest.close.2, scanned + 1, .stopped⟩
        | .failed culprit s => ⟨s, intake.pull.rest, scanned + 1, .failed culprit⟩ := by
  conv_lhs => rw [drainIntake]
  split
  rename_i events answer rest hpull
  simp only [hpull]
  cases answer <;> rfl

/-- Pulling from an intake brings a run that is on its way to its end. -/
theorem drainIntake_underway (hnumbered : plan.Numbered) {intake : Intake α}
    (hyields : intake.Yields xs) (scanned : Nat) (s : RunState α γ)
    (h : plan.Underway sink s xs final) :
    final = ((drainIntake plan sink intake scanned s).state.acc,
        (drainIntake plan sink intake scanned s).state.counters.emitted)
      ∧ ∀ culprit, (drainIntake plan sink intake scanned s).ending ≠ .failed culprit := by
  induction hyields generalizing scanned s with
  | nothing moved =>
    rw [drainIntake_eq, moved]
    exact ⟨h.eq_of_nil, nofun⟩
  | again moved later ih =>
    rw [drainIntake_eq, moved]
    exact ih scanned _ (h.record _)
  | @item intake rest events x xs moved later ih =>
    rw [drainIntake_eq, moved]
    rcases (h.record events).feed hnumbered with ⟨s', hfeed, h'⟩ | ⟨s', hfeed, hs'⟩
    · simp only [hfeed]
      exact ih (scanned + 1) s' h'
    · simp only [hfeed]
      exact ⟨hs', nofun⟩

/-- A run over a source hands what the plan makes of the elements to the closing action. -/
theorem run_holds (hnumbered : plan.Numbered) {opened : Opened α} (hholds : opened.Holds xs)
    (hresults : Step.allOnList plan.start plan.steps xs = some ys)
    (hfinal : sink.handAll seed 0 ys = some final) :
    (plan.run sink seed opened).acc = final.1
      ∧ ∃ stats, (plan.run sink seed opened).result = .ok stats ∧ stats.emitted = final.2 := by
  have hshelf : ∀ shelf : Shelf α, shelf.box.Holds xs →
      (plan.runShelf sink seed shelf).acc = final.1
        ∧ ∃ stats, (plan.runShelf sink seed shelf).result = .ok stats
          ∧ stats.emitted = final.2 := by
    intro shelf hbox
    obtain ⟨hdone, hending⟩ := scanShelf_underway hnumbered hbox _ 0 _
      (underway_startAfterJump hnumbered hresults hfinal shelf.box.size)
    rw [runShelf, hdone]
    split
    · exact ⟨rfl, _, rfl, rfl⟩
    · exact ⟨rfl, _, rfl, rfl⟩
    · rename_i culprit hculprit
      exact absurd hculprit (hending culprit)
  cases opened with
  | indexed source box => exact hshelf (.ofSource source box) hholds
  | owned items => exact hshelf (.ofList items) (hholds ▸ Container.holds_ofList items)
  | sequential intake =>
    obtain ⟨hdone, hending⟩ := drainIntake_underway hnumbered hholds 0 _
      (underway_start hresults hfinal)
    rw [run, runIntake, hdone]
    split
    · exact ⟨rfl, _, rfl, rfl⟩
    · exact ⟨rfl, _, rfl, rfl⟩
    · rename_i culprit hculprit
      exact absurd hculprit (hending culprit)

end Plan

end StreamFusion
