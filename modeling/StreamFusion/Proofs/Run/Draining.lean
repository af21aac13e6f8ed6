import StreamFusion.Proofs.Run.Lockstep
import StreamFusion.Proofs.Run.Results

/-!
# Runs as draining

Reading a container or a list by position is pulling from an intake that starts at that position, so
every run is a run that drains an intake (`Plan.run_eq_drain`). With that, what holds of single
moves of two runs has to be carried through one loop only (`Lockstep.drain`).
-/

namespace StreamFusion

variable {α γ δ : Type}

/-! ## Reading by position is pulling -/

/-- The shelf is read by pulling from these intakes, one for every position. -/
structure Shelf.PulledBy (shelf : Shelf α) (intakeAt : Nat → Intake α) : Prop where
  item : ∀ position x, position < shelf.box.size → shelf.box.get? position = some x →
    (intakeAt position).pull = ⟨shelf.reading position, .item x, intakeAt (position + 1)⟩
  hole : ∀ position, position < shelf.box.size → shelf.box.get? position = none →
    (intakeAt position).pull = ⟨shelf.reading position, .nothing, intakeAt position⟩
  finish : ∀ position, shelf.box.size ≤ position →
    (intakeAt position).pull = ⟨[], .nothing, intakeAt position⟩
  close : ∀ position, (intakeAt position).close = ([], intakeAt position)
  release : ∀ position, (intakeAt position).release = []

theorem Shelf.pulledBy_ofSource (source : Ident) (box : Container α) :
    (Shelf.ofSource source box).PulledBy (Intake.shelf source box) where
  item := by
    intro position x hlt hget
    have hlt' : position < box.size := hlt
    have hget' : box.get? position = some x := hget
    rw [Intake.pull, if_pos hlt', hget']
    rfl
  hole := by
    intro position hlt hget
    have hlt' : position < box.size := hlt
    have hget' : box.get? position = none := hget
    rw [Intake.pull, if_pos hlt', hget']
    rfl
  finish := by
    intro position hle
    have hnot : ¬ position < box.size := Nat.not_lt.2 hle
    rw [Intake.pull, if_neg hnot]
  close := fun _ => rfl
  release := fun _ => rfl

theorem Shelf.pulledBy_ofList (items : List α) :
    (Shelf.ofList items).PulledBy fun position => .owned (items.drop position) where
  item := by
    intro position x hlt hget
    have hlt' : position < items.length := by rw [← Container.size_ofList items]; exact hlt
    have hx : items[position] = x := by
      rw [Shelf.ofList, Container.get?_ofList, List.getElem?_eq_getElem hlt'] at hget
      exact Option.some.inj hget
    rw [List.drop_eq_getElem_cons hlt', hx]
    rfl
  hole := by
    intro position hlt hget
    rw [Shelf.ofList, Container.get?_ofList, List.getElem?_eq_none_iff] at hget
    rw [Shelf.ofList, Container.size_ofList] at hlt
    omega
  finish := by
    intro position hle
    rw [Shelf.ofList, Container.size_ofList] at hle
    simp only [List.drop_eq_nil_of_le hle]
    rfl
  close := fun _ => rfl
  release := fun _ => rfl

/-- Scanning came to what draining came to, and nothing of the intake is open. -/
structure Scan.Matches (scan : Scan α γ) (drain : Drain α γ) : Prop where
  state_eq : scan.state = drain.state
  scanned_eq : scan.scanned = drain.scanned
  ending_eq : scan.ending = drain.ending
  released : drain.rest.release = []

/-- Scanning a shelf from a position on is draining the intake of that position. -/
theorem scanShelf_matches {shelf : Shelf α} {intakeAt : Nat → Intake α}
    (h : shelf.PulledBy intakeAt) (plan : Plan α) (sink : Sink α γ) (position scanned : Nat)
    (s : RunState α γ) :
    (scanShelf plan sink shelf position scanned s).Matches
      (drainIntake plan sink (intakeAt position) scanned s) := by
  induction hleft : shelf.box.size - position generalizing position scanned s with
  | zero =>
    have hle : shelf.box.size ≤ position := by omega
    rw [scanShelf, if_neg (Nat.not_lt.2 hle), Plan.drainIntake_eq, h.finish position hle]
    exact ⟨by rw [Journal.record_nil], rfl, rfl, h.release position⟩
  | succ n ih =>
    have hlt : position < shelf.box.size := by omega
    rw [scanShelf, if_pos hlt, Plan.drainIntake_eq]
    cases hget : shelf.box.get? position with
    | none =>
      rw [h.hole position hlt hget]
      exact ⟨rfl, rfl, rfl, h.release position⟩
    | some x =>
      rw [h.item position x hlt hget]
      simp only
      cases plan.feed sink x { s with journal := s.journal.record (shelf.reading position) } with
      | onward s' => exact ih (position + 1) (scanned + 1) s' (by omega)
      | stopped s' =>
        simp only [h.close (position + 1)]
        exact ⟨by rw [Journal.record_nil], rfl, rfl, h.release (position + 1)⟩
      | failed culprit s' => exact ⟨rfl, rfl, rfl, h.release (position + 1)⟩

namespace Opened

/-- The intake that gives the elements of an opened source from a position on. What can only be
pulled has no positions. -/
def intakeFrom (position : Nat) : Opened α → Intake α
  | .indexed source box => .shelf source box position
  | .owned items => .owned (items.drop position)
  | .sequential intake => intake

/-- How many elements a run of the plan passes over without reading them. -/
def jump (plan : Plan α) : Opened α → Nat
  | .indexed _ box => plan.jumped box.size
  | .owned items => plan.jumped items.length
  | .sequential _ => 0

/-- The counters with which a run of the plan starts. -/
def start (plan : Plan α) : Opened α → Counters
  | .indexed _ box => plan.startAfterJump box.size
  | .owned items => plan.startAfterJump items.length
  | .sequential _ => plan.start

end Opened

/-- The run came to what the draining came to, and then let the intake go. -/
structure Drain.FinishesAs (drain : Drain α γ) (finish : Finish α γ) : Prop where
  acc_eq : finish.acc = drain.state.acc
  events_eq : finish.events = drain.state.journal.events ++ drain.rest.release
  failed : ∀ culprit, drain.ending = .failed culprit → finish.result = .error culprit
  ended : (∀ culprit, drain.ending ≠ .failed culprit) →
    ∃ stats, finish.result = .ok stats ∧ stats.scanned = drain.scanned
      ∧ stats.emitted = drain.state.counters.emitted

/-- A run reports how many elements were handed out. -/
theorem Drain.FinishesAs.emitted_eq {drain : Drain α γ} {finish : Finish α γ}
    (h : drain.FinishesAs finish) {stats : Stats} (hresult : finish.result = .ok stats) :
    stats.emitted = drain.state.counters.emitted := by
  by_cases hfailed : ∃ culprit, drain.ending = .failed culprit
  · obtain ⟨culprit, hculprit⟩ := hfailed
    exact absurd ((h.failed culprit hculprit).symm.trans hresult) (by simp)
  · obtain ⟨reported, hreported, -, hemitted⟩ :=
      h.ended fun culprit hculprit => hfailed ⟨culprit, hculprit⟩
    rw [← hemitted, Except.ok.inj (hreported.symm.trans hresult)]

namespace Plan

variable {plan : Plan α} {sink : Sink α γ} {seed : γ}

theorem runShelf_eq_drain {shelf : Shelf α} {intakeAt : Nat → Intake α}
    (h : shelf.PulledBy intakeAt) :
    (drainIntake plan sink (intakeAt (plan.jumped shelf.box.size)) 0
      ⟨plan.startAfterJump shelf.box.size, seed, .empty⟩).FinishesAs
        (plan.runShelf sink seed shelf) := by
  have hmatches := scanShelf_matches h plan sink (plan.jumped shelf.box.size) 0
    ⟨plan.startAfterJump shelf.box.size, seed, .empty⟩
  rw [runShelf]
  generalize scanShelf plan sink shelf _ _ _ = scan at hmatches ⊢
  generalize drainIntake plan sink _ _ _ = drain at hmatches ⊢
  obtain ⟨hstate, hscanned, hending, hreleased⟩ := hmatches
  obtain ⟨state, rest, scanned, ending⟩ := drain
  simp only at hstate hscanned hending hreleased
  simp only [hstate, hscanned, hending]
  have hevents : state.journal.events = state.journal.events ++ rest.release := by
    rw [hreleased, List.append_nil]
  cases ending with
  | exhausted => exact ⟨rfl, hevents, fun _ h => absurd h (by simp), fun _ => ⟨_, rfl, rfl, rfl⟩⟩
  | stopped => exact ⟨rfl, hevents, fun _ h => absurd h (by simp), fun _ => ⟨_, rfl, rfl, rfl⟩⟩
  | failed culprit =>
    exact ⟨rfl, hevents, fun _ h => by cases h; rfl, fun hended => absurd rfl (hended culprit)⟩

/-- The draining that a run over an opened source is. -/
def drained (plan : Plan α) (sink : Sink α γ) (seed : γ) (opened : Opened α) : Drain α γ :=
  drainIntake plan sink (opened.intakeFrom (opened.jump plan)) 0
    ⟨opened.start plan, seed, .empty⟩

/-- A run comes to what draining comes to. -/
theorem run_eq_drain (plan : Plan α) (sink : Sink α γ) (seed : γ) (opened : Opened α) :
    (plan.drained sink seed opened).FinishesAs (plan.run sink seed opened) := by
  cases opened with
  | indexed source box => exact runShelf_eq_drain (Shelf.pulledBy_ofSource source box)
  | owned items =>
    have hlist : (drainIntake plan sink
        (.owned (items.drop (plan.jumped (Container.ofList items).size))) 0
        ⟨plan.startAfterJump (Container.ofList items).size, seed, .empty⟩).FinishesAs
          (plan.runShelf sink seed (.ofList items)) :=
      runShelf_eq_drain (Shelf.pulledBy_ofList items)
    rw [Container.size_ofList] at hlist
    exact hlist
  | sequential intake =>
    have hdrained : plan.drained sink seed (.sequential intake) =
        drainIntake plan sink intake 0 ⟨plan.start, seed, .empty⟩ := rfl
    rw [run, runIntake, hdrained]
    obtain ⟨state, rest, scanned, ending⟩ := drainIntake plan sink intake 0
      ⟨plan.start, seed, .empty⟩
    cases ending with
    | exhausted => exact ⟨rfl, rfl, fun _ h => absurd h (by simp), fun _ => ⟨_, rfl, rfl, rfl⟩⟩
    | stopped => exact ⟨rfl, rfl, fun _ h => absurd h (by simp), fun _ => ⟨_, rfl, rfl, rfl⟩⟩
    | failed culprit =>
      exact ⟨rfl, rfl, fun _ h => by cases h; rfl, fun hended => absurd rfl (hended culprit)⟩

end Plan

/-! ## Draining in lockstep -/

/-- The state after feeding one element, however it ended. -/
def Fed.state : Fed α γ → RunState α γ
  | .onward s | .stopped s | .failed _ s => s

/-- How feeding one element ends in two runs: alike, or the second one is stopped while the first
may go on ahead. -/
inductive Fed.EndsWith (Q T : RunState α γ → RunState α δ → Prop) : Fed α γ → Fed α δ → Prop where
  | onward {s : RunState α γ} {t : RunState α δ} (h : Q s t) :
      EndsWith Q T (.onward s) (.onward t)
  | stopped {s : RunState α γ} {t : RunState α δ} (h : Q s t) :
      EndsWith Q T (.stopped s) (.stopped t)
  | failed (culprit : α) {s : RunState α γ} {t : RunState α δ} (h : Q s t) :
      EndsWith Q T (.failed culprit s) (.failed culprit t)
  | ahead {fed : Fed α γ} {t : RunState α δ} (h : T fed.state t) : EndsWith Q T fed (.stopped t)

/-- How draining an intake ends in two runs: alike, or the second one is stopped and closes what is
left of the intake. -/
inductive Drain.EndsWith (Q T : RunState α γ → RunState α δ → Prop) :
    Drain α γ → Drain α δ → Prop where
  | alike {s : RunState α γ} {t : RunState α δ} (rest : Intake α) (scanned : Nat)
      (ending : Ending α) (h : Q s t) :
      EndsWith Q T ⟨s, rest, scanned, ending⟩ ⟨t, rest, scanned, ending⟩
  | ahead {drain : Drain α γ} {t : RunState α δ} (rest : Intake α) (scanned : Nat)
      (h : T drain.state t) :
      EndsWith Q T drain
        ⟨{ t with journal := t.journal.record rest.close.1 }, rest.close.2, scanned, .stopped⟩

namespace Plan

theorem state_feed (plan : Plan α) (sink : Sink α γ) (x : α) (s : RunState α γ) :
    (plan.feed sink x s).state = RunM.left (RunM.feed sink plan.steps x s) := by
  unfold feed
  rcases RunM.feed sink plan.steps x s with ⟨_ | _, s'⟩ | ⟨culprit, s'⟩
  · show Fed.state (if s'.counters.isSealed then .stopped s' else .onward s') = s'
    split <;> rfl
  · rfl
  · rfl

/-- Draining an intake by two plans respects what feeding single elements respects. -/
theorem drain_endsWith {plan other : Plan α} {first : Sink α γ} {second : Sink α δ}
    {Q T : RunState α γ → RunState α δ → Prop}
    (hrecord : ∀ {s t} events, Q s t →
      Q { s with journal := s.journal.record events } { t with journal := t.journal.record events })
    (hrecord_ahead : ∀ {s t} events, T s t → T { s with journal := s.journal.record events } t)
    (hfeed : ∀ {s t} x, Q s t → Fed.EndsWith Q T (plan.feed first x s) (other.feed second x t))
    (hahead : ∀ {s t} intake scanned, T s t → T (drainIntake plan first intake scanned s).state t)
    (intake : Intake α) (scanned : Nat) {s : RunState α γ} {t : RunState α δ} (hQ : Q s t) :
    Drain.EndsWith Q T (drainIntake plan first intake scanned s)
      (drainIntake other second intake scanned t) := by
  have hfinite := intake.finite
  induction hfinite generalizing scanned s t with
  | intro intake _ ih =>
    have hpulled := hrecord intake.pull.events hQ
    rw [drainIntake_eq, drainIntake_eq]
    cases hanswer : intake.pull.answer with
    | nothing => exact .alike _ _ _ hpulled
    | failed culprit => exact .alike _ _ _ hpulled
    | again => exact ih _ ⟨rfl, by rw [hanswer]; simp⟩ scanned hpulled
    | item x =>
      have hfed := hfeed x hpulled
      simp only
      generalize plan.feed first x _ = fed at hfed ⊢
      generalize other.feed second x _ = fed' at hfed ⊢
      cases hfed with
      | onward hQ' => exact ih _ ⟨rfl, by rw [hanswer]; simp⟩ (scanned + 1) hQ'
      | stopped hQ' => exact .alike _ _ _ (hrecord _ hQ')
      | failed culprit hQ' => exact .alike _ _ _ hQ'
      | ahead hT =>
        refine .ahead _ _ ?_
        cases fed with
        | onward s' => exact hahead _ _ hT
        | stopped s' => exact hrecord_ahead _ hT
        | failed culprit s' => exact hT

end Plan

namespace Lockstep

variable {first : Sink α γ} {second : Sink α δ} {Q T : RunState α γ → RunState α δ → Prop}
  {s : RunState α γ} {t : RunState α δ}

/-- A sealed element stops both runs, as their counters agree. -/
theorem feedPlan (h : Lockstep first second Q T) (plan : Plan α) (x : α) (hQ : Q s t) :
    Fed.EndsWith Q T (plan.feed first x s) (plan.feed second x t) := by
  have hfeed := h.feed plan.steps x hQ
  have hstate := plan.state_feed first x s
  unfold Plan.feed at hstate ⊢
  generalize RunM.feed first plan.steps x s = result at hfeed hstate ⊢
  generalize RunM.feed second plan.steps x t = other at hfeed ⊢
  cases hfeed with
  | error culprit hQ' => exact .failed culprit hQ'
  | ahead hT =>
    refine .ahead ?_
    rw [hstate]
    exact hT
  | ok flow hQ' =>
    cases flow with
    | stop => exact .stopped hQ'
    | onward =>
      simp only [h.counters_eq hQ']
      split
      · exact .stopped hQ'
      · exact .onward hQ'

variable (hrecord : ∀ {s t} events, Q s t →
    Q { s with journal := s.journal.record events } { t with journal := t.journal.record events })
  (hrecord_ahead : ∀ {s t} events, T s t → T { s with journal := s.journal.record events } t)

include hrecord_ahead in
/-- The first run drains the rest of an intake after the second one was stopped. -/
theorem drain_ahead (h : Lockstep first second Q T) (plan : Plan α) (intake : Intake α)
    (scanned : Nat) (hT : T s t) : T (drainIntake plan first intake scanned s).state t := by
  have hfinite := intake.finite
  induction hfinite generalizing scanned s with
  | intro intake _ ih =>
    have hpulled := hrecord_ahead intake.pull.events hT
    rw [Plan.drainIntake_eq]
    cases hanswer : intake.pull.answer with
    | nothing => exact hpulled
    | failed culprit => exact hpulled
    | again => exact ih _ ⟨rfl, by rw [hanswer]; simp⟩ scanned hpulled
    | item x =>
      have hfed := h.feed_ahead plan.steps x hpulled
      rw [← plan.state_feed first x] at hfed
      simp only
      cases hresult : plan.feed first x
          { s with journal := s.journal.record intake.pull.events } with
      | onward s' =>
        rw [hresult] at hfed
        exact ih _ ⟨rfl, by rw [hanswer]; simp⟩ (scanned + 1) hfed
      | stopped s' =>
        rw [hresult] at hfed
        exact hrecord_ahead _ hfed
      | failed culprit s' =>
        rw [hresult] at hfed
        exact hfed

include hrecord hrecord_ahead in
/-- Draining an intake respects what single moves respect. -/
theorem drain (h : Lockstep first second Q T) (plan : Plan α) (intake : Intake α) (scanned : Nat)
    (hQ : Q s t) :
    Drain.EndsWith Q T (drainIntake plan first intake scanned s)
      (drainIntake plan second intake scanned t) :=
  Plan.drain_endsWith hrecord hrecord_ahead (fun x hQ => h.feedPlan plan x hQ)
    (fun intake scanned hT => h.drain_ahead hrecord_ahead plan intake scanned hT) intake scanned hQ

end Lockstep

end StreamFusion
