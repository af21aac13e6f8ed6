import StreamFusion.Proofs.Run.Agreement
import StreamFusion.Proofs.Run.Stopping

/-!
# Reading by position and pulling

A run that reads a container by position, a run over a list, and a run that pulls from a cursor hand
the same elements to the closing action if the sources have the same elements, and what they did
differs only by the elements that the leading gate drops: pulling feeds them, reading by position
passes over them (`Plan.run_skeletons`).
-/

namespace StreamFusion

variable {α γ : Type}

/-- How many elements the leading gate drops before it lets one pass, if the plan begins with a
gate. -/
def Plan.leadingSkip (plan : Plan α) : Nat :=
  match plan.leadingGate with
  | some number => (plan.gates.getD number ⟨0, none⟩).skip
  | none => 0

theorem Plan.jumped_eq (plan : Plan α) (size : Nat) :
    plan.jumped size = min plan.leadingSkip size := by
  unfold jumped leadingSkip
  cases plan.leadingGate with
  | none => exact (Nat.zero_min size).symm
  | some number => rfl

/-! ## What the skeletons feed -/

namespace Opened

variable {plan : Plan α} {xs : List α}

theorem feeds_indexed (source : Ident) {box : Container α} (hbox : box.Holds xs) :
    (Opened.indexed source box).Feeds plan xs where
  jump_le := by
    show plan.jumped box.size ≤ xs.length
    rw [plan.jumped_eq, hbox.size_eq]
    exact Nat.min_le_right ..
  yields := Intake.yields_shelf hbox source _

theorem feeds_owned (xs : List α) : (Opened.owned xs).Feeds plan xs where
  jump_le := by
    show plan.jumped xs.length ≤ xs.length
    rw [plan.jumped_eq]
    exact Nat.min_le_right ..
  yields := Intake.yields_owned _

theorem feeds_sequential {intake : Intake α} (h : intake.Yields xs) :
    (Opened.sequential intake).Feeds plan xs := ⟨Nat.zero_le _, h⟩

end Opened

/-! ## Agreeing runs -/

/-- Runs over the two sources hand the same elements with the same emitted indices to the closing
action, come to the same accumulator and call the same callbacks. -/
structure Plan.HandsAlike (plan : Plan α) (sink : Sink α γ) (seed : γ) (opened other : Opened α) :
    Prop where
  handed_eq : plan.handed sink seed opened = plan.handed sink seed other
  acc_eq : (plan.run sink seed opened).acc = (plan.run sink seed other).acc
  calls_eq : calls (plan.run sink seed opened).events = calls (plan.run sink seed other).events

/-- How what a run by position did and what a run that pulls did go together, if the leading gate
skips `skip` elements of `size`. -/
structure Stats.GoesWith (byPosition byPulling : Stats) (skip size : Nat) : Prop where
  emitted_eq : byPosition.emitted = byPulling.emitted
  scanned_eq : byPulling.scanned = byPosition.scanned + byPosition.jumped
  jumped_eq : byPosition.jumped = min skip size
  nothing_jumped : byPulling.jumped = 0
  earlyStop_iff : byPosition.earlyStop = true ↔
    byPulling.earlyStop = true ∧ byPosition.jumped + byPosition.scanned < size

/-- The runs fail at the same element, or neither fails and what they did goes together. -/
def Finish.GoesWith (byPosition byPulling : Finish α γ) (skip size : Nat) : Prop :=
  (∃ culprit, byPosition.result = .error culprit ∧ byPulling.result = .error culprit)
    ∨ ∃ stats stats', byPosition.result = .ok stats ∧ byPulling.result = .ok stats'
      ∧ stats.GoesWith stats' skip size

namespace Plan

variable {plan : Plan α} {opened other : Opened α} {xs : List α}

/-- Runs over the same elements hand the same to the closing action. -/
theorem handsAlike_of_feeds (h : opened.Feeds plan xs) (h' : other.Feeds plan xs)
    (hplain : (opened.intakeFrom (opened.jump plan)).Plain)
    (hplain' : (other.intakeFrom (other.jump plan)).Plain) (sink : Sink α γ) (seed : γ) :
    plan.HandsAlike sink seed opened other where
  handed_eq := by
    -- what is handed out is in the accumulator of a closing action that keeps it
    have hkept := (h.tells sink.logged (seed, [])).acc_eq
    have hkept' := (h'.tells sink.logged (seed, [])).acc_eq
    rw [handed, handed, hkept, hkept']
  acc_eq := (h.tells sink seed).acc_eq.trans (h'.tells sink seed).acc_eq.symm
  calls_eq := (h.calls_eq hplain sink seed).trans (h'.calls_eq hplain' sink seed).symm

/-- A run over a container and a run that pulls the same elements. -/
theorem goesWith_of_feeds {source : Ident} {box : Container α} {intake : Intake α}
    (h : (Opened.indexed source box).Feeds plan xs) (h' : intake.Yields xs) (sink : Sink α γ)
    (seed : γ) :
    (plan.run sink seed (.indexed source box)).GoesWith (plan.run sink seed (.sequential intake))
      plan.leadingSkip box.size := by
  obtain ⟨hjumped, -, hresult⟩ := h.tells sink seed
  obtain ⟨-, -, hresult'⟩ := (Opened.feeds_sequential h' : Opened.Feeds _ plan xs).tells sink seed
  change plan.jumped box.size ≤ _ at hjumped
  have hread : (plan.drainList sink seed xs).scanned =
      (plan.drainList sink seed xs).scanned - plan.jumped box.size + plan.jumped box.size :=
    (Nat.sub_add_cancel hjumped).symm
  cases hending : (plan.drainList sink seed xs).ending with
  | failed culprit =>
    rw [hending] at hresult hresult'
    exact .inl ⟨culprit, hresult, hresult'⟩
  | exhausted =>
    rw [hending] at hresult hresult'
    exact .inr ⟨_, _, hresult, hresult', rfl, hread, plan.jumped_eq _, rfl, by simp⟩
  | stopped =>
    rw [hending] at hresult hresult'
    refine .inr ⟨_, _, hresult, hresult', rfl, hread, plan.jumped_eq _, rfl, ?_⟩
    show decide ((plan.drainList sink seed xs).scanned < box.size) = true ↔
      true = true ∧ plan.jumped box.size
        + ((plan.drainList sink seed xs).scanned - plan.jumped box.size) < box.size
    rw [Nat.add_sub_cancel' hjumped, decide_eq_true_eq, and_iff_right rfl]

/-- The same elements in a container without holes, in a list and behind a cursor are handed to the
closing action in the same order and with the same emitted indices, by any plan and whatever the
closing action does; the same callbacks are called, and the runs fail at the same element if they
fail. If not, the two runs by position did the same, and the run that pulls has scanned what they
jumped over. -/
theorem run_skeletons (plan : Plan α) (sink : Sink α γ) (seed : γ) (source id : Ident)
    {xs : List α} {box : Container α} (hbox : box.Holds xs) {answers : List (Option α)}
    (hheard : heard answers = xs) :
    let indexed := Opened.indexed source box
    let owned := Opened.owned xs
    let pulled := Opened.sequential (.cursor id answers true)
    plan.HandsAlike sink seed indexed pulled ∧ plan.HandsAlike sink seed owned pulled
      ∧ (plan.run sink seed owned).result = (plan.run sink seed indexed).result
      ∧ (plan.run sink seed indexed).GoesWith (plan.run sink seed pulled) plan.leadingSkip
        xs.length := by
  intro indexed owned pulled
  have hyields : (Intake.cursor id answers true).Yields xs :=
    hheard ▸ Intake.yields_cursor id answers
  have hpulled : pulled.Feeds plan xs := Opened.feeds_sequential hyields
  have hindexed : indexed.Feeds plan xs := Opened.feeds_indexed source hbox
  have howned : owned.Feeds plan xs := Opened.feeds_owned xs
  refine ⟨handsAlike_of_feeds hindexed hpulled (.shelf ..) (.cursor ..) sink seed,
    handsAlike_of_feeds howned hpulled (.owned ..) (.cursor ..) sink seed, ?_, ?_⟩
  · have hresult := (hindexed.tells sink seed).result_eq
    have hresult' := (howned.tells sink seed).result_eq
    have hjump : indexed.jump plan = owned.jump plan := congrArg plan.jumped hbox.size_eq
    have hearly : ∀ count, indexed.stopsEarly count = owned.stopsEarly count := fun count => by
      simp only [indexed, owned, Opened.stopsEarly, hbox.size_eq]
    rw [hresult, hresult', hjump, hearly]
  · rw [← hbox.size_eq]
    exact goesWith_of_feeds hindexed hyields sink seed

/-- The limit is reached at the very last element: only the run that pulls calls that early, and it
scans the element that the run by position jumps over. -/
theorem run_skeletons_limit_at_end :
    let plan : Plan Nat := (Draft.ofOps .segmented [.range 1 (some 3)]).toPlan
    let indexed : Opened Nat := .indexed ⟨0, none⟩ (.ofList [5, 6, 7])
    let pulled : Opened Nat := .sequential (.cursor ⟨1, none⟩ [some 5, some 6, some 7] true)
    (plan.run .collect [] pulled).result = .ok ⟨3, 0, 2, true⟩
      ∧ (plan.run .collect [] indexed).result = .ok ⟨2, 1, 2, false⟩
      ∧ (plan.run .collect [] indexed).acc = [7, 6] := by
  intro plan indexed pulled
  have hdrain : drainIntake plan .collect (.cursor ⟨1, none⟩ [some 5, some 6, some 7] true) 0
      ⟨plan.start, [], .empty⟩ =
        ⟨⟨⟨[⟨0, some 0⟩], [], 2, true⟩, [7, 6],
            ⟨[.closed ⟨1, none⟩, .pulled ⟨1, none⟩ 7, .pulled ⟨1, none⟩ 6, .pulled ⟨1, none⟩ 5]⟩⟩,
          .cursor ⟨1, none⟩ [] false, 3, .stopped⟩ := by
    rw [drainIntake_eq]
    show drainIntake plan .collect (.cursor ⟨1, none⟩ [some 6, some 7] true) 1
      ⟨⟨[⟨0, some 2⟩], [], 0, false⟩, [], ⟨[.pulled ⟨1, none⟩ 5]⟩⟩ = _
    rw [drainIntake_eq]
    show drainIntake plan .collect (.cursor ⟨1, none⟩ [some 7] true) 2
      ⟨⟨[⟨0, some 1⟩], [], 1, false⟩, [6], ⟨[.pulled ⟨1, none⟩ 6, .pulled ⟨1, none⟩ 5]⟩⟩ = _
    rw [drainIntake_eq]
    rfl
  have hpulled : (plan.run .collect [] pulled).acc = [7, 6]
      ∧ (plan.run .collect [] pulled).result = .ok ⟨3, 0, 2, true⟩ := by
    show (plan.runIntake .collect [] _).acc = _ ∧ (plan.runIntake .collect [] _).result = _
    rw [runIntake, hdrain]
    exact ⟨rfl, rfl⟩
  have hheard : heard [some 5, some 6, some 7] = [5, 6, 7] := rfl
  obtain ⟨hsame, -, -, hstats⟩ := run_skeletons plan .collect [] ⟨0, none⟩ ⟨1, none⟩
    (Container.holds_ofList [5, 6, 7]) hheard
  refine ⟨hpulled.2, ?_, hsame.acc_eq.trans hpulled.1⟩
  obtain ⟨culprit, -, hfailed⟩ | ⟨stats, stats', hindexed, hresult, hwith⟩ := hstats
  · exact absurd (hpulled.2.symm.trans hfailed) (by simp)
  · have hstats' : ⟨3, 0, 2, true⟩ = stats' := Except.ok.inj (hpulled.2.symm.trans hresult)
    subst hstats'
    obtain ⟨hemitted, hscanned, hjumped, -, hearly⟩ := hwith
    have hskip : stats.jumped = 1 := hjumped
    have hread : stats.scanned = 2 := by
      have hall : 3 = stats.scanned + stats.jumped := hscanned
      omega
    have hlate : stats.earlyStop = false := by
      rw [← Bool.not_eq_true, hearly, hread, hskip]
      decide
    obtain ⟨scanned, jumped, emitted, early⟩ := stats
    simp only at hemitted hread hskip hlate
    rw [hread, hskip, hemitted, hlate] at hindexed
    exact hindexed

end Plan

end StreamFusion
