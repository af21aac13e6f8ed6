import StreamFusion.Proofs.Run.Stopping

/-!
# Letting a cursor go in time

An intake that has nothing more to give should not keep a cursor open. A plan right above a cursor
closes the cursor where it stops, and a plan without limits does not stop before the intake below
has nothing more. If every plan of an intake is of one of these kinds, the intake keeps no cursor
open once it gave nothing (`Intake.Prompt.next`). What is below a flattened intake may be of any
kind, as it is let go when it has nothing more.
-/

namespace StreamFusion

variable {α γ : Type}

/-! ## Plans without limits -/

/-- A gate without a limit is never shut and gets no limit. -/
theorem Window.ask_unlimited {w : Window} (h : w.take = none) :
    w.ask.1 ≠ .shut ∧ w.ask.2.take = none := by
  obtain ⟨skip, take⟩ := w
  subst h
  cases skip <;> exact ⟨nofun, rfl⟩

namespace Counters

/-- No gate has a limit, so the run is not sealed. -/
structure Unlimited (c : Counters) : Prop where
  unsealed : c.isSealed = false
  take_eq : ∀ number, (c.window number).take = none

theorem Unlimited.tick {c : Counters} (h : c.Unlimited) (slot : Option Nat) :
    (c.tick slot).Unlimited := by
  cases slot <;> exact ⟨h.unsealed, h.take_eq⟩

theorem Unlimited.afterGate {c : Counters} (h : c.Unlimited) (number : Nat) :
    (c.afterGate number).Unlimited := by
  have hasked := (Window.ask_unlimited (h.take_eq number)).2
  constructor
  · simp [Counters.afterGate, h.unsealed, hasked]
  · intro other
    by_cases hother : other = number
    · rw [hother, window_afterGate_self]
      exact hasked
    · rw [window_afterGate_of_ne _ hother]
      exact h.take_eq other

end Counters

/-- A plan whose gates have no limits starts without limits. -/
theorem Plan.unlimited_start {plan : Plan α} (h : ∀ w ∈ plan.gates, w.take = none) :
    plan.start.Unlimited := by
  refine ⟨rfl, fun number => ?_⟩
  show (plan.gates.getD number ⟨0, none⟩).take = none
  rw [List.getD_eq_getElem?_getD]
  cases hgate : plan.gates[number]? with
  | none => rfl
  | some w => exact h w (List.mem_of_getElem? hgate)

/-- Without limits, only the closing action can stop a run. -/
theorem Course.unlimited {sink : Sink α γ} (hendless : sink.Endless) :
    Course sink (fun _ => True) (·.counters.Unlimited) (fun _ => False)
      (·.counters.Unlimited) where
  call := fun _ _ _ _ hs => ⟨trivial, hs.tick _⟩
  fail := id
  gate := by
    intro s number steps _ hs
    have hnot := (Window.ask_unlimited (hs.take_eq number)).1
    have hasked := hs.afterGate number
    cases hask : (s.counters.window number).ask.1 with
    | through => exact ⟨trivial, hasked⟩
    | dropped => exact hasked
    | shut => exact hnot hask
  emit := by
    intro s x _ hs
    rw [RunM.feed_nil]
    rcases hresult : (sink s.acc x s.counters.emitted).result with _ | ⟨acc, flow⟩
    · exact ⟨hs.unsealed, hs.take_eq⟩
    · obtain rfl : flow = .onward := hendless _ _ _ _ hresult
      exact ⟨hs.unsealed, hs.take_eq⟩

/-- Feeding an element did not stop the run, and did not bring it nearer to a limit. -/
def Fed.Unlimited : Fed α γ → Prop
  | .onward s | .failed _ s => s.counters.Unlimited
  | .stopped _ => False

theorem Plan.feed_unlimited (plan : Plan α) {sink : Sink α γ} (hendless : sink.Endless) (x : α)
    {s : RunState α γ} (hs : s.counters.Unlimited) : (plan.feed sink x s).Unlimited := by
  have hends : RunM.Ends (·.counters.Unlimited) (fun _ => False) (·.counters.Unlimited)
      (RunM.feed sink plan.steps x s) := (Course.unlimited hendless).feed trivial x hs
  unfold feed
  generalize RunM.feed sink plan.steps x s = result at hends ⊢
  rcases result with ⟨_ | _, s'⟩ | ⟨culprit, s'⟩
  · have hs' : s'.counters.Unlimited := hends
    simp only [hs'.unsealed]
    exact hs'
  · exact hends
  · exact hends

theorem Sink.endless_collect : (collect : Sink α (List α)).Endless := by
  intro acc x index answer h
  cases h
  rfl

/-! ## Prompt intakes -/

namespace Intake

variable {intake below : Intake α}

/-- No cursor is open any more once the intake was closed. -/
def Listens (intake : Intake α) : Prop := intake.close.2.openCursor? = none

theorem listens_of_none (h : intake.openCursor? = none) : intake.Listens :=
  intake.close_tended.eq_none h

/-- An intake that listens is a cursor, or none is open below it. -/
theorem Listens.pull (h : intake.Listens) : intake.pull.rest.Listens := by
  cases intake with
  | cursor source answers isOpen =>
    cases isOpen with
    | false => rcases answers with _ | ⟨_ | x, answers⟩ <;> rfl
    | true => rcases answers with _ | ⟨_ | x, answers⟩ <;> rfl
  | _ => exact listens_of_none ((pull_tended _).eq_none h)

/-- Every plan of the intake is right above the cursor, or has no limits, or some flattened intake
is above it; and where a plan is finished, no cursor is open below it. -/
def Prompt : Intake α → Prop
  | .staged _ counters _ finished below =>
    below.Prompt ∧ (finished = true → below.openCursor? = none)
      ∧ (below.Listens ∨ counters.Unlimited)
  | .mapped _ below => below.Prompt
  | _ => True

theorem Prompt.close (h : below.Prompt) : below.close.2.Prompt := by
  unfold Intake.close
  split
  · trivial
  · exact h

/-- A prompt plan stops only right above a cursor. -/
theorem prompt_stage (plan : Plan α) {counters : Counters} (events : List (Event α)) (x : α)
    (hbelow : below.Prompt) (hkind : below.Listens ∨ counters.Unlimited) :
    (stage plan counters events x below).rest.Prompt
      ∧ (stage plan counters events x below).answer ≠ .nothing := by
  have hfed : below.Listens ∨ (plan.feed Sink.collect x ⟨counters, [], .empty⟩).Unlimited :=
    hkind.imp_right fun h => plan.feed_unlimited Sink.endless_collect x h
  unfold stage
  cases hresult : plan.feed Sink.collect x ⟨counters, [], .empty⟩ with
  | onward s =>
    rw [hresult] at hfed
    exact ⟨⟨hbelow, by simp, hfed⟩, by simp⟩
  | stopped s =>
    rw [hresult] at hfed
    have hlistens : below.Listens := hfed.resolve_right id
    exact ⟨⟨hbelow.close, fun _ => hlistens, .inl (listens_of_none hlistens)⟩, by simp⟩
  | failed culprit s =>
    rw [hresult] at hfed
    exact ⟨⟨hbelow, by simp, hfed⟩, by simp⟩

/-- A prompt intake stays prompt, and keeps no cursor open when it gives nothing. -/
theorem Prompt.pull (h : intake.Prompt) :
    intake.pull.rest.Prompt
      ∧ (intake.pull.answer = .nothing → intake.pull.rest.openCursor? = none) := by
  induction intake with
  | shelf source box position =>
    unfold Intake.pull
    split
    · split <;> exact ⟨trivial, fun _ => rfl⟩
    · exact ⟨trivial, fun _ => rfl⟩
  | owned items => cases items <;> exact ⟨trivial, fun _ => rfl⟩
  | cursor source answers isOpen =>
    cases isOpen with
    | false => rcases answers with _ | ⟨_ | x, answers⟩ <;> exact ⟨trivial, fun _ => rfl⟩
    | true =>
      rcases answers with _ | ⟨_ | x, answers⟩
      · exact ⟨trivial, fun _ => rfl⟩
      · exact ⟨trivial, fun _ => rfl⟩
      · exact ⟨trivial, by simp [Intake.pull]⟩
  | staged plan counters ready finished below ih =>
    obtain ⟨hbelow, hfinished, hkind⟩ := h
    rcases ready with _ | ⟨x, ready⟩
    · cases finished with
      | true => exact ⟨⟨hbelow, hfinished, hkind⟩, fun _ => hfinished rfl⟩
      | false =>
        obtain ⟨hrest, hnothing⟩ := ih hbelow
        have hkind' : below.pull.rest.Listens ∨ counters.Unlimited := hkind.imp_left Listens.pull
        rw [Intake.pull]
        rcases hmoved : below.pull with ⟨events, answer, rest⟩
        rw [hmoved] at hrest hnothing hkind'
        cases answer with
        | item x =>
          obtain ⟨hstaged, hne⟩ := prompt_stage plan events x hrest hkind'
          exact ⟨hstaged, fun hanswer => absurd hanswer hne⟩
        | nothing => exact ⟨⟨hrest, fun _ => hnothing rfl, hkind'⟩, fun _ => hnothing rfl⟩
        | again => exact ⟨⟨hrest, by simp, hkind'⟩, by simp⟩
        | failed culprit => exact ⟨⟨hrest, by simp, hkind'⟩, by simp⟩
    · exact ⟨⟨hbelow, hfinished, hkind⟩, by simp [Intake.pull]⟩
  | mapped f below ih =>
    obtain ⟨hrest, hnothing⟩ := ih h
    rw [Intake.pull]
    rcases hmoved : below.pull with ⟨events, answer, rest⟩
    rw [hmoved] at hrest hnothing
    cases answer with
    | item x =>
      simp only [replace]
      cases f.answer x 0 <;> exact ⟨hrest, by simp⟩
    | nothing => exact ⟨hrest, fun _ => hnothing rfl⟩
    | again => exact ⟨hrest, by simp⟩
    | failed culprit => exact ⟨hrest, by simp⟩
  | flattened items ready below ih =>
    rcases ready with _ | ⟨x, ready⟩
    · rw [Intake.pull]
      rcases below.pull with ⟨events, answer, rest⟩
      cases answer with
      | item x => exact ⟨trivial, by simp⟩
      | nothing => exact ⟨trivial, fun _ => rfl⟩
      | again => exact ⟨trivial, by simp⟩
      | failed culprit => exact ⟨trivial, by simp⟩
    · exact ⟨trivial, by simp [Intake.pull]⟩
  | spent => exact ⟨trivial, fun _ => rfl⟩

/-- A prompt intake that is asked for its next element and has none keeps no cursor open. -/
theorem Prompt.next (h : intake.Prompt) :
    intake.next.rest.Prompt
      ∧ (intake.next.outcome = .nothing → intake.next.rest.openCursor? = none) := by
  have hfinite := intake.finite
  induction hfinite with
  | intro intake _ ih =>
    obtain ⟨hrest, hnothing⟩ := h.pull
    rw [next_eq]
    cases hanswer : intake.pull.answer with
    | item x => exact ⟨hrest, by simp⟩
    | nothing => exact ⟨hrest, fun _ => hnothing hanswer⟩
    | failed culprit => exact ⟨hrest, by simp⟩
    | again => exact ih intake.pull.rest ⟨rfl, by rw [hanswer]; simp⟩ hrest

/-- A prompt intake that is asked several times keeps no cursor open once it gave nothing. -/
theorem Prompt.nextTimes (h : intake.Prompt) (count : Nat) :
    (intake.nextTimes count).rest.Prompt
      ∧ (none ∈ (intake.nextTimes count).items →
        (intake.nextTimes count).rest.openCursor? = none) := by
  induction count generalizing intake with
  | zero => exact ⟨h, by simp [Intake.nextTimes]⟩
  | succ count ih =>
    obtain ⟨hrest, hnothing⟩ := h.next
    obtain ⟨hlater, hgone⟩ := ih hrest
    rw [Intake.nextTimes]
    cases houtcome : intake.next.outcome with
    | failed culprit => exact ⟨hrest, by simp⟩
    | item x =>
      refine ⟨hlater, fun hmem => hgone ?_⟩
      exact (List.mem_cons.1 hmem).resolve_left (by simp)
    | nothing =>
      have htended := intake.next.rest.nextTimes_tended count
      exact ⟨hlater, fun _ => htended.eq_none (hnothing houtcome)⟩

/-- A prompt intake that is asked for all elements keeps no cursor open in the end. -/
theorem Prompt.remaining (h : intake.Prompt) :
    intake.remaining.rest.Prompt
      ∧ (intake.remaining.culprit = none → intake.remaining.rest.openCursor? = none) := by
  have hfinite := intake.finite
  induction hfinite with
  | intro intake _ ih =>
    obtain ⟨hrest, hnothing⟩ := h.pull
    rw [remaining_eq]
    cases hanswer : intake.pull.answer with
    | nothing => exact ⟨hrest, fun _ => hnothing hanswer⟩
    | failed culprit => exact ⟨hrest, by simp⟩
    | again => exact ih intake.pull.rest ⟨rfl, by rw [hanswer]; simp⟩ hrest
    | item x => exact ih intake.pull.rest ⟨rfl, by rw [hanswer]; simp⟩ hrest

end Intake

end StreamFusion
