import StreamFusion.Proofs.Run.Courses

/-!
# Feeding and the meaning of steps

Elements are fed one by one, each through all steps; the meaning of the steps goes through the whole
list, step by step. `Pending` says what a run will have come to once the elements that are still to
come were fed, and feeding one of them keeps that promise (`feed_pending`). An element that stops
the run, or after which the run is sealed, leaves nothing to come.
-/

namespace StreamFusion

variable {α β γ δ : Type}

namespace RunM

/-! ## What feeding leaves alone -/

/-- The counters that a part of a run leaves, also where it fails. -/
def leaves : EStateM.Result α (RunState α γ) δ → Counters
  | .ok _ s | .error _ s => s.counters

section Preservation

variable {R : Counters → Counters → Prop}

/-- A relation between counters that ticks, gates and emissions respect is respected by the course
of a run, whether or not a callback fails. -/
theorem course_preserves (htrans : ∀ c d e, R c d → R d e → R c e) (sink : Sink α γ)
    (hemit : ∀ c, R c c.emit) (start : Counters) :
    Course sink
      (fun steps => (∀ step ∈ steps, ∀ c, R c (c.tick step.slot?))
        ∧ ∀ number, .gate number ∈ steps → ∀ c, R c (c.afterGate number))
      (fun s => R start s.counters) (fun s => R start s.counters)
      (fun s => R start s.counters) where
  call := by
    rintro s β step steps f x ⟨htick, hgate⟩ - hs
    refine ⟨⟨fun later hmem => htick later (List.mem_cons_of_mem _ hmem),
      fun number hmem => hgate number (List.mem_cons_of_mem _ hmem)⟩, ?_⟩
    exact htrans _ _ _ hs (htick step List.mem_cons_self _)
  fail := id
  gate := by
    rintro s number steps ⟨htick, hgate⟩ hs
    have hasked := htrans _ _ _ hs (hgate number List.mem_cons_self s.counters)
    cases (s.counters.window number).ask.1 with
    | through =>
      exact ⟨⟨fun later hmem => htick later (List.mem_cons_of_mem _ hmem),
        fun number hmem => hgate number (List.mem_cons_of_mem _ hmem)⟩, hasked⟩
    | dropped => exact hasked
    | shut => exact hasked
  emit := by
    intro s x _ hs
    have hemitted := htrans _ _ _ hs (hemit s.counters)
    rw [feed_nil]
    rcases (sink s.acc x s.counters.emitted).result with _ | ⟨acc, _ | _⟩
    · exact hemitted
    · exact hemitted
    · exact hemitted

theorem leaves_eq_left (result : EStateM.Result α (RunState α γ) δ) :
    leaves result = (left result).counters := by
  cases result <;> rfl

theorem each_preserves (hrefl : ∀ c, R c c) (htrans : ∀ c d e, R c d → R d e → R c e)
    {body : α → RunM α γ Flow} (hbody : ∀ x s, R s.counters (leaves (body x s))) (xs : List α)
    (s : RunState α γ) : R s.counters (leaves (each body xs s)) := by
  have hends : ∀ x (t : RunState α γ), R s.counters t.counters →
      Ends (fun u => R s.counters u.counters) (fun u => R s.counters u.counters)
        (fun u => R s.counters u.counters) (body x t) := by
    intro x t ht
    have hx := hbody x t
    rw [leaves_eq_left] at hx
    exact ends_iff_left.2 (htrans _ _ _ ht hx)
  rw [leaves_eq_left]
  exact ends_iff_left.1 (Course.each hends xs (hrefl s.counters))

theorem feed_preserves (hrefl : ∀ c, R c c) (htrans : ∀ c d e, R c d → R d e → R c e)
    (sink : Sink α γ) {steps : List (Step α)} (htick : ∀ step ∈ steps, ∀ c, R c (c.tick step.slot?))
    (hgate : ∀ number, .gate number ∈ steps → ∀ c, R c (c.afterGate number))
    (hemit : ∀ c, R c c.emit) (x : α) (s : RunState α γ) :
    R s.counters (leaves (feed sink steps x s)) := by
  rw [leaves_eq_left]
  exact ends_iff_left.1
    ((course_preserves htrans sink hemit s.counters).feed ⟨htick, hgate⟩ x (hrefl _))

end Preservation

variable {sink : Sink α γ} {steps : List (Step α)} {step : Step α} {gates slots : Nat}

theorem feed_sized {x : α} {s s' : RunState α γ} {flow : Flow} (h : s.counters.Sized gates slots)
    (hfeed : feed sink steps x s = .ok flow s') : s'.counters.Sized gates slots := by
  have hleaves : (leaves (feed sink steps x s)).Sized gates slots :=
    feed_preserves (R := fun c d => c.Sized gates slots → d.Sized gates slots) (fun _ => id)
      (fun _ _ _ hcd hde => hde ∘ hcd) sink (fun step _ _ h => h.tick step.slot?)
      (fun number _ _ h => h.afterGate number) (fun _ h => ⟨h.gates_eq, h.slots_eq⟩) x s h
  rw [hfeed] at hleaves
  exact hleaves

theorem leaves_sameIn (h : ∀ later ∈ steps, step.Apart later) (x : α) (s : RunState α γ) :
    step.SameIn s.counters (leaves (feed sink steps x s)) :=
  feed_preserves step.sameIn_refl (fun _ _ _ => .trans) sink
    (fun later hmem => (h later hmem).symm.sameIn_tick)
    (fun _ hmem => (h _ hmem).symm.sameIn_afterGate rfl)
    (fun c => ⟨fun _ _ => rfl, (c.index_emit _).symm⟩) x s

/-- Feeding does not touch the counter of a step that is apart from all that are fed through. -/
theorem feed_sameIn {x : α} {s s' : RunState α γ} {flow : Flow}
    (h : ∀ later ∈ steps, step.Apart later) (hfeed : feed sink steps x s = .ok flow s') :
    step.SameIn s.counters s'.counters := by
  have hleaves : step.SameIn s.counters (leaves (feed sink steps x s)) := leaves_sameIn h x s
  rw [hfeed] at hleaves
  exact hleaves

theorem each_sameIn {xs : List α} {s s' : RunState α γ} {flow : Flow}
    (h : ∀ later ∈ steps, step.Apart later) (heach : each (feed sink steps) xs s = .ok flow s') :
    step.SameIn s.counters s'.counters := by
  have hleaves : step.SameIn s.counters (leaves (each (feed sink steps) xs s)) :=
    each_preserves step.sameIn_refl (fun _ _ _ => .trans) (leaves_sameIn h) xs s
  rw [heach] at hleaves
  exact hleaves

end RunM

/-! ## What is still to come -/

/-- Hands a list of elements to a closing action, until it has seen enough: the accumulator, and the
number of elements that were handed out. There is no result if the action fails. -/
def Sink.handAll (sink : Sink α γ) (acc : γ) (emitted : Nat) : List α → Option (γ × Nat)
  | [] => some (acc, emitted)
  | x :: xs =>
    match (sink acc x emitted).result with
    | some (acc, .onward) => sink.handAll acc (emitted + 1) xs
    | some (acc, .stop) => some (acc, emitted + 1)
    | none => none

namespace RunM

variable {sink : Sink α γ} {steps : List (Step α)} {step : Step α} {gates slots : Nat}
  {s : RunState α γ} {x : α} {xs ws : List α} {final : γ × Nat} {flow : Flow}

/-- With these elements still to be fed, the accumulator and the emitted count will be `final`. -/
def Pending (sink : Sink α γ) (steps : List (Step α)) (s : RunState α γ) (xs : List α)
    (final : γ × Nat) : Prop :=
  ∃ ys, Step.allOnList s.counters steps xs = some ys
    ∧ sink.handAll s.acc s.counters.emitted ys = some final

/-- What is pending after a part of a run: nothing, if that part stopped it. -/
def Resumes (sink : Sink α γ) (steps : List (Step α)) (flow : Flow) (s : RunState α γ) (xs : List α)
    (final : γ × Nat) : Prop :=
  match flow with
  | .onward => Pending sink steps s xs final
  | .stop => final = (s.acc, s.counters.emitted)

/-- Where nothing is to come, all is done. -/
theorem eq_of_pending_nil (h : Pending sink steps s [] final) :
    final = (s.acc, s.counters.emitted) := by
  obtain ⟨ys, hys, hfinal⟩ := h
  rw [Step.allOnList_nil, Option.some.injEq] at hys
  subst hys
  exact (Option.some.inj hfinal).symm

/-- Counting for a step does not change what is pending behind it. -/
theorem pending_congr (s t : RunState α γ) (hacc : t.acc = s.acc)
    (hemitted : t.counters.emitted = s.counters.emitted)
    (hsame : ∀ later ∈ steps, later.SameIn s.counters t.counters)
    (h : Pending sink steps s xs final) : Pending sink steps t xs final := by
  obtain ⟨ys, hys, hfinal⟩ := h
  exact ⟨ys, by rw [← Step.allOnList_congr hsame]; exact hys, by rw [hacc, hemitted]; exact hfinal⟩

/-- What is pending behind a step is pending in front of it, while its own counter is left alone. -/
theorem resumes_cons {t : RunState α γ} (hstep : step.onList t.counters xs = some ws)
    (hsame : step.SameIn t.counters s.counters) (h : Resumes sink steps flow s ws final) :
    Resumes sink (step :: steps) flow s xs final := by
  cases flow with
  | stop => exact h
  | onward =>
    obtain ⟨ys, hys, hfinal⟩ := h
    rw [hsame.onList] at hstep
    exact ⟨ys, by rw [Step.allOnList, hstep]; exact hys, hfinal⟩

/-- If feeding one element keeps the promise, so does feeding several. -/
theorem each_pending
    (hfeed : ∀ x xs (s : RunState α γ), s.counters.Sized gates slots →
      Pending sink steps s (x :: xs) final →
      ∃ flow s', feed sink steps x s = .ok flow s' ∧ Resumes sink steps flow s' xs final)
    (part : List α) (hsized : s.counters.Sized gates slots)
    (h : Pending sink steps s (part ++ xs) final) :
    ∃ flow s', each (feed sink steps) part s = .ok flow s'
      ∧ Resumes sink steps flow s' xs final := by
  induction part generalizing s with
  | nil => exact ⟨.onward, s, rfl, h⟩
  | cons x part ih =>
    -- while `x` is fed, the rest of the part is pending together with `xs`
    obtain ⟨flow, s', hx, hresumes⟩ := hfeed x (part ++ xs) s hsized h
    rw [each_cons, hx]
    cases flow with
    | stop => exact ⟨.stop, s', rfl, hresumes⟩
    | onward =>
      exact ih (feed_sized hsized hx) hresumes

/-- Feeding an element keeps what was pending with it in front. -/
theorem feed_pending (hnumbered : Step.Numbered gates slots steps) (x : α) (xs : List α)
    (s : RunState α γ) (hsized : s.counters.Sized gates slots)
    (h : Pending sink steps s (x :: xs) final) :
    ∃ flow s', feed sink steps x s = .ok flow s' ∧ Resumes sink steps flow s' xs final := by
  -- on the steps, as feeding is; the lists that are pending differ from step to step
  induction steps generalizing x xs s with
  | nil =>
    obtain ⟨ys, hys, hfinal⟩ := h
    rw [Step.allOnList, Option.some.injEq] at hys
    subst hys
    rw [Sink.handAll] at hfinal
    rw [feed_nil]
    cases hresult : (sink s.acc x s.counters.emitted).result with
    | none =>
      rw [hresult] at hfinal
      exact absurd hfinal (by simp)
    | some result =>
      obtain ⟨acc, flow⟩ := result
      rw [hresult] at hfinal
      refine ⟨flow, _, rfl, ?_⟩
      cases flow with
      | onward => exact ⟨xs, rfl, hfinal⟩
      | stop => exact (Option.some.inj hfinal).symm
  | cons step steps ih =>
    have ih := ih hnumbered.tail
    have hfits := hnumbered.fits step List.mem_cons_self
    have hapart := hnumbered.apart_head
    obtain ⟨ys, hys, hfinal⟩ := h
    obtain ⟨ws, hws, hys⟩ := Option.bind_eq_some_iff.1 hys
    have hbehind : Pending sink steps s ws final := ⟨ys, hys, hfinal⟩
    -- the three kinds of calls differ in what they hand on, and agree in the tick
    have hcalled : ∀ events, Pending sink steps
        ⟨s.counters.tick step.slot?, s.acc, s.journal.record events⟩ ws final := fun events =>
      pending_congr s _ rfl (by cases step.slot? <;> rfl)
        (fun later hmem => (hapart later hmem).sameIn_tick s.counters) hbehind
    have hticked := hsized.tick step.slot?
    cases step with
    | map f slot =>
      obtain ⟨y, rest, hy, hrest, rfl⟩ := Step.onList_map_cons hfits hsized hws
      obtain ⟨flow, s', hfeed, hresumes⟩ := ih y rest (s.afterCall f slot x) hticked (hcalled _)
      exact ⟨flow, s', by rw [feed_map, hy]; exact hfeed,
        resumes_cons hrest (feed_sameIn hapart hfeed) hresumes⟩
    | test p slot =>
      obtain ⟨kept, rest, hkept, hrest, rfl⟩ := Step.onList_test_cons hfits hsized hws
      rw [feed_test, hkept]
      cases kept with
      | true =>
        obtain ⟨flow, s', hfeed, hresumes⟩ := ih x rest (s.afterCall p slot x) hticked (hcalled _)
        exact ⟨flow, s', hfeed, resumes_cons hrest (feed_sameIn hapart hfeed) hresumes⟩
      | false =>
        exact ⟨.onward, s.afterCall p slot x, rfl, resumes_cons hrest (Step.sameIn_refl _ _)
          (hcalled _)⟩
    | expand f slot =>
      obtain ⟨part, rest, hpart, hrest, rfl⟩ := Step.onList_expand_cons hfits hsized hws
      obtain ⟨flow, s', heach, hresumes⟩ :=
        each_pending ih part (s := s.afterCall f slot x) hticked (hcalled _)
      exact ⟨flow, s', by rw [feed_expand, hpart]; exact heach,
        resumes_cons hrest (each_sameIn hapart heach) hresumes⟩
    | gate number =>
      have hasked : Pending sink steps (s.afterGate number) ws final := pending_congr s _ rfl rfl
        (fun later hmem => (hapart later hmem).sameIn_afterGate rfl s.counters) hbehind
      rw [Step.onList_gate_cons] at hws
      rw [feed_gate]
      cases hask : (s.counters.window number).ask.1 with
      | through =>
        rw [hask] at hws
        obtain ⟨rest, hrest, rfl⟩ := Option.map_eq_some_iff.1 hws
        obtain ⟨flow, s', hfeed, hresumes⟩ :=
          ih x rest (s.afterGate number) (hsized.afterGate number) hasked
        exact ⟨flow, s', hfeed, resumes_cons hrest (feed_sameIn hapart hfeed) hresumes⟩
      | dropped =>
        -- the element goes no further, and the gate has one less to drop
        rw [hask] at hws
        exact ⟨.onward, s.afterGate number, rfl, resumes_cons hws (Step.sameIn_refl _ _) hasked⟩
      | shut =>
        -- nothing of the list can pass any more, so stopping loses nothing
        rw [hask, Option.some.injEq] at hws
        subst hws
        exact ⟨.stop, s.afterGate number, rfl, eq_of_pending_nil hasked⟩

end RunM

/-! ## Sealed runs -/

/-- The run is sealed only where one of these steps asks a closed gate. -/
def Counters.SealedByGate (c : Counters) (steps : List (Step α)) : Prop :=
  c.isSealed = true → ∃ number, .gate number ∈ steps ∧ c.window number = .closed

theorem Counters.window_eq_closed_afterGate {c : Counters} {number : Nat}
    (h : c.window number = .closed) (other : Nat) :
    (c.afterGate other).window number = .closed := by
  by_cases he : number = other
  · subst he
    rw [Counters.window_afterGate_self, h, Window.ask_closed]
  · rw [Counters.window_afterGate_of_ne _ he, h]

namespace Counters.SealedByGate

variable {c : Counters} {steps : List (Step α)}

theorem tick (h : c.SealedByGate steps) (slot : Option Nat) : (c.tick slot).SealedByGate steps := by
  cases slot <;> exact h

theorem afterGate (h : c.SealedByGate steps) {number : Nat} (hmem : .gate number ∈ steps) :
    (c.afterGate number).SealedByGate steps := by
  intro hsealed
  rw [Counters.afterGate, Bool.or_eq_true] at hsealed
  rcases hsealed with hbefore | hlast
  · obtain ⟨other, hother, hclosed⟩ := h hbefore
    exact ⟨other, hother, window_eq_closed_afterGate hclosed number⟩
  · -- the element that passed was the last one of this gate
    rw [Bool.and_eq_true, beq_iff_eq, beq_iff_eq] at hlast
    exact ⟨number, hmem, by rw [window_afterGate_self, Window.ask_eq_closed hlast.1 hlast.2]⟩

end Counters.SealedByGate

namespace Plan

variable {plan : Plan α} {sink : Sink α γ} {s : RunState α γ} {x : α} {xs ys : List α}
  {final : γ × Nat}

/-- A run of the plan is on its way to `final`, with these elements still to be fed. -/
structure Underway (plan : Plan α) (sink : Sink α γ) (s : RunState α γ) (xs : List α)
    (final : γ × Nat) : Prop where
  sized : s.counters.Sized plan.gates.length plan.slots
  isSealed : s.counters.SealedByGate plan.steps
  pending : RunM.Pending sink plan.steps s xs final

/-- Events do not matter for what comes out. -/
theorem Underway.record (h : plan.Underway sink s xs final) (events : List (Event α)) :
    plan.Underway sink { s with journal := s.journal.record events } xs final :=
  ⟨h.sized, h.isSealed, h.pending⟩

theorem Underway.eq_of_nil (h : plan.Underway sink s [] final) :
    final = (s.acc, s.counters.emitted) := RunM.eq_of_pending_nil h.pending

/-- A sealed run has nothing more to come. -/
theorem Underway.eq_of_sealed (h : plan.Underway sink s xs final)
    (hsealed : s.counters.isSealed = true) : final = (s.acc, s.counters.emitted) := by
  obtain ⟨number, hmem, hclosed⟩ := h.isSealed hsealed
  obtain ⟨ys, hys, hfinal⟩ := h.pending
  rw [Step.eq_nil_of_closed hmem hclosed hys] at hfinal
  exact (Option.some.inj hfinal).symm

theorem underway_start (hresults : Step.allOnList plan.start plan.steps xs = some ys) {seed : γ}
    (hfinal : sink.handAll seed 0 ys = some final) :
    plan.Underway sink ⟨plan.start, seed, .empty⟩ xs final :=
  ⟨plan.sized_start, fun h => absurd h (by simp [start]), ys, hresults, hfinal⟩

/-- Feeding one element leaves the run on its way, or stops it with all done. -/
theorem Underway.feed (hnumbered : plan.Numbered) (h : plan.Underway sink s (x :: xs) final) :
    (∃ s', plan.feed sink x s = .onward s' ∧ plan.Underway sink s' xs final)
      ∨ ∃ s', plan.feed sink x s = .stopped s' ∧ final = (s'.acc, s'.counters.emitted) := by
  obtain ⟨flow, s', hfeed, hresumes⟩ :=
    RunM.feed_pending hnumbered x xs s h.sized h.pending
  have hsealed : (RunM.leaves (RunM.feed sink plan.steps x s)).SealedByGate plan.steps :=
    RunM.feed_preserves (R := fun c d => c.SealedByGate plan.steps → d.SealedByGate plan.steps)
      (fun _ => id) (fun _ _ _ hcd hde => hde ∘ hcd) sink (fun step _ _ h => h.tick step.slot?)
      (fun _ hmem _ h => h.afterGate hmem) (fun _ h => h) x s h.isSealed
  rw [hfeed] at hsealed
  rw [Plan.feed, hfeed]
  cases flow with
  | stop => exact .inr ⟨s', rfl, hresumes⟩
  | onward =>
    have hafter : plan.Underway sink s' xs final :=
      ⟨RunM.feed_sized h.sized hfeed, hsealed, hresumes⟩
    -- a sealed run stops although no step told it to
    by_cases hs : s'.counters.isSealed = true
    · exact .inr ⟨s', if_pos hs, hafter.eq_of_sealed hs⟩
    · exact .inl ⟨s', if_neg hs, hafter⟩

end Plan

end StreamFusion
