import StreamFusion.Proofs.Run.Courses

/-!
# From place to place

Feeding sends an element through all steps at once. Here it is taken apart: an element comes to one
place of the plan after another, and what it does there (`RunM.meet`) says which elements go on to
the next place. Between two such arrivals a run is in the midst of feeding, with counters and with
elements that wait for their turn (`Midway`); a history is the list of arrivals that led there
(`Plan.Goes`). Feeding an element is such a course, however it ends (`Plan.leads_feed`).
-/

namespace StreamFusion

variable {α γ : Type}

/-! ## At one place -/

/-- What goes on from a gate that gives this answer to an element, or nothing if the run stops. -/
def Admission.sent (x : α) : Admission → Option (List α)
  | .through => some [x]
  | .dropped => some []
  | .shut => none

namespace RunM

/-- What an element does at a step, and behind the last step with the closing action: it gives the
elements that go on from there, or nothing if the run stops. -/
def meet (sink : Sink α γ) (x : α) : Option (Step α) → RunM α γ (Option (List α))
  | none => do
    match ← emit sink x with
    | .onward => pure (some [])
    | .stop => pure none
  | some (.map f slot) => do
    let index ← tick slot
    return some [← call f x index]
  | some (.test p slot) => do
    let index ← tick slot
    return some (if ← call p x index then [x] else [])
  | some (.expand f slot) => do
    let index ← tick slot
    return some (← call f x index)
  | some (.gate number) => do
    return (← askGate number).sent x

/-- The elements that go on from a place. None do, now or later, if the run stops or a callback
fails. -/
def sent : EStateM.Result α (RunState α γ) (Option (List α)) → Option (List α)
  | .ok elements _ => elements
  | .error _ _ => none

variable (sink : Sink α γ) (x : α) (s : RunState α γ)

/-- The closing action gives nothing to go on with. -/
theorem meet_none :
    meet sink x none s =
      match feed sink [] x s with
      | .ok .onward s => .ok (some []) s
      | .ok .stop s => .ok none s
      | .error culprit s => .error culprit s := by
  rw [meet, feed, bind_apply]
  rcases emit sink x s with ⟨_ | _, _⟩ | _ <;> rfl

theorem meet_map (f : Callback α α) (slot : Option Nat) :
    meet sink x (some (.map f slot)) s =
      match f.answer x (s.counters.index slot) with
      | some y => .ok (some [y]) (s.afterCall f slot x)
      | none => .error x (s.afterCall f slot x) := by
  change (call f x (s.counters.index slot) >>= fun y => pure (some [y]))
    { s with counters := s.counters.tick slot } = _
  rw [bind_apply, call_apply]
  cases f.answer x (s.counters.index slot) <;> rfl

theorem meet_test (p : Callback α Bool) (slot : Option Nat) :
    meet sink x (some (.test p slot)) s =
      match p.answer x (s.counters.index slot) with
      | some holds => .ok (some (if holds then [x] else [])) (s.afterCall p slot x)
      | none => .error x (s.afterCall p slot x) := by
  change (call p x (s.counters.index slot) >>= fun holds =>
    pure (some (if holds then [x] else []))) { s with counters := s.counters.tick slot } = _
  rw [bind_apply, call_apply]
  cases p.answer x (s.counters.index slot) <;> rfl

theorem meet_expand (f : Callback α (List α)) (slot : Option Nat) :
    meet sink x (some (.expand f slot)) s =
      match f.answer x (s.counters.index slot) with
      | some ys => .ok (some ys) (s.afterCall f slot x)
      | none => .error x (s.afterCall f slot x) := by
  change (call f x (s.counters.index slot) >>= fun ys => pure (some ys))
    { s with counters := s.counters.tick slot } = _
  rw [bind_apply, call_apply]
  cases f.answer x (s.counters.index slot) <;> rfl

theorem meet_gate (number : Nat) :
    meet sink x (some (.gate number)) s =
      .ok ((s.counters.window number).ask.1.sent x) (s.afterGate number) := rfl

theorem each_singleton (body : α → RunM α γ Flow) : each body [x] s = body x s := by
  rw [each_cons]
  rcases body x s with ⟨_ | _, _⟩ | _ <;> rfl

/-- To feed an element is to let it meet the first step, and to feed what goes on from there to the
other steps. -/
theorem feed_eq_meet (steps : List (Step α)) :
    feed sink steps x s =
      match meet sink x steps.head? s with
      | .ok (some ys) s => each (feed sink steps.tail) ys s
      | .ok none s => .ok .stop s
      | .error culprit s => .error culprit s := by
  cases steps with
  | nil =>
    rw [List.head?_nil, meet_none]
    rcases feed sink [] x s with ⟨_ | _, _⟩ | _ <;> rfl
  | cons step steps =>
    rw [List.head?_cons, List.tail_cons]
    cases step with
    | map f slot =>
      rw [feed_map, meet_map]
      cases f.answer x (s.counters.index slot) with
      | none => rfl
      | some y => exact (each_singleton y _ _).symm
    | test p slot =>
      rw [feed_test, meet_test]
      rcases p.answer x (s.counters.index slot) with _ | _ | _
      · rfl
      · rfl
      · exact (each_singleton x _ _).symm
    | expand f slot =>
      rw [feed_expand, meet_expand]
      cases f.answer x (s.counters.index slot) <;> rfl
    | gate number =>
      rw [feed_gate, meet_gate]
      cases (s.counters.window number).ask.1 with
      | through => exact (each_singleton x _ _).symm
      | dropped => rfl
      | shut => rfl

end RunM

/-! ## From one place to the next -/

/-- Two steps with the same counter whose callbacks are of the same kind. -/
inductive Step.Alike : Step α → Step α → Prop where
  | map (f g : Callback α α) (slot : Option Nat) : Alike (.map f slot) (.map g slot)
  | test (p q : Callback α Bool) (slot : Option Nat) : Alike (.test p slot) (.test q slot)
  | expand (f g : Callback α (List α)) (slot : Option Nat) :
      Alike (.expand f slot) (.expand g slot)
  | gate (number : Nat) : Alike (.gate number) (.gate number)

theorem Step.Alike.refl (step : Step α) : step.Alike step := by
  cases step with
  | map f slot => exact .map f f slot
  | test p slot => exact .test p p slot
  | expand f slot => exact .expand f f slot
  | gate number => exact .gate number

/-- An element came to a place of the plan, counted from the first step on, and these elements went
on from there. The place behind the last step is that of the closing action. -/
structure Arrival (α : Type) where
  place : Nat
  sent : Option (List α)

/-- Did the element pass the place? -/
def Arrival.passed (arrival : Arrival α) : Bool :=
  match arrival.sent with
  | some (_ :: _) => true
  | _ => false

/-- A run in the midst of feeding: its state and the elements on their way, the next one in front,
with the places that they come to next. -/
structure Midway (α γ : Type) where
  state : RunState α γ
  waiting : List (Nat × α)

/-- A run behind an arrival, with the elements that waited behind the one that arrived. These are
abandoned if the run stops or a callback fails. -/
def Midway.behind (place : Nat) (rest : List (Nat × α))
    (result : EStateM.Result α (RunState α γ) (Option (List α))) : Midway α γ where
  state := RunM.left result
  waiting :=
    match RunM.sent result with
    | some ys => ys.map (place + 1, ·) ++ rest
    | none => []

/-- Elements are fed to the plan, and these arrivals lead from the one state to the other. Whenever
an element is fed, the accumulator and the journal may be new ones, and whenever one arrives, the
callback and the closing action may be other ones than before. -/
inductive Plan.Goes (plan : Plan α) (origin : Midway α γ) :
    List (Arrival α) → Midway α γ → Prop where
  | origin : Goes plan origin [] origin
  | feed {history : List (Arrival α)} {s : RunState α γ} (x : α) (acc : γ) (journal : Journal α)
      (before : Goes plan origin history ⟨s, []⟩) :
      Goes plan origin history ⟨⟨s.counters, acc, journal⟩, [(0, x)]⟩
  | arrive {history : List (Arrival α)} {s : RunState α γ} {place : Nat} {x : α}
      {rest : List (Nat × α)} (sink : Sink α γ) {step : Option (Step α)}
      (met : Option.Rel Step.Alike plan.steps[place]? step)
      (before : Goes plan origin history ⟨s, (place, x) :: rest⟩) :
      Goes plan origin (history ++ [⟨place, RunM.sent (RunM.meet sink x step s)⟩])
        (.behind place rest (RunM.meet sink x step s))

namespace Plan

variable {plan : Plan α}

theorem Goes.trans {origin m m' : Midway α γ} {history later : List (Arrival α)}
    (h : plan.Goes origin history m) (h' : plan.Goes m later m') :
    plan.Goes origin (history ++ later) m' := by
  induction h' with
  | origin => rwa [List.append_nil]
  | feed x acc journal _ ih => exact .feed x acc journal ih
  | arrive sink met _ ih =>
    rw [← List.append_assoc]
    exact .arrive sink met ih

/-- Some arrivals lead from the one state to the other. -/
def Leads (plan : Plan α) (m m' : Midway α γ) : Prop := ∃ history, plan.Goes m history m'

theorem Leads.trans {m m' m'' : Midway α γ} (h : plan.Leads m m') (h' : plan.Leads m' m'') :
    plan.Leads m m'' := by
  obtain ⟨history, hgoes⟩ := h
  obtain ⟨later, hlater⟩ := h'
  exact ⟨history ++ later, hgoes.trans hlater⟩

/-! ## Feeding goes from place to place -/

section Feeding

variable {sink : Sink α γ} {place : Nat}

/-- A part of a run begins with the first elements that wait and ends when they are done, with the
others still waiting, or nothing waits any more as it was stopped or a callback failed. -/
def LeadsOn (plan : Plan α) (m : Midway α γ) (rest : List (Nat × α)) :
    EStateM.Result α (RunState α γ) Flow → Prop :=
  RunM.Ends (fun t => plan.Leads m ⟨t, rest⟩) (fun t => plan.Leads m ⟨t, []⟩)
    (fun t => plan.Leads m ⟨t, []⟩)

theorem Leads.leadsOn {m m' : Midway α γ} {rest : List (Nat × α)}
    {result : EStateM.Result α (RunState α γ) Flow} (h : plan.Leads m m')
    (h' : plan.LeadsOn m' rest result) : plan.LeadsOn m rest result := by
  rcases result with ⟨_ | _, t⟩ | ⟨culprit, t⟩
  · exact h.trans h'
  · exact h.trans h'
  · exact h.trans h'

theorem leadsOn_each {body : α → RunM α γ Flow}
    (hbody : ∀ x (s : RunState α γ) rest,
      plan.LeadsOn ⟨s, (place, x) :: rest⟩ rest (body x s))
    (xs : List α) (s : RunState α γ) (rest : List (Nat × α)) :
    plan.LeadsOn ⟨s, xs.map (place, ·) ++ rest⟩ rest (RunM.each body xs s) := by
  induction xs generalizing s with
  | nil => exact ⟨[], .origin⟩
  | cons x xs ih =>
    have hx := hbody x s (xs.map (place, ·) ++ rest)
    rw [RunM.each_cons]
    rcases hresult : body x s with ⟨_ | _, t⟩ | ⟨culprit, t⟩ <;> rw [hresult] at hx
    · exact Leads.leadsOn hx (ih t)
    · exact hx
    · exact hx

/-- An element that waits arrives, and meets the first of the steps that are still ahead. -/
theorem leads_arrive (sink : Sink α γ) {steps : List (Step α)}
    (hdrop : plan.steps.drop place = steps) (x : α) (s : RunState α γ) (rest : List (Nat × α)) :
    plan.Leads ⟨s, (place, x) :: rest⟩
      (.behind place rest (RunM.meet sink x steps.head? s)) := by
  have hmet : Option.Rel Step.Alike plan.steps[place]? steps.head? := by
    rw [← List.head?_drop, hdrop]
    cases steps.head? with
    | none => exact .none
    | some step => exact .some (.refl step)
  exact ⟨_, .arrive sink hmet .origin⟩

/-- Feeding an element from a place on is a course of arrivals. -/
theorem leadsOn_feed (sink : Sink α γ) {steps : List (Step α)}
    (hdrop : plan.steps.drop place = steps) (x : α) (s : RunState α γ) (rest : List (Nat × α)) :
    plan.LeadsOn ⟨s, (place, x) :: rest⟩ rest (RunM.feed sink steps x s) := by
  -- on the steps that are still ahead; the places go up as the steps get fewer
  induction steps generalizing place x s rest with
  | nil =>
    have harrive := leads_arrive sink hdrop x s rest
    rw [List.head?_nil, RunM.meet_none] at harrive
    rcases hresult : RunM.feed sink [] x s with ⟨_ | _, t⟩ | ⟨culprit, t⟩ <;>
      rw [hresult] at harrive
    · exact harrive
    · exact harrive
    · exact harrive
  | cons step steps ih =>
    have harrive := leads_arrive sink hdrop x s rest
    have hnext : plan.steps.drop (place + 1) = steps := by
      rw [← List.tail_drop, hdrop, List.tail_cons]
    rw [List.head?_cons] at harrive
    rw [RunM.feed_eq_meet, List.head?_cons, List.tail_cons]
    rcases hresult : RunM.meet sink x (some step) s with ⟨_ | ys, t⟩ | ⟨culprit, t⟩ <;>
      rw [hresult] at harrive
    · exact harrive
    · exact harrive.leadsOn (leadsOn_each (ih hnext) ys t rest)
    · exact harrive

/-- Feeding an element leads to the state that it leaves, however it ends. -/
theorem leads_feed (sink : Sink α γ) (x : α) (s : RunState α γ) :
    plan.Leads ⟨s, [(0, x)]⟩ ⟨RunM.left (RunM.feed sink plan.steps x s), []⟩ :=
  RunM.ends_iff_left.1 (leadsOn_feed sink rfl x s [])

end Feeding

end Plan

end StreamFusion
