import StreamFusion.Run.Feed

/-!
# Equations of feeding

What feeding an element does at each kind of step, as one equation a step. The main statements are
`feed_nil`, `feed_map`, `feed_test`, `feed_expand` and `feed_gate`; with `each_nil` and `each_cons`
they say all that there is to know about `RunM.feed`.
-/

namespace StreamFusion

variable {α β γ : Type}

namespace RunState

/-- The state after an element reached a step and its callback was called. -/
def afterCall (s : RunState α γ) (f : Callback α β) (slot : Option Nat) (x : α) : RunState α γ :=
  ⟨s.counters.tick slot, s.acc, s.journal.record [f.event x (s.counters.index slot)]⟩

/-- The state after an element came to a gate. -/
def afterGate (s : RunState α γ) (number : Nat) : RunState α γ :=
  { s with counters := s.counters.afterGate number }

/-- The state after an element was handed to a closing action that noted these events. -/
def afterEmit (s : RunState α γ) (events : List (Event α)) : RunState α γ :=
  ⟨s.counters.emit, s.acc, s.journal.record events⟩

end RunState

namespace RunM

variable (sink : Sink α γ) (steps : List (Step α)) (x : α) (s : RunState α γ)

/-- A part of a run and what follows it. -/
theorem bind_apply {δ ε : Type} (part : RunM α γ δ) (next : δ → RunM α γ ε) (s : RunState α γ) :
    (part >>= next) s =
      match part s with
      | .ok y s => next y s
      | .error culprit s => .error culprit s := by
  simp only [bind, EStateM.bind]
  cases part s <;> rfl

/-- A call behind the tick of its step. -/
theorem call_apply (f : Callback α β) (slot : Option Nat) :
    call f x (s.counters.index slot) { s with counters := s.counters.tick slot } =
      match f.answer x (s.counters.index slot) with
      | some y => .ok y (s.afterCall f slot x)
      | none => .error x (s.afterCall f slot x) := by
  unfold call
  cases f.answer x (s.counters.index slot) <;> rfl

@[simp] theorem each_nil (body : α → RunM α γ Flow) : each body [] s = .ok .onward s := rfl

theorem each_cons (body : α → RunM α γ Flow) (xs : List α) :
    each body (x :: xs) s =
      match body x s with
      | .ok .onward s => each body xs s
      | .ok .stop s => .ok .stop s
      | .error culprit s => .error culprit s := by
  rw [each, bind_apply]
  rcases body x s with ⟨_ | _, _⟩ | _ <;> rfl

/-- Something is done for one list after the other. -/
theorem each_append (body : α → RunM α γ Flow) (xs ys : List α) (s : RunState α γ) :
    each body (xs ++ ys) s =
      match each body xs s with
      | .ok .onward s' => each body ys s'
      | .ok .stop s' => .ok .stop s'
      | .error culprit s' => .error culprit s' := by
  induction xs generalizing s with
  | nil => rfl
  | cons x xs ih =>
    rw [List.cons_append, each_cons, each_cons]
    rcases body x s with ⟨_ | _, s'⟩ | ⟨culprit, s'⟩
    · exact ih s'
    · rfl
    · rfl

theorem each_append_of_onward {body : α → RunM α γ Flow} {xs : List α} {s s' : RunState α γ}
    (h : each body xs s = .ok .onward s') (ys : List α) :
    each body (xs ++ ys) s = each body ys s' := by
  rw [each_append, h]

/-- Behind the last step the closing action decides. -/
theorem feed_nil :
    feed sink [] x s =
      match (sink s.acc x s.counters.emitted).result with
      | some (acc, flow) =>
        .ok flow { s.afterEmit (sink s.acc x s.counters.emitted).events with acc := acc }
      | none => .error x (s.afterEmit (sink s.acc x s.counters.emitted).events) := by
  change (match (sink s.acc x s.counters.emitted).result with
    | some (acc, flow) => modifyGet fun s => (flow, { s with acc := acc })
    | none => throw x : RunM α γ Flow) (s.afterEmit (sink s.acc x s.counters.emitted).events) = _
  rcases (sink s.acc x s.counters.emitted).result with _ | ⟨_, _⟩ <;> rfl

theorem feed_map (f : Callback α α) (slot : Option Nat) :
    feed sink (.map f slot :: steps) x s =
      match f.answer x (s.counters.index slot) with
      | some y => feed sink steps y (s.afterCall f slot x)
      | none => .error x (s.afterCall f slot x) := by
  change (call f x (s.counters.index slot) >>= fun y => feed sink steps y)
    { s with counters := s.counters.tick slot } = _
  rw [bind_apply, call_apply]
  cases f.answer x (s.counters.index slot) <;> rfl

theorem feed_test (p : Callback α Bool) (slot : Option Nat) :
    feed sink (.test p slot :: steps) x s =
      match p.answer x (s.counters.index slot) with
      | some true => feed sink steps x (s.afterCall p slot x)
      | some false => .ok .onward (s.afterCall p slot x)
      | none => .error x (s.afterCall p slot x) := by
  change (call p x (s.counters.index slot) >>= fun holds =>
      if holds then feed sink steps x else pure .onward)
    { s with counters := s.counters.tick slot } = _
  rw [bind_apply, call_apply]
  rcases p.answer x (s.counters.index slot) with _ | _ | _ <;> rfl

/-- The elements of an expansion go through the rest of the steps one after the other. -/
theorem feed_expand (f : Callback α (List α)) (slot : Option Nat) :
    feed sink (.expand f slot :: steps) x s =
      match f.answer x (s.counters.index slot) with
      | some ys => each (feed sink steps) ys (s.afterCall f slot x)
      | none => .error x (s.afterCall f slot x) := by
  change (call f x (s.counters.index slot) >>= fun ys => each (feed sink steps) ys)
    { s with counters := s.counters.tick slot } = _
  rw [bind_apply, call_apply]
  cases f.answer x (s.counters.index slot) <;> rfl

theorem feed_gate (number : Nat) :
    feed sink (.gate number :: steps) x s =
      match (s.counters.window number).ask.1 with
      | .through => feed sink steps x (s.afterGate number)
      | .dropped => .ok .onward (s.afterGate number)
      | .shut => .ok .stop (s.afterGate number) := by
  change (match (s.counters.window number).ask.1 with
    | .through => feed sink steps x
    | .dropped => pure .onward
    | .shut => pure .stop : RunM α γ Flow) (s.afterGate number) = _
  cases (s.counters.window number).ask.1 <;> rfl

end RunM

end StreamFusion
