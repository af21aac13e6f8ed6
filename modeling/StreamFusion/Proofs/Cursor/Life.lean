import StreamFusion.Event
import Mathlib.Data.List.Induction

/-!
# The life of a cursor

A cursor is opened, pulled any number of times, and at last finds its end or is closed, unless it is
dropped without being told. How far it has come can be read off the events that happened to it, one
after the other; an event that must not happen at a stage leads nowhere (`CursorStage.after`). The
events that lead from the first stage to another have the form that `CursorStage.History` gives for
that stage.
-/

namespace StreamFusion

variable {α : Type}

/-- The cursor to which an event happens. -/
def Event.cursor? : Event α → Option Ident
  | .opened c | .taken c | .pulled c _ | .ended c | .closed c | .dropped c => some c
  | .probed _ | .read _ _ | .called _ _ _ | .planned _ | .noted _ => none

/-- The events that happen to one cursor. -/
def ofCursor (c : Ident) (events : List (Event α)) : List (Event α) :=
  events.filter fun event => event.cursor? == some c

@[simp] theorem ofCursor_nil (c : Ident) : ofCursor c ([] : List (Event α)) = [] := rfl

@[simp] theorem ofCursor_append (c : Ident) (first second : List (Event α)) :
    ofCursor c (first ++ second) = ofCursor c first ++ ofCursor c second :=
  List.filter_append ..

theorem ofCursor_singleton {c : Ident} {event : Event α} (h : event.cursor? = some c) :
    ofCursor c [event] = [event] := by
  simp [ofCursor, h]

theorem ofCursor_singleton_of_ne {c : Ident} {event : Event α} (h : event.cursor? ≠ some c) :
    ofCursor c [event] = [] := by
  simp [ofCursor, h]

/-- Nothing of this happens to a cursor. -/
def Silent (events : List (Event α)) : Prop := ∀ event ∈ events, event.cursor? = none

theorem Silent.nil : Silent ([] : List (Event α)) := nofun

theorem Silent.singleton {event : Event α} (h : event.cursor? = none) : Silent [event] := by
  intro other hmem
  rw [List.mem_singleton.1 hmem]
  exact h

theorem Silent.append {first second : List (Event α)} (h : Silent first) (h' : Silent second) :
    Silent (first ++ second) := List.forall_mem_append.2 ⟨h, h'⟩

/-- The event belongs to planning: operations were planned, or a note was written to the log. -/
def Event.IsPlanning : Event α → Prop
  | .planned _ | .noted _ => True
  | _ => False

/-- The event is the call of a callback. -/
def Event.IsCall : Event α → Prop
  | .called .. => True
  | _ => False

theorem Silent.of_planning {events : List (Event α)} (h : ∀ event ∈ events, event.IsPlanning) :
    Silent events := by
  intro event hmem
  cases event with
  | planned serial => rfl
  | noted note => rfl
  | _ => exact (h _ hmem).elim

theorem Silent.ofCursor {events : List (Event α)} (h : Silent events) (c : Ident) :
    ofCursor c events = [] := by
  refine List.filter_eq_nil_iff.2 fun event hmem => ?_
  rw [h event hmem]
  simp

/-- The same happens to every cursor. -/
def SameCursors (events other : List (Event α)) : Prop := ∀ c, ofCursor c events = ofCursor c other

namespace SameCursors

variable {events other later more : List (Event α)}

theorem refl (events : List (Event α)) : SameCursors events events := fun _ => rfl

theorem symm (h : SameCursors events other) : SameCursors other events := fun c => (h c).symm

theorem trans (h : SameCursors events other) (h' : SameCursors other later) :
    SameCursors events later := fun c => (h c).trans (h' c)

theorem append (h : SameCursors events other) (h' : SameCursors later more) :
    SameCursors (events ++ later) (other ++ more) := by
  intro c
  rw [ofCursor_append, ofCursor_append, h c, h' c]

/-- What happens last on both sides tells nothing. -/
theorem of_append (h : SameCursors (events ++ later) (other ++ later)) :
    SameCursors events other := by
  intro c
  have hc := h c
  rw [ofCursor_append, ofCursor_append] at hc
  exact List.append_cancel_right hc

/-- Nothing more happens on the left side. -/
theorem append_silent_left (h : SameCursors events other) (h' : Silent later) :
    SameCursors (events ++ later) other := by
  intro c
  rw [ofCursor_append, h'.ofCursor c, List.append_nil, h c]

/-- Nothing more happens on the right side. -/
theorem append_silent_right (h : SameCursors events other) (h' : Silent more) :
    SameCursors events (other ++ more) := by
  intro c
  rw [ofCursor_append, h'.ofCursor c, List.append_nil, h c]

end SameCursors

/-- How far the life of a cursor has come. -/
inductive CursorStage where
  | unopened
  | underway
  /-- The cursor found its end or was closed. -/
  | gone
  /-- The cursor was dropped without being told. -/
  | lost
deriving DecidableEq, Repr

namespace CursorStage

/-- The stage after one more event of the cursor, if the event may happen at this stage. -/
def after (stage : CursorStage) (event : Event α) : Option CursorStage :=
  match event, stage with
  | .opened _, .unopened | .taken _, .unopened => some .underway
  | .pulled _ _, .underway => some .underway
  | .ended _, .underway | .closed _, .underway => some .gone
  | .dropped _, .underway => some .lost
  | _, _ => none

/-- The stage of a cursor after all these events. -/
def afterAll (c : Ident) (stage : CursorStage) (events : List (Event α)) : Option CursorStage :=
  (ofCursor c events).foldlM after stage

theorem afterAll_append (c : Ident) (stage : CursorStage) (first second : List (Event α)) :
    stage.afterAll c (first ++ second) =
      (stage.afterAll c first).bind fun later => later.afterAll c second := by
  rw [afterAll, ofCursor_append, List.foldlM_append]
  rfl

theorem afterAll_of_ofCursor_eq_nil {c : Ident} {events : List (Event α)}
    (h : ofCursor c events = []) (stage : CursorStage) :
    stage.afterAll c events = some stage := by
  rw [afterAll, h]
  rfl

theorem afterAll_singleton {c : Ident} {event : Event α} (h : event.cursor? = some c)
    (stage : CursorStage) : stage.afterAll c [event] = stage.after event := by
  rw [afterAll, ofCursor_singleton h, List.foldlM_cons]
  cases stage.after event <;> rfl

/-- Nothing happens to a cursor any more that is gone or lost. -/
theorem ofCursor_eq_nil_of_over {c : Ident} {events : List (Event α)} {stage later : CursorStage}
    (hover : stage = .gone ∨ stage = .lost) (h : stage.afterAll c events = some later) :
    ofCursor c events = [] := by
  unfold afterAll at h
  cases hown : ofCursor c events with
  | nil => rfl
  | cons event own =>
    rw [hown, List.foldlM_cons] at h
    rcases hover with rfl | rfl <;> cases event <;> exact absurd h nofun

theorem eq_of_over {c : Ident} {events : List (Event α)} {stage later : CursorStage}
    (hover : stage = .gone ∨ stage = .lost) (h : stage.afterAll c events = some later) :
    later = stage := by
  rw [afterAll_of_ofCursor_eq_nil (ofCursor_eq_nil_of_over hover h)] at h
  exact (Option.some.inj h).symm

/-- What happened to a cursor that has come to this stage: nothing; it was opened and then pulled;
it was opened, then pulled, and found its end or was closed; or it was dropped in place of that. -/
def History (c : Ident) (own : List (Event α)) : CursorStage → Prop
  | .unopened => own = []
  | .underway => ∃ (opening : Event α) (elements : List α),
      (opening = .opened c ∨ opening = .taken c) ∧ own = opening :: elements.map (.pulled c)
  | .gone => ∃ (opening : Event α) (elements : List α) (final : Event α),
      (opening = .opened c ∨ opening = .taken c) ∧ (final = .ended c ∨ final = .closed c)
      ∧ own = opening :: elements.map (.pulled c) ++ [final]
  | .lost => ∃ (opening : Event α) (elements : List α),
      (opening = .opened c ∨ opening = .taken c)
      ∧ own = opening :: elements.map (.pulled c) ++ [.dropped c]

/-- One more event of the cursor adds to its history. -/
theorem History.concat {c : Ident} {own : List (Event α)} {stage later : CursorStage}
    {event : Event α} (h : stage.History c own) (hevent : event.cursor? = some c)
    (hafter : stage.after event = some later) : later.History c (own ++ [event]) := by
  cases stage with
  | unopened =>
    have hnone : own = [] := h
    subst hnone
    cases event <;> cases hafter <;> cases hevent
    · exact ⟨_, [], .inl rfl, rfl⟩
    · exact ⟨_, [], .inr rfl, rfl⟩
  | underway =>
    obtain ⟨opening, elements, hopening, rfl⟩ := h
    cases event <;> cases hafter <;> cases hevent
    · rename_i x
      exact ⟨opening, elements ++ [x], hopening, by rw [List.map_append]; rfl⟩
    · exact ⟨opening, elements, _, hopening, .inl rfl, rfl⟩
    · exact ⟨opening, elements, _, hopening, .inr rfl, rfl⟩
    · exact ⟨opening, elements, hopening, rfl⟩
  | gone => cases event <;> cases hafter
  | lost => cases event <;> cases hafter

/-- The events of a cursor have the form that its stage asks for. -/
theorem history_of_afterAll {c : Ident} {events : List (Event α)} {stage : CursorStage}
    (h : CursorStage.unopened.afterAll c events = some stage) :
    stage.History c (ofCursor c events) := by
  induction events using List.reverseRecOn generalizing stage with
  | nil =>
    cases h
    exact rfl
  | append_singleton events event ih =>
    obtain ⟨before, hbefore, hafter⟩ :=
      Option.bind_eq_some_iff.1 ((afterAll_append c .unopened events [event]).symm.trans h)
    rw [ofCursor_append]
    by_cases hevent : event.cursor? = some c
    · rw [afterAll_singleton hevent] at hafter
      rw [ofCursor_singleton hevent]
      exact (ih hbefore).concat hevent hafter
    · have hnone : ofCursor c [event] = [] := ofCursor_singleton_of_ne hevent
      rw [afterAll_of_ofCursor_eq_nil hnone] at hafter
      cases hafter
      rw [hnone, List.append_nil]
      exact ih hbefore

end CursorStage

end StreamFusion
