import StreamFusion.Proofs.Cursor.Tending

/-!
# Questions that are asked once

What planning gives for a recipe is found out at most once, and so is how a container can be read;
both leave an event behind. Such an event is no part of a run: no move of an intake asks anything
(`Unasked.observes`), and no run does whose closing action only makes calls (`Plan.run_unasked`).
-/

namespace StreamFusion

variable {α γ : Type}

/-- What is found out and then remembered, by the number of the recipe or the source. -/
inductive Question where
  /-- What does planning give for the recipe? -/
  | verdict (recipe : Nat)
  /-- How can the source be read? -/
  | reading (source : Nat)
deriving DecidableEq, Repr

/-- By this event the question was asked. -/
def Event.asks : Question → Event α → Bool
  | .verdict n, .planned recipe => recipe == n
  | .reading n, .probed source => source.serial == n
  | _, _ => false

/-- How often the question was asked. -/
def timesAsked (question : Question) (events : List (Event α)) : Nat :=
  events.countP (Event.asks question)

@[simp] theorem timesAsked_nil (question : Question) :
    timesAsked question ([] : List (Event α)) = 0 := rfl

@[simp] theorem timesAsked_append (question : Question) (first second : List (Event α)) :
    timesAsked question (first ++ second) =
      timesAsked question first + timesAsked question second := List.countP_append

theorem timesAsked_cons (question : Question) (event : Event α) (rest : List (Event α)) :
    timesAsked question (event :: rest) =
      timesAsked question rest + (event.asks question).toNat := by
  unfold timesAsked
  rw [List.countP_cons]
  cases event.asks question <;> rfl

/-- By none of these events something was asked. -/
def Unasked (events : List (Event α)) : Prop :=
  ∀ event ∈ events, ∀ question, event.asks question = false

namespace Unasked

theorem nil : Unasked ([] : List (Event α)) := fun _ hmem => absurd hmem List.not_mem_nil

theorem singleton {event : Event α} (h : ∀ question, event.asks question = false) :
    Unasked [event] := by
  intro other hmem
  rw [List.mem_singleton.1 hmem]
  exact h

theorem append {first second : List (Event α)} (h : Unasked first) (h' : Unasked second) :
    Unasked (first ++ second) := List.forall_mem_append.2 ⟨h, h'⟩

theorem notes (notes : List Note) : Unasked (notes.map (Event.noted (α := α))) := by
  intro event hmem question
  obtain ⟨note, -, rfl⟩ := List.mem_map.1 hmem
  cases question <;> rfl

theorem timesAsked_eq {events : List (Event α)} (h : Unasked events) (question : Question) :
    timesAsked question events = 0 := by
  refine List.countP_eq_zero.2 fun event hmem => ?_
  rw [h event hmem question]
  exact Bool.false_ne_true

/-- Nothing is asked by what moves of intakes do. -/
theorem observes : Observes fun _ (events : List (Event α)) _ => Unasked events where
  nil := fun _ => nil
  append := append
  read := fun _ _ _ => singleton fun question => by cases question <;> rfl
  called := fun _ _ _ _ => singleton fun question => by cases question <;> rfl
  pulled := fun _ _ => singleton fun question => by cases question <;> rfl
  ended := fun _ => singleton fun question => by cases question <;> rfl
  closed := fun _ => singleton fun question => by cases question <;> rfl

end Unasked

theorem Plan.run_unasked (plan : Plan α) {sink : Sink α γ} (hsink : sink.OnlyCalls) (seed : γ)
    (opened : Opened α) : Unasked (plan.run sink seed opened).events :=
  Unasked.observes.run (fun acc x index =>
    Unasked.observes.allowsCalls.of_calls (hsink acc x index)) plan seed opened

end StreamFusion
