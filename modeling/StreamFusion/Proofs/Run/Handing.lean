import StreamFusion.Proofs.Run.Closing

/-!
# Closing actions and list functions

What the closing action of every terminal comes to when it is handed the elements of a list, and
what it calls: the list functions on the elements with their emitted indices. A closing action that
looks for a deciding element calls its callback up to that element (`Sink.Asks.handEvents_eq`).
-/

namespace StreamFusion

variable {α β γ : Type}

/-! ## Callbacks that never fail -/

/-- The callback never fails and computes this function. -/
def Callback.Computes (f : Callback α β) (g : α → Nat → β) : Prop :=
  ∀ x index, f.answer x index = some (g x index)

/-- The combiner never fails and computes this function. -/
def Combiner.Computes (f : Combiner α γ) (g : γ → α → Nat → γ) : Prop :=
  ∀ acc x index, (f.onto acc).answer x index = some (g acc x index)

/-- The event of one call of a combiner. -/
def Combiner.event (f : Combiner α γ) (x : α) (index : Nat) : Event α :=
  .called f.label x (if f.indexed then some index else none)

theorem calls_map {event : α → Nat → Event α} (h : ∀ x index, (event x index).isCall = true)
    (items : List (α × Nat)) :
    calls (items.map fun e => event e.1 e.2) = items.map fun e => event e.1 e.2 := by
  refine List.filter_eq_self.2 fun called hmem => ?_
  obtain ⟨e, -, rfl⟩ := List.mem_map.1 hmem
  exact h e.1 e.2

/-! ## Deciding elements -/

/-- The items up to the first one that decides, and that one. -/
def throughFirst (decides : β → Bool) (items : List β) : List β :=
  items.takeWhile (!decides ·) ++ (items.find? decides).toList

theorem throughFirst_cons (decides : β → Bool) (item : β) (items : List β) :
    throughFirst decides (item :: items) =
      item :: if decides item then [] else throughFirst decides items := by
  unfold throughFirst
  cases hitem : decides item with
  | true => simp [hitem]
  | false => simp [hitem]

theorem throughFirst_false (items : List β) : throughFirst (fun _ => false) items = items := by
  induction items with
  | nil => rfl
  | cons item items ih => rw [throughFirst_cons, ih]; rfl

namespace Sink

/-- The closing action calls a callback at every element that it is handed, and stops at the first
element that decides. -/
structure Asks (sink : Sink α γ) (event : α → Nat → Event α) (decides : α → Nat → Bool) : Prop where
  isCall : ∀ x index, (event x index).isCall = true
  events_eq : ∀ acc x index, (sink acc x index).events = [event x index]
  result_eq : ∀ acc x index, ∃ next,
    (sink acc x index).result = some (next, if decides x index then .stop else .onward)

namespace Asks

variable {sink : Sink α γ} {event : α → Nat → Event α} {decides : α → Nat → Bool}

theorem total (h : sink.Asks event decides) : sink.Total := fun acc x index => by
  obtain ⟨next, hnext⟩ := h.result_eq acc x index
  exact ⟨_, hnext⟩

theorem handEvents_eq (h : sink.Asks event decides) (acc : γ) (emitted : Nat) (xs : List α) :
    sink.handEvents acc emitted xs =
      (throughFirst (fun e => decides e.1 e.2) (xs.zipIdx emitted)).map fun e => event e.1 e.2 := by
  induction xs generalizing acc emitted with
  | nil => rfl
  | cons x xs ih =>
    obtain ⟨next, hnext⟩ := h.result_eq acc x emitted
    rw [List.zipIdx_cons, throughFirst_cons]
    cases hdecides : decides x emitted with
    | true =>
      rw [hdecides, if_pos rfl] at hnext
      rw [handEvents_stop hnext, h.events_eq]
      rfl
    | false =>
      rw [hdecides, if_neg (by simp)] at hnext
      rw [handEvents_onward hnext, h.events_eq, ih]
      rfl

theorem calls_handEvents (h : sink.Asks event decides) (acc : γ) (xs : List α) :
    calls (sink.handEvents acc 0 xs) =
      (throughFirst (fun e => decides e.1 e.2) xs.zipIdx).map fun e => event e.1 e.2 := by
  rw [h.handEvents_eq, calls_map h.isCall]

end Asks

/-! ## Terminals that see every element -/

/-- A closing action that calls nothing. -/
theorem handEvents_eq_nil {sink : Sink α γ} (h : ∀ acc x index, (sink acc x index).events = [])
    (acc : γ) (emitted : Nat) (xs : List α) : sink.handEvents acc emitted xs = [] := by
  induction xs generalizing acc emitted with
  | nil => rfl
  | cons x xs ih =>
    rw [handEvents, h, List.nil_append]
    rcases (sink acc x emitted).result with _ | ⟨next, _ | _⟩
    · rfl
    · exact ih next (emitted + 1)
    · rfl

theorem total_count : (count : Sink α Unit).Total := fun _ _ _ => ⟨_, rfl⟩

theorem handAll_count (emitted : Nat) (xs : List α) :
    (count : Sink α Unit).handAll () emitted xs = some ((), emitted + xs.length) := by
  induction xs generalizing emitted with
  | nil => rfl
  | cons x xs ih =>
    rw [handAll_onward rfl, ih, List.length_cons, Nat.add_assoc, Nat.add_comm 1]

section

variable {f : Callback α β} {g : α → Nat → β}

theorem asks_answers (h : f.Computes g) : (answers f).Asks f.event fun _ _ => false where
  isCall := fun _ _ => rfl
  events_eq := fun _ _ _ => rfl
  result_eq := fun acc x index => ⟨_, by rw [answers, Closing.ofCall, h]; rfl⟩

theorem handAll_answers (h : f.Computes g) (acc : List (β × Nat)) (emitted : Nat) (xs : List α) :
    (answers f).handAll acc emitted xs =
      some (((xs.zipIdx emitted).map fun e => (g e.1 e.2, e.2)).reverse ++ acc,
        emitted + xs.length) := by
  induction xs generalizing acc emitted with
  | nil => rfl
  | cons x xs ih =>
    have hresult : (answers f acc x emitted).result =
        some ((g x emitted, emitted) :: acc, .onward) := by
      rw [answers, Closing.ofCall, h]
      rfl
    rw [handAll_onward hresult, ih, List.zipIdx_cons, List.map_cons, List.reverse_cons,
      List.append_assoc, List.singleton_append, List.length_cons, Nat.add_assoc, Nat.add_comm 1]

end

section

variable {f : Combiner α γ} {g : γ → α → Nat → γ}

theorem asks_fold (h : f.Computes g) : (fold f).Asks f.event fun _ _ => false where
  isCall := fun _ _ => rfl
  events_eq := fun _ _ _ => rfl
  result_eq := fun acc x index => ⟨_, by rw [fold, Closing.ofCall, h]; rfl⟩

theorem handAll_fold (h : f.Computes g) (acc : γ) (emitted : Nat) (xs : List α) :
    (fold f).handAll acc emitted xs =
      some ((xs.zipIdx emitted).foldl (fun acc e => g acc e.1 e.2) acc, emitted + xs.length) := by
  induction xs generalizing acc emitted with
  | nil => rfl
  | cons x xs ih =>
    have hresult : (fold f acc x emitted).result = some (g acc x emitted, .onward) := by
      rw [fold, Closing.ofCall, h]
      rfl
    rw [handAll_onward hresult, ih, List.zipIdx_cons, List.foldl_cons, List.length_cons,
      Nat.add_assoc, Nat.add_comm 1]

end

section

variable {f : Combiner α α} {g : α → α → Nat → α}

theorem total_reduce (h : f.Computes g) : (reduce f).Total := by
  intro acc x index
  cases acc with
  | none => exact ⟨_, rfl⟩
  | some acc => exact ⟨_, by rw [reduce, Closing.ofCall, h]; rfl⟩

/-- Behind the first element, reducing is folding. -/
theorem handAll_reduce (h : f.Computes g) (acc : α) (emitted : Nat) (xs : List α) :
    (reduce f).handAll (some acc) emitted xs =
      some (some ((xs.zipIdx emitted).foldl (fun acc e => g acc e.1 e.2) acc),
        emitted + xs.length) := by
  induction xs generalizing acc emitted with
  | nil => rfl
  | cons x xs ih =>
    have hresult : (reduce f (some acc) x emitted).result =
        some (some (g acc x emitted), .onward) := by
      rw [reduce, Closing.ofCall, h]
      rfl
    rw [handAll_onward hresult, ih, List.zipIdx_cons, List.foldl_cons, List.length_cons,
      Nat.add_assoc, Nat.add_comm 1]

theorem handEvents_reduce (h : f.Computes g) (acc : α) (emitted : Nat) (xs : List α) :
    (reduce f).handEvents (some acc) emitted xs =
      (xs.zipIdx emitted).map fun e => f.event e.1 e.2 := by
  induction xs generalizing acc emitted with
  | nil => rfl
  | cons x xs ih =>
    have hresult : (reduce f (some acc) x emitted).result =
        some (some (g acc x emitted), .onward) := by
      rw [reduce, Closing.ofCall, h]
      rfl
    rw [handEvents_onward hresult, ih]
    rfl

end

/-! ## Terminals that stop at a deciding element -/

theorem total_first : (first : Sink α Bool).Total := fun _ _ _ => ⟨_, rfl⟩

theorem handAll_first (xs : List α) :
    ∃ emitted, (first : Sink α Bool).handAll false 0 xs = some (!xs.isEmpty, emitted) := by
  cases xs with
  | nil => exact ⟨_, rfl⟩
  | cons x xs => exact ⟨_, handAll_stop rfl xs⟩

section

variable {test : Callback α Bool} {holds : α → Nat → Bool}

theorem asks_any (h : test.Computes holds) : (any test).Asks test.event holds where
  isCall := fun _ _ => rfl
  events_eq := fun _ _ _ => rfl
  result_eq := fun acc x index => by
    rw [any, Closing.ofCall, h]
    cases holds x index <;> exact ⟨_, rfl⟩

theorem asks_all (h : test.Computes holds) :
    (all test).Asks test.event fun x index => !holds x index where
  isCall := fun _ _ => rfl
  events_eq := fun _ _ _ => rfl
  result_eq := fun acc x index => by
    rw [all, Closing.ofCall, h]
    cases holds x index <;> exact ⟨_, rfl⟩

theorem asks_find (h : test.Computes holds) : (find test).Asks test.event holds where
  isCall := fun _ _ => rfl
  events_eq := fun _ _ _ => rfl
  result_eq := fun acc x index => by
    rw [find, Closing.ofCall, h]
    cases holds x index <;> exact ⟨_, rfl⟩

theorem asks_untilFailure (h : test.Computes holds) :
    (untilFailure test).Asks test.event holds where
  isCall := fun _ _ => rfl
  events_eq := fun _ _ _ => rfl
  result_eq := fun acc x index => by
    rw [untilFailure, Closing.ofCall, h]
    cases holds x index <;> exact ⟨_, rfl⟩

theorem handAll_any (h : test.Computes holds) (emitted : Nat) (xs : List α) :
    ∃ later, (any test).handAll false emitted xs =
      some ((xs.zipIdx emitted).any fun e => holds e.1 e.2, later) := by
  induction xs generalizing emitted with
  | nil => exact ⟨_, rfl⟩
  | cons x xs ih =>
    rw [List.zipIdx_cons, List.any_cons]
    cases hx : holds x emitted with
    | true => exact ⟨_, handAll_stop (by rw [any, Closing.ofCall, h, hx]; rfl) xs⟩
    | false =>
      have hresult : (any test false x emitted).result = some (false, .onward) := by
        rw [any, Closing.ofCall, h, hx]
        rfl
      rw [handAll_onward hresult]
      exact ih (emitted + 1)

theorem handAll_all (h : test.Computes holds) (emitted : Nat) (xs : List α) :
    ∃ later, (all test).handAll true emitted xs =
      some ((xs.zipIdx emitted).all fun e => holds e.1 e.2, later) := by
  induction xs generalizing emitted with
  | nil => exact ⟨_, rfl⟩
  | cons x xs ih =>
    rw [List.zipIdx_cons, List.all_cons]
    cases hx : holds x emitted with
    | true =>
      have hresult : (all test true x emitted).result = some (true, .onward) := by
        rw [all, Closing.ofCall, h, hx]
        rfl
      rw [handAll_onward hresult]
      exact ih (emitted + 1)
    | false => exact ⟨_, handAll_stop (by rw [all, Closing.ofCall, h, hx]; rfl) xs⟩

theorem handAll_find (h : test.Computes holds) (emitted : Nat) (xs : List α) :
    ∃ later, (find test).handAll none emitted xs =
      some (((xs.zipIdx emitted).find? fun e => holds e.1 e.2).map Prod.fst, later) := by
  induction xs generalizing emitted with
  | nil => exact ⟨_, rfl⟩
  | cons x xs ih =>
    rw [List.zipIdx_cons, List.find?_cons]
    cases hx : holds x emitted with
    | true => exact ⟨_, handAll_stop (by rw [find, Closing.ofCall, h, hx]; rfl) xs⟩
    | false =>
      have hresult : (find test none x emitted).result = some (none, .onward) := by
        rw [find, Closing.ofCall, h, hx]
        rfl
      rw [handAll_onward hresult]
      exact ih (emitted + 1)

theorem handAll_untilFailure (h : test.Computes holds) (kept : List α) (emitted : Nat)
    (xs : List α) :
    ∃ later, (untilFailure test).handAll (kept, none) emitted xs =
      some (((((xs.zipIdx emitted).takeWhile fun e => !holds e.1 e.2).map Prod.fst).reverse ++ kept,
        ((xs.zipIdx emitted).find? fun e => holds e.1 e.2).map Prod.fst), later) := by
  induction xs generalizing kept emitted with
  | nil => exact ⟨_, rfl⟩
  | cons x xs ih =>
    rw [List.zipIdx_cons, List.find?_cons, List.takeWhile_cons]
    cases hx : holds x emitted with
    | true => exact ⟨_, handAll_stop (by rw [untilFailure, Closing.ofCall, h, hx]; rfl) xs⟩
    | false =>
      have hresult : (untilFailure test (kept, none) x emitted).result =
          some ((x :: kept, none), .onward) := by
        rw [untilFailure, Closing.ofCall, h, hx]
        rfl
      obtain ⟨later, hlater⟩ := ih (x :: kept) (emitted + 1)
      refine ⟨later, ?_⟩
      rw [handAll_onward hresult, hlater]
      simp

end

end Sink

end StreamFusion
