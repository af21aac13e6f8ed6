import StreamFusion.Proofs.Pipeline.Sources
import StreamFusion.Proofs.Run.Handing

/-!
# Terminals and the list

Where `toList` gives a list, every terminal gives what the list function of its name gives on that
list (`Pipeline.tells_of_toList`), and calls its callback at the elements up to the deciding one.
Where `toList` is refused, so is every terminal (`Pipeline.refuses_of_toList`).
-/

namespace StreamFusion

variable {α β γ : Type}

/-! ## Runs of one pipeline -/

namespace Plan

variable {plan : Plan α} {opened : Opened α} {sink : Sink α γ} {seed : γ}

theorem conduct_of_ok {stats : Stats} (h : (plan.run sink seed opened).result = .ok stats)
    (w : World α) :
    ∃ w', plan.conduct opened sink seed w = .ok ((plan.run sink seed opened).acc, stats) w'
      ∧ calls w'.journal.events =
        calls w.journal.events ++ calls (plan.run sink seed opened).events := by
  simp only [conduct, h]
  refine ⟨_, rfl, ?_⟩
  show calls ((w.journal.record (plan.run sink seed opened).events).record
    [.noted (.runFinished stats)]).events = _
  rw [Journal.events_record, Journal.events_record, calls_append, calls_append]
  exact List.append_nil _

theorem conduct_of_error {culprit : α} (h : (plan.run sink seed opened).result = .error culprit)
    (w : World α) : ∃ w', plan.conduct opened sink seed w = .error (.failed culprit) w' := by
  simp only [conduct, h]
  exact ⟨_, rfl⟩

/-- Where collecting gives a list, a run with another closing action hands it the list. -/
theorem conduct_closes {w v : World α} {ys : List α} (htotal : sink.Total) (seed : γ)
    (h : (plan.conduct opened .collect [] >>= fun found => pure found.1.reverse) w = .ok ys v) :
    ∃ found w', plan.conduct opened sink seed w = .ok found w'
      ∧ sink.handAll seed 0 ys = some (found.1, found.2.emitted)
      ∧ sink.Beside seed ys (calls v.journal.events) (calls w'.journal.events) := by
  cases hresult : (plan.run .collect [] opened).result with
  | error culprit =>
    obtain ⟨w', hconduct⟩ := conduct_of_error hresult w
    rw [Act.bind_error hconduct] at h
    cases h
  | ok stats =>
    obtain ⟨w₁, hconduct, hcalls⟩ := conduct_of_ok hresult w
    rw [Act.bind_ok hconduct] at h
    cases h
    obtain ⟨stats', hrun, hall, done, hdone, hboth⟩ := plan.run_closes opened htotal seed hresult
    obtain ⟨w', hconduct', hcalls'⟩ := conduct_of_ok hrun w
    refine ⟨_, w', hconduct', hall, calls w.journal.events ++ done, ?_, ?_⟩
    · rw [hcalls]
      exact (List.prefix_append_right_inj _).2 hdone
    · rw [hcalls']
      exact (Interleaved.left_only _).append hboth

end Plan

namespace Pipeline

variable {p : Pipeline α} {w v : World α} {ys : List α}

/-- Where `toList` gives a list, a run of any terminal hands the list to its closing action. Without
a run, the list is empty. -/
theorem runWith?_closes (h : p.toList w = .ok ys v) {sink : Sink α γ} (htotal : sink.Total)
    (seed : γ) :
    ∃ found w', p.runWith? sink seed w = .ok found w'
      ∧ sink.handAll seed 0 ys = some (found.elim (seed, 0) fun found => (found.1, found.2.emitted))
      ∧ sink.Beside seed ys (calls v.journal.events) (calls w'.journal.events) := by
  unfold toList Recipe.collect at h
  unfold runWith?
  cases hclaim : p.claim w with
  | error halt w₁ =>
    rw [Act.bind_error hclaim] at h
    cases h
  | ok _ w₁ =>
    rw [Act.bind_ok hclaim] at h ⊢
    cases hstart : p.recipe.start p.source.opening w₁ with
    | error halt w₂ =>
      rw [Act.bind_error hstart] at h
      cases h
    | ok found w₂ =>
      rw [Act.bind_ok hstart] at h ⊢
      cases found with
      | none =>
        cases h
        exact ⟨none, _, rfl, rfl, _, List.prefix_rfl, Interleaved.left_only _⟩
      | some started =>
        rcases p.recipe.reserve_bind_cases started.1 started.2 _ w₂ with hreserve | ⟨w₃, hreserve⟩
        swap
        · exact absurd (hreserve.symm.trans h) nofun
        obtain ⟨found, w', hconduct, hall, hbeside⟩ :=
          Plan.conduct_closes htotal seed (hreserve.symm.trans h)
        refine ⟨some found, w', ?_, hall, hbeside⟩
        show EStateM.map some (started.1.conduct started.2 sink seed) w₂ = _
        rw [EStateM.map, hconduct]

/-- Where `toList` is refused, the pipeline could not be claimed or not be started: a run that was
begun is not refused any more. -/
theorem refused_cases {refusal : Refusal} (h : p.toList w = .error (.refused refusal) v) :
    p.claim w = .error (.refused refusal) v
      ∨ ∃ w₁, p.claim w = .ok () w₁
        ∧ p.recipe.start p.source.opening w₁ = .error (.refused refusal) v := by
  unfold toList Recipe.collect at h
  cases hclaim : p.claim w with
  | error halt w₁ =>
    rw [Act.bind_error hclaim] at h
    cases h
    exact .inl rfl
  | ok _ w₁ =>
    rw [Act.bind_ok hclaim] at h
    refine .inr ⟨w₁, rfl, ?_⟩
    cases hstart : p.recipe.start p.source.opening w₁ with
    | error halt w₂ =>
      rw [Act.bind_error hstart] at h
      cases h
      rfl
    | ok found w₂ =>
      rw [Act.bind_ok hstart] at h
      cases found with
      | none => cases h
      | some started =>
        rcases p.recipe.reserve_bind_cases started.1 started.2 _ w₂ with hreserve | ⟨w₃, hreserve⟩
        swap
        · exact absurd (hreserve.symm.trans h) (by simp)
        replace h := hreserve.symm.trans h
        cases hresult : (started.1.run .collect [] started.2).result with
        | ok stats =>
          obtain ⟨w', hconduct, -⟩ := Plan.conduct_of_ok hresult w₂
          have hlisted := (Act.bind_ok hconduct).symm.trans h
          cases hlisted
        | error culprit =>
          obtain ⟨w', hconduct⟩ := Plan.conduct_of_error hresult w₂
          have hfailed := (Act.bind_error hconduct).symm.trans h
          cases hfailed

theorem runWith?_refused {refusal : Refusal} (h : p.toList w = .error (.refused refusal) v)
    (sink : Sink α γ) (seed : γ) : p.runWith? sink seed w = .error (.refused refusal) v := by
  unfold runWith?
  rcases refused_cases h with hclaim | ⟨w₁, hclaim, hstart⟩
  · rw [Act.bind_error hclaim]
  · rw [Act.bind_ok hclaim, Act.bind_error hstart]

theorem iterate_refused {refusal : Refusal} (h : p.toList w = .error (.refused refusal) v) :
    p.iterate w = .error (.refused refusal) v := by
  unfold iterate Recipe.openIntake
  rcases refused_cases h with hclaim | ⟨w₁, hclaim, hstart⟩
  · rw [Act.bind_error hclaim]
  · rw [Act.bind_ok hclaim, Act.bind_error hstart]

end Pipeline

/-! ## What every terminal tells -/

/-- With an empty journal, the act gives `y`; it makes the calls `closing`, and between them the
first ones of the calls `own`. -/
def Act.Gives (act : Act α β) (w : World α) (y : β) (own closing : List (Event α)) : Prop :=
  ∃ w', act { w with journal := .empty } = .ok y w'
    ∧ ∃ done, done <+: own ∧ Interleaved done closing (calls w'.journal.events)

/-- With an empty journal, the act is refused for this reason. -/
def Act.IsRefused (act : Act α β) (w : World α) (refusal : Refusal) : Prop :=
  ∃ w', act { w with journal := .empty } = .error (.refused refusal) w'

namespace Pipeline

/-- The terminals of the pipeline tell these elements, as the list functions do; the elements come
with their emitted indices. Collecting them makes the calls `own`. -/
structure Tells (p : Pipeline α) (w : World α) (ys : List α) (own : List (Event α)) : Prop where
  toList : ∃ w', p.toList { w with journal := .empty } = .ok ys w' ∧ calls w'.journal.events = own
  count : p.count.Gives w ys.length own []
  isEmpty : p.isEmpty.Gives w ys.isEmpty own []
  forEach : ∀ {β : Type} {f : Callback α β} {g : α → Nat → β}, f.Computes g →
    (p.forEach f).Gives w (ys.zipIdx.map fun e => (g e.1 e.2, e.2)) own
      (ys.zipIdx.map fun e => f.event e.1 e.2)
  tryForEach : ∀ {fails : Callback α Bool} {holds : α → Nat → Bool}, fails.Computes holds →
    (p.tryForEach fails).Gives w
      ((ys.zipIdx.takeWhile fun e => !holds e.1 e.2).map Prod.fst,
        (ys.zipIdx.find? fun e => holds e.1 e.2).map Prod.fst)
      own ((throughFirst (fun e => holds e.1 e.2) ys.zipIdx).map fun e => fails.event e.1 e.2)
  fold : ∀ {γ : Type} {f : Combiner α γ} {g : γ → α → Nat → γ}, f.Computes g → ∀ seed,
    (p.fold f seed).Gives w (ys.zipIdx.foldl (fun acc e => g acc e.1 e.2) seed) own
      (ys.zipIdx.map fun e => f.event e.1 e.2)
  reduce : ∀ {f : Combiner α α} {g : α → α → Nat → α}, f.Computes g → ∀ x xs, ys = x :: xs →
    (p.reduce f).Gives w ((xs.zipIdx 1).foldl (fun acc e => g acc e.1 e.2) x) own
      ((xs.zipIdx 1).map fun e => f.event e.1 e.2)
  reduce_nil : ∀ {f : Combiner α α} {g : α → α → Nat → α}, f.Computes g → ys = [] →
    (p.reduce f).IsRefused w .emptyReduce
  any : ∀ {test : Callback α Bool} {holds : α → Nat → Bool}, test.Computes holds →
    (p.any test).Gives w (ys.zipIdx.any fun e => holds e.1 e.2) own
      ((throughFirst (fun e => holds e.1 e.2) ys.zipIdx).map fun e => test.event e.1 e.2)
  all : ∀ {test : Callback α Bool} {holds : α → Nat → Bool}, test.Computes holds →
    (p.all test).Gives w (ys.zipIdx.all fun e => holds e.1 e.2) own
      ((throughFirst (fun e => !holds e.1 e.2) ys.zipIdx).map fun e => test.event e.1 e.2)
  find : ∀ {test : Callback α Bool} {holds : α → Nat → Bool}, test.Computes holds →
    (p.find test).Gives w ((ys.zipIdx.find? fun e => holds e.1 e.2).map Prod.fst) own
      ((throughFirst (fun e => holds e.1 e.2) ys.zipIdx).map fun e => test.event e.1 e.2)

/-- Every terminal of the pipeline is refused for this reason, and so is an iterator over it. -/
structure Refuses (p : Pipeline α) (w : World α) (refusal : Refusal) : Prop where
  toList : p.toList.IsRefused w refusal
  count : p.count.IsRefused w refusal
  isEmpty : p.isEmpty.IsRefused w refusal
  forEach : ∀ {β : Type} (f : Callback α β), (p.forEach f).IsRefused w refusal
  tryForEach : ∀ fails, (p.tryForEach fails).IsRefused w refusal
  fold : ∀ {γ : Type} (f : Combiner α γ) seed, (p.fold f seed).IsRefused w refusal
  reduce : ∀ f, (p.reduce f).IsRefused w refusal
  any : ∀ test, (p.any test).IsRefused w refusal
  all : ∀ test, (p.all test).IsRefused w refusal
  find : ∀ test, (p.find test).IsRefused w refusal
  iterate : p.iterate.IsRefused w refusal

end Pipeline

namespace Act

variable {act : Act α β} {next : β → Act α γ} {w : World α}

theorem Gives.bind_pure {y : β} {own closing : List (Event α)} (h : act.Gives w y own closing)
    (f : β → γ) : Act.Gives (act >>= fun y => pure (f y)) w (f y) own closing := by
  obtain ⟨w', hact, hdone⟩ := h
  refine ⟨w', ?_, hdone⟩
  rw [Act.bind_ok hact]
  rfl

theorem IsRefused.bind {refusal : Refusal} (h : act.IsRefused w refusal) (next : β → Act α γ) :
    Act.IsRefused (act >>= next) w refusal := by
  obtain ⟨w', hact⟩ := h
  exact ⟨w', Act.bind_error hact⟩

end Act

namespace Pipeline

variable {p : Pipeline α} {w v : World α} {ys : List α}

section Listed

variable (h : p.toList { w with journal := .empty } = .ok ys v)
include h

theorem runWith_gives {sink : Sink α γ} (htotal : sink.Total) {seed acc : γ} {emitted : Nat}
    (hfinal : sink.handAll seed 0 ys = some (acc, emitted)) :
    (p.runWith sink seed).Gives w acc (calls v.journal.events)
      (calls (sink.handEvents seed 0 ys)) := by
  obtain ⟨found, w', hrun, hall, hbeside⟩ := runWith?_closes h htotal seed
  have hacc := Option.some.inj (hfinal.symm.trans hall)
  refine ⟨w', ?_, hbeside⟩
  unfold runWith
  rw [Act.bind_ok hrun]
  cases found with
  | none =>
    cases hacc
    rfl
  | some found =>
    cases hacc
    rfl

/-- A terminal that asks a callback at one element after the other. -/
theorem runWith_asks {sink : Sink α γ} {event : α → Nat → Event α} {decides : α → Nat → Bool}
    (hasks : sink.Asks event decides) {seed acc : γ} {emitted : Nat}
    (hfinal : sink.handAll seed 0 ys = some (acc, emitted)) :
    (p.runWith sink seed).Gives w acc (calls v.journal.events)
      ((throughFirst (fun e => decides e.1 e.2) ys.zipIdx).map fun e => event e.1 e.2) := by
  rw [← hasks.calls_handEvents seed ys]
  exact runWith_gives h hasks.total hfinal

theorem count_gives : p.count.Gives w ys.length (calls v.journal.events) [] := by
  obtain ⟨found, w', hrun, hall, hbeside⟩ := runWith?_closes h Sink.total_count ()
  rw [Sink.Beside, Sink.handEvents_eq_nil fun _ _ _ => rfl] at hbeside
  rw [Sink.handAll_count, Nat.zero_add] at hall
  refine ⟨w', ?_, hbeside⟩
  unfold count
  rw [Act.bind_ok hrun]
  cases found with
  | none =>
    have hlength : ys.length = 0 := congrArg Prod.snd (Option.some.inj hall)
    rw [hlength]
    rfl
  | some found =>
    have hlength : ys.length = found.2.emitted := congrArg Prod.snd (Option.some.inj hall)
    rw [hlength]
    rfl

theorem isEmpty_gives : p.isEmpty.Gives w ys.isEmpty (calls v.journal.events) [] := by
  obtain ⟨emitted, hfinal⟩ := Sink.handAll_first ys
  have hfirst := runWith_gives h Sink.total_first hfinal
  rw [Sink.handEvents_eq_nil fun _ _ _ => rfl] at hfirst
  have hnot := hfirst.bind_pure (!·)
  rw [Bool.not_not] at hnot
  exact hnot

theorem reduce_gives {f : Combiner α α} {g : α → α → Nat → α} (hf : f.Computes g) (x : α)
    (xs : List α) (hys : ys = x :: xs) :
    (p.reduce f).Gives w ((xs.zipIdx 1).foldl (fun acc e => g acc e.1 e.2) x)
      (calls v.journal.events) ((xs.zipIdx 1).map fun e => f.event e.1 e.2) := by
  subst hys
  -- the first element becomes the accumulator, and nothing is called for it
  have hfirst : (Sink.reduce f none x 0).result = some (some x, .onward) := rfl
  have hfinal : (Sink.reduce f).handAll none 0 (x :: xs) = _ :=
    (Sink.handAll_onward hfirst xs).trans (Sink.handAll_reduce hf x 1 xs)
  have hevents : calls ((Sink.reduce f).handEvents none 0 (x :: xs)) =
      (xs.zipIdx 1).map fun e => f.event e.1 e.2 := by
    rw [Sink.handEvents_onward hfirst, Sink.handEvents_reduce hf]
    exact calls_map (fun _ _ => rfl) _
  obtain ⟨w', hrun, hdone⟩ := runWith_gives h (Sink.total_reduce hf) hfinal
  rw [hevents] at hdone
  refine ⟨w', ?_, hdone⟩
  unfold reduce
  rw [Act.bind_ok hrun]
  rfl

theorem reduce_refused {f : Combiner α α} {g : α → α → Nat → α} (hf : f.Computes g)
    (hys : ys = []) : (p.reduce f).IsRefused w .emptyReduce := by
  subst hys
  have hfinal : (Sink.reduce f).handAll none 0 [] = some (none, 0) := rfl
  obtain ⟨w', hrun, -⟩ := runWith_gives h (Sink.total_reduce hf) hfinal
  refine ⟨w', ?_⟩
  unfold reduce
  rw [Act.bind_ok hrun]
  rfl

end Listed

/-- Where `toList` gives a list, the terminals tell its elements. -/
theorem tells_of_toList (h : p.toList { w with journal := .empty } = .ok ys v) :
    p.Tells w ys (calls v.journal.events) where
  toList := ⟨v, h, rfl⟩
  count := count_gives h
  isEmpty := isEmpty_gives h
  forEach := by
    intro β f g hf
    have hanswers := runWith_asks h (Sink.asks_answers hf) (Sink.handAll_answers hf [] 0 ys)
    rw [throughFirst_false, List.append_nil] at hanswers
    have hreversed := hanswers.bind_pure List.reverse
    rw [List.reverse_reverse] at hreversed
    exact hreversed
  tryForEach := by
    intro fails holds hfails
    obtain ⟨emitted, hfinal⟩ := Sink.handAll_untilFailure hfails [] 0 ys
    have hkept := (runWith_asks h (Sink.asks_untilFailure hfails) hfinal).bind_pure
      fun found => (found.1.reverse, found.2)
    rw [List.append_nil, List.reverse_reverse] at hkept
    exact hkept
  fold := by
    intro γ f g hf seed
    have hfold := runWith_asks h (Sink.asks_fold hf) (Sink.handAll_fold hf seed 0 ys)
    rw [throughFirst_false] at hfold
    exact hfold
  reduce := fun hf x xs hys => reduce_gives h hf x xs hys
  reduce_nil := fun hf hys => reduce_refused h hf hys
  any := fun htest => by
    obtain ⟨emitted, hfinal⟩ := Sink.handAll_any htest 0 ys
    exact runWith_asks h (Sink.asks_any htest) hfinal
  all := fun htest => by
    obtain ⟨emitted, hfinal⟩ := Sink.handAll_all htest 0 ys
    exact runWith_asks h (Sink.asks_all htest) hfinal
  find := fun htest => by
    obtain ⟨emitted, hfinal⟩ := Sink.handAll_find htest 0 ys
    exact runWith_asks h (Sink.asks_find htest) hfinal

/-- Where `toList` is refused, every terminal is refused for the same reason. -/
theorem refuses_of_toList {refusal : Refusal}
    (h : p.toList { w with journal := .empty } = .error (.refused refusal) v) :
    p.Refuses w refusal := by
  have hrun : ∀ {γ : Type} (sink : Sink α γ) (seed : γ),
      (p.runWith? sink seed).IsRefused w refusal :=
    fun sink seed => ⟨v, runWith?_refused h sink seed⟩
  have hwith : ∀ {γ : Type} (sink : Sink α γ) (seed : γ),
      (p.runWith sink seed).IsRefused w refusal :=
    fun sink seed => (hrun sink seed).bind _
  exact {
    toList := ⟨v, h⟩
    count := (hrun _ _).bind _
    isEmpty := (hwith _ _).bind _
    forEach := fun f => (hwith _ _).bind _
    tryForEach := fun fails => (hwith _ _).bind _
    fold := fun f seed => hwith _ _
    reduce := fun f => (hwith _ _).bind _
    any := fun test => hwith _ _
    all := fun test => hwith _ _
    find := fun test => hwith _ _
    iterate := ⟨v, iterate_refused h⟩ }

end Pipeline

end StreamFusion
