import StreamFusion.Proofs.Cursor.Tending
import StreamFusion.Proofs.Pipeline.Memory
import StreamFusion.Proofs.Run.Agreement
import StreamFusion.Session.Basic

/-!
# Terminals side by side

Two pipelines answer alike whatever terminal is run if they begin alike: if runs over what was
started come to the same, with any closing action (`Session.runTerminal_together`). To collect, both
also have to find room, or neither of them. The worlds in which they do so go together by a relation
that the events of such runs respect.
-/

namespace StreamFusion

variable {α β γ δ ε : Type}

namespace Act

/-- Two acts end together, in worlds that `W` relates: with results that `R` relates, or for the
same reason without a result. -/
inductive EndTogether (W : World α → World α → Prop) (R : β → γ → Prop) :
    EStateM.Result (Halt α) (World α) β → EStateM.Result (Halt α) (World α) γ → Prop where
  | ok {y : β} {z : γ} {w w' : World α} (h : R y z) (hw : W w w') :
      EndTogether W R (.ok y w) (.ok z w')
  | error (halt : Halt α) {w w' : World α} (hw : W w w') :
      EndTogether W R (.error halt w) (.error halt w')

theorem EndTogether.swap {W : World α → World α → Prop} {R : β → γ → Prop}
    {result : EStateM.Result (Halt α) (World α) β} {other : EStateM.Result (Halt α) (World α) γ}
    (h : EndTogether W R result other) :
    EndTogether (fun w w' => W w' w) (fun z y => R y z) other result := by
  cases h with
  | ok h hw => exact .ok h hw
  | error halt hw => exact .error halt hw

/-- Less is said of the results. -/
theorem EndTogether.imp {W : World α → World α → Prop} {R R' : β → γ → Prop}
    {result : EStateM.Result (Halt α) (World α) β} {other : EStateM.Result (Halt α) (World α) γ}
    (h : EndTogether W R result other) (hR : ∀ y z, R y z → R' y z) :
    EndTogether W R' result other := by
  cases h with
  | ok h hw => exact .ok (hR _ _ h) hw
  | error halt hw => exact .error halt hw

/-- From worlds that `W` relates the two acts end together. -/
def Together (W : World α → World α → Prop) (R : β → γ → Prop) (act : Act α β)
    (other : Act α γ) : Prop :=
  ∀ w w', W w w' → EndTogether W R (act w) (other w')

variable {W : World α → World α → Prop} {R : β → γ → Prop} {S : δ → ε → Prop} {act : Act α β}
  {other : Act α γ} {next : β → Act α δ} {next' : γ → Act α ε}

theorem EndTogether.bind {w w' : World α} (h : EndTogether W R (act w) (other w'))
    (hnext : ∀ y z, R y z → Together W S (next y) (next' z)) :
    EndTogether W S ((act >>= next) w) ((other >>= next') w') := by
  show EndTogether W S (EStateM.bind act next w) (EStateM.bind other next' w')
  rw [EStateM.bind, EStateM.bind]
  generalize act w = result at h ⊢
  generalize other w' = result' at h ⊢
  cases h with
  | ok h hv => exact hnext _ _ h _ _ hv
  | error halt hv => exact .error halt hv

namespace Together

theorem bind (h : Together W R act other)
    (hnext : ∀ y z, R y z → Together W S (next y) (next' z)) :
    Together W S (act >>= next) (other >>= next') := fun w w' hw => (h w w' hw).bind hnext

theorem pure {y : β} {z : γ} (h : R y z) : Together W R (Pure.pure y) (Pure.pure z) :=
  fun _ _ hw => .ok h hw

theorem fail (halt : Halt α) : Together W R (throw halt) (throw halt) :=
  fun _ _ hw => .error halt hw

end Together

/-- Gives an answer, or refuses to. -/
def ofAnswer : Except Refusal β → Act α β
  | .ok y => pure y
  | .error refusal => refuse refusal

end Act

/-- `W` goes on to relate worlds in which events were noted that `N` relates. -/
structure World.Admits (W : World α → World α → Prop)
    (N : List (Event α) → List (Event α) → Prop) : Prop where
  record : ∀ {w w' events other}, W w w' → N events other →
    W { w with journal := w.journal.record events } { w' with journal := w'.journal.record other }
  append_silent : ∀ {events other later more}, N events other → Silent later → Silent more →
    N (events ++ later) (other ++ more)

/-- Whatever events are noted, nothing is said of the worlds. -/
theorem World.admits_anything :
    World.Admits (fun _ _ : World α => True) fun _ _ => True :=
  ⟨fun _ _ => trivial, fun _ _ _ => trivial⟩

/-! ## What was started -/

/-- What a run comes to over what was started. There is no run where the plan lets nothing pass. -/
def startedFinish (sink : Sink α γ) (seed : γ) : Option (Plan α × Opened α) → Finish α γ
  | some started => started.1.run sink seed started.2
  | none => ⟨seed, [], .ok ⟨0, 0, 0, false⟩⟩

/-- The act that runs what was started. -/
def conductStarted (sink : Sink α γ) (seed : γ) :
    Option (Plan α × Opened α) → Act α (Option (γ × Stats))
  | some started => some <$> started.1.conduct started.2 sink seed
  | none => pure none

/-- What terminals get to know of a run: the accumulator, and how many elements were handed out. -/
def outcome (seed : γ) (found : Option (γ × Stats)) : γ × Nat :=
  found.elim (seed, 0) fun found => (found.1, found.2.emitted)

/-- Whatever the closing action is, runs over what was started come to the same, and what happens
meanwhile is related by `N`. -/
def StartedAlike (N : List (Event α) → List (Event α) → Prop)
    (started other : Option (Plan α × Opened α)) : Prop :=
  ∀ (γ : Type) (sink : Sink α γ), sink.Silent → ∀ seed,
    (startedFinish sink seed started).SameTo (startedFinish sink seed other)
      ∧ N (startedFinish sink seed started).events (startedFinish sink seed other).events

section Conducting

variable {sink : Sink α γ} {seed : γ} {started : Option (Plan α × Opened α)}

theorem conductStarted_ok {stats : Stats} (h : (startedFinish sink seed started).result = .ok stats)
    (w : World α) :
    ∃ found notes, conductStarted sink seed started w = .ok found { w with
          journal := w.journal.record ((startedFinish sink seed started).events ++ notes) }
      ∧ outcome seed found = ((startedFinish sink seed started).acc, stats.emitted)
      ∧ ∀ event ∈ notes, event.IsPlanning := by
  cases started with
  | none =>
    cases h
    exact ⟨none, [], rfl, rfl, nofun⟩
  | some started =>
    change (started.1.run sink seed started.2).result = .ok stats at h
    refine ⟨some ((started.1.run sink seed started.2).acc, stats), [.noted (.runFinished stats)],
      ?_, rfl, List.forall_mem_singleton.2 trivial⟩
    have hconduct : started.1.conduct started.2 sink seed w =
        .ok ((started.1.run sink seed started.2).acc, stats) { w with
          journal := w.journal.record ((started.1.run sink seed started.2).events ++
            [.noted (.runFinished stats)]) } := by
      simp only [Plan.conduct, h, Journal.record_append]
      rfl
    show EStateM.map some (started.1.conduct started.2 sink seed) w = _
    rw [EStateM.map, hconduct]
    rfl

theorem conductStarted_error {culprit : α}
    (h : (startedFinish sink seed started).result = .error culprit) (w : World α) :
    conductStarted sink seed started w = .error (.failed culprit) { w with
      journal := w.journal.record (startedFinish sink seed started).events } := by
  cases started with
  | none => cases h
  | some started =>
    change (started.1.run sink seed started.2).result = .error culprit at h
    have hconduct : started.1.conduct started.2 sink seed w = .error (.failed culprit) { w with
        journal := w.journal.record (started.1.run sink seed started.2).events } := by
      simp only [Plan.conduct, h]
      rfl
    show EStateM.map some (started.1.conduct started.2 sink seed) w = _
    rw [EStateM.map, hconduct]
    rfl

variable {W : World α → World α → Prop} {N : List (Event α) → List (Event α) → Prop}

/-- Runs that come to the same have the same outcome. -/
theorem StartedAlike.conduct (hW : World.Admits W N) {other : Option (Plan α × Opened α)}
    (h : StartedAlike N started other) (hsink : sink.Silent) (seed : γ) :
    Act.Together W (fun found found' => outcome seed found = outcome seed found')
      (conductStarted sink seed started) (conductStarted sink seed other) := by
  intro w w' hw
  obtain ⟨⟨hacc, hresult⟩, hevents⟩ := h γ sink hsink seed
  cases hended : (startedFinish sink seed started).result with
  | error culprit =>
    cases hended' : (startedFinish sink seed other).result with
    | ok stats' =>
      rw [hended, hended'] at hresult
      cases hresult
    | error culprit' =>
      rw [hended, hended'] at hresult
      cases hresult
      rw [conductStarted_error hended, conductStarted_error hended']
      exact .error _ (hW.record hw hevents)
  | ok stats =>
    cases hended' : (startedFinish sink seed other).result with
    | error culprit' =>
      rw [hended, hended'] at hresult
      cases hresult
    | ok stats' =>
      rw [hended, hended'] at hresult
      obtain ⟨found, notes, hconduct, houtcome, hnotes⟩ := conductStarted_ok hended w
      obtain ⟨found', notes', hconduct', houtcome', hnotes'⟩ := conductStarted_ok hended' w'
      rw [hconduct, hconduct']
      refine .ok ?_ (hW.record hw (hW.append_silent hevents (.of_planning hnotes)
        (.of_planning hnotes')))
      rw [houtcome, houtcome', hacc, Except.ok.inj hresult]

end Conducting

/-! ## Room for what was started -/

/-- What happens as what was started is let go without a run. -/
def startedDiscard : Option (Plan α × Opened α) → List (Event α)
  | some started => started.2.discard
  | none => []

namespace Recipe

/-- There is room for as many results as the plan of what was started hints at. -/
def RoomFor (recipe : Recipe α) : Option (Plan α × Opened α) → Prop
  | some started => recipe.HasRoom (started.1.capacityHint started.2.lengthHint)
  | none => True

/-- Makes room for the results of what was started. -/
def reserveStarted (recipe : Recipe α) : Option (Plan α × Opened α) → Act α Unit
  | some started => recipe.reserve started.1 started.2
  | none => pure ()

variable {recipe : Recipe α} {started : Option (Plan α × Opened α)}

theorem reserveStarted_of_roomFor (h : recipe.RoomFor started) :
    recipe.reserveStarted started = pure () := by
  cases started with
  | none => rfl
  | some started => exact reserve_of_hasRoom h

theorem reserveStarted_of_not_roomFor (h : ¬ recipe.RoomFor started) :
    recipe.reserveStarted started =
      (do Act.record (startedDiscard started); throw .noRoom) := by
  cases started with
  | none => exact absurd trivial h
  | some started => exact reserve_of_not_hasRoom h

/-- What was started with the plan of a recipe, where so much is known of the length of the
source. -/
def StartedWith (recipe : Recipe α) (hint : Option Nat) : Option (Plan α × Opened α) → Prop
  | some started => recipe.verdict = .ok started.1 ∧ started.2.lengthHint = hint
  | none => ∃ plan, recipe.verdict = .ok plan ∧ plan.never = true

/-- Whether there is room can be told from the recipe and from what is known of the source. -/
theorem StartedWith.roomFor_iff {hint : Option Nat} (h : recipe.StartedWith hint started) :
    recipe.RoomFor started ↔ ¬ recipe.Overflows hint := by
  cases started with
  | some started =>
    obtain ⟨hplan, hhint⟩ := h
    rw [overflows_iff hplan, not_not, ← hhint]
    rfl
  | none =>
    obtain ⟨plan, hplan, hnever⟩ := h
    rw [overflows_iff hplan, not_not]
    exact ⟨fun _ => hasRoom_of_never hplan hnever, fun _ => trivial⟩

/-- A recipe collects by a run of its own, once there is room. -/
theorem collect_eq_conduct (recipe : Recipe α) (opening : Act α (Opened α)) :
    recipe.collect opening = recipe.start opening >>= fun started =>
      recipe.reserveStarted started >>= fun _ =>
        conductStarted .collect [] started >>= fun found => pure (outcome [] found).1.reverse := by
  refine congrArg (recipe.start opening >>= ·) (funext fun started => ?_)
  cases started with
  | none => rfl
  | some started =>
    refine congrArg (recipe.reserve started.1 started.2 >>= ·) (funext fun _ => ?_)
    rw [conductStarted, bind_map_left]
    rfl

end Recipe

/-- There is room for both, or for neither of them, and then `N` relates what happens as they are
let go. -/
def SameRoom (N : List (Event α) → List (Event α) → Prop) (recipe recipe' : Recipe α)
    (started other : Option (Plan α × Opened α)) : Prop :=
  recipe.RoomFor started ∧ recipe'.RoomFor other
    ∨ ¬ recipe.RoomFor started ∧ ¬ recipe'.RoomFor other
      ∧ N (startedDiscard started) (startedDiscard other)

theorem SameRoom.reserve {W : World α → World α → Prop}
    {N : List (Event α) → List (Event α) → Prop} (hW : World.Admits W N)
    {recipe recipe' : Recipe α} {started other : Option (Plan α × Opened α)}
    (h : SameRoom N recipe recipe' started other) :
    Act.Together W Eq (recipe.reserveStarted started) (recipe'.reserveStarted other) := by
  rcases h with ⟨hroom, hroom'⟩ | ⟨hroom, hroom', hdiscards⟩
  · rw [Recipe.reserveStarted_of_roomFor hroom, Recipe.reserveStarted_of_roomFor hroom']
    exact .pure rfl
  · rw [Recipe.reserveStarted_of_not_roomFor hroom, Recipe.reserveStarted_of_not_roomFor hroom']
    exact fun w w' hw => .error .noRoom (hW.record hw hdiscards)

/-- The results of what was started, pulled one by one. -/
def startedIntake : Option (Plan α × Opened α) → Intake α
  | some started => started.1.intake started.2
  | none => Plan.nothing.intake (.owned [])

theorem Recipe.openIntake_eq (recipe : Recipe α) (opening : Act α (Opened α)) :
    recipe.openIntake opening = startedIntake <$> recipe.start opening := by
  rw [openIntake, map_eq_pure_bind]
  refine congrArg (recipe.start opening >>= ·) (funext fun started => ?_)
  cases started <;> rfl

/-! ## Terminals -/

namespace Pipeline

/-- Claims a pipeline, plans it and opens its source. -/
def begin (p : Pipeline α) : Act α (Option (Plan α × Opened α)) := do
  p.claim
  p.recipe.start p.source.opening

theorem runWith?_eq (p : Pipeline α) (sink : Sink α γ) (seed : γ) :
    p.runWith? sink seed = p.begin >>= conductStarted sink seed := by
  rw [begin, bind_assoc]
  refine congrArg (p.claim >>= ·) (funext fun _ => ?_)
  refine congrArg (p.recipe.start p.source.opening >>= ·) (funext fun started => ?_)
  cases started <;> rfl

theorem iterate_eq (p : Pipeline α) :
    p.iterate = p.begin >>= fun started => pure (startedIntake started) := by
  rw [iterate, begin, bind_assoc, Recipe.openIntake_eq, map_eq_pure_bind]

theorem toList_eq_conduct (p : Pipeline α) :
    p.toList = p.begin >>= fun started => p.recipe.reserveStarted started >>= fun _ =>
      conductStarted .collect [] started >>= fun found => pure (outcome [] found).1.reverse := by
  rw [toList, begin, bind_assoc, Recipe.collect_eq_conduct]

/-- A pipeline that has no room gives no list, or it is not opened at all, like the other one. -/
theorem toList_of_overflows {W : World α → World α → Prop}
    {R : Option (Plan α × Opened α) → Option (Plan α × Opened α) → Prop} {p q : Pipeline α}
    {w w' : World α} (h : Act.EndTogether W R (p.begin w) (q.begin w')) {hint : Option Nat}
    (hstarted : ∀ started other, R started other → p.recipe.StartedWith hint started)
    (hover : p.recipe.Overflows hint) :
    ∃ halt v, p.toList w = .error halt v
      ∧ (halt = .noRoom ∨ ∃ v', q.toList w' = .error halt v') := by
  rw [toList_eq_conduct, toList_eq_conduct]
  generalize hp : p.begin w = result at h
  generalize hq : q.begin w' = result' at h
  cases h with
  | @ok started other v v' h _ =>
    have hroom : ¬ p.recipe.RoomFor started :=
      fun hroom => (hstarted started other h).roomFor_iff.1 hroom hover
    refine ⟨.noRoom, { v with journal := v.journal.record (startedDiscard started) }, ?_, .inl rfl⟩
    rw [Act.bind_ok hp, Recipe.reserveStarted_of_not_roomFor hroom]
    rfl
  | error halt _ => exact ⟨halt, _, Act.bind_error hp, .inr ⟨_, Act.bind_error hq⟩⟩

theorem runWith_eq (p : Pipeline α) (sink : Sink α γ) (seed : γ) :
    p.runWith sink seed = p.runWith? sink seed >>= fun found => pure (outcome seed found).1 := by
  refine congrArg (p.runWith? sink seed >>= ·) (funext fun found => ?_)
  cases found <;> rfl

theorem count_eq (p : Pipeline α) :
    p.count = p.runWith? .count () >>= fun found => pure (outcome () found).2 := by
  refine congrArg (p.runWith? .count () >>= ·) (funext fun found => ?_)
  cases found <;> rfl

end Pipeline

namespace Session

/-- Makes room for what was started, if the terminal collects. -/
def makeRoom (recipe : Recipe α) (started : Option (Plan α × Opened α)) : Terminal α → Act α Unit
  | .toList => recipe.reserveStarted started
  | _ => pure ()

/-- The terminal is one run and an answer to its outcome, whatever the pipeline is. -/
def AnswersOutcome (terminal : Terminal α) : Prop :=
  ∃ (γ : Type) (sink : Sink α γ) (seed : γ) (answer : γ × Nat → Except Refusal (Reply α)),
    sink.Silent ∧ ∀ p : Pipeline α, runTerminal p terminal = p.begin >>= fun started =>
      makeRoom p.recipe started terminal >>= fun _ =>
        conductStarted sink seed started >>= fun found =>
          Act.ofAnswer (answer (outcome seed found))

theorem answersOutcome_of_runWith? {terminal : Terminal α}
    (hroom : ∀ recipe started, makeRoom recipe started terminal = pure ()) {sink : Sink α γ}
    (hsink : sink.Silent) (seed : γ) (answer : γ × Nat → Except Refusal (Reply α))
    (h : ∀ p, runTerminal p terminal =
      p.runWith? sink seed >>= fun found => Act.ofAnswer (answer (outcome seed found))) :
    AnswersOutcome terminal := by
  refine ⟨γ, sink, seed, answer, hsink, fun p => ?_⟩
  rw [h, Pipeline.runWith?_eq, bind_assoc]
  refine congrArg (p.begin >>= ·) (funext fun started => ?_)
  rw [hroom]
  rfl

theorem answersOutcome_of_runWith {terminal : Terminal α}
    (hroom : ∀ recipe started, makeRoom recipe started terminal = pure ()) {sink : Sink α γ}
    (hsink : sink.Silent) (seed : γ) (answer : γ → Except Refusal (Reply α))
    (h : ∀ p, runTerminal p terminal =
      p.runWith sink seed >>= fun acc => Act.ofAnswer (answer acc)) :
    AnswersOutcome terminal := by
  refine answersOutcome_of_runWith? hroom hsink seed (fun found => answer found.1) fun p => ?_
  rw [h, Pipeline.runWith_eq, bind_assoc]
  rfl

/-- Every terminal is one run and an answer to its outcome. -/
theorem answersOutcome (terminal : Terminal α) : AnswersOutcome terminal := by
  cases terminal with
  | toList =>
    refine ⟨_, .collect, [], fun found => .ok (.elements found.1.reverse), Sink.silent_collect,
      fun p => ?_⟩
    simp only [runTerminal, Pipeline.toList_eq_conduct, map_eq_pure_bind, bind_assoc, pure_bind]
    rfl
  | count =>
    refine answersOutcome_of_runWith? (fun _ _ => rfl) Sink.onlyCalls_count.silent ()
      (fun found => .ok (.count found.2)) fun p => ?_
    simp only [runTerminal, Pipeline.count_eq, map_eq_pure_bind, bind_assoc, pure_bind]
    rfl
  | isEmpty =>
    refine answersOutcome_of_runWith (fun _ _ => rfl) Sink.onlyCalls_first.silent false
      (fun found => .ok (.truth !found))
      fun p => ?_
    simp only [runTerminal, Pipeline.isEmpty, map_eq_pure_bind, bind_assoc, pure_bind]
    rfl
  | forEach f =>
    refine answersOutcome_of_runWith (fun _ _ => rfl) (Sink.onlyCalls_answers f).silent []
      (fun found => .ok (if f.indexed then .indexedResults found.reverse
        else .results (found.reverse.map Prod.fst))) fun p => ?_
    simp only [runTerminal, Pipeline.forEach, bind_assoc, pure_bind]
    rfl
  | tryForEach fails =>
    refine answersOutcome_of_runWith (fun _ _ => rfl) (Sink.onlyCalls_untilFailure fails).silent
      ([], none) (fun found => .ok (.kept found.1.reverse found.2)) fun p => ?_
    simp only [runTerminal, Pipeline.tryForEach, bind_assoc, pure_bind]
    rfl
  | fold f seed =>
    refine answersOutcome_of_runWith (fun _ _ => rfl) (Sink.onlyCalls_fold f).silent seed
      (fun found => .ok (.element found))
      fun p => ?_
    simp only [runTerminal, Pipeline.fold, map_eq_pure_bind]
    rfl
  | reduce f =>
    refine answersOutcome_of_runWith (fun _ _ => rfl) (Sink.onlyCalls_reduce f).silent none
      (fun found => found.elim (.error .emptyReduce) fun x => .ok (.element x)) fun p => ?_
    simp only [runTerminal, Pipeline.reduce, map_eq_pure_bind, bind_assoc]
    refine congrArg (p.runWith (.reduce f) none >>= ·) (funext fun found => ?_)
    cases found <;> rfl
  | any test =>
    refine answersOutcome_of_runWith (fun _ _ => rfl) (Sink.onlyCalls_any test).silent false
      (fun found => .ok (.truth found))
      fun p => ?_
    simp only [runTerminal, Pipeline.any, map_eq_pure_bind]
    rfl
  | all test =>
    refine answersOutcome_of_runWith (fun _ _ => rfl) (Sink.onlyCalls_all test).silent true
      (fun found => .ok (.truth found))
      fun p => ?_
    simp only [runTerminal, Pipeline.all, map_eq_pure_bind]
    rfl
  | find test =>
    refine answersOutcome_of_runWith (fun _ _ => rfl) (Sink.onlyCalls_find test).silent none
      (fun found => .ok (.found found))
      fun p => ?_
    simp only [runTerminal, Pipeline.find, map_eq_pure_bind]
    rfl

/-- What pipelines have started is alike for a terminal: runs over it come to the same, and if the
terminal collects, there is room for both or for neither. -/
def AlikeFor (N : List (Event α) → List (Event α) → Prop) (terminal : Terminal α) (p q : Pipeline α)
    (started other : Option (Plan α × Opened α)) : Prop :=
  StartedAlike N started other ∧ (terminal = .toList → SameRoom N p.recipe q.recipe started other)

/-- Pipelines that begin alike answer every terminal alike. -/
theorem runTerminal_together {W : World α → World α → Prop}
    {N : List (Event α) → List (Event α) → Prop} (hW : World.Admits W N) {p q : Pipeline α}
    {w w' : World α} {terminal : Terminal α}
    (h : Act.EndTogether W (AlikeFor N terminal p q) (p.begin w) (q.begin w')) :
    Act.EndTogether W Eq (runTerminal p terminal w) (runTerminal q terminal w') := by
  obtain ⟨γ, sink, seed, answer, hsink, hact⟩ := answersOutcome terminal
  rw [hact, hact]
  refine h.bind fun started other ⟨hstarted, hroom⟩ => ?_
  have hrooms : Act.Together W Eq (makeRoom p.recipe started terminal)
      (makeRoom q.recipe other terminal) := by
    cases terminal with
    | toList => exact (hroom rfl).reserve hW
    | _ => exact .pure rfl
  refine hrooms.bind fun _ _ _ => ?_
  refine (hstarted.conduct hW hsink seed).bind fun found found' hfound => ?_
  rw [hfound]
  cases answer (outcome seed found') with
  | ok reply => exact .pure rfl
  | error refusal => exact .fail _

/-- Commands that run a terminal of pipelines that begin alike get the same reply. -/
theorem execute_run_together {W : World α → World α → Prop}
    {N : List (Event α) → List (Event α) → Prop} (hW : World.Admits W N) {s t : Session α}
    {name name' : String} {p q : Pipeline α} (hname : s.pipelines.find? name = some p)
    (hname' : t.pipelines.find? name' = some q) {terminal : Terminal α}
    (h : Act.EndTogether W (AlikeFor N terminal p q) (p.begin { s.world with journal := .empty })
      (q.begin { t.world with journal := .empty })) :
    (s.execute (.run name terminal)).reply = (t.execute (.run name' terminal)).reply
      ∧ ∃ w w', W w w' ∧ (s.execute (.run name terminal)).events = w.journal.events
        ∧ (t.execute (.run name' terminal)).events = w'.journal.events := by
  have hrun : ∀ {s : Session α} {name : String} {p : Pipeline α},
      s.pipelines.find? name = some p →
      s.execute (.run name terminal) = s.perform (runTerminal p terminal) reply := by
    intro s name p hname
    show s.withPipeline name _ = _
    rw [withPipeline, hname]
  have hends := runTerminal_together hW h
  rw [hrun hname, hrun hname', perform, perform]
  generalize runTerminal p terminal _ = result at hends ⊢
  generalize runTerminal q terminal _ = result' at hends ⊢
  cases hends with
  | ok hsame hw =>
    subst hsame
    exact ⟨rfl, _, _, hw, List.append_nil _, List.append_nil _⟩
  | error halt hw => exact ⟨rfl, _, _, hw, rfl, rfl⟩

end Session

end StreamFusion
