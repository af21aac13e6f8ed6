import StreamFusion.Proofs.Pipeline.Marks
import StreamFusion.Session.Basic

/-!
# Commands that run pipelines

Two kinds of commands set a pipeline going: terminals, and the making of iterators. Both begin in
the same way, and only then part (`Session.execute_runsOn`).
-/

namespace StreamFusion

variable {α β : Type}

/-- The command runs the pipeline of this name, or makes an iterator over it. -/
def Command.RunsOn (name : String) : Command α → Prop
  | .run other _ | .iterate _ other => other = name
  | _ => False

/-- A command runs one pipeline at most. -/
theorem Command.RunsOn.eq {name other : String} {command : Command α} (h : command.RunsOn name)
    (h' : command.RunsOn other) : name = other := by
  cases command with
  | run ran terminal => exact h.symm.trans h'
  | iterate iterator ran => exact h.symm.trans h'
  | _ => exact h.elim

namespace Session

variable {s : Session α} {name : String} {command : Command α}

/-! ## What is replied -/

/-- An act that was left off is not reported as done. -/
theorem haltReply_ne_done (halt : Halt α) : haltReply halt ≠ .done := by
  cases halt <;> simp [haltReply]

/-- What a session replies with an act. -/
theorem reply_perform (s : Session α) (act : Act α (Reply α)) :
    (s.perform act reply).reply =
      match act { s.world with journal := .empty } with
      | .ok answer _ => answer
      | .error halt _ => haltReply halt := by
  unfold perform
  cases act { s.world with journal := .empty } <;> rfl

theorem reply_run {p : Pipeline α} (hname : s.pipelines.find? name = some p)
    (terminal : Terminal α) :
    (s.execute (.run name terminal)).reply =
      match runTerminal p terminal { s.world with journal := .empty } with
      | .ok answer _ => answer
      | .error halt _ => haltReply halt := by
  rw [← reply_perform]
  show (s.withPipeline name _).reply = _
  rw [withPipeline, hname]

theorem reply_toList {p : Pipeline α} (hname : s.pipelines.find? name = some p) :
    (s.execute (.run name .toList)).reply =
      match p.toList { s.world with journal := .empty } with
      | .ok items _ => .elements items
      | .error halt _ => haltReply halt := by
  rw [reply_run hname, runTerminal]
  show (match EStateM.map Reply.elements p.toList { s.world with journal := .empty } with
    | .ok answer _ => answer
    | .error halt _ => haltReply halt) = _
  rw [EStateM.map]
  cases p.toList { s.world with journal := .empty } <;> rfl

/-- A reply with a list tells that there was this list. -/
theorem toList_of_reply {p : Pipeline α} {ys : List α} (hname : s.pipelines.find? name = some p)
    (hreply : (s.execute (.run name .toList)).reply = .elements ys) :
    ∃ w, p.toList { s.world with journal := .empty } = .ok ys w := by
  rw [reply_toList hname] at hreply
  cases hlist : p.toList { s.world with journal := .empty } with
  | ok found w =>
    rw [hlist] at hreply
    exact ⟨w, by rw [show found = ys from Reply.elements.inj hreply]⟩
  | error halt w =>
    rw [hlist] at hreply
    cases halt <;> exact absurd hreply (by simp [haltReply])

/-- To name an iterator is to make it, or to tell why there is none. -/
theorem execute_iterate {p : Pipeline α} (hname : s.pipelines.find? name = some p)
    (iterator : String) :
    match p.iterate { s.world with journal := .empty } with
    | .ok intake _ => (s.execute (.iterate iterator name)).reply = .done
      ∧ (s.execute (.iterate iterator name)).session.iterators.find? iterator = some intake
    | .error halt _ => (s.execute (.iterate iterator name)).reply = haltReply halt := by
  have hexecute : s.execute (.iterate iterator name) =
      s.perform p.iterate (bindIterator iterator) := by
    rw [execute, withPipeline, hname]
  rw [hexecute, perform]
  cases p.iterate { s.world with journal := .empty } with
  | ok intake w => exact ⟨rfl, Dictionary.find?_insert_self _ _ _⟩
  | error halt w => rfl

/-! ## How they begin -/

/-- How a command goes on once a pipeline was planned and its source opened: with a run, for which
room may have to be made, and an answer to its outcome, or with an iterator over what was opened. -/
inductive GoesOn : {β : Type} → (Recipe α → Option (Plan α × Opened α) → Act α β) →
    (β → Session α → Response α) → Prop where
  | answer (terminal : Terminal α) {γ : Type} {sink : Sink α γ} (hsink : sink.Silent) (seed : γ)
      (answer : γ × Nat → Except Refusal (Reply α)) :
      GoesOn (fun recipe started => makeRoom recipe started terminal >>= fun _ =>
        conductStarted sink seed started >>= fun found =>
          Act.ofAnswer (answer (outcome seed found))) reply
  | iterator (name : String) :
      GoesOn (fun _ started => pure (startedIntake started)) (bindIterator name)

theorem execute_runsOn (hruns : command.RunsOn name) :
    ∃ (β : Type) (rest : Recipe α → Option (Plan α × Opened α) → Act α β)
      (next : β → Session α → Response α), GoesOn rest next
        ∧ ∀ (t : Session α) p, t.pipelines.find? name = some p →
          t.execute command = t.perform (p.begin >>= rest p.recipe) next := by
  cases command with
  | run other terminal =>
    obtain rfl : other = name := hruns
    obtain ⟨γ, sink, seed, answer, hsink, hact⟩ := answersOutcome terminal
    refine ⟨_, _, _, .answer terminal hsink seed answer, fun t p hname => ?_⟩
    rw [execute, withPipeline, hname]
    exact congrArg (t.perform · reply) (hact p)
  | iterate iterator other =>
    obtain rfl : other = name := hruns
    refine ⟨_, _, _, .iterator iterator, fun t p hname => ?_⟩
    rw [execute, withPipeline, hname]
    exact congrArg (t.perform · (bindIterator iterator)) p.iterate_eq
  | _ => exact hruns.elim

theorem execute_runsOn_none (hruns : command.RunsOn name)
    (hname : s.pipelines.find? name = none) : s.execute command = s.reply .noPipeline := by
  cases command with
  | run other terminal =>
    obtain rfl : other = name := hruns
    rw [execute, withPipeline, hname]
  | iterate iterator other =>
    obtain rfl : other = name := hruns
    rw [execute, withPipeline, hname]
  | _ => exact hruns.elim

/-- A pipeline that was claimed before is not run again. -/
theorem perform_claim_refused {p : Pipeline α} {act : Act α β} {next : β → Session α → Response α}
    (h : ¬ p.Unclaimed s.world) :
    s.perform (p.claim >>= fun _ => act) next = ⟨.refused .terminalRan, [],
      { s with world := { s.world with journal := .empty } }⟩ := by
  have hclaim : p.claim { s.world with journal := .empty } =
      .error (.refused .terminalRan) { s.world with journal := .empty } :=
    Pipeline.claim_refused h
  unfold perform
  rw [Act.bind_error hclaim]
  rfl

/-- Nothing happens on a run of a pipeline that was claimed before. -/
theorem execute_claimed {p : Pipeline α} (hquiet : s.world.journal = .empty)
    (hname : s.pipelines.find? name = some p) (hruns : command.RunsOn name)
    (hclaimed : ¬ p.Unclaimed s.world) :
    s.execute command = ⟨.refused .terminalRan, [], s⟩ := by
  obtain ⟨β, rest, next, -, hexecute⟩ := execute_runsOn hruns
  rw [hexecute s p hname, Pipeline.begin, bind_assoc, perform_claim_refused hclaimed, ← hquiet]

end Session

end StreamFusion
