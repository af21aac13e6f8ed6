import StreamFusion.Proofs.Intake.Alike
import StreamFusion.Proofs.Intake.Iteration
import StreamFusion.Proofs.Session.Release

/-!
# Asking an iterator

What an iterator of a session is told to give, by one command after the other, it gives as if it was
alone: all other commands leave it as it is (`Session.answersOf_eq`). Iterators that are alike give
the same answers (`Intake.Alike.answers`), and one that has a list to give answers like that list
(`Intake.Has.answers`).
-/

namespace StreamFusion

variable {α : Type}

/-- What an iterator can be asked for. -/
inductive Request where
  /-- A number of elements. -/
  | next (count : Nat)
  /-- All that is left. -/
  | rest
deriving DecidableEq, Repr

/-- What the command asks the iterator of this name for. -/
def Command.asks? (name : String) : Command α → Option Request
  | .next other count => if other = name then some (.next count) else none
  | .rest other => if other = name then some .rest else none
  | _ => none

/-- The command that asks the iterator of this name. -/
def Request.command (name : String) : Request → Command α
  | .next count => .next name count
  | .rest => .rest name

namespace Command

variable {name : String} {command : Command α}

theorem eq_of_asks? {request : Request} (h : command.asks? name = some request) :
    command = request.command name := by
  unfold asks? at h
  split at h
  · rename_i other count
    split at h
    · rename_i hsame
      rw [← Option.some.inj h, hsame]
      rfl
    · exact absurd h nofun
  · rename_i other
    split at h
    · rename_i hsame
      rw [← Option.some.inj h, hsame]
      rfl
    · exact absurd h nofun
  · exact absurd h nofun

theorem not_pullsFrom (h : command.asks? name = none) : ¬ command.PullsFrom name := by
  cases command with
  | next other count =>
    rintro rfl
    exact absurd h (by simp [asks?])
  | rest other =>
    rintro rfl
    exact absurd h (by simp [asks?])
  | _ => exact id

end Command

/-- The answers of a list in the place of an iterator. -/
def listAnswers : List α → List Request → List (Reply α)
  | _, [] => []
  | ys, .next count :: requests =>
    .pulled ((ys.map some ++ List.replicate count none).take count) ::
      listAnswers (ys.drop count) requests
  | ys, .rest :: requests => .elements ys :: listAnswers [] requests

/-! ## Intakes -/

/-- The answer to a command that pulled. -/
def Pulls.reply (pulls : Pulls α) (answer : List (Option α) → Reply α) : Reply α :=
  match pulls.culprit with
  | some culprit => .failed culprit
  | none => answer pulls.items

theorem Pulls.Alike.reply_eq {pulls other : Pulls α} (h : pulls.Alike other)
    (answer : List (Option α) → Reply α) : pulls.reply answer = other.reply answer := by
  unfold reply
  rw [h.culprit_eq, h.items_eq]

/-- What an intake gives for a request, and the answer. -/
def Intake.ask (intake : Intake α) : Request → Pulls α × Reply α
  | .next count => (intake.nextTimes count, (intake.nextTimes count).reply .pulled)
  | .rest => (intake.remaining, intake.remaining.reply fun items => .elements (items.filterMap id))

/-- The answers of an intake, one after the other. -/
def Intake.answers : Intake α → List Request → List (Reply α)
  | _, [] => []
  | intake, request :: requests =>
    (intake.ask request).2 :: (intake.ask request).1.rest.answers requests

namespace Intake

variable {intake other : Intake α} {ys : List α}

theorem Alike.ask (h : intake.Alike other) (request : Request) :
    (intake.ask request).2 = (other.ask request).2
      ∧ (intake.ask request).1.rest.Alike (other.ask request).1.rest := by
  cases request with
  | next count => exact ⟨(h.nextTimes count).reply_eq .pulled, (h.nextTimes count).rest⟩
  | rest =>
    exact ⟨h.remaining.reply_eq fun items => .elements (items.filterMap id), h.remaining.rest⟩

/-- Intakes that differ in their cursors give the same answers. -/
theorem Alike.answers (h : intake.Alike other) (requests : List Request) :
    intake.answers requests = other.answers requests := by
  induction requests generalizing intake other with
  | nil => rfl
  | cons request requests ih =>
    obtain ⟨hreply, hrest⟩ := h.ask request
    rw [Intake.answers, Intake.answers, hreply, ih hrest]

/-- An intake that has a list to give answers like the list. -/
theorem Has.answers (h : intake.Has ys) (requests : List Request) :
    intake.answers requests = listAnswers ys requests := by
  induction requests generalizing intake ys with
  | nil => rfl
  | cons request requests ih =>
    cases request with
    | next count =>
      obtain ⟨hculprit, hitems, -⟩ := nextTimes_of_remaining h.culprit_eq h.done count
      have hreply : (intake.nextTimes count).reply .pulled =
          .pulled ((ys.map some ++ List.replicate count none).take count) := by
        rw [Pulls.reply, hculprit, hitems, h.items_eq]
      rw [Intake.answers, listAnswers, ← ih (h.nextTimes count)]
      exact congrArg (· :: _) hreply
    | rest =>
      have hreply : intake.remaining.reply (fun items => .elements (items.filterMap id)) =
          .elements ys := by
        rw [Pulls.reply, h.culprit_eq, h.items_eq]
        simp
      rw [Intake.answers, listAnswers, ← ih h.done.has]
      exact congrArg (· :: _) hreply

end Intake

/-! ## Iterators of a session -/

namespace Session

/-- The answers to those commands that ask the iterator of this name. -/
def answersOf (name : String) : Session α → List (Command α) → List (Reply α)
  | _, [] => []
  | s, command :: commands =>
    let response := s.execute command
    let later := answersOf name response.session commands
    if (command.asks? name).isSome then response.reply :: later else later

variable {s : Session α} {name : String} {intake : Intake α}

/-- A command that asks an iterator gets the answer of its intake. -/
theorem execute_asks (hfind : s.iterators.find? name = some intake) {command : Command α}
    {request : Request} (hasks : command.asks? name = some request) :
    (s.execute command).reply = (intake.ask request).2
      ∧ (s.execute command).session.iterators.find? name = some (intake.ask request).1.rest := by
  obtain rfl := Command.eq_of_asks? hasks
  cases request with
  | next count =>
    rw [Request.command, execute_next hfind]
    exact ⟨rfl, Dictionary.find?_insert_self _ _ _⟩
  | rest =>
    rw [Request.command, execute_rest hfind]
    exact ⟨rfl, Dictionary.find?_insert_self _ _ _⟩

/-- As long as it is not let go, an iterator answers as if it was alone. -/
theorem answersOf_eq (hfind : s.iterators.find? name = some intake) {commands : List (Command α)}
    (hkeep : ∀ command ∈ commands, ¬ command.LetsGo name) :
    s.answersOf name commands = intake.answers (commands.filterMap (·.asks? name)) := by
  induction commands generalizing s intake with
  | nil => rfl
  | cons command commands ih =>
    obtain ⟨hcommand, hrest⟩ := List.forall_mem_cons.1 hkeep
    unfold answersOf
    -- the command asks this iterator, or leaves it as it is
    cases hasks : command.asks? name with
    | none =>
      have hkept : s.Keeps name (s.execute command) :=
        execute_keeps hcommand (Command.not_pullsFrom hasks)
      rw [List.filterMap_cons_none hasks]
      exact ih (hkept.trans hfind) hrest
    | some request =>
      obtain ⟨hreply, hlater⟩ := execute_asks hfind hasks
      rw [List.filterMap_cons_some hasks, Intake.answers, ← ih hlater hrest, ← hreply]
      rfl

end Session

end StreamFusion
