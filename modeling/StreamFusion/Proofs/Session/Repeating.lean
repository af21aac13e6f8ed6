import StreamFusion.Proofs.Pipeline.Again
import StreamFusion.Proofs.Pipeline.Results
import StreamFusion.Proofs.Session.Asking
import StreamFusion.Proofs.Session.Memory
import StreamFusion.Proofs.Session.Numbers
import StreamFusion.Proofs.Session.Running

/-!
# Repeating and not interfering

A repeatable pipeline over a source that can be read again answers every terminal in the same way
whenever it is asked in a session, and its iterators answer one by one what `toList` gives at once,
whatever is done between their pulls (`Session.repeats`).
-/

namespace StreamFusion

variable {α : Type}

namespace Session

variable {s t : Session α} {name other : String} {p : Pipeline α}

/-! ## Two sessions -/

section Twice

variable {ledger later : Ledger α} (hs : s.Knows ledger) (ht : t.Knows later)
  (hname : s.pipelines.find? name = some p) (hother : t.pipelines.find? other = some p)
  (hcontract : p.recipe.config.contract = .repeatable) (hsource : p.source.oneShot? = none)
include hs ht hname hother hcontract hsource

/-- Terminals get the same reply. -/
theorem execute_run_twice (terminal : Terminal α) :
    (t.execute (.run other terminal)).reply = (s.execute (.run name terminal)).reply := by
  have hbegin := Pipeline.begin_agrees (ht.pipelines other p hother) (hs.pipelines name p hname)
    hcontract hsource _ _ (ht.world.with_journal .empty) (hs.world.with_journal .empty)
  exact (execute_run_together World.admits_anything hother hname
    (hbegin.together fun _ _ hstart => ⟨hstart.startedAlike, fun _ => hstart.sameRoom rfl⟩)).1

/-- Iterators are alike, or none is made for the same reason. -/
theorem execute_iterate_twice (iterator : String) :
    let begun := s.execute (.iterate iterator name)
    let again := t.execute (.iterate iterator other)
    again.reply = begun.reply
      ∧ (again.reply = .done → ∃ intake intake',
        again.session.iterators.find? iterator = some intake
        ∧ begun.session.iterators.find? iterator = some intake' ∧ intake.Alike intake') := by
  have hagrees := Pipeline.iterate_agrees (ht.pipelines other p hother)
    (hs.pipelines name p hname) hcontract hsource _ _ (ht.world.with_journal .empty)
    (hs.world.with_journal .empty)
  have hbegun := execute_iterate hname iterator
  have hagain := execute_iterate hother iterator
  generalize p.iterate { s.world with journal := .empty } = result at hagrees hbegun
  generalize p.iterate { t.world with journal := .empty } = result' at hagrees hagain
  cases hagrees with
  | ok halike _ _ =>
    exact ⟨hagain.1.trans hbegun.1.symm, fun _ => ⟨_, _, hagain.2, hbegun.2, halike⟩⟩
  | error halt _ _ =>
    change _ = haltReply halt at hagain hbegun
    exact ⟨hagain.trans hbegun.symm, fun hdone =>
      absurd (hagain.symm.trans hdone) (haltReply_ne_done halt)⟩

end Twice

/-- However a session came to where it is, and whatever is done in it afterwards: a repeatable
pipeline whose source can be read again gives every terminal the same reply as before, and an
iterator over it is made, or refused, as before. What commands are told that ask this iterator
depends on nothing but what they ask for, as long as the iterator is not let go: not on the time
when it was made, nor on other commands in between. If `toList` gives a list, they are told what the
list would answer: its elements, one after the other. -/
theorem repeats (commands further : List (Command α)) {name other : String} {p : Pipeline α}
    (hname : (initial.after commands).pipelines.find? name = some p)
    (hother : ((initial.after commands).after further).pipelines.find? other = some p)
    (hcontract : p.recipe.config.contract = .repeatable) (hsource : p.source.oneShot? = none) :
    let s : Session α := initial.after commands
    let t := s.after further
    (∀ terminal,
      (t.execute (.run other terminal)).reply = (s.execute (.run name terminal)).reply)
      ∧ ∀ iterator : String,
        let begun := s.execute (.iterate iterator name)
        let again := t.execute (.iterate iterator other)
        again.reply = begun.reply
          ∧ (again.reply = .done → ∀ first second : List (Command α),
            (∀ command ∈ first, ¬ command.LetsGo iterator) →
            (∀ command ∈ second, ¬ command.LetsGo iterator) →
            first.filterMap (·.asks? iterator) = second.filterMap (·.asks? iterator) →
            again.session.answersOf iterator second = begun.session.answersOf iterator first)
          ∧ ∀ ys, (s.execute (.run name .toList)).reply = .elements ys →
            again.reply = .done ∧ ∀ later : List (Command α),
              (∀ command ∈ later, ¬ command.LetsGo iterator) →
              again.session.answersOf iterator later =
                listAnswers ys (later.filterMap (·.asks? iterator)) := by
  intro s t
  obtain ⟨ledger, -, hs⟩ := (knows_initial (α := α)).after commands
  obtain ⟨ledger', -, ht⟩ := hs.after further
  refine ⟨execute_run_twice hs ht hname hother hcontract hsource, fun iterator => ?_⟩
  obtain ⟨hreply, halike⟩ :=
    execute_iterate_twice hs ht hname hother hcontract hsource iterator
  refine ⟨hreply, fun hdone first second hfirst hsecond hasks => ?_, fun ys hlist => ?_⟩
  · obtain ⟨intake, intake', hagain, hbegun, halike⟩ := halike hdone
    rw [answersOf_eq hagain hsecond, answersOf_eq hbegun hfirst, hasks]
    exact halike.answers _
  · -- the list is the same now, and an iterator in its place has its elements to give
    have hnow := (execute_run_twice hs ht hname hother hcontract hsource .toList).trans hlist
    obtain ⟨w, hlisted⟩ := toList_of_reply hother hnow
    obtain ⟨intake, w', hiterate, hhas⟩ := Pipeline.iterate_has hlisted
    have hagain := execute_iterate hother iterator
    rw [hiterate] at hagain
    exact ⟨hagain.1, fun later hlater => (answersOf_eq hagain.2 hlater).trans (hhas.answers _)⟩

/-- Two iterators over replayed numbers, pulled in turn after a test failed at the second number;
they give what `toList` gave at first, one after the other. -/
theorem repeats_in_turn :
    let commands : List (Command Nat) := [.create "p" (.replay none [some 1, some 2, some 3]) 8]
    let failing : Callback Nat Bool := ⟨none, false, fun x _ => if x = 2 then none else some false⟩
    let s : Session Nat := initial.after commands
    let t := s.after [.run "p" (.any failing), .iterate "i" "p", .next "i" 1]
    let again := t.execute (.iterate "j" "p")
    (s.execute (.run "p" .toList)).reply = .elements [1, 2, 3]
      ∧ (t.execute (.run "p" .toList)).reply = .elements [1, 2, 3]
      ∧ again.session.answersOf "j" [.next "j" 2, .next "i" 1, .close "i", .next "j" 2] =
        [.pulled [some 1, some 2], .pulled [some 3, none]] := by
  intro commands failing s t again
  let p : Pipeline Nat := ⟨.replay ⟨0, none⟩ [some 1, some 2, some 3], ⟨1, [], .standard, 8⟩⟩
  have hs : s.pipelines.find? "p" = some p := rfl
  have ht : t.pipelines.find? "p" = some p :=
    (after_keepsPipeline (by simp [Command.Renames])).trans hs
  have hready : p.Ready { s.world with journal := .empty } [1, 2, 3] :=
    Pipeline.ready_of_unplanned rfl rfl (.replay _ _)
  obtain ⟨w, hlisted⟩ := Pipeline.toList_of_onList hready rfl rfl (by decide)
  have hlist : (s.execute (.run "p" .toList)).reply = .elements [1, 2, 3] := by
    rw [reply_toList hs, hlisted]
  obtain ⟨hruns, hiterates⟩ := repeats commands
    [.run "p" (.any failing), .iterate "i" "p", .next "i" 1] hs ht rfl rfl
  obtain ⟨-, -, hanswers⟩ := hiterates "j"
  exact ⟨hlist, (hruns .toList).trans hlist,
    (hanswers [1, 2, 3] hlist).2 _ (by simp [Command.LetsGo])⟩

end Session

end StreamFusion
