import StreamFusion.Proofs.Pipeline.Dropping
import StreamFusion.Proofs.Session.Memory
import StreamFusion.Proofs.Session.Reaching

/-!
# Lives of cursors

Once the run that opened a cursor is over, or the iterator that held it was let go, the cursor found
its end or was closed, and nothing else happens to it (`Session.cursor_life`). The commands that ask
a list to make room for more than it can hold (`Session.Drops`) are an exception: they do nothing
but open cursors and drop them at once, and no other command drops a cursor
(`Session.execute_drops`).
-/

namespace StreamFusion

variable {α : Type}

/-! ## Dropping at once -/

/-- Whatever was dropped was dropped as soon as it was opened. -/
def DropsAtOnce (events : List (Event α)) : Prop :=
  ∀ c, .dropped c ∈ events → DroppedAtOnce c (ofCursor c events)

theorem Undropped.dropsAtOnce {events : List (Event α)} (h : Undropped events) :
    DropsAtOnce events := fun c hmem => absurd hmem (h c)

theorem OnlyDropped.dropsAtOnce {events : List (Event α)} (h : OnlyDropped events) :
    DropsAtOnce events := by
  intro c hmem
  refine (h c).resolve_left fun hnone => ?_
  have hown := dropped_mem_ofCursor hmem
  rw [hnone] at hown
  cases hown

theorem DropsIf.dropsAtOnce {D : Prop} {events : List (Event α)} (h : DropsIf D events) :
    DropsAtOnce events := by
  by_cases hD : D
  · exact (h.1 hD).dropsAtOnce
  · exact (h.2 hD).dropsAtOnce

/-- A cursor that was dropped at once had not been touched before. -/
theorem DroppedAtOnce.unopened {c : Ident} {events : List (Event α)} {stage final : CursorStage}
    (h : DroppedAtOnce c (ofCursor c events)) (hstage : stage.afterAll c events = some final) :
    stage = .unopened ∧ final = .lost := by
  obtain ⟨opening, hopening, hown⟩ := h
  rw [CursorStage.afterAll, hown] at hstage
  rcases hopening with rfl | rfl <;> cases stage <;> cases hstage <;> exact ⟨rfl, rfl⟩

/-- A cursor is dropped once at most, so what is dropped first or last was dropped at once. -/
theorem DropsAtOnce.append {events later : List (Event α)} (h : DropsAtOnce events)
    (h' : DropsAtOnce later)
    (hlives : ∀ c, ∃ stage, CursorStage.unopened.afterAll c (events ++ later) = some stage) :
    DropsAtOnce (events ++ later) := by
  intro c hmem
  obtain ⟨stage, hstage⟩ := hlives c
  rw [CursorStage.afterAll_append, Option.bind_eq_some_iff] at hstage
  obtain ⟨middle, hmiddle, hstage⟩ := hstage
  rw [ofCursor_append]
  rcases List.mem_append.1 hmem with hmem | hmem
  · obtain ⟨-, rfl⟩ := (h c hmem).unopened hmiddle
    rw [CursorStage.ofCursor_eq_nil_of_over (.inr rfl) hstage, List.append_nil]
    exact h c hmem
  · obtain ⟨rfl, -⟩ := (h' c hmem).unopened hstage
    have hnone : ofCursor c events = [] := CursorStage.history_of_afterAll hmiddle
    rw [hnone, List.nil_append]
    exact h' c hmem

theorem CursorStage.dropped_mem_of_lost {c : Ident} {events : List (Event α)}
    (h : CursorStage.lost.History c (ofCursor c events)) : .dropped c ∈ events := by
  obtain ⟨opening, elements, -, hown⟩ := h
  refine (List.mem_filter.1 (?_ : .dropped c ∈ ofCursor c events)).1
  rw [hown]
  exact List.mem_append_right _ (List.mem_singleton_self _)

namespace Session

/-! ## Commands that drop cursors -/

/-- The command comes to open a cursor and to drop it, if it gets there. -/
def Drops (s : Session α) : Command α → Prop
  | .run name terminal => ∃ p, s.pipelines.find? name = some p ∧ p.Drops terminal
  | .iterate _ name => ∃ p, s.pipelines.find? name = some p ∧ p.source.Drops none
  | _ => False

/-- None of the commands drops a cursor, one after the other. -/
def DropsNone (s : Session α) : List (Command α) → Prop
  | [] => True
  | command :: rest => ¬ s.Drops command ∧ (s.execute command).session.DropsNone rest

section Commands

variable {s : Session α} {ledger : Ledger α} {name : String} {p : Pipeline α}

theorem Knows.quiet (h : s.Knows ledger) :
    World.Quiet ledger { s.world with journal := .empty } := ⟨h.world.with_journal _, nofun⟩

theorem execute_run_drops (h : s.Knows ledger) (hname : s.pipelines.find? name = some p)
    (terminal : Terminal α) :
    DropsIf (p.Drops terminal) (s.execute (.run name terminal)).events := by
  have hrun := runTerminal_drops (h.pipelines name p hname) terminal _ h.quiet
  rw [execute, withPipeline, hname]
  simp only [perform]
  cases hdone : runTerminal p terminal { s.world with journal := .empty } with
  | ok answer w =>
    rw [hdone] at hrun
    show DropsIf _ (w.journal.events ++ [])
    rw [List.append_nil]
    exact hrun
  | error halt w =>
    rw [hdone] at hrun
    exact hrun

/-- What an iterator holds that is let go under the name of a new one. -/
theorem bindIterator_events (iterator : String) (intake : Intake α) (s : Session α) :
    ((bindIterator iterator intake s).events = [] ∨ ∃ old, s.iterators.find? iterator = some old
      ∧ (bindIterator iterator intake s).events = old.release) := by
  unfold bindIterator
  cases s.iterators.find? iterator with
  | none => exact .inl rfl
  | some old => exact .inr ⟨old, rfl, rfl⟩

/-- Making an iterator: if cursors are dropped, nothing happens to any other one, save that an older
iterator of that name may be let go. -/
theorem execute_iterate_drops (h : s.Knows ledger) (hname : s.pipelines.find? name = some p)
    (iterator : String) :
    (¬ p.source.Drops none → Undropped (s.execute (.iterate iterator name)).events)
      ∧ (p.source.Drops none → OnlyDropped (s.execute (.iterate iterator name)).events
        ∨ ∃ old, s.iterators.find? iterator = some old
          ∧ SameCursors (s.execute (.iterate iterator name)).events old.release) := by
  have hmade := Pipeline.iterate_drops (h.pipelines name p hname) _ h.quiet
  rw [execute, withPipeline, hname]
  simp only [perform]
  cases hdone : p.iterate { s.world with journal := .empty } with
  | ok intake w =>
    rw [hdone] at hmade
    rcases bindIterator_events iterator intake
      { s with world := { w with journal := .empty } } with hnone | ⟨old, hold, hreleased⟩
    · simp only [hnone, List.append_nil]
      exact ⟨fun _ => hmade.1, fun hD => .inl (hmade.2 hD).onlyDropped⟩
    · simp only [hreleased]
      refine ⟨fun _ => hmade.1.append old.release_tended.undropped, fun hD => .inr ⟨old, hold, ?_⟩⟩
      intro c
      rw [ofCursor_append, (hmade.2 hD).ofCursor c, List.nil_append]
  | error halt w =>
    rw [hdone] at hmade
    exact ⟨fun hD => hmade.2 hD, fun hD => .inl (hmade.1 hD)⟩

/-- Commands that run nothing drop no cursor. -/
theorem execute_undropped (hquiet : s.world.journal = .empty) {command : Command α}
    (hnot : ∀ name, ¬ command.RunsOn name) : Undropped (s.execute command).events := by
  have hmade : ∀ {q : Pipeline α} {w}, Pipeline.Made { s.world with journal := .empty } q w →
      w.Untouched := by
    intro q w hmade
    obtain ⟨notes, hjournal⟩ := hmade.journal_eq
    show Silent w.journal.events
    rw [hjournal, Journal.events_record]
    refine Silent.append .nil fun event hmem => ?_
    obtain ⟨note, -, rfl⟩ := List.mem_map.1 hmem
    rfl
  obtain ⟨w, later, hw, hlater, -, hevents⟩ :=
    execute_reaches_of_not_runsOn Undropped.observes hmade hquiet .nil hnot
      (fun _ p _ => p.recipe.plan_untouched) fun _ p _ => p.source.readingClass_untouched
  rw [hevents]
  exact hw.undropped.append hlater

/-- What a command drops was dropped at once, and only some commands drop anything. -/
theorem execute_drops (h : s.Knows ledger) (hquiet : s.world.journal = .empty)
    (command : Command α) :
    DropsAtOnce (s.execute command).events
      ∧ (¬ s.Drops command → Undropped (s.execute command).events) := by
  have hundropped : Undropped (s.execute command).events →
      DropsAtOnce (s.execute command).events
        ∧ (¬ s.Drops command → Undropped (s.execute command).events) :=
    fun h => ⟨h.dropsAtOnce, fun _ => h⟩
  cases command with
  | run name terminal =>
    cases hname : s.pipelines.find? name with
    | none =>
      refine hundropped ?_
      rw [execute, withPipeline, hname]
      exact fun _ => List.not_mem_nil
    | some p =>
      have hdrops := execute_run_drops h hname terminal
      exact ⟨hdrops.dropsAtOnce, fun hnot => hdrops.2 fun hD => hnot ⟨p, hname, hD⟩⟩
  | iterate iterator name =>
    cases hname : s.pipelines.find? name with
    | none =>
      refine hundropped ?_
      rw [execute, withPipeline, hname]
      exact fun _ => List.not_mem_nil
    | some p =>
      obtain ⟨hkeeps, hdrops⟩ := execute_iterate_drops h hname iterator
      refine ⟨?_, fun hnot => hkeeps fun hD => hnot ⟨p, hname, hD⟩⟩
      by_cases hD : p.source.Drops none
      · rcases hdrops hD with honly | ⟨old, -, hsame⟩
        · exact honly.dropsAtOnce
        · refine Undropped.dropsAtOnce fun c hmem => ?_
          have hown := dropped_mem_ofCursor hmem
          rw [hsame c] at hown
          exact old.release_tended.undropped c (List.mem_filter.1 hown).1
      · exact (hkeeps hD).dropsAtOnce
  | _ => exact hundropped (execute_undropped hquiet fun _ h => h)

end Commands

/-- After any commands, whatever was dropped was dropped at once, and nothing was if none of the
commands had to. -/
theorem Tends.dropsAtOnce {s : Session α} {ledger : Ledger α} {events : List (Event α)}
    (h : s.Tends events) (hknows : s.Knows ledger) (hevents : DropsAtOnce events)
    (commands : List (Command α)) :
    DropsAtOnce (events ++ s.happened commands)
      ∧ (s.DropsNone commands → Undropped (s.happened commands)) := by
  induction commands generalizing s ledger events with
  | nil =>
    refine ⟨?_, fun _ _ => List.not_mem_nil⟩
    show DropsAtOnce (events ++ [])
    rwa [List.append_nil]
  | cons command rest ih =>
    obtain ⟨later, -, hlater⟩ := hknows.execute command
    obtain ⟨hnow, hkeeps⟩ := execute_drops hknows h.quiet command
    have hexecuted := h.execute command
    obtain ⟨hrest, hrest'⟩ := ih hexecuted hlater (hevents.append hnow fun c => by
      obtain ⟨stage, hstage, -⟩ := hexecuted.world.lives c
      exact ⟨stage, hstage⟩)
    have hhappened : s.happened (command :: rest) =
        (s.execute command).events ++ (s.execute command).session.happened rest := rfl
    rw [hhappened, ← List.append_assoc]
    exact ⟨hrest, fun hnone => (hkeeps hnone.1).append (hrest' hnone.2)⟩

/-! ## The life of a cursor -/

namespace Tends

variable {s : Session α} {events : List (Event α)} {c : Ident}

/-- The life of a cursor that no iterator holds has not begun or is over. -/
theorem settled (h : s.Tends events) (hnone : ∀ name, ¬ s.Holds name c) :
    ofCursor c events = [] ∨ CursorStage.gone.History c (ofCursor c events)
      ∨ .dropped c ∈ events := by
  obtain ⟨stage, hstage, hcount⟩ := h.world.lives c
  have hhistory := CursorStage.history_of_afterAll hstage
  cases stage with
  | unopened => exact .inl hhistory
  | underway =>
    rw [if_pos rfl] at hcount
    have hpos : 0 < (openCursors s.iterators).count c := by omega
    obtain ⟨name, hname⟩ := h.holds_of_mem (List.count_pos_iff.1 hpos)
    exact absurd hname (hnone name)
  | gone => exact .inr (.inl hhistory)
  | lost => exact .inr (.inr (CursorStage.dropped_mem_of_lost hhistory))

/-- What a run does, taken for itself, is nothing to a cursor or its whole life. -/
theorem run_settled (h : s.Tends events) (name : String) (terminal : Terminal α) (c : Ident) :
    let ran := (s.execute (.run name terminal)).events
    ofCursor c ran = [] ∨ CursorStage.gone.History c (ofCursor c ran) ∨ .dropped c ∈ ran := by
  -- a run sees nothing of the iterators, nor of what happened before
  have halone : ({ s with iterators := [] } : Session α).Tends [] :=
    ⟨.nil, h.quiet, fun _ => ⟨.unopened, rfl, rfl⟩, fun _ _ => rfl, h.world.known,
      fun _ _ _ => rfl⟩
  have hsame : ({ s with iterators := [] } : Session α).execute (.run name terminal) =
      { s.execute (.run name terminal) with
        session := { (s.execute (.run name terminal)).session with iterators := [] } } := by
    simp only [Session.execute, withPipeline]
    cases s.pipelines.find? name with
    | none => rfl
    | some p =>
      simp only [Session.perform]
      cases runTerminal p terminal { s.world with journal := .empty } <;> rfl
  have hrun := halone.execute (.run name terminal)
  rw [hsame] at hrun
  refine Tends.settled hrun fun other hother => ?_
  obtain ⟨intake, hfind, -⟩ := hother
  exact absurd hfind (by simp)

/-- Letting the iterator go that holds a cursor closes the cursor. -/
theorem close_settled (h : s.Tends events) {name : String} (hname : s.Holds name c) :
    CursorStage.gone.History c
      (ofCursor c events ++ ofCursor c (s.execute (.close name)).events) := by
  obtain ⟨stage, hhistory, -, hnot⟩ := h.life c
  obtain rfl : stage = .underway := by_contra fun hne => hnot hne name hname
  obtain ⟨intake, hfind, hrelease⟩ := hname
  have hclosed : (Event.closed c : Event α).cursor? = some c := rfl
  rw [execute_close hfind, hrelease, ofCursor_singleton hclosed]
  exact hhistory.concat hclosed rfl

/-- When the session ends, every cursor is settled. -/
theorem finish_settled (h : s.Tends events) (c : Ident) :
    ofCursor c (events ++ s.finish) = []
      ∨ CursorStage.gone.History c (ofCursor c (events ++ s.finish))
      ∨ .dropped c ∈ events := by
  have hreleased : ∀ (iterators : Dictionary (Intake α)) (events : List (Event α)),
      s.world.Tends events s.Reads (openCursors iterators) →
      s.world.Tends (events ++ iterators.flatMap fun entry => entry.2.release) s.Reads [] := by
    intro iterators
    induction iterators with
    | nil => exact fun events hevents => hevents.silent .nil
    | cons entry rest ih =>
      intro events hevents
      rw [openCursors_cons] at hevents
      rw [List.flatMap_cons, ← List.append_assoc]
      exact ih _ (hevents.tended entry.2.release_tended)
  obtain ⟨stage, hstage, hcount⟩ := (hreleased _ _ h.world).lives c
  have hhistory := CursorStage.history_of_afterAll hstage
  cases stage with
  | unopened => exact .inl hhistory
  | underway => exact absurd hcount (by simp)
  | gone => exact .inr (.inl hhistory)
  | lost =>
    refine .inr (.inr ?_)
    -- iterators that are let go drop nothing
    have hdropped := List.mem_append.1 (CursorStage.dropped_mem_of_lost hhistory)
    refine hdropped.resolve_right fun hmem => ?_
    obtain ⟨entry, -, hdropped⟩ := List.mem_flatMap.1 hmem
    exact entry.2.release_tended.undropped c hdropped

end Tends

/-- Whatever a session is told to do, and whichever callbacks fail: a cursor is opened once if at
all, is then pulled, and at last finds its end or is closed, unless a command had to drop it; then
it was dropped as soon as it was opened. While it is underway exactly one iterator holds it; otherwise
none does. What a run does to a cursor is nothing or its whole life, and so is what was done to it
once its iterator, or the session, is gone. A run or an iterator that has to drop a cursor does
nothing else to one, and no other run or iterator drops one. -/
theorem cursor_life (commands : List (Command α)) (c : Ident) :
    let s := initial.after commands
    let own := ofCursor c (initial.happened commands)
    (∃ stage : CursorStage, stage.History c own
        ∧ (stage = .underway → ∃! name, s.Holds name c)
        ∧ (stage ≠ .underway → ∀ name, ¬ s.Holds name c)
        ∧ (stage = .lost → DroppedAtOnce c own ∧ ¬ initial.DropsNone commands))
      ∧ (∀ name p terminal, s.pipelines.find? name = some p →
        let ran := ofCursor c (s.execute (.run name terminal)).events
        (¬ p.Drops terminal → ran = [] ∨ CursorStage.gone.History c ran)
          ∧ (p.Drops terminal → ran = [] ∨ DroppedAtOnce c ran))
      ∧ (∀ iterator name p, s.pipelines.find? name = some p →
        let ran := ofCursor c (s.execute (.iterate iterator name)).events
        (¬ p.source.Drops none → .dropped c ∉ ran)
          ∧ (p.source.Drops none →
            ran = [] ∨ DroppedAtOnce c ran ∨ (s.Holds iterator c ∧ ran = [.closed c])))
      ∧ (∀ name, s.Holds name c →
        CursorStage.gone.History c (own ++ ofCursor c (s.execute (.close name)).events))
      ∧ (initial.DropsNone commands →
        own ++ ofCursor c s.finish = []
          ∨ CursorStage.gone.History c (own ++ ofCursor c s.finish)) := by
  intro s own
  have h : s.Tends (initial.happened commands) := (tends_initial (α := α)).executeAll commands
  obtain ⟨ledger, -, hknows⟩ := (knows_initial (α := α)).after commands
  obtain ⟨hdropped, hnone⟩ := (tends_initial (α := α)).dropsAtOnce knows_initial
    (fun _ hmem => absurd hmem List.not_mem_nil) commands
  refine ⟨?_, fun name p terminal hname => ?_, fun iterator name p hname => ?_,
    fun name hname => h.close_settled hname, fun hkeeps => ?_⟩
  · obtain ⟨stage, hhistory, hheld, hfree⟩ := h.life c
    refine ⟨stage, hhistory, hheld, hfree, fun hlost => ?_⟩
    subst hlost
    have hmem : .dropped c ∈ initial.happened commands :=
      CursorStage.dropped_mem_of_lost hhistory
    exact ⟨hdropped c hmem, fun hkeeps => hnone hkeeps c hmem⟩
  · have hdrops := execute_run_drops hknows hname terminal
    refine ⟨fun hkeeps => ?_, fun hD => hdrops.1 hD c⟩
    obtain hran | hran | hran := h.run_settled name terminal c
    · exact .inl hran
    · exact .inr hran
    · exact absurd hran (hdrops.2 hkeeps c)
  · obtain ⟨hkeeps, hdrops⟩ := execute_iterate_drops hknows hname iterator
    refine ⟨fun hD hmem => hkeeps hD c (List.mem_filter.1 hmem).1, fun hD => ?_⟩
    rcases hdrops hD with honly | ⟨old, hold, hsame⟩
    · exact (honly c).imp_right .inl
    · rw [hsame c, Intake.release_eq]
      cases hcursor : old.openCursor? with
      | none => exact .inl rfl
      | some d =>
        by_cases hd : d = c
        · subst hd
          exact .inr (.inr ⟨holds_iff.2 ⟨old, hold, hcursor⟩, ofCursor_singleton rfl⟩)
        · exact .inl (ofCursor_singleton_of_ne fun hsame => hd (Option.some.inj hsame))
  · rw [← ofCursor_append]
    obtain hran | hran | hran := h.finish_settled c
    · exact .inl hran
    · exact .inr hran
    · exact absurd hran (hnone hkeeps c)

/-- A cursor under the largest limit: there is no room for as many elements, so the run opens the
cursor and drops it, and neither finds its end nor closes it. -/
theorem cursor_dropped :
    let commands : List (Command Nat) :=
      [.create "p" (.replay none [some 1, some 2, some 3]) 8,
        .extend "p" "p" (.op (.range 0 (some maxCount)))]
    let ran := (initial.after commands).execute (.run "p" .toList)
    let c : Ident := ⟨3, none⟩
    ran.reply = .noRoom ∧ ofCursor c ran.events = [.opened c, .dropped c]
      ∧ ¬ CursorStage.gone.History c (ofCursor c ran.events) := by
  intro commands ran c
  let s := initial.after commands
  let p : Pipeline Nat :=
    ⟨.replay ⟨0, none⟩ [some 1, some 2, some 3], ⟨2, [.range 0 (some maxCount)], .standard, 8⟩⟩
  let plan : Plan Nat := (Draft.ofOps .baseline [.range 0 (some maxCount)]).withTrailingGate.toPlan
  let opened : Opened Nat := .sequential (.cursor c [some 1, some 2, some 3] true)
  have hstart : ∃ w, p.recipe.start p.source.opening { s.world with journal := .empty } =
      .ok (some (plan, opened)) w ∧ ofCursor c w.journal.events = [.opened c] := ⟨_, rfl, rfl⟩
  obtain ⟨w, hstart, hopened⟩ := hstart
  have hroom : ¬ p.recipe.HasRoom (plan.capacityHint opened.lengthHint) := by decide
  have hcollect : p.recipe.collect p.source.opening { s.world with journal := .empty } =
      .error .noRoom { w with journal := w.journal.record [.dropped c] } := by
    rw [Recipe.collect, Act.bind_ok hstart]
    exact Act.bind_error (Recipe.reserve_error hroom w)
  have hclaim : p.claim { s.world with journal := .empty } =
      .ok () { s.world with journal := .empty } := rfl
  have hlist : runTerminal p .toList { s.world with journal := .empty } =
      .error .noRoom { w with journal := w.journal.record [.dropped c] } := by
    show EStateM.map Reply.elements p.toList { s.world with journal := .empty } = _
    rw [EStateM.map, Pipeline.toList, Act.bind_ok hclaim, hcollect]
  have hname : s.pipelines.find? "p" = some p := rfl
  have hran : ran.reply = .noRoom ∧ ran.events = w.journal.events ++ [.dropped c] := by
    show (s.execute (.run "p" .toList)).reply = _ ∧ (s.execute (.run "p" .toList)).events = _
    rw [execute, withPipeline, hname]
    simp only [perform]
    rw [hlist]
    exact ⟨rfl, Journal.events_record _ _⟩
  have hown : ofCursor c ran.events = [.opened c, .dropped c] := by
    rw [hran.2, ofCursor_append, hopened, ofCursor_singleton rfl]
    rfl
  refine ⟨hran.1, hown, ?_⟩
  rw [hown]
  rintro ⟨opening, elements, final, -, hfinal, hevents⟩
  have hlast : some (Event.dropped c) = some final := by
    have hsame := congrArg List.getLast? hevents
    rw [List.getLast?_concat] at hsame
    exact hsame
  rw [← Option.some.inj hlast] at hfinal
  exact hfinal.elim (by simp) (by simp)

end Session

end StreamFusion
