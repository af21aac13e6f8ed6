import StreamFusion.Proofs.Pipeline.Release
import StreamFusion.Proofs.Session.Memory
import StreamFusion.Proofs.Session.Running

/-!
# Letting cursors go in a session

An iterator over a pipeline whose limits stand right above its cursor, or below a link that
flattens, has let its cursor go once it gave nothing, whatever was done in the session meanwhile
(`Session.gone_at_end`). With a limit anywhere else the cursor may stay open until the iterator is
let go (`Session.open_at_end`).
-/

namespace StreamFusion

variable {α β : Type}

/-- The command lets the iterator of this name go. -/
def Command.LetsGo (name : String) : Command α → Prop
  | .iterate other _ | .close other => other = name
  | _ => False

/-- The command pulls from the iterator of this name. -/
def Command.PullsFrom (name : String) : Command α → Prop
  | .next other _ | .rest other => other = name
  | _ => False

namespace Session

variable {s : Session α} {events : List (Event α)} {name : String} {c : Ident}

/-! ## Commands and one iterator -/

theorem execute_next {intake : Intake α} (hfind : s.iterators.find? name = some intake)
    (count : Nat) : s.execute (.next name count) =
      s.pulledFrom name (intake.nextTimes count) .pulled := by
  rw [execute, withIterator, hfind]

theorem execute_rest {intake : Intake α} (hfind : s.iterators.find? name = some intake) :
    s.execute (.rest name) =
      s.pulledFrom name intake.remaining fun items => .elements (items.filterMap id) := by
  rw [execute, withIterator, hfind]

/-- An answer other than a failure tells what was pulled. -/
theorem answer_of_pulledFrom {pulls : Pulls α} {answer : List (Option α) → Reply α}
    {told : Reply α} (h : (s.pulledFrom name pulls answer).reply = told)
    (htold : ∀ culprit, told ≠ .failed culprit) :
    pulls.culprit = none ∧ answer pulls.items = told := by
  unfold pulledFrom at h
  cases hculprit : pulls.culprit with
  | none =>
    rw [hculprit] at h
    exact ⟨rfl, h⟩
  | some culprit =>
    rw [hculprit] at h
    exact absurd h.symm (htold culprit)

/-- The response leaves the iterator of this name as it was in the session, if there was one. -/
def Keeps (s : Session α) (name : String) (response : Response α) : Prop :=
  response.session.iterators.find? name = s.iterators.find? name

theorem perform_keeps {act : Act α β} {next : β → Session α → Response α}
    (hnext : ∀ y world, s.Keeps name (next y { s with world := world })) :
    s.Keeps name (s.perform act next) := by
  unfold perform
  cases act { s.world with journal := .empty } with
  | ok y w => exact hnext y _
  | error halt w => rfl

/-- Other commands leave an iterator as it is. -/
theorem execute_keeps {command : Command α} (hkeeps : ¬ command.LetsGo name)
    (hother : ¬ command.PullsFrom name) : s.Keeps name (s.execute command) := by
  have hpipeline : ∀ {other : String} {body : Pipeline α → Response α},
      (∀ p, s.Keeps name (body p)) → s.Keeps name (s.withPipeline other body) :=
    fun hbody => withPipeline_cases rfl fun p _ => hbody p
  have hreply : ∀ {other : String} (answer : Pipeline α → Act α (Reply α)),
      s.Keeps name (s.withPipeline other fun p => s.perform (answer p) reply) :=
    fun _ => hpipeline fun _ => perform_keeps fun _ _ => rfl
  have hpulled : ∀ {other : String} (pulls : Intake α → Pulls α)
      (answer : List (Option α) → Reply α), other ≠ name →
      s.Keeps name (s.withIterator other fun intake => s.pulledFrom other (pulls intake) answer) :=
    fun pulls answer hne => withIterator_cases rfl fun _ _ =>
      Dictionary.find?_insert_of_ne (Ne.symm hne) _ _
  cases command with
  | create other origin => exact perform_keeps fun _ _ => rfl
  | extend other base extension => exact hpipeline fun _ => perform_keeps fun _ _ => rfl
  | inquire other inquiry => exact hreply _
  | run other terminal => exact hreply _
  | iterate other pipeline =>
    exact hpipeline fun _ => perform_keeps fun _ _ =>
      Dictionary.find?_insert_of_ne (Ne.symm hkeeps) _ _
  | next other count => exact hpulled (·.nextTimes count) .pulled hother
  | rest other => exact hpulled (·.remaining) _ hother
  | close other =>
    cases hfind : s.iterators.find? other with
    | none =>
      rw [Tends.execute_close_none hfind]
      rfl
    | some intake =>
      rw [Tends.execute_close hfind]
      exact Dictionary.find?_erase_of_ne (Ne.symm hkeeps) _
  | release other => rfl

/-! ## Held or gone -/

/-- A prompt iterator of this name holds the cursor, or the cursor is gone after these events. -/
def HeldOrGone (name : String) (c : Ident) (s : Session α) (events : List (Event α)) : Prop :=
  (∃ intake, s.iterators.find? name = some intake ∧ intake.Prompt ∧ intake.openCursor? = some c)
    ∨ CursorStage.unopened.afterAll c events = some .gone

namespace Tends

/-- What is gone stays gone. -/
theorem gone_later {later : List (Event α)} (h : s.Tends (events ++ later))
    (hgone : CursorStage.unopened.afterAll c events = some .gone) :
    CursorStage.unopened.afterAll c (events ++ later) = some .gone := by
  obtain ⟨stage, hstage, -⟩ := h.world.lives c
  have hlater : CursorStage.gone.afterAll c later = some stage := by
    rw [CursorStage.afterAll_append, hgone] at hstage
    exact hstage
  rw [hstage, CursorStage.eq_of_over (.inl rfl) hlater]

/-- A cursor that an iterator holds is underway. -/
theorem underway_of_find? (h : s.Tends events) {intake : Intake α}
    (hfind : s.iterators.find? name = some intake) (hcursor : intake.openCursor? = some c) :
    CursorStage.unopened.afterAll c events = some .underway := by
  obtain ⟨stage, hstage, hcount⟩ := h.world.lives c
  have hmem := List.count_pos_iff.2 (h.mem_of_holds (holds_iff.2 ⟨intake, hfind, hcursor⟩))
  by_cases hunderway : stage = .underway
  · rw [hstage, hunderway]
  · rw [if_neg hunderway] at hcount
    omega

/-- A cursor that the iterator does not hold any more, once it was used, is gone. -/
theorem gone_of_tended (h : s.Tends events) {intake : Intake α}
    (hfind : s.iterators.find? name = some intake) (hcursor : intake.openCursor? = some c)
    {later : List (Event α)} (htended : Tended intake.openCursor? later none) :
    CursorStage.unopened.afterAll c (events ++ later) = some .gone := by
  rw [CursorStage.afterAll_append, h.underway_of_find? hfind hcursor, Option.bind_some,
    htended.own c hcursor]
  rfl

/-- An iterator that is used and stays prompt holds its cursor, or the cursor is gone. -/
theorem pulledFrom_heldOrGone (h : s.Tends events) {intake : Intake α}
    (hfind : s.iterators.find? name = some intake) (hcursor : intake.openCursor? = some c)
    {pulls : Pulls α} (htended : Tended intake.openCursor? pulls.events pulls.rest.openCursor?)
    (hprompt : pulls.rest.Prompt) (answer : List (Option α) → Reply α) :
    HeldOrGone name c (s.pulledFrom name pulls answer).session (events ++ pulls.events) := by
  cases hrest : pulls.rest.openCursor? with
  | none =>
    rw [hrest] at htended
    exact .inr (h.gone_of_tended hfind hcursor htended)
  | some d =>
    have hd : some d = some c := (htended.kept d hrest).symm.trans hcursor
    exact .inl ⟨pulls.rest, Dictionary.find?_insert_self _ _ _, hprompt, hrest.trans hd⟩

/-- One command that does not let the iterator go. -/
theorem execute_heldOrGone (h : s.Tends events) (hheld : HeldOrGone name c s events)
    {command : Command α} (hkeeps : ¬ command.LetsGo name) :
    HeldOrGone name c (s.execute command).session (events ++ (s.execute command).events) := by
  obtain ⟨intake, hfind, hprompt, hcursor⟩ | hgone := hheld
  · by_cases hpulls : command.PullsFrom name
    · cases command with
      | next other count =>
        obtain rfl : other = name := hpulls
        rw [execute_next hfind]
        exact h.pulledFrom_heldOrGone hfind hcursor (intake.nextTimes_tended count)
          (hprompt.nextTimes count).1 _
      | rest other =>
        obtain rfl : other = name := hpulls
        rw [execute_rest hfind]
        exact h.pulledFrom_heldOrGone hfind hcursor intake.remaining_tended hprompt.remaining.1 _
      | _ => exact hpulls.elim
    · have hkept : s.Keeps name (s.execute command) := execute_keeps hkeeps hpulls
      exact .inl ⟨intake, hkept.trans hfind, hprompt, hcursor⟩
  · exact .inr (gone_later (h.execute command) hgone)

/-- Any number of commands that do not let the iterator go. -/
theorem after_heldOrGone (h : s.Tends events) (hheld : HeldOrGone name c s events)
    {commands : List (Command α)} (hkeep : ∀ command ∈ commands, ¬ command.LetsGo name) :
    HeldOrGone name c (s.after commands) (events ++ s.happened commands) := by
  induction commands generalizing s events with
  | nil =>
    rw [show s.happened [] = [] from rfl, List.append_nil]
    exact hheld
  | cons command rest ih =>
    obtain ⟨hkeeps, hrest⟩ := List.forall_mem_cons.1 hkeep
    have hlater := ih (h.execute command) (h.execute_heldOrGone hheld hkeeps) hrest
    rw [List.append_assoc] at hlater
    exact hlater

end Tends

/-- An iterator that was made for a pipeline with its limits below is prompt. -/
theorem Knows.iterate_prompt {ledger : Ledger α} (h : s.Knows ledger) {pipeline : String}
    {p : Pipeline α} (hpipeline : s.pipelines.find? pipeline = some p) (hlimits : p.LimitsBelow)
    (hdone : (s.execute (.iterate name pipeline)).reply = .done) :
    ∃ intake, (s.execute (.iterate name pipeline)).session.iterators.find? name = some intake
      ∧ intake.Prompt := by
  have hmade := Pipeline.iterate_prompt (h.pipelines pipeline p hpipeline) hlimits _
    (h.world.with_journal .empty)
  have hbegun := execute_iterate hpipeline name
  cases hresult : p.iterate { s.world with journal := .empty } with
  | ok intake w =>
    rw [hresult] at hmade hbegun
    exact ⟨intake, hbegun.2, hmade.1⟩
  | error halt w =>
    rw [hresult] at hbegun
    exact absurd (hbegun.symm.trans hdone) (haltReply_ne_done halt)

/-- Let an iterator be made for a pipeline that has no limit above a link, unless a link that
flattens stands above that limit. Whatever was done before and is done afterwards, and whichever
callbacks fail: once the iterator gave nothing, or was asked for all that it has to give and no
callback failed, its cursor has found its end or was closed; it does not stay open until the
iterator is let go. -/
theorem gone_at_end (commands further : List (Command α)) {name pipeline : String}
    {p : Pipeline α} (hpipeline : (initial.after commands).pipelines.find? pipeline = some p)
    (hlimits : p.LimitsBelow)
    (hdone : ((initial.after commands).execute (.iterate name pipeline)).reply = .done)
    (hfurther : ∀ command ∈ further, ¬ command.LetsGo name) :
    let begun := (initial.after commands).execute (.iterate name pipeline)
    let later := begun.session.after further
    let past := initial.happened commands ++ begun.events ++ begun.session.happened further
    ∀ c, begun.session.Holds name c →
      (∀ count items, (later.execute (.next name count)).reply = .pulled items → none ∈ items →
        CursorStage.gone.History c (ofCursor c (past ++ (later.execute (.next name count)).events)))
      ∧ ∀ items, (later.execute (.rest name)).reply = .elements items →
        CursorStage.gone.History c (ofCursor c (past ++ (later.execute (.rest name)).events)) := by
  intro begun later past c hholds
  obtain ⟨ledger, -, hknows⟩ := (knows_initial (α := α)).after commands
  have htends : (initial.after commands).Tends (initial.happened commands) :=
    (tends_initial (α := α)).executeAll commands
  obtain ⟨intake, hfind, hprompt⟩ := hknows.iterate_prompt hpipeline hlimits hdone
  obtain ⟨intake', hfind', hcursor⟩ := holds_iff.1 hholds
  obtain rfl : intake = intake' := Option.some.inj (hfind.symm.trans hfind')
  have hbegun : begun.session.Tends (initial.happened commands ++ begun.events) :=
    htends.execute (.iterate name pipeline)
  have hlater : later.Tends past := hbegun.executeAll further
  have hheld : HeldOrGone name c later past :=
    hbegun.after_heldOrGone (.inl ⟨intake, hfind, hprompt, hcursor⟩) hfurther
  obtain ⟨now, hnow, hprompt', hcursor'⟩ | hgone := hheld
  · constructor
    · intro count items hreply hmem
      rw [execute_next hnow] at hreply ⊢
      obtain rfl := Reply.pulled.inj (answer_of_pulledFrom hreply nofun).2
      have htended := now.nextTimes_tended count
      rw [(hprompt'.nextTimes count).2 hmem] at htended
      exact CursorStage.history_of_afterAll (hlater.gone_of_tended hnow hcursor' htended)
    · intro items hreply
      rw [execute_rest hnow] at hreply ⊢
      have htended := now.remaining_tended
      rw [hprompt'.remaining.2 (answer_of_pulledFrom hreply nofun).1] at htended
      exact CursorStage.history_of_afterAll (hlater.gone_of_tended hnow hcursor' htended)
  · exact ⟨fun count _ _ _ => CursorStage.history_of_afterAll
        (Tends.gone_later (hlater.execute (.next name count)) hgone),
      fun _ _ => CursorStage.history_of_afterAll
        (Tends.gone_later (hlater.execute (.rest name)) hgone)⟩

/-- A limit of one right above a cursor, and a link above: the cursor is closed when the limit is
met, and the iterator gives one element and then nothing. -/
theorem gone_at_end_below :
    let commands : List (Command Nat) :=
      [.create "p" (.once none [some 1, some 2, some 3]) 8,
        .extend "p" "p" (.op (.range 0 (some 1))),
        .extend "p" "p" (.link (.map (.plain id)) 8)]
    let begun := (initial.after commands).execute (.iterate "i" "p")
    let asked := begun.session.execute (.next "i" 2)
    let c : Ident := ⟨0, none⟩
    asked.reply = .pulled [some 1, none]
      ∧ CursorStage.gone.History c
        (ofCursor c (initial.happened commands ++ begun.events ++ asked.events)) := by
  intro commands begun asked c
  let p : Pipeline Nat :=
    ⟨.derived ⟨4, none⟩ (.map (.plain id)) (.once c [some 1, some 2, some 3])
      ⟨3, [.range 0 (some 1)], .standard, 8⟩, ⟨5, [], .standard, 8⟩⟩
  let limit : Plan Nat := (Draft.ofOps .baseline [.range 0 (some 1)]).withTrailingGate.toPlan
  let last : Plan Nat := (Draft.ofOps .baseline []).toPlan
  let made : Intake Nat := .staged last last.start [] false (.mapped (.plain id)
    (.staged limit limit.start [] false (.cursor c [some 1, some 2, some 3] true)))
  have hp : (initial.after commands).pipelines.find? "p" = some p := rfl
  have hmade : begun.session.iterators.find? "i" = some made := rfl
  have h1 : made.pull.answer = .again := rfl
  have h2 : made.pull.rest.pull.answer = .again := rfl
  have h3 : made.pull.rest.pull.rest.pull.answer = .item 1 := rfl
  have h4 : made.pull.rest.pull.rest.pull.rest.pull.answer = .nothing := rfl
  have hasked : asked = begun.session.pulledFrom "i" (made.nextTimes 2) .pulled :=
    execute_next hmade 2
  have hreply : asked.reply = .pulled [some 1, none] := by
    rw [hasked, Intake.nextTimes, Intake.next_of_again h1, Intake.next_of_again h2,
      Intake.next_of_item h3]
    simp only [Intake.nextTimes, Intake.next_of_nothing h4]
    rfl
  have hlimits : p.LimitsBelow := ⟨List.forall_mem_nil _, trivial⟩
  have hgone := (gone_at_end commands [] hp hlimits rfl (by simp) c ⟨made, hmade, rfl⟩).1 2
    [some 1, none] hreply (by simp)
  refine ⟨hreply, ?_⟩
  rw [← List.append_nil (initial.happened commands ++ begun.events)]
  exact hgone

/-- The same limit above the link: the iterator gives one element and then nothing, and the cursor
stays open until the iterator is let go. -/
theorem open_at_end :
    let commands : List (Command Nat) :=
      [.create "p" (.once none [some 1, some 2, some 3]) 8,
        .extend "p" "p" (.link (.map (.plain id)) 8), .extend "p" "p" (.op (.range 0 (some 1)))]
    let begun := (initial.after commands).execute (.iterate "i" "p")
    let asked := begun.session.execute (.next "i" 2)
    let c : Ident := ⟨0, none⟩
    asked.reply = .pulled [some 1, none]
      ∧ asked.session.Holds "i" c
      ∧ ¬ CursorStage.gone.History c
        (ofCursor c (initial.happened commands ++ begun.events ++ asked.events)) := by
  intro commands begun asked c
  let first : Plan Nat := (Draft.ofOps .baseline []).toPlan
  let limit : Plan Nat := (Draft.ofOps .baseline [.range 0 (some 1)]).withTrailingGate.toPlan
  let made : Intake Nat := .staged limit limit.start [] false (.mapped (.plain id)
    (.staged first first.start [] false (.cursor c [some 1, some 2, some 3] true)))
  have hmade : begun.session.iterators.find? "i" = some made := rfl
  have h1 : made.pull.answer = .again := rfl
  have h2 : made.pull.rest.pull.answer = .again := rfl
  have h3 : made.pull.rest.pull.rest.pull.answer = .item 1 := rfl
  have h4 : made.pull.rest.pull.rest.pull.rest.pull.answer = .nothing := rfl
  have hasked : asked = begun.session.pulledFrom "i" (made.nextTimes 2) .pulled :=
    execute_next hmade 2
  have hpulls : made.nextTimes 2 = ⟨[.pulled c 1, .called none 1 none], [some 1, none], none,
      made.pull.rest.pull.rest.pull.rest⟩ := by
    rw [Intake.nextTimes, Intake.next_of_again h1, Intake.next_of_again h2,
      Intake.next_of_item h3]
    simp only [Intake.nextTimes, Intake.next_of_nothing h4]
    rfl
  rw [hasked, hpulls]
  refine ⟨rfl, ⟨_, rfl, rfl⟩, ?_⟩
  rintro ⟨opening, elements, final, -, hfinal, hown⟩
  have hlast : some (Event.pulled c 1) = some final := by
    have hsame := congrArg List.getLast? hown
    rw [List.getLast?_concat] at hsame
    exact hsame
  rw [← Option.some.inj hlast] at hfinal
  exact hfinal.elim (by simp) (by simp)

end Session

end StreamFusion
