import StreamFusion.Proofs.Session.Numbers
import StreamFusion.Proofs.Session.Running

/-!
# Single-use pipelines in a session

A pipeline with the single-use contract is marked by the first command that runs it or makes an
iterator over it, however that ends, and every later one is refused before anything is done. No
other command looks at the mark, but for the record of the pipeline, or changes it; nor do runs of
the pipelines that were built from it (`Session.runs_once`).
-/

namespace StreamFusion

variable {α β : Type}

namespace Session

/-- A terminal of the pipeline ran under the single-use contract, or an iterator was made. -/
def IsMarked (s : Session α) (p : Pipeline α) : Prop := s.world.marks p.recipe.serial = true

/-- The session with these marks, and else as it is. -/
def withMarks (s : Session α) (marks : Nat → Bool) : Session α :=
  { s with world := s.world.withMarks marks }

end Session

/-- The response with these marks in the session after it. -/
def Response.withMarks (response : Response α) (marks : Nat → Bool) : Response α :=
  { response with session := response.session.withMarks marks }

namespace Session

variable {s : Session α} {name : String} {p : Pipeline α} {command : Command α}

@[simp] theorem pipelines_withMarks (s : Session α) (marks : Nat → Bool) :
    (s.withMarks marks).pipelines = s.pipelines := rfl

@[simp] theorem iterators_withMarks (s : Session α) (marks : Nat → Bool) :
    (s.withMarks marks).iterators = s.iterators := rfl

/-- What follows an act does the same whatever the marks are. -/
def NextMarkBlind (next : β → Session α → Response α) : Prop :=
  ∀ y t marks, next y (t.withMarks marks) = (next y t).withMarks marks

theorem nextMarkBlind_bindIterator (name : String) :
    NextMarkBlind (bindIterator (α := α) name) := by
  intro intake t marks
  unfold bindIterator
  rw [iterators_withMarks]
  cases t.iterators.find? name <;> rfl

section Perform

variable {act : Act α β} {next : β → Session α → Response α}

theorem perform_withMarks_of_eq {marks : Nat → Bool} (hnext : NextMarkBlind next)
    (hact : act (World.withMarks marks { s.world with journal := .empty }) =
      Act.withMarks marks (act { s.world with journal := .empty })) :
    (s.withMarks marks).perform act next = (s.perform act next).withMarks marks := by
  have hsame : act { (s.withMarks marks).world with journal := .empty } =
      Act.withMarks marks (act { s.world with journal := .empty }) := hact
  unfold perform
  rw [hsame]
  cases act { s.world with journal := .empty } with
  | ok y w =>
    have hlater := hnext y { s with world := { w with journal := .empty } } marks
    exact congrArg (fun response : Response α =>
      { response with events := w.journal.events ++ response.events }) hlater
  | error halt w => rfl

theorem perform_withMarks (hact : act.MarkBlind) (hnext : NextMarkBlind next)
    (s : Session α) (marks : Nat → Bool) :
    (s.withMarks marks).perform act next = (s.perform act next).withMarks marks :=
  perform_withMarks_of_eq hnext (hact marks _)

/-- A pipeline that can be claimed is marked if it has the single-use contract, and what follows
does not see the mark. -/
theorem perform_claim (hact : act.MarkBlind) (hnext : NextMarkBlind next)
    (h : p.Unclaimed s.world) :
    s.perform (p.claim >>= fun _ => act) next =
      (s.perform act next).withMarks (p.claimed s.world.marks) := by
  have hclaim : p.claim { s.world with journal := .empty } =
      .ok () (World.withMarks (p.claimed s.world.marks) { s.world with journal := .empty }) :=
    Pipeline.claim_marks h
  rw [← perform_withMarks hact hnext]
  unfold perform
  rw [Act.bind_ok hclaim]
  rfl

end Perform

/-! ## Commands that run a pipeline -/

theorem makeRoom_markBlind (recipe : Recipe α) (started : Option (Plan α × Opened α))
    (terminal : Terminal α) : (makeRoom recipe started terminal).MarkBlind := by
  cases terminal with
  | toList =>
    cases started with
    | none => exact .pure _
    | some found => exact recipe.reserve_markBlind found.1 found.2
  | _ => exact .pure _

theorem GoesOn.markBlind {rest : Recipe α → Option (Plan α × Opened α) → Act α β}
    {next : β → Session α → Response α} (h : GoesOn rest next) :
    (∀ recipe started, (rest recipe started).MarkBlind) ∧ NextMarkBlind next := by
  cases h with
  | @answer terminal γ sink hsink seed answer =>
    refine ⟨fun recipe started => ?_, fun _ _ _ => rfl⟩
    exact (makeRoom_markBlind recipe started terminal).bind fun _ =>
      (conductStarted_markBlind sink seed started).bind fun _ => Act.ofAnswer_markBlind _
  | iterator name => exact ⟨fun _ _ => .pure _, nextMarkBlind_bindIterator name⟩

/-- A run sees no mark but that of the pipeline itself, which it sets. -/
theorem execute_withMarks_of_runsOn (hruns : command.RunsOn name)
    (hname : s.pipelines.find? name = some p) {marks : Nat → Bool}
    (hown : marks p.recipe.serial = s.world.marks p.recipe.serial) :
    (s.withMarks marks).execute command = (s.execute command).withMarks (p.claimed marks) := by
  obtain ⟨β, rest, next, hgoes, hexecute⟩ := execute_runsOn hruns
  obtain ⟨hrest, hnext⟩ := hgoes.markBlind
  have hact : (p.recipe.start p.source.opening >>= rest p.recipe).MarkBlind :=
    p.begin_markBlind.bind (hrest p.recipe)
  have hname' : (s.withMarks marks).pipelines.find? name = some p := hname
  rw [hexecute _ p hname, hexecute _ p hname', Pipeline.begin, bind_assoc]
  -- whether the pipeline may be claimed depends on its own mark alone
  have hsame : p.Unclaimed (s.withMarks marks).world ↔ p.Unclaimed s.world := by
    unfold Pipeline.Unclaimed
    rw [show ((s.withMarks marks).world.recipes p.recipe.serial).isConsumed = _ from hown]
    rfl
  by_cases hfree : p.Unclaimed s.world
  · rw [perform_claim hact hnext hfree, perform_claim hact hnext (hsame.2 hfree),
      perform_withMarks hact hnext]
    rfl
  · have hmarked : p.claimed marks = marks :=
      Pipeline.claimed_of_not_unclaimed (w := (s.withMarks marks).world) (hfree ∘ hsame.1)
    rw [perform_claim_refused hfree, perform_claim_refused (hfree ∘ hsame.1), hmarked]
    rfl

/-- Other commands see no mark, except the one that asks for the record of a pipeline. -/
theorem execute_withMarks (hruns : ∀ name, ¬ command.RunsOn name)
    (htext : ∀ name, command ≠ .inquire name .text) (marks : Nat → Bool) :
    (s.withMarks marks).execute command = (s.execute command).withMarks marks := by
  cases command with
  | create name origin width =>
    have hact : (makeOrigin width origin).MarkBlind := by
      cases origin with
      | _ => exact Act.fresh_markBlind.bind fun _ => Pipeline.ofSource_markBlind _ _ width
    exact perform_withMarks hact (fun _ _ _ => rfl) s marks
  | extend name base extension =>
    have hact : ∀ p : Pipeline α, (makeExtension p extension).MarkBlind := by
      intro p
      cases extension with
      | op op => exact p.derive_markBlind _ _
      | textFilter query fields field => exact p.filterText_markBlind query fields field
      | slice start stop => exact p.slice_markBlind start stop
      | link through width => exact p.link_markBlind through width
      | config config => exact p.derive_markBlind _ _
      | copy => exact p.copy_markBlind
    rw [execute, execute, withPipeline, withPipeline, pipelines_withMarks]
    cases s.pipelines.find? base with
    | none => rfl
    | some p => exact perform_withMarks (hact p) (fun _ _ _ => rfl) s marks
  | inquire name inquiry =>
    have hact : ∀ p : Pipeline α, (answerInquiry p inquiry).MarkBlind := by
      intro p
      cases inquiry with
      | config => exact .pure _
      | sourceClass => exact (p.source.readingClass_markBlind).map _
      | planSummary => exact (p.recipe.plan_markBlind.bind fun _ => .pure _).map _
      | describe => exact .pure _
      | text => exact absurd rfl (htext name)
    rw [execute, execute, withPipeline, withPipeline, pipelines_withMarks]
    cases s.pipelines.find? name with
    | none => rfl
    | some p => exact perform_withMarks (hact p) (fun _ _ _ => rfl) s marks
  | run name terminal => exact absurd rfl (hruns name)
  | iterate name pipeline => exact absurd rfl (hruns pipeline)
  | next name count =>
    rw [execute, execute, withIterator, withIterator, iterators_withMarks]
    cases s.iterators.find? name <;> rfl
  | rest name =>
    rw [execute, execute, withIterator, withIterator, iterators_withMarks]
    cases s.iterators.find? name <;> rfl
  | close name =>
    rw [execute, execute, iterators_withMarks]
    cases s.iterators.find? name <;> rfl
  | release name => rfl

/-- The record of a pipeline shows the mark of that pipeline. -/
theorem execute_text_withMarks (hname : s.pipelines.find? name = some p) {marks : Nat → Bool}
    (hown : marks p.recipe.serial = s.world.marks p.recipe.serial) :
    (s.withMarks marks).execute (.inquire name .text) =
      (s.execute (.inquire name .text)).withMarks marks := by
  have hname' : (s.withMarks marks).pipelines.find? name = some p := hname
  rw [execute, execute, withPipeline, withPipeline, hname, hname']
  refine perform_withMarks_of_eq (fun _ _ _ => rfl) ?_
  -- the record is a function of the mark and of what is the same in both worlds
  let record (consumed : Bool) : Reply α := .text (Text.record "Pipeline"
    [("source", Text.record "SourceHandle" [("kind", Text.quoted p.source.kind.name),
        ("class", Text.optional
          ((s.world.sources p.source.id.serial).kindOfReading.map SourceClass.name))]),
      ("ops", Op.listText p.recipe.ops), ("config", p.recipe.config.text),
      ("consumed", Text.truth consumed)])
  exact congrArg (fun consumed => EStateM.Result.ok (record consumed)
    (World.withMarks marks { s.world with journal := .empty })) hown

/-! ## Marks after commands -/

theorem marks_execute_of_runsOn (hruns : command.RunsOn name)
    (hname : s.pipelines.find? name = some p) :
    (s.execute command).session.world.marks = p.claimed s.world.marks :=
  congrArg (·.session.world.marks) (execute_withMarks_of_runsOn hruns hname rfl)

theorem marks_execute (hruns : ∀ name, ¬ command.RunsOn name) :
    (s.execute command).session.world.marks = s.world.marks := by
  by_cases htext : ∃ name, command = .inquire name .text
  · obtain ⟨name, rfl⟩ := htext
    rw [execute, withPipeline]
    cases s.pipelines.find? name <;> rfl
  · exact congrArg (·.session.world.marks)
      (execute_withMarks hruns (fun name h => htext ⟨name, h⟩) s.world.marks)

/-- A command leaves all marks as they are, or claims a pipeline of the session. -/
theorem marks_execute_cases (s : Session α) (command : Command α) :
    (s.execute command).session.world.marks = s.world.marks
      ∨ ∃ name p, command.RunsOn name ∧ s.pipelines.find? name = some p
        ∧ (s.execute command).session.world.marks = p.claimed s.world.marks := by
  by_cases hruns : ∃ name, command.RunsOn name
  · obtain ⟨name, hruns⟩ := hruns
    cases hname : s.pipelines.find? name with
    | none => exact .inl (congrArg (·.session.world.marks) (execute_runsOn_none hruns hname))
    | some p => exact .inr ⟨name, p, hruns, hname, marks_execute_of_runsOn hruns hname⟩
  · exact .inl (marks_execute fun name h => hruns ⟨name, h⟩)

/-- The pipeline of a name gets its mark when it is run under the single-use contract. -/
theorem Numbered.isMarked_execute_iff (h : s.Numbered) (hname : s.pipelines.find? name = some p)
    (command : Command α) :
    (s.execute command).session.IsMarked p ↔
      s.IsMarked p ∨ p.recipe.config.contract = .singleUse ∧ command.RunsOn name := by
  unfold IsMarked
  obtain hsame | ⟨other, q, hruns, hother, hclaimed⟩ := s.marks_execute_cases command
  · rw [hsame]
    refine ⟨.inl, fun hmarked => hmarked.elim (fun h => h) ?_⟩
    -- a run under the contract leaves the marks as they are only if there is this mark already
    rintro ⟨hcontract, hruns⟩
    rw [← hsame, marks_execute_of_runsOn hruns hname, Pipeline.claimed, hcontract]
    simp
  · rw [hclaimed, Pipeline.claimed, Bool.or_eq_true, decide_eq_true_iff]
    refine or_congr_right ⟨?_, ?_⟩
    · rintro ⟨hcontract, hserial⟩
      obtain rfl := h.distinct _ _ _ _ hname hother hserial
      obtain rfl : p = q := Option.some.inj (hname.symm.trans hother)
      exact ⟨hcontract, hruns⟩
    · rintro ⟨hcontract, hruns'⟩
      obtain rfl := hruns.eq hruns'
      obtain rfl : p = q := Option.some.inj (hname.symm.trans hother)
      exact ⟨hcontract, rfl⟩

/-- Numbers that were not handed out are not marked, nor are repeatable pipelines. -/
structure Marked (s : Session α) : Prop where
  numbered : s.Numbered
  blank : ∀ n, s.world.nextSerial ≤ n → s.world.marks n = false
  singleUse : ∀ name p, s.pipelines.find? name = some p → s.IsMarked p →
    p.recipe.config.contract = .singleUse

namespace Marked

theorem initial : (Session.initial : Session α).Marked :=
  ⟨numbered_initial, fun _ _ => rfl, fun _ _ _ hmarked => absurd hmarked nofun⟩

theorem blank_execute (h : s.Marked) (command : Command α) {n : Nat}
    (hn : s.world.nextSerial ≤ n) : (s.execute command).session.world.marks n = false := by
  obtain hsame | ⟨name, p, -, hname, hclaimed⟩ := s.marks_execute_cases command
  · rw [hsame, h.blank n hn]
  · have hne : n ≠ p.recipe.serial :=
      Nat.ne_of_gt (Nat.lt_of_lt_of_le (h.numbered.handedOut _ _ hname) hn)
    rw [hclaimed, Pipeline.claimed, h.blank n hn]
    simp [hne]

/-- One command. -/
theorem execute (h : s.Marked) (command : Command α) : (s.execute command).session.Marked := by
  have hchanges := s.execute_changes command
  refine ⟨h.numbered.execute command,
    fun n hn => h.blank_execute command (Nat.le_trans hchanges.serial_le hn), ?_⟩
  intro name p hfind hmarked
  have hbefore : s.pipelines.find? name = some p → p.recipe.config.contract = .singleUse := by
    intro hname
    obtain hearlier | ⟨hcontract, -⟩ :=
      (h.numbered.isMarked_execute_iff hname command).1 hmarked
    · exact h.singleUse name p hname hearlier
    · exact hcontract
  generalize hsession : (s.execute command).session = t at hchanges hfind
  cases hchanges with
  | none hpipelines _ => exact hbefore (hpipelines ▸ hfind)
  | forgotten _ => exact hbefore (find?_of_erase hfind)
  | made _ hmade =>
    obtain ⟨-, rfl⟩ | ⟨-, hname⟩ := find?_withMade hfind
    · -- a new number is not marked
      have hblank := h.blank_execute command hmade.serial_ge
      rw [IsMarked, hblank] at hmarked
      exact absurd hmarked (by simp)
    · exact hbefore hname

/-- Any number of commands. -/
theorem after (h : s.Marked) (commands : List (Command α)) : (s.after commands).Marked := by
  induction commands generalizing s with
  | nil => exact h
  | cons command rest ih => exact ih (h.execute command)

/-- As long as a pipeline keeps its name, it is marked by the commands that run it. -/
theorem isMarked_after_iff (h : s.Marked) (hname : s.pipelines.find? name = some p)
    {commands : List (Command α)} (hkeep : ∀ command ∈ commands, ¬ command.Renames name) :
    (s.after commands).IsMarked p ↔ s.IsMarked p ∨
      p.recipe.config.contract = .singleUse ∧ ∃ command ∈ commands, command.RunsOn name := by
  induction commands generalizing s with
  | nil => exact ⟨.inl, fun hmarked => hmarked.elim id fun hnone => by simp at hnone⟩
  | cons command rest ih =>
    obtain ⟨hcommand, hrest⟩ := List.forall_mem_cons.1 hkeep
    have hname' := (execute_keepsPipeline hcommand).trans hname
    rw [show s.after (command :: rest) = (s.execute command).session.after rest from rfl,
      ih (h.execute command) hname' hrest, h.numbered.isMarked_execute_iff hname command,
      List.exists_mem_cons_iff, and_or_left, or_assoc]

/-- A marked pipeline is not run again. -/
theorem execute_refused (h : s.Marked) (hquiet : s.world.journal = .empty)
    (hname : s.pipelines.find? name = some p) (hmarked : s.IsMarked p)
    (hruns : command.RunsOn name) : s.execute command = ⟨.refused .terminalRan, [], s⟩ := by
  refine execute_claimed hquiet hname hruns fun hfree => ?_
  have hblank : (s.world.recipes p.recipe.serial).isConsumed = false :=
    hfree (h.singleUse name p hname hmarked)
  rw [IsMarked, World.marks, hblank] at hmarked
  exact absurd hmarked (by simp)

end Marked

/-! ## One run -/

/-- The session with this mark of the pipeline. -/
def withMark (s : Session α) (p : Pipeline α) (marked : Bool) : Session α :=
  s.withMarks fun n => if n = p.recipe.serial then marked else s.world.marks n

end Session

/-- The response with this mark of the pipeline in the session after it. -/
def Response.withMark (response : Response α) (p : Pipeline α) (marked : Bool) : Response α :=
  { response with session := response.session.withMark p marked }

namespace Session

variable {s : Session α} {name : String} {p : Pipeline α} {command : Command α}

/-- A command that does not run the pipeline, or ask for its record, does not see its mark. -/
theorem Numbered.execute_withMark (h : s.Numbered) (hname : s.pipelines.find? name = some p)
    (hruns : ¬ command.RunsOn name) (htext : command ≠ .inquire name .text) (marked : Bool) :
    (s.withMark p marked).execute command = (s.execute command).withMark p marked := by
  have hother : ∀ {other : String} {q : Pipeline α}, s.pipelines.find? other = some q →
      other ≠ name → q.recipe.serial ≠ p.recipe.serial :=
    fun hfind hne hserial => hne (h.distinct _ _ _ _ hfind hname hserial)
  have hsame : (s.execute command).session.world.marks = s.world.marks →
      (s.execute command).withMarks
        (fun n => if n = p.recipe.serial then marked else s.world.marks n) =
      (s.execute command).withMark p marked := by
    intro hmarks
    unfold Response.withMark withMark
    rw [hmarks]
    rfl
  -- the command runs another pipeline, asks for the record of another one, or sees no marks
  by_cases hrun : ∃ other, command.RunsOn other
  · obtain ⟨other, hrun⟩ := hrun
    have hne : other ≠ name := fun hsame => hruns (hsame ▸ hrun)
    cases hfind : s.pipelines.find? other with
    | none =>
      have hfind' : (s.withMark p marked).pipelines.find? other = none := hfind
      rw [execute_runsOn_none hrun hfind, execute_runsOn_none hrun hfind']
      rfl
    | some q =>
      have hserial := hother hfind hne
      have hown : (if q.recipe.serial = p.recipe.serial then marked
          else s.world.marks q.recipe.serial) = s.world.marks q.recipe.serial := if_neg hserial
      unfold Response.withMark withMark
      rw [execute_withMarks_of_runsOn hrun hfind hown, marks_execute_of_runsOn hrun hfind]
      refine congrArg (s.execute command).withMarks (funext fun n => ?_)
      unfold Pipeline.claimed
      by_cases hn : n = p.recipe.serial
      · simp [hn, hserial.symm]
      · simp [hn]
  · have hnone : ∀ other, ¬ command.RunsOn other := fun other h => hrun ⟨other, h⟩
    rw [← hsame (marks_execute hnone)]
    by_cases hrecord : ∃ other, command = .inquire other .text
    · obtain ⟨other, rfl⟩ := hrecord
      have hne : other ≠ name := fun hsame => htext (hsame ▸ rfl)
      cases hfind : s.pipelines.find? other with
      | none =>
        have hfind' : (s.withMark p marked).pipelines.find? other = none := hfind
        rw [Session.execute, Session.execute, withPipeline, withPipeline, hfind, hfind']
        rfl
      | some q => exact execute_text_withMarks hfind (if_neg (hother hfind hne))
    · exact execute_withMarks hnone (fun other h => hrecord ⟨other, h⟩) _

/-- However a session came to where it is: a pipeline that is made now, be it new, an extension or a
copy, is not marked, and has a number that no pipeline has. As long as a pipeline keeps its name, it
becomes marked by the first command that runs it or makes an iterator over it under the single-use
contract, whatever that comes to, and by nothing else; once marked, every such command is refused,
and nothing happens. All other commands, but for the one that asks for the record of the pipeline,
give the same answers whether it is marked or not, and leave its mark as it is, also where they run
pipelines that were built from it. -/
theorem runs_once (commands : List (Command α)) :
    let s : Session α := initial.after commands
    (∀ command name, command.Makes name → (s.execute command).reply = .done →
      ∃ q, (s.execute command).session.pipelines.find? name = some q
        ∧ ¬ (s.execute command).session.IsMarked q
        ∧ ∀ other p, s.pipelines.find? other = some p → p.recipe.serial ≠ q.recipe.serial)
      ∧ ∀ name p, s.pipelines.find? name = some p →
        (∀ further : List (Command α), (∀ command ∈ further, ¬ command.Renames name) →
          let later := s.after further
          (later.IsMarked p ↔ s.IsMarked p ∨
              p.recipe.config.contract = .singleUse ∧ ∃ command ∈ further, command.RunsOn name)
            ∧ (later.IsMarked p → ∀ command : Command α, command.RunsOn name →
              later.execute command =
                ⟨.refused (.consumed "a terminal already ran on this pipeline"), [], later⟩))
        ∧ ∀ command : Command α, ¬ command.RunsOn name → command ≠ .inquire name .text →
          ∀ marked, (s.withMark p marked).execute command =
            (s.execute command).withMark p marked := by
  intro s
  have hmarks : s.Marked := (Marked.initial (α := α)).after commands
  have htends : s.Tends (initial.happened commands) :=
    (tends_initial (α := α)).executeAll commands
  refine ⟨fun command name hmakes hdone => ?_, fun name p hname => ⟨fun further hkeep => ?_,
    fun command hruns htext marked => hmarks.numbered.execute_withMark hname hruns htext marked⟩⟩
  · obtain ⟨q, w, hexecute, hmade⟩ := execute_makes hmakes hdone
    have hblank := hmarks.blank_execute command hmade.serial_ge
    refine ⟨q, ?_, fun hmarked => ?_, fun other p hother => ?_⟩
    · rw [hexecute]
      exact Dictionary.find?_insert_self _ _ _
    · rw [IsMarked, hblank] at hmarked
      exact absurd hmarked (by simp)
    · exact Nat.ne_of_lt
        (Nat.lt_of_lt_of_le (hmarks.numbered.handedOut other p hother) hmade.serial_ge)
  · have hlater : (s.after further).Marked := hmarks.after further
    have hname' : (s.after further).pipelines.find? name = some p :=
      (after_keepsPipeline hkeep).trans hname
    exact ⟨hmarks.isMarked_after_iff hname hkeep, fun hmarked command hruns =>
      hlater.execute_refused (htends.executeAll further).quiet hname' hmarked hruns⟩

/-- A linked pipeline runs first, then a test that fails at the first element; after that no
iterator is made, but the linked pipeline can still be counted. -/
theorem runs_once_failing :
    let single : Config := { Config.standard with contract := .singleUse }
    let s : Session Nat := initial.after
      [.create "p" (.container none (.ofList [1, 2])) 8, .extend "p" "p" (.config single),
        .extend "q" "p" (.link (.map (.plain (· + 1))) 8)]
    let p : Pipeline Nat := ⟨.container ⟨0, none⟩ (.ofList [1, 2]), ⟨2, [], single, 8⟩⟩
    let later := s.after [.run "q" .toList, .run "p" (.any ⟨none, false, fun _ _ => none⟩)]
    s.pipelines.find? "p" = some p ∧ ¬ s.IsMarked p ∧ later.IsMarked p
      ∧ later.execute (.iterate "i" "p") =
        ⟨.refused (.consumed "a terminal already ran on this pipeline"), [], later⟩
      ∧ (s.withMark p true).execute (.run "q" .count) =
        (s.execute (.run "q" .count)).withMark p true := by
  intro single s p later
  have hname : s.pipelines.find? "p" = some p := rfl
  obtain ⟨-, hruns⟩ := runs_once (α := Nat) _
  obtain ⟨hlater, hothers⟩ := hruns "p" p hname
  obtain ⟨hmarked, hrefused⟩ := hlater
    [.run "q" .toList, .run "p" (.any ⟨none, false, fun _ _ => none⟩)] (by simp [Command.Renames])
  have hnow : later.IsMarked p :=
    hmarked.2 (.inr ⟨rfl, _, List.mem_cons_of_mem _ List.mem_cons_self, rfl⟩)
  exact ⟨hname, nofun, hnow, hrefused hnow (.iterate "i" "p") rfl,
    hothers (.run "q" .count) (by simp [Command.RunsOn]) nofun true⟩

end Session

end StreamFusion
