import StreamFusion.Proofs.Cursor.Holding
import StreamFusion.Proofs.Session.Names
import StreamFusion.Session.Basic

/-!
# Cursors in a session

Every command keeps up that the iterators of a session hold what is open, each cursor once
(`Session.Tends.execute`); so does any list of commands. So a cursor that is underway is held under
one name, and no other cursor is held (`Session.Tends.life`).
-/

namespace StreamFusion

variable {α β : Type}

/-! ## Building pipelines -/

namespace Pipeline

variable {past : List (Event α)} {once : Ident → Prop} {held : List Ident}

/-- The act makes a pipeline that reads the same one-shot source, if any. -/
def Builds (p : Pipeline α) (past : List (Event α)) (once : Ident → Prop) (held : List Ident)
    (act : Act α (Pipeline α)) : Prop :=
  Act.Leads (World.Tending past once held) act
    (fun q w => q.source.oneShot? = p.source.oneShot? ∧ w.Tending past once held)
    (World.Tending past once held)

theorem derive_builds (p : Pipeline α) (ops : List (Op α)) (config : Config) :
    p.Builds past once held (p.derive ops config) :=
  Act.fresh_maintains.bind fun _ => .pure fun _ h => ⟨rfl, h⟩

theorem link_builds (p : Pipeline α) (through : Link α) (width : Nat) :
    p.Builds past once held (p.link through width) := by
  refine (p.derive_builds p.recipe.ops p.recipe.config).bind fun base => ?_
  intro w hw
  obtain ⟨hsource, hw⟩ := hw
  have hfresh : Act.Maintains (World.Tending past once held) (Act.fresh : Act α Nat) :=
    Act.fresh_maintains
  have hmade : p.Builds past once held (do
      ofSource (.derived ⟨← Act.fresh, none⟩ through base.source base.recipe) p.recipe.config
        width) :=
    hfresh.bind fun _ => hfresh.bind fun _ => .pure fun _ h => ⟨hsource, h⟩
  exact hmade w hw

theorem slice_builds (p : Pipeline α) (start : Int) (stop : Option Int) :
    p.Builds past once held (p.slice start stop) := by
  unfold slice
  split
  · exact p.derive_builds _ _
  · exact p.derive_builds _ _
  · exact p.link_builds _ _

theorem filterText_builds (p : Pipeline α) (query : String) (fields : List String)
    (field : α → String → Option String) :
    p.Builds past once held (p.filterText query fields field) := by
  unfold filterText
  simp only
  cases (TextQuery.compile query fields).rejected with
  | none => exact p.derive_builds _ _
  | some reason =>
    exact (Act.record_maintains (.singleton rfl)).bind fun _ => p.derive_builds _ _

theorem copy_builds (p : Pipeline α) : p.Builds past once held p.copy := by
  refine (p.derive_builds p.recipe.ops p.recipe.config).bind fun q => ?_
  refine (Act.Leads.recipeMemo _).bind fun memo => ?_
  intro w hw
  obtain ⟨hsource, hw⟩ := hw
  have hmade : p.Builds past once held (do
      Act.updateRecipe q.recipe.serial fun known => { known with verdict := memo.verdict }
      pure q) :=
    (Act.updateRecipe_maintains _ _).bind fun _ => .pure fun _ h => ⟨hsource, h⟩
  exact hmade w hw

end Pipeline

namespace Session

theorem makeExtension_builds {past : List (Event α)} {once : Ident → Prop} {held : List Ident}
    (p : Pipeline α) (extension : Extension α) :
    p.Builds past once held (makeExtension p extension) := by
  cases extension with
  | op op => exact p.derive_builds _ _
  | textFilter query fields field => exact p.filterText_builds query fields field
  | slice start stop => exact p.slice_builds start stop
  | link through width => exact p.link_builds through width
  | config config => exact p.derive_builds _ _
  | copy => exact p.copy_builds

/-- A new pipeline comes with its one-shot source, if it has one, and nothing was done to that. -/
theorem makeOrigin_tends {past : List (Event α)} {once : Ident → Prop} {held : List Ident}
    (width : Nat) (origin : Origin α) :
    Act.Leads (World.Tending past once held) (makeOrigin width origin)
      (fun q w => w.Tending past (fun id => once id ∨ q.source.oneShot? = some id) held)
      (World.Tending past once held) := by
  intro w hw
  have hlater : World.Tends { w with nextSerial := w.nextSerial + 1 + 1 }
      (past ++ w.journal.events) once held :=
    hw.mono (Nat.le_add_right _ 2) fun _ h => h
  cases origin with
  | container label box => exact hlater.weaken fun id h => h.resolve_right nofun
  | replay label answers => exact hlater.weaken fun id h => h.resolve_right nofun
  | once label answers =>
    refine ⟨hlater.lives, hlater.fresh, fun id hid => ?_, fun id hid hspent => ?_⟩
    · rcases hid with honce | hnew
      · exact hlater.known id honce
      · cases hnew
        exact Nat.lt_succ_of_lt (Nat.lt_succ_self _)
    · rcases hid with honce | hnew
      · exact hlater.unspent id honce hspent
      · cases hnew
        exact hw.fresh _ (Nat.le_refl _)

/-! ## What a session keeps up -/

/-- The open cursors that iterators hold. -/
def openCursors (iterators : Dictionary (Intake α)) : List Ident :=
  iterators.filterMap fun entry => entry.2.openCursor?

/-- A pipeline of the session reads this one-shot source in the end. -/
def Reads (s : Session α) (id : Ident) : Prop :=
  ∃ name p, s.pipelines.find? name = some p ∧ p.source.oneShot? = some id

/-- After these events, the iterators of the session hold the cursors that are underway. -/
structure Tends (s : Session α) (events : List (Event α)) : Prop where
  sorted : s.iterators.Sorted
  quiet : s.world.journal = .empty
  world : s.world.Tends events s.Reads (openCursors s.iterators)

theorem tends_initial : (initial : Session α).Tends [] where
  sorted := .nil
  quiet := rfl
  world := World.tends_initial.weaken fun _ h => by
    obtain ⟨name, p, hfind, -⟩ := h
    exact absurd hfind (by simp [initial])

end Session

/-- The response leaves a session in which the iterators hold the cursors that are underway. -/
def Response.Tends (events : List (Event α)) (response : Response α) : Prop :=
  response.session.Tends (events ++ response.events)

namespace Session

section Iterators

variable {iterators : Dictionary (Intake α)} {name : String} {old : Intake α}

theorem openCursors_cons (name : String) (intake : Intake α) (iterators : Dictionary (Intake α)) :
    openCursors ((name, intake) :: iterators) =
      intake.openCursor?.toList ++ openCursors iterators := by
  unfold openCursors
  rw [List.filterMap_cons]
  cases intake.openCursor? <;> rfl

theorem count_openCursors_insert (h : iterators.Sorted) (name : String) (intake : Intake α)
    (c : Ident) :
    (openCursors (iterators.insert name intake)).count c =
      (intake.openCursor?.toList ++ openCursors (iterators.erase name)).count c := by
  rw [← openCursors_cons name]
  exact ((h.insert_perm name intake).filterMap _).count_eq c

theorem count_openCursors_of_find? (h : iterators.Sorted)
    (hfind : iterators.find? name = some old) (c : Ident) :
    (openCursors iterators).count c =
      (old.openCursor?.toList ++ openCursors (iterators.erase name)).count c := by
  rw [← openCursors_cons name]
  exact ((h.perm_of_find? hfind).filterMap _).count_eq c

end Iterators

namespace Tends

variable {s : Session α} {events : List (Event α)}

/-- To carry out an act, and to go on with its result. -/
theorem perform (h : s.Tends events) {act : Act α β} {Q : β → World α → Prop}
    {next : β → Session α → Response α}
    (hact : Act.Leads (World.Tending events s.Reads (openCursors s.iterators)) act Q
      (World.Tending events s.Reads (openCursors s.iterators)))
    (hnext : ∀ y w, Q y w →
      (next y { s with world := { w with journal := .empty } }).Tends
        (events ++ w.journal.events)) :
    (s.perform act next).Tends events := by
  have hstart : World.Tending events s.Reads (openCursors s.iterators)
      { s.world with journal := .empty } := by
    show World.Tends _ (events ++ []) _ _
    rw [List.append_nil]
    exact h.world.mono (Nat.le_refl _) fun _ hn => hn
  have hresult := hact _ hstart
  unfold Session.perform
  cases hdone : act { s.world with journal := .empty } with
  | ok y w =>
    rw [hdone] at hresult
    have hresponse := hnext y w hresult
    show Session.Tends _ (events ++ (w.journal.events ++ _))
    rw [← List.append_assoc]
    exact hresponse
  | error halt w =>
    rw [hdone] at hresult
    exact ⟨h.sorted, rfl, hresult.emptied⟩

/-- An act that maintains the world, and a reply. -/
theorem perform_reply (h : s.Tends events) {act : Act α (Reply α)}
    (hact : Act.Maintains (World.Tending events s.Reads (openCursors s.iterators)) act) :
    (s.perform act reply).Tends events := by
  refine h.perform hact fun y w hw => ?_
  show Session.Tends _ (events ++ w.journal.events ++ [])
  rw [List.append_nil]
  exact ⟨h.sorted, rfl, hw.emptied⟩

/-- An act that makes a pipeline, and its name. -/
theorem perform_bindPipeline (h : s.Tends events) {act : Act α (Pipeline α)} (name : String)
    (hact : Act.Leads (World.Tending events s.Reads (openCursors s.iterators)) act
      (fun q w => w.Tending events (fun id => s.Reads id ∨ q.source.oneShot? = some id)
        (openCursors s.iterators))
      (World.Tending events s.Reads (openCursors s.iterators))) :
    (s.perform act (bindPipeline name)).Tends events := by
  refine h.perform hact fun q w hw => ?_
  show Session.Tends _ (events ++ w.journal.events ++ [])
  rw [List.append_nil]
  refine ⟨h.sorted, rfl, hw.emptied.weaken fun id hid => ?_⟩
  obtain ⟨other, p, hfind, hsource⟩ := hid
  change Dictionary.find? other (Dictionary.insert name q s.pipelines) = some p at hfind
  by_cases hother : other = name
  · subst hother
    rw [Dictionary.find?_insert_self] at hfind
    exact .inr (Option.some.inj hfind ▸ hsource)
  · rw [Dictionary.find?_insert_of_ne hother] at hfind
    exact .inl ⟨other, p, hfind, hsource⟩

/-- The cursor of an act that makes an iterator comes to be held under its name. -/
theorem perform_bindIterator (h : s.Tends events) {act : Act α (Intake α)} (name : String)
    (hact : Act.HandsOver (World.Tending events s.Reads) act Intake.openCursor?) :
    (s.perform act (bindIterator name)).Tends events := by
  refine h.perform (hact _) fun intake w hw => ?_
  refine ⟨h.sorted.insert name intake, rfl, ?_⟩
  have hnow : World.Tends { w with journal := .empty } (events ++ w.journal.events) s.Reads
      (intake.openCursor?.toList ++ openCursors s.iterators) := hw.emptied
  unfold bindIterator
  cases hfind : s.iterators.find? name with
  | none =>
    have hsame := Dictionary.erase_of_find?_eq_none hfind
    simp only [List.append_nil]
    refine hnow.recount fun c => ?_
    rw [count_openCursors_insert h.sorted, hsame]
  | some old =>
    simp only
    -- the older iterator of that name is let go
    have hold : World.Tends { w with journal := .empty } (events ++ w.journal.events) s.Reads
        (old.openCursor?.toList ++
          (intake.openCursor?.toList ++ openCursors (s.iterators.erase name))) :=
      hnow.recount fun c => by
        simp only [List.count_append, count_openCursors_of_find? h.sorted hfind]
        omega
    refine (hold.tended old.release_tended).recount fun c => ?_
    rw [count_openCursors_insert h.sorted]
    rfl

/-- An iterator that was used comes back under its name. -/
theorem pulledFrom (h : s.Tends events) {name : String} {intake : Intake α}
    (hfind : s.iterators.find? name = some intake) {pulls : Pulls α}
    (hpulls : Tended intake.openCursor? pulls.events pulls.rest.openCursor?)
    (answer : List (Option α) → Reply α) : (s.pulledFrom name pulls answer).Tends events := by
  refine ⟨h.sorted.insert name pulls.rest, h.quiet, ?_⟩
  have hnow : s.world.Tends events s.Reads
      (intake.openCursor?.toList ++ openCursors (s.iterators.erase name)) :=
    h.world.recount fun c => (count_openCursors_of_find? h.sorted hfind c).symm
  exact (hnow.tended hpulls).recount fun c => count_openCursors_insert h.sorted name pulls.rest c

end Tends

/-! ## Commands -/

section Names

variable {s : Session α} {name : String} {C : Response α → Prop}

/-- What is said to a name without a pipeline, and of every pipeline that the name may have. -/
theorem withPipeline_cases {body : Pipeline α → Response α} (hnone : C (s.reply .noPipeline))
    (hbody : ∀ p, s.pipelines.find? name = some p → C (body p)) : C (s.withPipeline name body) := by
  unfold withPipeline
  cases hfind : s.pipelines.find? name with
  | none => exact hnone
  | some p => exact hbody p hfind

/-- What is said to a name without an iterator, and of every iterator that the name may have. -/
theorem withIterator_cases {body : Intake α → Response α} (hnone : C (s.reply .noIterator))
    (hbody : ∀ intake, s.iterators.find? name = some intake → C (body intake)) :
    C (s.withIterator name body) := by
  unfold withIterator
  cases hfind : s.iterators.find? name with
  | none => exact hnone
  | some intake => exact hbody intake hfind

end Names

section Upkeep

variable {P : List Ident → World α → Prop} {M : Recipe α → Prop} {N : Source α → Prop}
  {p : Pipeline α}

theorem runTerminal_maintains (h : Upkeep P M N) (hrecipe : M p.recipe) (hsource : N p.source)
    (terminal : Terminal α) (held : List Ident) :
    Act.Maintains (P held) (runTerminal p terminal) := by
  have hrun : ∀ {γ : Type} {sink : Sink α γ} (seed : γ), sink.OnlyCalls →
      Act.Maintains (P held) (p.runWith sink seed) :=
    fun seed hsink => h.runWith hrecipe hsource hsink seed held
  cases terminal with
  | toList => exact (h.toList hrecipe hsource held).map _
  | count => exact (h.count hrecipe hsource held).map _
  | isEmpty => exact ((hrun false Sink.onlyCalls_first).bind_pure _).map _
  | forEach f => exact ((hrun [] (Sink.onlyCalls_answers f)).bind_pure _).bind_pure _
  | tryForEach fails =>
    have hkept : Act.Maintains (P held) (p.tryForEach fails) :=
      (hrun _ (Sink.onlyCalls_untilFailure fails)).bind fun _ => .pure fun _ h => h
    exact hkept.bind fun _ => .pure fun _ h => h
  | fold f seed => exact (hrun seed (Sink.onlyCalls_fold f)).map _
  | reduce f => exact (h.reduce hrecipe hsource f held).map _
  | any test => exact (hrun false (Sink.onlyCalls_any test)).map _
  | all test => exact (hrun true (Sink.onlyCalls_all test)).map _
  | find test => exact (hrun none (Sink.onlyCalls_find test)).map _

end Upkeep

/-- An inquiry at most plans the pipeline or finds out how its source can be read. -/
theorem answerInquiry_maintains {P : World α → Prop} {p : Pipeline α}
    (hplan : Act.Maintains P p.recipe.plan) (hreading : Act.Maintains P p.source.readingClass)
    (inquiry : Inquiry) : Act.Maintains P (answerInquiry p inquiry) := by
  cases inquiry with
  | config => exact .pure fun _ h => h
  | sourceClass => exact hreading.map _
  | planSummary => exact (hplan.bind_pure _).map _
  | describe => exact .pure fun _ h => h
  | text =>
    have htext : Act.Maintains P p.text :=
      (Act.Leads.sourceMemo _).bind fun _ => (Act.Leads.recipeMemo _).bind fun _ =>
        .pure fun _ h => h
    exact htext.map _

namespace Tends

variable {s : Session α} {events : List (Event α)}

theorem reads_of_find? {name : String} {p : Pipeline α} (hfind : s.pipelines.find? name = some p)
    (id : Ident) (hsource : p.source.oneShot? = some id) : s.Reads id :=
  ⟨name, p, hfind, hsource⟩

/-- A reply without an act. -/
theorem reply (h : s.Tends events) (answer : Reply α) : (s.reply answer).Tends events := by
  show Session.Tends _ (events ++ [])
  rw [List.append_nil]
  exact h

theorem execute_close {name : String} {intake : Intake α}
    (hfind : s.iterators.find? name = some intake) :
    s.execute (.close name) =
      ⟨.done, intake.release, { s with iterators := s.iterators.erase name }⟩ := by
  rw [Session.execute, hfind]

theorem execute_close_none {name : String} (hfind : s.iterators.find? name = none) :
    s.execute (.close name) = s.reply .done := by
  rw [Session.execute, hfind]

/-- One command. -/
theorem execute (h : s.Tends events) (command : Command α) : (s.execute command).Tends events := by
  have hpipeline : ∀ (name : String) (body : Pipeline α → Response α),
      (∀ p, s.pipelines.find? name = some p → (body p).Tends events) →
      (s.withPipeline name body).Tends events :=
    fun _ _ => withPipeline_cases (h.reply _)
  have hiterator : ∀ (name : String) (body : Intake α → Response α),
      (∀ intake, s.iterators.find? name = some intake → (body intake).Tends events) →
      (s.withIterator name body).Tends events :=
    fun _ _ => withIterator_cases (h.reply _)
  cases command with
  | create name origin width =>
    exact h.perform_bindPipeline name (makeOrigin_tends width origin)
  | extend name base extension =>
    refine hpipeline base _ fun p hfind => h.perform_bindPipeline name fun w hw => ?_
    have hmade := makeExtension_builds p extension w hw
    cases hresult : makeExtension p extension w with
    | ok q w' =>
      rw [hresult] at hmade
      obtain ⟨hsource, hw'⟩ := hmade
      -- the one-shot source of the new pipeline is that of the old one
      refine hw'.weaken fun id hid => hid.elim (fun hread => hread) fun hq => ?_
      exact reads_of_find? hfind id (hsource.symm.trans hq)
    | error halt w' =>
      rw [hresult] at hmade
      exact hmade
  | inquire name inquiry =>
    exact hpipeline name _ fun p hfind => h.perform_reply
      (answerInquiry_maintains (Recipe.plan_maintains _) (Source.readingClass_maintains _) inquiry)
  | run name terminal =>
    exact hpipeline name _ fun p hfind => h.perform_reply
      (runTerminal_maintains (World.upkeep_tending _ _) trivial (reads_of_find? hfind) terminal _)
  | iterate name pipeline =>
    exact hpipeline pipeline _ fun p hfind =>
      h.perform_bindIterator name
        ((World.upkeep_tending _ _).iterate trivial (reads_of_find? hfind))
  | next name count =>
    exact hiterator name _ fun intake hfind => h.pulledFrom hfind (intake.nextTimes_tended count) _
  | rest name =>
    exact hiterator name _ fun intake hfind => h.pulledFrom hfind intake.remaining_tended _
  | close name =>
    cases hfind : s.iterators.find? name with
    | none =>
      rw [execute_close_none hfind]
      exact h.reply _
    | some intake =>
      rw [execute_close hfind]
      have hnow : s.world.Tends events s.Reads
          (intake.openCursor?.toList ++ openCursors (s.iterators.erase name)) :=
        h.world.recount fun c => (count_openCursors_of_find? h.sorted hfind c).symm
      exact ⟨h.sorted.erase name, h.quiet, hnow.tended intake.release_tended⟩
  | release name =>
    show Session.Tends _ (events ++ [])
    rw [List.append_nil]
    refine ⟨h.sorted, h.quiet, h.world.weaken fun id hid => ?_⟩
    obtain ⟨other, p, hfind, hsource⟩ := hid
    change Dictionary.find? other (Dictionary.erase name s.pipelines) = some p at hfind
    have hother : other ≠ name := by
      intro hsame
      rw [hsame, Dictionary.find?_erase_self] at hfind
      exact absurd hfind (by simp)
    rw [Dictionary.find?_erase_of_ne hother] at hfind
    exact ⟨other, p, hfind, hsource⟩

end Tends

/-- What happens while commands are carried out, one after the other. -/
def happened (s : Session α) (commands : List (Command α)) : List (Event α) :=
  (s.executeAll commands).1.flatMap Prod.snd

/-- The session after the commands. -/
def after (s : Session α) (commands : List (Command α)) : Session α := (s.executeAll commands).2

/-- Any number of commands. -/
theorem Tends.executeAll {s : Session α} {events : List (Event α)} (h : s.Tends events)
    (commands : List (Command α)) :
    (s.after commands).Tends (events ++ s.happened commands) := by
  induction commands generalizing s events with
  | nil =>
    show s.Tends (events ++ [])
    rw [List.append_nil]
    exact h
  | cons command rest ih =>
    have hlater := ih (h.execute command)
    have hhappened : s.happened (command :: rest) =
        (s.execute command).events ++ (s.execute command).session.happened rest := rfl
    rw [hhappened, ← List.append_assoc]
    exact hlater

/-! ## The life of a cursor -/

/-- To let the iterator of this name go is to close the cursor. -/
def Holds (s : Session α) (name : String) (c : Ident) : Prop :=
  ∃ intake, s.iterators.find? name = some intake ∧ intake.release = [.closed c]

end Session

theorem Intake.release_eq (intake : Intake α) :
    intake.release = intake.openCursor?.toList.map .closed := by
  induction intake with
  | cursor source answers isOpen => cases isOpen <;> rfl
  | staged plan counters ready finished below ih => exact ih
  | mapped f below ih => exact ih
  | flattened items ready below ih => exact ih
  | _ => rfl

theorem Intake.release_eq_closed_iff {intake : Intake α} {c : Ident} :
    intake.release = [.closed c] ↔ intake.openCursor? = some c := by
  rw [release_eq]
  cases intake.openCursor? with
  | none => simp
  | some d => simp

namespace Session

theorem holds_iff {s : Session α} {name : String} {c : Ident} :
    s.Holds name c ↔
      ∃ intake, s.iterators.find? name = some intake ∧ intake.openCursor? = some c := by
  unfold Holds
  simp only [Intake.release_eq_closed_iff]

namespace Tends

variable {s : Session α} {events : List (Event α)} {c : Ident}

/-- A cursor is held under one name at most. -/
theorem eq_of_holds (h : s.Tends events) {name other : String} (hname : s.Holds name c)
    (hother : s.Holds other c) : name = other := by
  obtain ⟨intake, hfind, hcursor⟩ := holds_iff.1 hname
  obtain ⟨intake', hfind', hcursor'⟩ := holds_iff.1 hother
  by_contra hne
  -- the other iterator is still there when the first one is removed
  have hrest : (s.iterators.erase name).find? other = some intake' := by
    rw [Dictionary.find?_erase_of_ne (Ne.symm hne), hfind']
  have htwice : 2 ≤ (openCursors s.iterators).count c := by
    rw [count_openCursors_of_find? h.sorted hfind, hcursor, List.count_append,
      count_openCursors_of_find? (h.sorted.erase name) hrest, hcursor', List.count_append]
    simp
    omega
  obtain ⟨stage, -, hcount⟩ := h.world.lives c
  rw [hcount] at htwice
  split at htwice <;> omega

theorem holds_of_mem (h : s.Tends events) (hmem : c ∈ openCursors s.iterators) :
    ∃ name, s.Holds name c := by
  obtain ⟨⟨name, intake⟩, hentry, hcursor⟩ := List.mem_filterMap.1 hmem
  exact ⟨name, holds_iff.2 ⟨intake, h.sorted.find?_of_mem hentry, hcursor⟩⟩

theorem mem_of_holds (h : s.Tends events) {name : String} (hname : s.Holds name c) :
    c ∈ openCursors s.iterators := by
  obtain ⟨intake, hfind, hcursor⟩ := holds_iff.1 hname
  have hpos : 0 < (openCursors s.iterators).count c := by
    rw [count_openCursors_of_find? h.sorted hfind, hcursor]
    simp
  exact List.count_pos_iff.1 hpos

/-- What happened to a cursor, and under which name it is held. -/
theorem life (h : s.Tends events) (c : Ident) :
    ∃ stage : CursorStage, stage.History c (ofCursor c events)
      ∧ (stage = .underway → ∃! name, s.Holds name c)
      ∧ (stage ≠ .underway → ∀ name, ¬ s.Holds name c) := by
  obtain ⟨stage, hstage, hcount⟩ := h.world.lives c
  refine ⟨stage, CursorStage.history_of_afterAll hstage, fun hunderway => ?_,
    fun hne name hname => ?_⟩
  · rw [if_pos hunderway] at hcount
    have hpos : 0 < (openCursors s.iterators).count c := by omega
    obtain ⟨name, hname⟩ := h.holds_of_mem (List.count_pos_iff.1 hpos)
    exact ⟨name, hname, fun other hother => h.eq_of_holds hother hname⟩
  · have hpos := List.count_pos_iff.2 (h.mem_of_holds hname)
    rw [if_neg hne] at hcount
    omega

end Tends

end Session

end StreamFusion
