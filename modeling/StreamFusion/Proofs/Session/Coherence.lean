import StreamFusion.Proofs.Pipeline.Answers
import StreamFusion.Proofs.Session.Memory
import StreamFusion.Proofs.Session.Reaching

/-!
# Answers of a session

What a session remembers of a pipeline is what planning its own operations under its own
configuration gives, and what it remembers of a source is how that can be read. Whatever commands
are carried out, a pipeline is planned at most once and a source is classified at most once; from
then on the answer stands (`Session.remembers_once`).
-/

namespace StreamFusion

variable {α : Type}

/-! ## What a pipeline reads -/

/-- The source and all sources below its links. -/
def Source.sources : Source α → List (Source α)
  | .derived id link base recipe => .derived id link base recipe :: base.sources
  | source => [source]

/-- All sources that are read for the pipeline. -/
def Pipeline.sources (p : Pipeline α) : List (Source α) := p.source.sources

section Entered

variable {ledger : Ledger α}

theorem Source.EnteredIn.classes_eq {source : Source α} (h : source.EnteredIn ledger)
    {other : Source α} (hmem : other ∈ source.sources) :
    ledger.classes other.id.serial = some other.readsAs := by
  induction source with
  | derived id link base recipe ih =>
    rcases List.mem_cons.1 hmem with rfl | hmem
    · exact h.1
    · exact ih h.2.2 hmem
  | container id box =>
    obtain rfl := List.mem_singleton.1 hmem
    exact h.1
  | replay id answers =>
    obtain rfl := List.mem_singleton.1 hmem
    exact h.1
  | once id answers =>
    obtain rfl := List.mem_singleton.1 hmem
    exact h.1

/-- No answer is remembered for a number that was not handed out. -/
theorem World.Knows.unplanned {w : World α} (h : w.Knows ledger) {n : Nat}
    (hn : w.nextSerial ≤ n) : (w.recipes n).verdict = none := by
  cases hverdict : (w.recipes n).verdict with
  | none => rfl
  | some verdict =>
    have hplans := h.plans n verdict hverdict
    rw [(h.blank n hn).1] at hplans
    exact absurd hplans (by simp)

theorem Pipeline.EnteredIn.plans_eq {p : Pipeline α} (h : p.EnteredIn ledger) {recipe : Recipe α}
    (hmem : recipe ∈ p.recipes) : ledger.plans recipe.serial = some recipe.verdict := by
  rcases List.mem_cons.1 hmem with rfl | hmem
  · exact h.recipe
  · exact h.source.recipe hmem

end Entered

theorem Pipeline.copy_ok (p : Pipeline α) (w : World α) : ∃ w',
    p.copy w = .ok ⟨p.source, { p.recipe with serial := w.nextSerial }⟩ w'
      ∧ w'.journal = w.journal
      ∧ (w'.recipes w.nextSerial).verdict = (w.recipes p.recipe.serial).verdict := by
  refine ⟨_, rfl, rfl, ?_⟩
  show (if w.nextSerial = w.nextSerial then _ else _ : RecipeMemo α).verdict = _
  rw [if_pos rfl]

/-- The extension reads the same source. -/
def Extension.KeepsSource : Extension α → Prop
  | .link .. => False
  | .slice start stop => 0 ≤ start ∧ ∀ bound, stop = some bound → 0 ≤ bound
  | _ => True

namespace Session

variable {s : Session α}

/-! ## Questions -/

theorem happened_append (commands more : List (Command α)) :
    s.happened (commands ++ more) = s.happened commands ++ (s.after commands).happened more := by
  induction commands generalizing s with
  | nil => rfl
  | cons command rest ih =>
    show (s.execute command).events ++ (s.execute command).session.happened (rest ++ more) = _
    rw [ih, ← List.append_assoc]
    rfl

section Asked

variable {question : Question} {before : Nat}

/-- One command. -/
theorem execute_askedOnce {ledger : Ledger α} (h : s.Knows ledger)
    (hquiet : s.world.journal = .empty) (hs : before ≤ (s.world.answered question).toNat)
    (command : Command α) :
    before + timesAsked question (s.execute command).events
      ≤ ((s.execute command).session.world.answered question).toNat := by
  have hstart : World.AskedOnce question before { s.world with journal := .empty } := by
    cases question <;> exact hs
  have hreaches : (s.execute command).Reaches Unasked (World.AskedOnce question before) :=
    execute_reaches Unasked.observes (hstart.made fun n hn => h.world.unplanned hn) hquiet hstart
      (World.upkeep_askedOnce question before) Source.readingClass_askedOnce
      fun _ _ _ _ => trivial
  obtain ⟨w, later, hw, hunasked, hworld, hevents⟩ := hreaches
  rw [hworld, hevents, timesAsked_append, hunasked.timesAsked_eq]
  cases question <;> exact hw

/-- Any number of commands. -/
theorem after_askedOnce {past : List (Event α)} (h : ∃ ledger, s.Knows ledger)
    (htends : s.Tends past) (hs : before ≤ (s.world.answered question).toNat)
    (commands : List (Command α)) :
    before + timesAsked question (s.happened commands)
      ≤ ((s.after commands).world.answered question).toNat := by
  induction commands generalizing s past before with
  | nil => exact hs
  | cons command rest ih =>
    obtain ⟨ledger, hknows⟩ := h
    obtain ⟨later, -, hlater⟩ := hknows.execute command
    have hone := execute_askedOnce hknows htends.quiet hs command
    have hall := ih ⟨later, hlater⟩ (htends.execute command) hone
    show before + timesAsked question ((s.execute command).events ++ _) ≤ _
    rw [timesAsked_append, ← Nat.add_assoc]
    exact hall

/-- An answer that is remembered is not asked for again, and is remembered ever after. -/
theorem answered_after {past : List (Event α)} (h : ∃ ledger, s.Knows ledger)
    (htends : s.Tends past) (hanswered : s.world.answered question = true)
    (commands : List (Command α)) :
    timesAsked question (s.happened commands) = 0
      ∧ (s.after commands).world.answered question = true := by
  have hone : 1 ≤ (s.world.answered question).toNat := Nat.le_of_eq (by rw [hanswered]; rfl)
  have hall := after_askedOnce h htends hone commands
  cases hlater : (s.after commands).world.answered question with
  | true =>
    rw [hlater] at hall
    exact ⟨Nat.le_zero.1 (Nat.le_of_add_le_add_left hall), rfl⟩
  | false =>
    rw [hlater] at hall
    exact absurd hall (Nat.not_le_of_lt (Nat.lt_of_lt_of_le Nat.one_pos (Nat.le_add_right 1 _)))

/-- What is remembered does not change. -/
theorem remembered_after {past : List (Event α)} {ledger : Ledger α} (h : s.Knows ledger)
    (htends : s.Tends past) (commands : List (Command α)) :
    (∀ n verdict, (s.world.recipes n).verdict = some verdict →
        ((s.after commands).world.recipes n).verdict = some verdict)
      ∧ ∀ n found, (s.world.sources n).kindOfReading = some found →
        ((s.after commands).world.sources n).kindOfReading = some found := by
  obtain ⟨later, hgrows, hlater⟩ := h.after commands
  constructor
  · intro n verdict hverdict
    have hanswered : s.world.answered (.verdict n) = true := by rw [World.answered, hverdict]; rfl
    obtain ⟨now, hnow⟩ := Option.isSome_iff_exists.1
      (answered_after ⟨ledger, h⟩ htends hanswered commands).2
    have hsame := hgrows.plans n verdict (h.world.plans n verdict hverdict)
    rw [hlater.world.plans n now hnow] at hsame
    rw [hnow, hsame]
  · intro n found hfound
    have hanswered : s.world.answered (.reading n) = true := by rw [World.answered, hfound]; rfl
    obtain ⟨now, hnow⟩ := Option.isSome_iff_exists.1
      (answered_after ⟨ledger, h⟩ htends hanswered commands).2
    have hsame := hgrows.classes n found (h.world.classes n found hfound)
    rw [hlater.world.classes n now hnow] at hsame
    rw [hnow, hsame]

end Asked

/-! ## Extensions -/

theorem makeExtension_keepsSource {extension : Extension α} (h : extension.KeepsSource)
    (p : Pipeline α) (w : World α) :
    ∃ q w', makeExtension p extension w = .ok q w' ∧ q.source = p.source := by
  have hderive : ∀ ops config, ∃ q w', p.derive ops config w = .ok q w' ∧ q.source = p.source :=
    fun _ _ => ⟨_, _, rfl, rfl⟩
  cases extension with
  | op op => exact hderive _ _
  | textFilter query fields field =>
    rw [makeExtension]
    unfold Pipeline.filterText
    simp only
    cases (TextQuery.compile query fields).rejected with
    | none => exact hderive _ _
    | some reason => exact ⟨_, _, rfl, rfl⟩
  | slice start stop =>
    obtain ⟨hstart, hstop⟩ := h
    obtain ⟨lower, rfl⟩ := Int.eq_ofNat_of_zero_le hstart
    cases stop with
    | none => exact hderive _ _
    | some bound =>
      obtain ⟨upper, rfl⟩ := Int.eq_ofNat_of_zero_le (hstop bound rfl)
      exact hderive _ _
  | link through width => exact h.elim
  | config config => exact hderive _ _
  | copy => exact ⟨_, _, rfl, rfl⟩

section Extend

variable {base : String} {p : Pipeline α} (hbase : s.pipelines.find? base = some p)
include hbase

theorem execute_keepsSource {extension : Extension α} (h : extension.KeepsSource)
    (name : String) : ∃ q,
      (s.execute (.extend name base extension)).session.pipelines.find? name = some q
        ∧ q.source = p.source := by
  obtain ⟨q, w, hmake, hsource⟩ :=
    makeExtension_keepsSource h p { s.world with journal := .empty }
  refine ⟨q, ?_, hsource⟩
  rw [execute, withPipeline, hbase]
  show (s.perform (makeExtension p extension) (bindPipeline name)).session.pipelines.find? name = _
  rw [perform_bindPipeline hmake]
  exact Dictionary.find?_insert_self _ _ _

/-- A copy has a new number, and comes with what is remembered of the plan. -/
theorem execute_copy (name : String) : ∃ w,
    s.execute (.extend name base .copy) = ⟨.done, [],
        s.withMade name ⟨p.source, { p.recipe with serial := s.world.nextSerial }⟩ w⟩
      ∧ (w.recipes s.world.nextSerial).verdict = (s.world.recipes p.recipe.serial).verdict := by
  obtain ⟨w, hcopy, hjournal, hverdict⟩ := p.copy_ok { s.world with journal := .empty }
  refine ⟨w, ?_, hverdict⟩
  rw [execute, withPipeline, hbase]
  show s.perform p.copy (bindPipeline name) = _
  rw [perform_bindPipeline hcopy, hjournal]
  rfl

/-- A copy of a pipeline that was planned is never planned: nobody asked for its number before, and
the answer is there at once. -/
theorem timesAsked_copy {past : List (Event α)} {ledger : Ledger α} (h : s.Knows ledger)
    (htends : s.Tends past)
    (hplanned : s.world.answered (.verdict p.recipe.serial) = true) (name : String)
    (more : List (Command α)) :
    timesAsked (.verdict s.world.nextSerial)
      (s.happened (.extend name base .copy :: more)) = 0 := by
  obtain ⟨w, hexecute, hverdict⟩ := execute_copy hbase name
  obtain ⟨later, -, hknows⟩ := h.execute (.extend name base .copy)
  have hmore := htends.execute (.extend name base .copy)
  show timesAsked _ ((s.execute (.extend name base .copy)).events ++
    (s.execute (.extend name base .copy)).session.happened more) = 0
  rw [hexecute] at hknows hmore ⊢
  have hanswered : World.answered { w with journal := .empty } (.verdict s.world.nextSerial) := by
    show (w.recipes s.world.nextSerial).verdict.isSome = true
    rw [hverdict]
    exact hplanned
  rw [List.nil_append]
  exact (answered_after ⟨later, hknows⟩ hmore hanswered more).1

end Extend

/-- Whatever was done in a session: what is remembered of a recipe, of a pipeline or below its
links, is what planning its own operations under its own configuration gives; what is remembered of
a source is how it is classified; and none of it ever changes. A pipeline was planned once at most
and a source classified once at most, and what is remembered is not asked for again. A copy of a
pipeline that was planned is never planned itself. Whatever extends a pipeline without a link reads
the very same source, and so goes by what is remembered of that. -/
theorem remembers_once (commands more : List (Command α)) :
    let s : Session α := initial.after commands
    let later := s.after more
    (∀ name p, s.pipelines.find? name = some p →
      (∀ recipe ∈ p.recipes, ∀ verdict, (s.world.recipes recipe.serial).verdict = some verdict →
        verdict = (compile recipe.ops recipe.config).verdict)
      ∧ ∀ source ∈ p.sources, ∀ found,
        (s.world.sources source.id.serial).kindOfReading = some found →
          ∀ w, ∃ w', source.classify w = .ok found w')
    ∧ ((∀ n verdict, (s.world.recipes n).verdict = some verdict →
        (later.world.recipes n).verdict = some verdict)
      ∧ ∀ n found, (s.world.sources n).kindOfReading = some found →
        (later.world.sources n).kindOfReading = some found)
    ∧ (∀ question, timesAsked question (initial.happened commands) ≤ 1
      ∧ (s.world.answered question = true → timesAsked question (s.happened more) = 0))
    ∧ ∀ base p, s.pipelines.find? base = some p → ∀ name,
      (s.world.answered (.verdict p.recipe.serial) = true → ∃ q,
        (s.execute (.extend name base .copy)).session.pipelines.find? name = some q
          ∧ q.recipe.ops = p.recipe.ops ∧ q.recipe.config = p.recipe.config
          ∧ timesAsked (.verdict q.recipe.serial)
            (initial.happened (commands ++ .extend name base .copy :: more)) = 0)
      ∧ ∀ extension : Extension α, extension.KeepsSource → ∃ q,
        (s.execute (.extend name base extension)).session.pipelines.find? name = some q
          ∧ q.source = p.source := by
  intro s later
  obtain ⟨ledger, -, hknows⟩ := (knows_initial (α := α)).after commands
  have htends : s.Tends (initial.happened commands) := (tends_initial (α := α)).executeAll commands
  have hasked : ∀ question, timesAsked question (initial.happened commands)
      ≤ (s.world.answered question).toNat := by
    intro question
    rw [← Nat.zero_add (timesAsked _ _)]
    exact after_askedOnce ⟨_, knows_initial⟩ tends_initial (Nat.zero_le _) commands
  refine ⟨fun name p hname => ⟨?_, ?_⟩, remembered_after hknows htends more,
    fun question => ⟨(hasked question).trans (Bool.toNat_le _),
      fun h => (answered_after ⟨ledger, hknows⟩ htends h more).1⟩,
    fun base p hbase name => ⟨fun hplanned => ?_, fun extension h => ?_⟩⟩
  · intro recipe hmem verdict hverdict
    have hplans := (hknows.pipelines name p hname).plans_eq hmem
    rw [hknows.world.plans _ _ hverdict] at hplans
    exact Option.some.inj hplans
  · intro source hmem found hfound w
    have hclasses := (hknows.pipelines name p hname).source.classes_eq hmem
    rw [hknows.world.classes _ _ hfound] at hclasses
    obtain ⟨events, hclassify, -⟩ := source.classify_asks (.reading source.id.serial) w
    exact ⟨_, Option.some.inj hclasses ▸ hclassify⟩
  · obtain ⟨w, hexecute, -⟩ := execute_copy hbase name
    refine ⟨⟨p.source, { p.recipe with serial := s.world.nextSerial }⟩, ?_, rfl, rfl, ?_⟩
    · rw [hexecute]
      exact Dictionary.find?_insert_self _ _ _
    · have hbefore := hasked (.verdict s.world.nextSerial)
      rw [World.answered, hknows.world.unplanned (Nat.le_refl _)] at hbefore
      rw [happened_append, timesAsked_append, Nat.le_zero.1 hbefore,
        timesAsked_copy hbase hknows htends hplanned]
  · exact execute_keepsSource hbase h name

/-- A pipeline that was planned and classified. Its copy is run without being planned, and what is
chained to it reads the same source, which is not classified again. -/
theorem remembers_once_copied :
    let commands : List (Command Nat) := [.create "p" (.container none (.ofList [5, 6])) 8,
      .inquire "p" .planSummary, .inquire "p" .sourceClass]
    let more : List (Command Nat) := [.inquire "q" .planSummary, .run "q" .count]
    let s : Session Nat := initial.after commands
    timesAsked (.verdict 2) (initial.happened (commands ++ .extend "q" "p" .copy :: more)) = 0
      ∧ timesAsked (.reading 0) (s.happened (.extend "q" "p" .copy :: more)) = 0
      ∧ (∀ verdict, (s.world.recipes 1).verdict = some verdict →
        verdict = (compile [] .standard).verdict)
      ∧ ∃ q,
        (s.execute (.extend "r" "p" (.op (.range 1 none)))).session.pipelines.find? "r" = some q
          ∧ q.source = .container ⟨0, none⟩ (.ofList [5, 6]) := by
  intro commands more s
  let p : Pipeline Nat := ⟨.container ⟨0, none⟩ (.ofList [5, 6]), ⟨1, [], .standard, 8⟩⟩
  have hp : s.pipelines.find? "p" = some p := rfl
  obtain ⟨hcoherent, -, -, hcopied⟩ := remembers_once commands more
  obtain ⟨-, -, hasked, -⟩ := remembers_once commands (.extend "q" "p" .copy :: more)
  obtain ⟨hcopy, -⟩ := hcopied "p" p hp "q"
  refine ⟨?_, (hasked (.reading 0)).2 rfl, fun verdict => ?_, ?_⟩
  · obtain ⟨q, hq, -, -, hnever⟩ := hcopy rfl
    obtain rfl : ⟨p.source, ⟨2, [], .standard, 8⟩⟩ = q := Option.some.inj hq
    exact hnever
  · exact (hcoherent "p" p hp).1 p.recipe (List.mem_cons_self ..) verdict
  · exact (hcopied "p" p hp "r").2 (.op (.range 1 none)) trivial

end Session

end StreamFusion
