import StreamFusion.Proofs.Pipeline.Searching
import StreamFusion.Proofs.Session.Memory
import StreamFusion.Proofs.Session.Numbers
import StreamFusion.Proofs.Session.Running

/-!
# Text filters in a session

A text filter is an ordinary filter. Wherever it stands, among the operations of a pipeline or of
one below its links, whatever answer the pipeline with the plain filter gives to a terminal, the
pipeline with the text filter gives it too; and if the query is rejected, it opens nothing and calls
nothing (`Session.searches_like_filters`).
-/

namespace StreamFusion

variable {α : Type}

/-- The extensions are the same, or the first one is a text filter and the second one the plain
filter that asks whether the query accepts an element. -/
inductive Extension.Searches : Extension α → Extension α → Prop where
  | same (extension : Extension α) : Searches extension extension
  | text (query : String) (fields : List String) (field : α → String → Option String) :
    Searches (.textFilter query fields field)
      (.op (.filter (.plain fun x => (TextQuery.compile query fields).accepts (field x)) none))

/-- A text filter is one more operation; that its query was rejected is noted before. -/
theorem Session.makeExtension_textFilter (p : Pipeline α) (query : String) (fields : List String)
    (field : α → String → Option String) (w : World α) : ∃ v,
      makeExtension p (.textFilter query fields field) w =
        p.push (.textFilter (.compile query fields) field) v := by
  show ∃ v, p.filterText query fields field w = _
  unfold Pipeline.filterText
  simp only
  cases (TextQuery.compile query fields).rejected with
  | none => exact ⟨w, rfl⟩
  | some reason =>
    exact ⟨{ w with journal := w.journal.record [.noted (.queryRejected query reason)] }, rfl⟩

namespace Pipeline.Searches

variable {q p : Pipeline α} (h : q.Searches p)
include h

theorem derive {ops plain : List (Op α)} (hops : List.Forall₂ Op.Searches ops plain)
    (config : Config) (w w' : World α) : ∃ q' v p' v', q.derive ops config w = .ok q' v
      ∧ p.derive plain config w' = .ok p' v' ∧ q'.Searches p' :=
  ⟨_, _, _, _, rfl, rfl, h.source, hops, rfl, h.recipe.width_eq⟩

theorem push {op plain : Op α} (hop : op.Searches plain) (w w' : World α) :
    ∃ q' v p' v', q.push op w = .ok q' v ∧ p.push plain w' = .ok p' v' ∧ q'.Searches p' := by
  rw [Pipeline.push, Pipeline.push, h.recipe.config_eq]
  exact h.derive (List.rel_append h.recipe.ops (.cons hop .nil)) _ w w'

theorem link (through : Link α) (width : Nat) (w w' : World α) : ∃ q' v p' v',
    q.link through width w = .ok q' v ∧ p.link through width w' = .ok p' v' ∧ q'.Searches p' :=
  ⟨_, _, _, _, rfl, rfl, .derived _ _ through h.source ⟨h.recipe.ops, h.recipe.config_eq,
    h.recipe.width_eq⟩, .nil, h.recipe.config_eq, rfl⟩

theorem slice (start : Int) (stop : Option Int) (w w' : World α) :
    ∃ q' v p' v', q.slice start stop w = .ok q' v ∧ p.slice start stop w' = .ok p' v'
      ∧ q'.Searches p' := by
  unfold Pipeline.slice
  rw [h.recipe.width_eq]
  split
  · exact h.push (.same _) w w'
  · exact h.push (.same _) w w'
  · exact h.link _ _ w w'

/-- What is made of the two pipelines in the same way, or with a text filter and with the plain one,
goes together as they do. -/
theorem makeExtension {extension plain : Extension α} (hextension : extension.Searches plain)
    (w w' : World α) : ∃ q' v p' v', Session.makeExtension q extension w = .ok q' v
      ∧ Session.makeExtension p plain w' = .ok p' v' ∧ q'.Searches p' := by
  cases hextension with
  | text query fields field =>
    obtain ⟨v, hfilter⟩ := Session.makeExtension_textFilter q query fields field w
    rw [hfilter]
    exact h.push (.text _ field) v w'
  | same extension =>
    cases extension with
    | op op => exact h.push (.same op) w w'
    | textFilter query fields field =>
      obtain ⟨v, hfilter⟩ := Session.makeExtension_textFilter q query fields field w
      obtain ⟨v', hfilter'⟩ := Session.makeExtension_textFilter p query fields field w'
      rw [hfilter, hfilter']
      exact h.push (.same _) v v'
    | slice start stop => exact h.slice start stop w w'
    | link through width => exact h.link through width w w'
    | config config => exact h.derive h.recipe.ops config w w'
    | copy =>
      exact ⟨_, _, _, _, rfl, rfl, h.source, h.recipe.ops, h.recipe.config_eq, h.recipe.width_eq⟩

end Pipeline.Searches

namespace Session

variable {s t : Session α}

/-- The extensions are made, and get their names. -/
theorem execute_extend_searches {base base' : String} {q p : Pipeline α}
    (hbase : s.pipelines.find? base = some q) (hbase' : t.pipelines.find? base' = some p)
    (h : q.Searches p) {extension plain : Extension α} (hextension : extension.Searches plain)
    (name name' : String) : ∃ q' p',
      (s.execute (.extend name base extension)).session.pipelines.find? name = some q'
        ∧ (t.execute (.extend name' base' plain)).session.pipelines.find? name' = some p'
        ∧ q'.Searches p' := by
  obtain ⟨q', v, p', v', hmake, hmake', hsearches⟩ := h.makeExtension hextension
    { s.world with journal := .empty } { t.world with journal := .empty }
  refine ⟨q', p', ?_, ?_, hsearches⟩
  · rw [execute, withPipeline, hbase]
    show (s.perform (makeExtension q extension) (bindPipeline name)).session.pipelines.find? _ = _
    rw [perform_bindPipeline hmake]
    exact Dictionary.find?_insert_self _ _ _
  · rw [execute, withPipeline, hbase']
    show (t.perform (makeExtension p plain) (bindPipeline name')).session.pipelines.find? _ = _
    rw [perform_bindPipeline hmake']
    exact Dictionary.find?_insert_self _ _ _

section Run

variable {ledger : Ledger α} {name : String} {q : Pipeline α} (hs : s.Knows ledger)
  (hname : s.pipelines.find? name = some q)
include hs hname

/-- Where the pipeline with the plain filter answers, so does the one with the text filter. -/
theorem reply_run_searches {plain : String} {p : Pipeline α}
    (hplain : s.pipelines.find? plain = some p) (h : q.Searches p)
    (hclaims : p.Unclaimed s.world → q.Unclaimed s.world) {terminal : Terminal α}
    (hanswers : ∀ halt, (s.execute (.run plain terminal)).reply ≠ haltReply halt) :
    (s.execute (.run name terminal)).reply = (s.execute (.run plain terminal)).reply := by
  have hcovers := runTerminal_covers h (hs.pipelines name q hname) (hs.pipelines plain p hplain)
    terminal { s.world with journal := .empty } _ ⟨rfl, hs.world.with_journal .empty, hclaims⟩
  rw [reply_run hplain] at hanswers
  rw [reply_run hname, reply_run hplain]
  cases hrun : runTerminal p terminal { s.world with journal := .empty } with
  | error halt w =>
    rw [hrun] at hanswers
    exact absurd rfl (hanswers halt)
  | ok answer w =>
    obtain ⟨answer', w', hrun', hsame⟩ := hcovers answer w hrun
    rw [hrun', hsame]

/-- With a rejected query nothing happens but planning. -/
theorem execute_run_rejected {recipe : Recipe α} (hmem : recipe ∈ q.recipes) {query : TextQuery}
    {field : α → String → Option String} (hop : .textFilter query field ∈ recipe.ops)
    (hrejected : query.isRejected = true) (terminal : Terminal α) :
    (∀ event ∈ (s.execute (.run name terminal)).events, event.IsPlanning)
      ∧ (s.execute (.run name terminal)).session.world.sources = s.world.sources := by
  have hnothing : recipe.verdict = .ok .nothing := by
    refine verdict_of_isNever hop ?_ recipe.config
    rw [Op.textFilter_of_isRejected hrejected]
    rfl
  have hplanned : World.Planned ledger { s.world with journal := .empty }
      { s.world with journal := .empty } := ⟨hs.world.with_journal _, rfl, [], nofun, rfl⟩
  have hrun := runTerminal_onlyPlans (hs.pipelines name q hname) hmem hnothing terminal _ hplanned
  have hevents : ∀ {w : World α}, World.Planned ledger { s.world with journal := .empty } w →
      ∀ event ∈ w.journal.events, event.IsPlanning := by
    intro w hw
    obtain ⟨events, hplanning, hjournal⟩ := hw.journal_eq
    rw [hjournal, Journal.events_record]
    exact hplanning
  rw [execute, withPipeline, hname]
  show (∀ event ∈ (s.perform (runTerminal q terminal) reply).events, _)
    ∧ (s.perform (runTerminal q terminal) reply).session.world.sources = _
  unfold perform
  cases hresult : runTerminal q terminal { s.world with journal := .empty } with
  | ok answer w =>
    rw [hresult] at hrun
    show (∀ event ∈ w.journal.events ++ [], _) ∧ w.sources = _
    rw [List.append_nil]
    exact ⟨hevents hrun.2, hrun.2.sources_eq⟩
  | error halt w =>
    rw [hresult] at hrun
    exact ⟨hevents hrun, hrun.sources_eq⟩

end Run

/-- However a session came to where it is: whatever a terminal of a pipeline with plain filters
answers, that terminal of the pipeline with text filters in their place answers too, unless it may
not run any more. They may stand anywhere among the operations of the pipeline or of one below its
links, in any mode and over any source. If one of the queries is rejected, a terminal does nothing
but planning: no source is opened or read, no callback is called, and what is remembered of sources
stays as it is. Pipelines made of the two in the same way, or with a text filter and with a plain
one, go together as they do. -/
theorem searches_like_filters (commands : List (Command α)) :
    let s : Session α := initial.after commands
    (∀ name plain q p, s.pipelines.find? name = some q → s.pipelines.find? plain = some p →
      q.Searches p → (p.Unclaimed s.world → q.Unclaimed s.world) → ∀ terminal,
        (∀ halt, (s.execute (.run plain terminal)).reply ≠ haltReply halt) →
        (s.execute (.run name terminal)).reply = (s.execute (.run plain terminal)).reply)
    ∧ (∀ name q, s.pipelines.find? name = some q → ∀ recipe ∈ q.recipes, ∀ query field,
      .textFilter query field ∈ recipe.ops → query.isRejected = true → ∀ terminal,
        (∀ event ∈ (s.execute (.run name terminal)).events, event.IsPlanning)
          ∧ (s.execute (.run name terminal)).session.world.sources = s.world.sources)
    ∧ ∀ (t u : Session α) base base' q p, t.pipelines.find? base = some q →
      u.pipelines.find? base' = some p → q.Searches p → ∀ extension plain : Extension α,
      extension.Searches plain → ∀ name name', ∃ q' p',
        (t.execute (.extend name base extension)).session.pipelines.find? name = some q'
          ∧ (u.execute (.extend name' base' plain)).session.pipelines.find? name' = some p'
          ∧ q'.Searches p' := by
  intro s
  obtain ⟨ledger, -, hknows⟩ := (knows_initial (α := α)).after commands
  refine ⟨fun name plain q p hname hplain h hclaims terminal hanswers => ?_,
    fun name q hname recipe hmem query field hop hrejected terminal => ?_,
    fun t u base base' q p hbase hbase' h extension plain hextension name name' => ?_⟩
  · exact reply_run_searches hknows hname hplain h hclaims hanswers
  · exact execute_run_rejected hknows hname hmem hop hrejected terminal
  · exact execute_extend_searches hbase hbase' h hextension name name'

/-- A query without fields behind a flatten, over a one-shot source. The plain filter drops all that
it reads; the text filter does not even take the cursor. What is linked to them goes together too. -/
theorem searches_like_filters_rejected :
    let field : Nat → String → Option String := fun x _ => some (toString x)
    let plain : Op Nat :=
      .filter (.plain fun x => (TextQuery.compile "seven" []).accepts (field x)) none
    let twice : Op Nat := .flatten (.plain fun x => [x, x])
    let commands : List (Command Nat) :=
      [.create "b" (.once none [some 1, some 2]) 8, .extend "b" "b" (.op twice),
        .extend "q" "b" (.textFilter "seven" [] field), .extend "p" "b" (.op plain)]
    let s : Session Nat := initial.after commands
    let linked (name : String) := s.execute (.extend name name (.link (.slice (-1) none) 8))
    (s.execute (.run "p" .toList)).reply = .elements []
      ∧ (s.execute (.run "q" .toList)).reply = .elements []
      ∧ (∀ event ∈ (s.execute (.run "q" .toList)).events, event.IsPlanning)
      ∧ ∃ q p, (linked "q").session.pipelines.find? "q" = some q
        ∧ (linked "p").session.pipelines.find? "p" = some p ∧ q.Searches p := by
  intro field plain twice commands s linked
  let source : Source Nat := .once ⟨0, none⟩ [some 1, some 2]
  let q : Pipeline Nat :=
    ⟨source, ⟨3, [twice, .textFilter (.compile "seven" []) field], .standard, 8⟩⟩
  let p : Pipeline Nat := ⟨source, ⟨4, [twice, plain], .standard, 8⟩⟩
  have hq : s.pipelines.find? "q" = some q := rfl
  have hp : s.pipelines.find? "p" = some p := rfl
  have hsearches : q.Searches p :=
    ⟨.same _, .cons (.same _) (.cons (.text _ field) .nil), rfl, rfl⟩
  have hready : p.Ready { s.world with journal := .empty } [1, 2] :=
    Pipeline.ready_of_unplanned rfl rfl (.once _ rfl)
  obtain ⟨w, hlisted⟩ : ∃ w, p.toList { s.world with journal := .empty } = .ok [] w :=
    Pipeline.toList_of_onList hready rfl rfl (by decide)
  have hplain : (s.execute (.run "p" .toList)).reply = .elements [] := by
    rw [reply_toList hp, hlisted]
  obtain ⟨hlike, hquiet, hextend⟩ := searches_like_filters commands
  refine ⟨hplain, ?_, ?_, ?_⟩
  · have hsame := hlike "q" "p" q p hq hp hsearches (fun _ => nofun) .toList
    rw [hplain] at hsame
    exact hsame fun halt => by cases halt <;> simp [haltReply]
  · exact (hquiet "q" q hq q.recipe (List.mem_cons_self ..) _ field
      (List.mem_cons_of_mem _ (List.mem_cons_self ..)) rfl .toList).1
  · exact hextend s s "q" "p" q p hq hp hsearches _ _ (.same _) "q" "p"

end Session

end StreamFusion
