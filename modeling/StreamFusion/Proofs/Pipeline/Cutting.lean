import StreamFusion.Proofs.Pipeline.Abreast
import StreamFusion.Proofs.Pipeline.Results
import StreamFusion.Proofs.Run.Skeletons
import StreamFusion.Proofs.Run.Staging

/-!
# Pipelines that read pipelines

A transform in the middle of a segmented pipeline may be made a link: the pipeline is cut in two,
and the second part pulls from the first one. The two pipelines begin alike
(`Pipeline.IsCut.begin`). A pipeline that flattens what another one gives begins like a pipeline
over the items (`Pipeline.begin_of_gives`).
-/

namespace StreamFusion

variable {α γ : Type}

/-! ## Plans that are not refused -/

/-- Every range gets a gate, however many there are. -/
structure Config.FallsBack (config : Config) : Prop where
  rangeMode_eq : config.rangeMode = .segmented
  overflow_eq : config.overflow = .fallback

theorem Config.FallsBack.verdict {config : Config} (h : config.FallsBack) (ops : List (Op α)) :
    (compile ops config).verdict =
      if (Draft.ofOps .segmented ops).LetsNothing then .ok .nothing
      else .ok (Draft.ofOps .segmented ops).toPlan := by
  rw [verdict_of_segmented h.rangeMode_eq]
  split
  · rfl
  · exact if_pos (.inr h.overflow_eq)

theorem Config.FallsBack.exists_plan {config : Config} (h : config.FallsBack) (ops : List (Op α)) :
    ∃ plan, (compile ops config).verdict = .ok plan := by
  rw [h.verdict]
  split
  · exact ⟨_, rfl⟩
  · exact ⟨_, rfl⟩

namespace Recipe

variable {ledger : Ledger α} {recipe : Recipe α}

/-- Nothing is opened for a plan that lets nothing pass. -/
theorem start_of_never (h : recipe.EnteredIn ledger) {plan : Plan α}
    (hverdict : recipe.verdict = .ok plan) (hnever : plan.never = true)
    (opening : Act α (Opened α)) (w' : World α) :
    Act.Answers (fun w => World.Abreast ledger w w') (recipe.start opening) (.ok none) := by
  have hplan := Recipe.plan_abreast h w'
  rw [hverdict] at hplan
  refine hplan.bind ?_
  rw [if_pos hnever]
  have hnote : Act.Answers (fun w => World.Abreast ledger w w')
      (Act.record [.noted .notOpened]) (.ok ()) := .ofChange fun w hw =>
    hw.recipes (.singleton rfl) (hw.knows.with_journal _)
  exact hnote.bind (.pure none)

/-- For any other plan the source is opened once planning is done. -/
theorem start_of_plan (h : recipe.EnteredIn ledger) {plan : Plan α}
    (hverdict : recipe.verdict = .ok plan) (hnever : plan.never = false)
    (opening : Act α (Opened α)) {w w' : World α} (hw : World.Abreast ledger w w') :
    ∃ v, World.Abreast ledger v w' ∧
      recipe.start opening w = (opening >>= fun opened => pure (some (plan, opened))) v := by
  obtain ⟨v, hv, hplan⟩ := Recipe.plan_abreast h w' w hw
  rw [hverdict] at hplan
  refine ⟨v, hv, ?_⟩
  rw [start, Act.bind_ok hplan, if_neg (by rw [hnever]; simp)]

end Recipe

/-! ## Linked sources -/

theorem Source.opening_mapped (id : Ident) (f : Callback α α) (base : Source α)
    (recipe : Recipe α) : (Source.derived id (.map f) base recipe).opening =
      recipe.start base.opening >>= fun started =>
        pure (.sequential (.mapped f (startedIntake started))) := by
  rw [opening, Recipe.openIntake_eq, bind_map_left]

theorem Source.opening_flattened (id : Ident) (items : α → List α) (base : Source α)
    (recipe : Recipe α) : (Source.derived id (.flatten items) base recipe).opening =
      recipe.start base.opening >>= fun started =>
        pure (.sequential (.flattened items [] (startedIntake started))) := by
  rw [opening, Recipe.openIntake_eq, bind_map_left]

theorem Act.bind_of_eq {β : Type} {act other : Act α β} {next : β → Act α γ} {w v : World α}
    (h : act w = other v) : (act >>= next) w = (other >>= next) v := by
  show EStateM.bind act next w = EStateM.bind other next v
  rw [EStateM.bind, EStateM.bind, h]

/-! ## A link instead of a transform -/

namespace Pipeline

/-- The pipeline `q` is `p` cut in two at a transform: it reads the first operations of `p` through
a link with the callback, and does the others. -/
structure IsCut (q p : Pipeline α) (f : Callback α α) (before behind : List (Op α)) : Prop where
  ops_eq : p.recipe.ops = before ++ .transform f :: behind
  behind_eq : q.recipe.ops = behind
  reads : ∃ id first, q.source = .derived id (.map f) p.source first ∧ first.ops = before
    ∧ first.config.FallsBack
  config : p.recipe.config.FallsBack
  config' : q.recipe.config.FallsBack

/-- If one of the two pipelines may run whenever the other one may, they begin as they are
started. -/
theorem begin_together {W : World α → World α → Prop}
    {R : Option (Plan α × Opened α) → Option (Plan α × Opened α) → Prop} {p q : Pipeline α}
    {w : World α} (hclaims : p.Unclaimed w ↔ q.Unclaimed w) (hw : W w w)
    (hstart : ∀ recipes recipes' : Nat → RecipeMemo α,
      (∀ n, (recipes n).verdict = (w.recipes n).verdict) →
      (∀ n, (recipes' n).verdict = (w.recipes n).verdict) →
      Act.EndTogether W R (p.recipe.start p.source.opening { w with recipes := recipes })
        (q.recipe.start q.source.opening { w with recipes := recipes' })) :
    Act.EndTogether W R (p.begin w) (q.begin w) := by
  unfold begin
  rcases p.claim_cases w with ⟨hmay, recipes, hclaim, hsame⟩ | ⟨hmay, hclaim⟩
  · rcases q.claim_cases w with ⟨-, recipes', hclaim', hsame'⟩ | ⟨hmay', -⟩
    · rw [Act.bind_ok hclaim, Act.bind_ok hclaim']
      exact hstart recipes recipes' hsame hsame'
    · exact absurd (hclaims.1 hmay) hmay'
  · rcases q.claim_cases w with ⟨hmay', -⟩ | ⟨-, hclaim'⟩
    · exact absurd (hclaims.2 hmay') hmay
    · rw [Act.bind_error hclaim, Act.bind_error hclaim']
      exact .error _ hw

section Cut

variable {ledger : Ledger α} {p q : Pipeline α} {f : Callback α α} {before behind : List (Op α)}

/-- Nothing is started by either of the pipelines. -/
theorem startedAlike_none {N : List (Event α) → List (Event α) → Prop} (hnil : N [] []) :
    StartedAlike N (none : Option (Plan α × Opened α)) none :=
  fun _ _ _ _ => ⟨⟨rfl, rfl⟩, hnil⟩

/-- Nothing comes of a run over a pipeline whose plan lets nothing pass. -/
theorem startedAlike_nothing (plan : Plan α) (f : Callback α α) :
    StartedAlike SameCursors
      (some (plan, .sequential (.mapped f (Plan.nothing.intake (.owned []))))) none := by
  intro γ sink _ seed
  have hdrain : drainIntake plan sink (.mapped f (Plan.nothing.intake (.owned []))) 0
      ⟨plan.start, seed, .empty⟩ = ⟨⟨plan.start, seed, .empty⟩,
        .mapped f (Plan.nothing.intake (.owned [])), 0, .exhausted⟩ := by
    rw [Plan.drainIntake_eq]
    rfl
  show (plan.runIntake sink seed _).SameTo _ ∧ SameCursors (plan.runIntake sink seed _).events _
  rw [Plan.runIntake, hdrain]
  exact ⟨⟨rfl, rfl⟩, .refl _⟩

/-- A plan that lets something pass, cut in two at a transform. -/
theorem startedAlike_mapped {whole first second last : Plan α}
    (hcut : whole.IsCut first second) (happended : second.IsAppended f.plan last)
    (hf : f.indexed = false) (hnever : first.never = false) (intake : Intake α) :
    StartedAlike SameCursors
      (some (last, .sequential (.mapped f (first.intake (.sequential intake)))))
      (some (whole, .sequential intake)) := by
  intro γ sink hsink seed
  obtain ⟨hsame, hcursors⟩ := hcut.run_mapped happended hf hnever hsink seed intake
  exact ⟨hsame, hcursors⟩

/-- What two pipelines have started comes to the same in runs, and in both it is pulled one by
one. -/
def PulledAlike (p q : Pipeline α) (started other : Option (Plan α × Opened α)) : Prop :=
  StartedAlike SameCursors started other ∧ p.recipe.StartedWith none started
    ∧ q.recipe.StartedWith none other

/-- Both pipelines are planned and their source is opened, if anything may come of it. -/
theorem IsCut.start_together (h : q.IsCut p f before behind) (hp : p.EnteredIn ledger)
    (hq : q.EnteredIn ledger) (hreads : p.source.readsAs = .sequential) (hf : f.indexed = false)
    (hbefore : ∀ op ∈ before, op.Total) (hbehind : ∀ op ∈ Op.transform f :: behind, op.Total) :
    Act.Together (World.Abreast ledger) (q.PulledAlike p)
      (q.recipe.start q.source.opening) (p.recipe.start p.source.opening) := by
  obtain ⟨id, inner, hsource, hinner, hfalls⟩ := h.reads
  obtain ⟨-, hentered, hbase⟩ : _ ∧ inner.EnteredIn ledger ∧ p.source.EnteredIn ledger := by
    have hentered := hq.source
    rw [hsource] at hentered
    exact hentered
  set first : Draft α := .ofOps .segmented before
  set last : Draft α := .ofOps .segmented behind
  set second : Draft α := .ofOps .segmented (.transform f :: behind)
  set whole : Draft α := .ofOps .segmented (before ++ .transform f :: behind)
  have hverdict : p.recipe.verdict =
      if whole.LetsNothing then .ok .nothing else .ok whole.toPlan := by
    rw [Recipe.verdict, h.ops_eq, h.config.verdict]
  have hverdict' : q.recipe.verdict =
      if last.LetsNothing then .ok .nothing else .ok last.toPlan := by
    rw [Recipe.verdict, h.behind_eq, h.config'.verdict]
  have hfirst : inner.verdict = if first.LetsNothing then .ok .nothing else .ok first.toPlan := by
    rw [Recipe.verdict, hinner, hfalls.verdict]
  have hnothing : whole.LetsNothing ↔ first.LetsNothing ∨ last.LetsNothing := by
    rw [(Draft.isAppended_ofOps before (.transform f :: behind)).letsNothing_iff,
      Draft.letsNothing_transform]
  intro w w' hw
  by_cases hlets : last.LetsNothing
  · rw [if_pos (hnothing.2 (.inr hlets))] at hverdict
    rw [if_pos hlets] at hverdict'
    obtain ⟨v, hv, hstart⟩ :=
      Recipe.start_of_never hq.recipe hverdict' rfl q.source.opening w' w hw
    obtain ⟨v', hv', hstart'⟩ :=
      Recipe.start_of_never hp.recipe hverdict rfl p.source.opening v w' hv.symm
    rw [hstart, hstart']
    exact .ok ⟨startedAlike_none (.refl []), ⟨_, hverdict', rfl⟩, _, hverdict, rfl⟩ hv'.symm
  rw [if_neg hlets] at hverdict'
  obtain ⟨v, hv, hstart⟩ :=
    Recipe.start_of_plan hq.recipe hverdict' rfl q.source.opening hw
  rw [hstart]
  rw [hsource, Source.opening_mapped]
  by_cases hlets' : first.LetsNothing
  · rw [if_pos (hnothing.2 (.inl hlets'))] at hverdict
    rw [if_pos hlets'] at hfirst
    obtain ⟨u, hu, hbelow⟩ :=
      Recipe.start_of_never hentered hfirst rfl p.source.opening w' v hv
    obtain ⟨v', hv', hstart'⟩ :=
      Recipe.start_of_never hp.recipe hverdict rfl p.source.opening u w' hu.symm
    rw [bind_assoc, Act.bind_ok hbelow, hstart']
    exact .ok ⟨startedAlike_nothing _ f, ⟨hverdict', rfl⟩, _, hverdict, rfl⟩ hv'.symm
  · rw [if_neg (mt hnothing.1 (not_or.2 ⟨hlets', hlets⟩))] at hverdict
    rw [if_neg hlets'] at hfirst
    obtain ⟨u, hu, hbelow⟩ :=
      Recipe.start_of_plan hentered hfirst rfl p.source.opening hv
    obtain ⟨v', hv', hstart'⟩ :=
      Recipe.start_of_plan hp.recipe hverdict rfl p.source.opening hu.symm
    rw [bind_assoc, Act.bind_of_eq hbelow, bind_assoc, hstart']
    refine (Source.opening_pulled hbase hreads u v' hv'.symm).bind fun opened other hsame => ?_
    obtain ⟨intake, rfl, rfl⟩ := hsame
    have hcut : whole.toPlan.IsCut first.toPlan second.toPlan :=
      Plan.isCut_ofOps hbefore hbehind
    have happended : second.toPlan.IsAppended f.plan last.toPlan :=
      Draft.isAppended_toPlan [.transform f] behind
    exact .pure ⟨startedAlike_mapped hcut happended hf rfl intake, ⟨hverdict', rfl⟩, hverdict, rfl⟩

/-- A pipeline and the pipeline that is cut in two begin alike. -/
theorem IsCut.begin (h : q.IsCut p f before behind) (hp : p.EnteredIn ledger)
    (hq : q.EnteredIn ledger) (hreads : p.source.readsAs = .sequential) (hf : f.indexed = false)
    (hbefore : ∀ op ∈ before, op.Total) (hbehind : ∀ op ∈ Op.transform f :: behind, op.Total)
    {w : World α} (hw : w.Knows ledger) (hclaims : q.Unclaimed w ↔ p.Unclaimed w) :
    Act.EndTogether (World.Abreast ledger) (q.PulledAlike p) (q.begin w) (p.begin w) := by
  refine begin_together hclaims (.refl hw) fun recipes recipes' hsame hsame' => ?_
  exact h.start_together hp hq hreads hf hbefore hbehind _ _
    ⟨hw.claimed hsame, hw.claimed hsame', rfl, rfl, .refl _⟩

end Cut

end Pipeline

/-! ## Sources that give the same elements -/

/-- A book that has what the ledger has. -/
def Ledger.book (ledger : Ledger α) (serial : Nat) : Except Refusal (Plan α) :=
  (ledger.plans serial).getD (.ok .nothing)

section Books

variable {ledger : Ledger α} {w : World α}

theorem World.Knows.keeps (h : w.Knows ledger) : w.Keeps ledger.book := by
  intro serial verdict hverdict
  rw [Ledger.book, h.plans serial verdict hverdict]
  rfl

theorem Recipe.EnteredIn.listedIn {recipe : Recipe α} (h : recipe.EnteredIn ledger) :
    recipe.ListedIn ledger.book := by
  unfold ListedIn Ledger.book
  rw [h]
  rfl

theorem Source.EnteredIn.listedIn {source : Source α} (h : source.EnteredIn ledger) :
    ∀ recipe ∈ source.recipes, recipe.ListedIn ledger.book :=
  fun _ hmem => (h.recipe hmem).listedIn

end Books

theorem Opened.Holds.feeds {opened : Opened α} {xs : List α} (h : opened.Holds xs)
    (plan : Plan α) : opened.Feeds plan xs := by
  cases opened with
  | indexed source box => exact Opened.feeds_indexed source h
  | owned items => exact h ▸ Opened.feeds_owned items
  | sequential intake => exact Opened.feeds_sequential h

/-- Runs of a plan over the same elements. -/
theorem startedAlike_of_holds (plan : Plan α) {opened other : Opened α} {xs : List α}
    (h : opened.Holds xs) (h' : other.Holds xs) :
    StartedAlike (fun _ _ => True) (some (plan, opened)) (some (plan, other)) := by
  intro γ sink _ seed
  have hsame : Drain.Agrees Eq (plan.drainList sink seed xs) (plan.drainList sink seed xs) :=
    ⟨rfl, rfl, rfl⟩
  exact ⟨((h.feeds plan).tells sink seed).sameTo ((h'.feeds plan).tells sink seed) hsame
    fun heq => ⟨congrArg RunState.acc heq, congrArg (·.counters.emitted) heq⟩, trivial⟩

namespace Pipeline

variable {ledger : Ledger α} {p q : Pipeline α} {w : World α} {xs : List α} {plan : Plan α}

theorem ready_of_entered (h : p.EnteredIn ledger)
    (hw : w.Knows ledger) (hcontract : p.recipe.config.contract = .repeatable)
    (hgives : p.source.Gives w.sources xs) : p.Ready w xs where
  unclaimed := fun hsingle => absurd (hcontract.symm.trans hsingle) (by simp)
  remembered := ⟨ledger.book, hw.keeps,
    List.forall_mem_cons.2 ⟨h.recipe.listedIn, h.source.listedIn⟩⟩
  gives := hgives

/-- The start of a pipeline whose source gives these elements, in a world with other claims. -/
theorem start_of_gives (hp : p.EnteredIn ledger) (hw : w.Knows ledger)
    (hgives : p.source.Gives w.sources xs) (hplan : p.recipe.verdict = .ok plan) :
    ∃ v, (plan.never = true ∧ p.recipe.start p.source.opening w = .ok none v)
      ∨ ∃ opened : Opened α, plan.never = false ∧ opened.Holds xs
        ∧ opened.lengthHint = p.source.lengthHint xs.length
        ∧ p.recipe.start p.source.opening w = .ok (some (plan, opened)) v := by
  cases hnever : plan.never with
  | true =>
    obtain ⟨v, hstart, -⟩ := p.recipe.start_never p.source.opening hw.keeps hp.recipe.listedIn hplan
      hnever
    exact ⟨v, .inl ⟨rfl, hstart⟩⟩
  | false =>
    obtain ⟨opened, v, hstart, hholds, hlength, -⟩ := Recipe.start_opens hw.keeps
      hp.recipe.listedIn hplan hnever (hgives.opens hp.source.listedIn)
    exact ⟨v, .inr ⟨opened, rfl, hholds, hlength, hstart⟩⟩

/-- What two pipelines have started comes to the same in runs, and both know as much as they can of
the length of a source with so many elements. -/
def GivenAlike (p q : Pipeline α) (length : Nat) (started other : Option (Plan α × Opened α)) :
    Prop :=
  StartedAlike (fun _ _ => True) started other
    ∧ p.recipe.StartedWith (p.source.lengthHint length) started
    ∧ q.recipe.StartedWith (q.source.lengthHint length) other

/-- Pipelines with the same plan over sources that give the same elements begin alike. -/
theorem begin_of_gives (hp : p.EnteredIn ledger) (hq : q.EnteredIn ledger) (hw : w.Knows ledger)
    (hgives : p.source.Gives w.sources xs) (hgives' : q.source.Gives w.sources xs)
    (hplan : p.recipe.verdict = .ok plan) (hplan' : q.recipe.verdict = .ok plan)
    (hclaims : p.Unclaimed w ↔ q.Unclaimed w) :
    Act.EndTogether (fun _ _ => True) (p.GivenAlike q xs.length) (p.begin w) (q.begin w) := by
  refine begin_together hclaims trivial fun recipes recipes' hsame hsame' => ?_
  obtain ⟨v, hstart⟩ := start_of_gives hp (hw.claimed hsame) hgives hplan
  obtain ⟨v', hstart'⟩ := start_of_gives hq (hw.claimed hsame') hgives' hplan'
  rcases hstart with ⟨hnever, hstart⟩ | ⟨opened, hnever, hholds, hlength, hstart⟩
  · rcases hstart' with ⟨-, hstart'⟩ | ⟨_, hnever', -⟩
    · rw [hstart, hstart']
      exact .ok ⟨startedAlike_none trivial, ⟨plan, hplan, hnever⟩, plan, hplan', hnever⟩ trivial
    · exact absurd (hnever.symm.trans hnever') (by simp)
  · rcases hstart' with ⟨hnever', -⟩ | ⟨other, -, hholds', hlength', hstart'⟩
    · exact absurd (hnever'.symm.trans hnever) (by simp)
    · rw [hstart, hstart']
      exact .ok ⟨startedAlike_of_holds plan hholds hholds', ⟨hplan, hlength⟩, hplan', hlength'⟩
        trivial

end Pipeline

end StreamFusion
