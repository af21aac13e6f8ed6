import StreamFusion.Proofs.Pipeline.Cutting
import StreamFusion.Proofs.Pipeline.Prospects
import StreamFusion.Proofs.Run.Barren

/-!
# Pipelines that search

A pipeline with text filters, of its own or below its links, beside the pipeline with plain filters
in their place. Where the plain one gives a result, the other one gives the same
(`Session.runTerminal_covers`): they start alike, or the plain one starts a run that comes to
nothing, and the other one has opened nothing at all. With the filter of a rejected query nothing
happens but planning (`Session.runTerminal_onlyPlans`).
-/

namespace StreamFusion

variable {α β γ δ ε : Type}

/-- The recipe searches where the other one filters. -/
structure Recipe.Searches (q p : Recipe α) : Prop where
  ops : List.Forall₂ Op.Searches q.ops p.ops
  config_eq : q.config = p.config
  width_eq : q.width = p.width

/-- The source reads pipelines that search where those that the other one reads filter. -/
inductive Source.Searches : Source α → Source α → Prop where
  | same (source : Source α) : Searches source source
  | derived (id id' : Ident) (link : Link α) {base plain : Source α} {recipe other : Recipe α}
      (below : Searches base plain) (ops : recipe.Searches other) :
      Searches (.derived id link base recipe) (.derived id' link plain other)

/-- The pipeline is the other one with text filters in the place of plain filters, wherever these
stand. -/
structure Pipeline.Searches (q p : Pipeline α) : Prop where
  source : q.source.Searches p.source
  recipe : q.recipe.Searches p.recipe

/-- The plans are the same, or the recipe that searches lets nothing pass, and nothing comes of the
other one. -/
theorem Recipe.Searches.verdict {q p : Recipe α} (h : q.Searches p) :
    q.verdict = p.verdict ∨ q.verdict = .ok .nothing
      ∧ ∀ plan, p.verdict = .ok plan → plan.never = true ∨ plan.DropsAll := by
  unfold Recipe.verdict
  rw [h.config_eq]
  exact verdict_of_searches h.ops p.config

/-- There is room for the results of the one where there is room for those of the other one. -/
theorem Recipe.Searches.roomFor_iff {q p : Recipe α} (h : q.Searches p)
    (started : Option (Plan α × Opened α)) : q.RoomFor started ↔ p.RoomFor started := by
  cases started with
  | none => exact Iff.rfl
  | some started =>
    show _ * q.width ≤ maxBytes ↔ _ * p.width ≤ maxBytes
    rw [h.width_eq]

/-! ## What was started -/

/-- Nothing comes of what was started. -/
def StartedBarren : Option (Plan α × Opened α) → Prop
  | some started => started.1.DropsAll ∨ started.2.IsBarren
  | none => True

/-- Nothing even happens. -/
def StartedDry : Option (Plan α × Opened α) → Prop
  | some started => started.2.IsDry
  | none => True

/-- The same was opened, or nothing comes of the one and nothing happens with the other, of whose
length as much is known. -/
def Opened.CoveredBy (opened other : Opened α) : Prop :=
  opened = other ∨ opened.IsBarren ∧ other.IsDry ∧ other.lengthHint = opened.lengthHint

/-- The same was started, or nothing comes of the one and nothing happens with the other, which
needs no more room. -/
def StartedCoveredBy (started other : Option (Plan α × Opened α)) : Prop :=
  started = other ∨ StartedBarren started ∧ StartedDry other
    ∧ ∀ recipe : Recipe α, recipe.RoomFor started → recipe.RoomFor other

theorem Opened.CoveredBy.started {opened other : Opened α} (h : opened.CoveredBy other)
    (plan : Plan α) : StartedCoveredBy (some (plan, opened)) (some (plan, other)) := by
  rcases h with rfl | ⟨hbarren, hdry, hhint⟩
  · exact .inl rfl
  · refine .inr ⟨.inr hbarren, hdry, fun recipe hroom => ?_⟩
    show recipe.HasRoom (plan.capacityHint other.lengthHint)
    rw [hhint]
    exact hroom

theorem StartedCoveredBy.roomFor {started other : Option (Plan α × Opened α)}
    (h : StartedCoveredBy started other) {recipe : Recipe α} (hroom : recipe.RoomFor started) :
    recipe.RoomFor other := by
  rcases h with rfl | ⟨-, -, hneeds⟩
  · exact hroom
  · exact hneeds recipe hroom

section Started

variable {started other : Option (Plan α × Opened α)} {sink : Sink α γ} {seed : γ}

theorem StartedBarren.finish (h : StartedBarren started) {stats : Stats}
    (hresult : (startedFinish sink seed started).result = .ok stats) :
    (startedFinish sink seed started).acc = seed ∧ stats.emitted = 0 := by
  cases started with
  | none =>
    cases hresult
    exact ⟨rfl, rfl⟩
  | some started => exact Plan.run_barren h hresult

theorem StartedDry.finish (h : StartedDry started) (sink : Sink α γ) (seed : γ) :
    (startedFinish sink seed started).acc = seed ∧ (startedFinish sink seed started).events = []
      ∧ ∃ stats, (startedFinish sink seed started).result = .ok stats ∧ stats.emitted = 0 := by
  cases started with
  | none => exact ⟨rfl, rfl, _, rfl, rfl⟩
  | some started => exact Plan.run_dry h started.1 sink seed

theorem StartedBarren.intake (h : StartedBarren started) : (startedIntake started).IsBarren := by
  cases started with
  | none => exact Plan.isBarren_intake (.inr Opened.isBarren_owned)
  | some started => exact Plan.isBarren_intake h

theorem StartedDry.intake (h : StartedDry started) : (startedIntake started).IsDry := by
  cases started with
  | none => exact Plan.isDry_intake Opened.isDry_owned _
  | some started => exact Plan.isDry_intake h started.1

/-- Where a run gives a result, a run over what covers it gives the same. -/
theorem StartedCoveredBy.finish (h : StartedCoveredBy started other) {stats : Stats}
    (hresult : (startedFinish sink seed started).result = .ok stats) :
    ∃ stats', (startedFinish sink seed other).result = .ok stats'
      ∧ (startedFinish sink seed other).acc = (startedFinish sink seed started).acc
      ∧ stats'.emitted = stats.emitted := by
  rcases h with rfl | ⟨hbarren, hdry, -⟩
  · exact ⟨stats, hresult, rfl, rfl⟩
  · obtain ⟨hacc, hemitted⟩ := hbarren.finish hresult
    obtain ⟨hacc', -, stats', hresult', hemitted'⟩ := hdry.finish sink seed
    exact ⟨stats', hresult', hacc'.trans hacc.symm, hemitted'.trans hemitted.symm⟩

end Started

/-! ## Acts that cover others -/

namespace Act

variable {W : World α → World α → Prop} {R : β → γ → Prop} {S : δ → ε → Prop} {act : Act α β}
  {other : Act α γ} {next : β → Act α δ} {next' : γ → Act α ε}

/-- From worlds that `W` relates, where the first act gives a result so does the second one, and `R`
relates the results. -/
def Covers (W : World α → World α → Prop) (R : β → γ → Prop) (act : Act α β)
    (other : Act α γ) : Prop :=
  ∀ w w', W w w' → ∀ y v, act w = .ok y v → ∃ z v', other w' = .ok z v' ∧ R y z

theorem Together.covers (h : Together W R act other) : Covers W R act other := by
  intro w w' hw y v hact
  have hends := h w w' hw
  rw [hact] at hends
  generalize other w' = result at hends ⊢
  cases hends with
  | ok hR _ => exact ⟨_, _, rfl, hR⟩

namespace Covers

theorem imp {R' : β → γ → Prop} (h : Covers W R act other) (hR : ∀ y z, R y z → R' y z) :
    Covers W R' act other := by
  intro w w' hw y v hact
  obtain ⟨z, v', hother, hyz⟩ := h w w' hw y v hact
  exact ⟨z, v', hother, hR y z hyz⟩

theorem pure {y : β} {z : γ} (h : R y z) : Covers W R (Pure.pure y) (Pure.pure z) := by
  intro w w' _ y' v hact
  cases hact
  exact ⟨z, w', rfl, h⟩

theorem fail (halt : Halt α) : Covers W R (throw halt) other := by
  intro w w' _ y v hact
  cases hact

/-- What follows covers what follows, from any two worlds. -/
theorem bind (h : Covers W R act other)
    (hnext : ∀ y z, R y z → Covers (fun _ _ => True) S (next y) (next' z)) :
    Covers W S (act >>= next) (other >>= next') := by
  intro w w' hw y v hboth
  cases hact : act w with
  | error halt v =>
    rw [bind_error hact] at hboth
    cases hboth
  | ok x u =>
    rw [bind_ok hact] at hboth
    obtain ⟨z, u', hother, hR⟩ := h w w' hw x u hact
    rw [bind_ok hother]
    exact hnext x z hR u u' trivial y v hboth

end Covers

end Act

/-- Where a run gives a result, a run over what covers it has the same outcome. -/
theorem StartedCoveredBy.conduct {started other : Option (Plan α × Opened α)}
    (h : StartedCoveredBy started other) (sink : Sink α γ) (seed : γ) :
    Act.Covers (fun _ _ => True) (fun found found' => outcome seed found = outcome seed found')
      (conductStarted sink seed started) (conductStarted sink seed other) := by
  intro w w' _ found v hconduct
  cases hresult : (startedFinish sink seed started).result with
  | error culprit =>
    rw [conductStarted_error hresult] at hconduct
    cases hconduct
  | ok stats =>
    obtain ⟨stats', hresult', hacc, hemitted⟩ := h.finish hresult
    obtain ⟨_, notes, hfound, houtcome, -⟩ := conductStarted_ok hresult w
    obtain ⟨found', notes', hfound', houtcome', -⟩ := conductStarted_ok hresult' w'
    rw [hfound] at hconduct
    cases hconduct
    refine ⟨found', _, hfound', ?_⟩
    show outcome seed _ = outcome seed _
    rw [houtcome, houtcome', hacc, hemitted]

/-! ## Planning and opening -/

/-- Where there is room for the results of what was started, there is room for what covers it. -/
theorem Recipe.Searches.reserve_covers {q p : Recipe α} (h : q.Searches p)
    {started other : Option (Plan α × Opened α)} (hcovered : StartedCoveredBy started other)
    {W : World α → World α → Prop} :
    Act.Covers W Eq (p.reserveStarted started) (q.reserveStarted other) := by
  by_cases hroom : p.RoomFor started
  · rw [reserveStarted_of_roomFor hroom,
      reserveStarted_of_roomFor ((h.roomFor_iff other).2 (hcovered.roomFor hroom))]
    exact .pure rfl
  · intro w w' _ y v hreserve
    rw [reserveStarted_of_not_roomFor hroom] at hreserve
    cases hreserve

section Opening

variable {ledger : Ledger α}

namespace Recipe

variable {q p : Recipe α} {opening other : Act α (Opened α)} (hq : q.EnteredIn ledger)
  (hp : p.EnteredIn ledger) (h : q.Searches p)
  (hopening : Act.Covers (World.Abreast ledger) Opened.CoveredBy opening other)
include hq hp h hopening

theorem start_covers :
    Act.Covers (World.Abreast ledger) StartedCoveredBy (p.start opening) (q.start other) := by
  intro w w' hw started v hstart
  cases hverdict : p.verdict with
  | error refusal =>
    obtain ⟨u, -, hplan⟩ := Recipe.plan_abreast hp w' w hw
    rw [hverdict] at hplan
    rw [start, Act.bind_error hplan] at hstart
    cases hstart
  | ok plan =>
    cases hnever : plan.never with
    | true =>
      obtain ⟨plan', hverdict', hnever'⟩ : ∃ plan', q.verdict = .ok plan' ∧ plan'.never = true := by
        rcases h.verdict with hsame | ⟨hnothing, -⟩
        · exact ⟨plan, hsame.trans hverdict, hnever⟩
        · exact ⟨.nothing, hnothing, rfl⟩
      obtain ⟨_, -, hnone⟩ := start_of_never hp hverdict hnever opening w' w hw
      obtain ⟨v', -, hnone'⟩ := start_of_never hq hverdict' hnever' other w w' hw.symm
      rw [hnone] at hstart
      cases hstart
      exact ⟨none, v', hnone', .inl rfl⟩
    | false =>
      obtain ⟨u, hu, hopen⟩ := start_of_plan hp hverdict hnever opening hw
      rw [hopen] at hstart
      rcases h.verdict with hsame | ⟨hnothing, hdrops⟩
      · obtain ⟨u', hu', hopen'⟩ := start_of_plan hq (hsame.trans hverdict) hnever other hu.symm
        rw [hopen']
        have hboth := hopening.bind fun _ _ hcovered => .pure (hcovered.started plan)
        exact hboth u u' hu'.symm started v hstart
      · obtain ⟨v', -, hnone'⟩ := start_of_never hq hnothing rfl other w w' hw.symm
        refine ⟨none, v', hnone', .inr ⟨?_, trivial, fun _ _ => trivial⟩⟩
        cases hopened : opening u with
        | error halt u' =>
          rw [Act.bind_error hopened] at hstart
          cases hstart
        | ok opened u' =>
          rw [Act.bind_ok hopened] at hstart
          cases hstart
          exact .inl ((hdrops plan hverdict).resolve_left (by simp [hnever]))

/-- Collecting gives the same list. -/
theorem collect_covers :
    Act.Covers (World.Abreast ledger) Eq (p.collect opening) (q.collect other) := by
  rw [collect_eq_conduct, collect_eq_conduct]
  refine (start_covers hq hp h hopening).bind fun _ _ hcovered => ?_
  refine (h.reserve_covers hcovered).bind fun _ _ _ => ?_
  refine (hcovered.conduct .collect []).bind fun _ _ houtcome => .pure ?_
  rw [houtcome]

end Recipe

/-- A source that searches is opened wherever the other one is. -/
theorem Source.opening_covers {source plain : Source α} (h : source.Searches plain)
    (hsource : source.EnteredIn ledger) (hplain : plain.EnteredIn ledger) :
    Act.Covers (World.Abreast ledger) Opened.CoveredBy plain.opening source.opening := by
  induction h with
  | same source => exact (opening_abreast hsource).covers.imp fun _ _ => .inl
  | @derived id id' link base plain recipe other below hops ih =>
    obtain ⟨-, hrecipe, hbase⟩ := hsource
    obtain ⟨-, hother, hplain⟩ := hplain
    have hbelow := ih hbase hplain
    have hstart := Recipe.start_covers hrecipe hother hops hbelow
    cases link with
    | map f =>
      rw [opening_mapped, opening_mapped]
      refine hstart.bind fun started started' hcovered => .pure ?_
      refine hcovered.imp (fun hsame => by rw [hsame]) fun ⟨hbarren, hdry, _⟩ => ?_
      exact ⟨fun _ => Intake.isBarren_mapped f hbarren.intake,
        fun _ => Intake.isDry_mapped hdry.intake f, rfl⟩
    | flatten items =>
      rw [opening_flattened, opening_flattened]
      refine hstart.bind fun started started' hcovered => .pure ?_
      refine hcovered.imp (fun hsame => by rw [hsame]) fun ⟨hbarren, hdry, _⟩ => ?_
      exact ⟨fun _ => Intake.isBarren_flattened items hbarren.intake,
        fun _ => Intake.isDry_flattened hdry.intake items, rfl⟩
    | slice start stop =>
      exact (Recipe.collect_covers hrecipe hother hops hbelow).bind fun _ _ hfound =>
        .pure (.inl (by rw [hfound]))

variable {q p : Pipeline α} (h : q.Searches p) (hq : q.EnteredIn ledger) (hp : p.EnteredIn ledger)
include h hq hp

/-- Where a pipeline begins, the pipeline that searches begins, if it may run whenever the other one
may. -/
theorem Pipeline.begin_covers :
    Act.Covers (fun w w' => w = w' ∧ w.Knows ledger ∧ (p.Unclaimed w → q.Unclaimed w))
      StartedCoveredBy p.begin q.begin := by
  rintro w _ ⟨rfl, hw, hclaims⟩ started v hbegin
  unfold begin at hbegin ⊢
  rcases p.claim_cases w with ⟨hmay, recipes, hclaim, hsame⟩ | ⟨-, hclaim⟩
  · rcases q.claim_cases w with ⟨-, recipes', hclaim', hsame'⟩ | ⟨hmay', -⟩
    · rw [Act.bind_ok hclaim] at hbegin
      rw [Act.bind_ok hclaim']
      have habreast : World.Abreast ledger { w with recipes := recipes }
          { w with recipes := recipes' } :=
        ⟨hw.claimed hsame, hw.claimed hsame', rfl, rfl, .refl _⟩
      exact Recipe.start_covers hq.recipe hp.recipe h.recipe
        (Source.opening_covers h.source hq.source hp.source) _ _ habreast started v hbegin
    · exact absurd (hclaims hmay) hmay'
  · rw [Act.bind_error hclaim] at hbegin
    cases hbegin

/-- Where a pipeline answers a terminal, the pipeline that searches gives the same answer. -/
theorem Session.runTerminal_covers (terminal : Terminal α) :
    Act.Covers (fun w w' => w = w' ∧ w.Knows ledger ∧ (p.Unclaimed w → q.Unclaimed w)) Eq
      (runTerminal p terminal) (runTerminal q terminal) := by
  obtain ⟨γ, sink, seed, answer, -, hact⟩ := answersOutcome terminal
  rw [hact, hact]
  refine (Pipeline.begin_covers h hq hp).bind fun started other hcovered => ?_
  have hroom : Act.Covers (fun _ _ => True) Eq (makeRoom p.recipe started terminal)
      (makeRoom q.recipe other terminal) := by
    cases terminal with
    | toList => exact h.recipe.reserve_covers hcovered
    | _ => exact .pure rfl
  refine hroom.bind fun _ _ _ => (hcovered.conduct sink seed).bind fun found found' houtcome => ?_
  rw [houtcome]
  cases answer (outcome seed found') with
  | ok reply => exact .pure rfl
  | error refusal => exact .fail _

end Opening

/-! ## A rejected query -/

section Rejected

variable {ledger : Ledger α} {w : World α}

/-- The act does nothing but planning, and if it gives a result, `D` holds of that. -/
def Act.OnlyPlans (ledger : Ledger α) (w : World α) (D : β → Prop) (act : Act α β) : Prop :=
  Act.Leads (World.Planned ledger w) act (fun y v => D y ∧ World.Planned ledger w v)
    (World.Planned ledger w)

theorem Pipeline.claim_planned (p : Pipeline α) : Act.Maintains (World.Planned ledger w) p.claim := by
  intro v hv
  obtain ⟨-, recipes, hclaim, hsame⟩ | ⟨-, hclaim⟩ := p.claim_cases v
  · rw [hclaim]
    exact ⟨hv.knows.claimed hsame, hv.sources_eq, hv.journal_eq⟩
  · rw [hclaim]
    exact hv

namespace Act.OnlyPlans

variable {D : β → Prop} {E : γ → Prop} {act : Act α β} {next : β → Act α γ}

theorem bind (h : act.OnlyPlans ledger w D)
    (hnext : ∀ y, D y → (next y).OnlyPlans ledger w E) : Act.OnlyPlans ledger w E (act >>= next) :=
  Act.Leads.bind h fun y _ hv => hnext y hv.1 _ hv.2

theorem pure {y : β} (h : D y) : Act.OnlyPlans ledger w D (Pure.pure y) := fun _ hv => ⟨h, hv⟩

theorem fail {halt : Halt α} : Act.OnlyPlans ledger w D (throw halt) := fun _ hv => hv

theorem record {events : List (Event α)} (h : ∀ event ∈ events, event.IsPlanning) :
    Act.OnlyPlans ledger w (fun _ => True) (Act.record events) :=
  fun _ hv => ⟨trivial, hv.record h⟩

end Act.OnlyPlans

/-- There is nothing to let go where nothing is open. -/
theorem Opened.IsDry.discard_eq {opened : Opened α} (h : opened.IsDry) : opened.discard = [] := by
  cases opened with
  | indexed source box => rfl
  | owned items => rfl
  | sequential intake =>
    have hclosed : intake.release = [] := (h 0).closed
    cases intake with
    | cursor source answers isOpen =>
      cases isOpen with
      | true => cases hclosed
      | false => rfl
    | _ => exact hclosed

theorem StartedDry.discard_eq {started : Option (Plan α × Opened α)} (h : StartedDry started) :
    startedDiscard started = [] := by
  cases started with
  | none => rfl
  | some started => exact Opened.IsDry.discard_eq h

/-- With nothing open, nothing happens as room is made, whether there is any or not. -/
theorem Recipe.reserveStarted_onlyPlans (recipe : Recipe α) {started : Option (Plan α × Opened α)}
    (h : StartedDry started) :
    (recipe.reserveStarted started).OnlyPlans ledger w fun _ => True := by
  by_cases hroom : recipe.RoomFor started
  · rw [reserveStarted_of_roomFor hroom]
    exact .pure trivial
  · rw [reserveStarted_of_not_roomFor hroom, h.discard_eq]
    exact (Act.OnlyPlans.record (List.forall_mem_nil _)).bind fun _ _ => .fail

/-- Nothing is opened for a plan that lets nothing pass, or there is nothing to open below. -/
theorem Recipe.start_onlyPlans {recipe : Recipe α} (h : recipe.EnteredIn ledger)
    {opening : Act α (Opened α)}
    (hopening : recipe.verdict = .ok .nothing ∨ opening.OnlyPlans ledger w Opened.IsDry) :
    (recipe.start opening).OnlyPlans ledger w StartedDry := by
  have hplan : recipe.plan.OnlyPlans ledger w fun plan =>
      recipe.verdict.mapError Halt.refused = .ok plan := (Recipe.plan_planned h).leads
  refine hplan.bind fun plan hfound => ?_
  cases hnever : plan.never with
  | true =>
    have hnote : ∀ event ∈ [(.noted .notOpened : Event α)], event.IsPlanning :=
      List.forall_mem_singleton.2 trivial
    rw [if_pos rfl]
    exact (Act.OnlyPlans.record hnote).bind fun _ _ => .pure trivial
  | false =>
    rw [if_neg (by simp)]
    rcases hopening with hnothing | hopening
    · rw [hnothing] at hfound
      cases hfound
      exact absurd hnever (by simp [Plan.nothing])
    · exact hopening.bind fun _ hdry => .pure hdry

theorem StartedDry.conduct {started : Option (Plan α × Opened α)} (h : StartedDry started)
    (sink : Sink α γ) (seed : γ) :
    (conductStarted sink seed started).OnlyPlans ledger w fun found =>
      outcome seed found = (seed, 0) := by
  intro v hv
  obtain ⟨hacc, hevents, stats, hresult, hemitted⟩ := h.finish sink seed
  obtain ⟨found, notes, hconduct, houtcome, hnotes⟩ := conductStarted_ok hresult v
  rw [hevents, List.nil_append] at hconduct
  rw [hconduct]
  refine ⟨?_, hv.record hnotes⟩
  show outcome seed found = (seed, 0)
  rw [houtcome, hacc, hemitted]

/-- Where a plan on the way down lets nothing pass, nothing is opened. -/
theorem Source.opening_onlyPlans {source : Source α} (h : source.EnteredIn ledger)
    {recipe : Recipe α} (hmem : recipe ∈ source.recipes)
    (hnothing : recipe.verdict = .ok .nothing) :
    source.opening.OnlyPlans ledger w Opened.IsDry := by
  induction source with
  | container id box => exact absurd hmem List.not_mem_nil
  | replay id answers => exact absurd hmem List.not_mem_nil
  | once id answers => exact absurd hmem List.not_mem_nil
  | derived id link base other ih =>
    obtain ⟨-, hother, hbase⟩ := h
    have hstart : (other.start base.opening).OnlyPlans ledger w StartedDry := by
      refine Recipe.start_onlyPlans hother ?_
      rcases List.mem_cons.1 hmem with rfl | hmem
      · exact .inl hnothing
      · exact .inr (ih hbase hmem)
    cases link with
    | map f =>
      rw [opening_mapped]
      exact hstart.bind fun _ hdry => .pure fun _ => Intake.isDry_mapped hdry.intake f
    | flatten items =>
      rw [opening_flattened]
      exact hstart.bind fun _ hdry => .pure fun _ => Intake.isDry_flattened hdry.intake items
    | slice start stop =>
      have hcollect : (other.collect base.opening).OnlyPlans ledger w fun found => found = [] := by
        rw [Recipe.collect_eq_conduct]
        refine hstart.bind fun _ hdry => (other.reserveStarted_onlyPlans hdry).bind fun _ _ => ?_
        refine (hdry.conduct .collect []).bind fun _ houtcome => ?_
        exact .pure (by rw [houtcome]; rfl)
      refine hcollect.bind fun _ hnone => .pure ?_
      rw [hnone, sliceItems, List.take_nil, List.drop_nil]
      exact Opened.isDry_owned

/-- With a plan that lets nothing pass, a terminal does nothing but planning. -/
theorem Session.runTerminal_onlyPlans {p : Pipeline α} (h : p.EnteredIn ledger) {recipe : Recipe α}
    (hmem : recipe ∈ p.recipes) (hnothing : recipe.verdict = .ok .nothing)
    (terminal : Terminal α) :
    (runTerminal p terminal).OnlyPlans ledger w fun _ => True := by
  have hbegin : p.begin.OnlyPlans ledger w StartedDry := by
    have hclaim : p.claim.OnlyPlans ledger w fun _ => True :=
      p.claim_planned.imp (fun _ _ hv => ⟨trivial, hv⟩) fun _ => id
    refine hclaim.bind fun _ _ => Recipe.start_onlyPlans h.recipe ?_
    rcases List.mem_cons.1 hmem with rfl | hmem
    · exact .inl hnothing
    · exact .inr (Source.opening_onlyPlans h.source hmem hnothing)
  obtain ⟨γ, sink, seed, answer, -, hact⟩ := answersOutcome terminal
  rw [hact]
  refine hbegin.bind fun started hdry => ?_
  have hroom : (makeRoom p.recipe started terminal).OnlyPlans ledger w fun _ => True := by
    cases terminal with
    | toList => exact p.recipe.reserveStarted_onlyPlans hdry
    | _ => exact .pure trivial
  refine hroom.bind fun _ _ => (hdry.conduct sink seed).bind fun found _ => ?_
  cases answer (outcome seed found) with
  | ok reply => exact .pure trivial
  | error refusal => exact .fail

end Rejected

end StreamFusion
