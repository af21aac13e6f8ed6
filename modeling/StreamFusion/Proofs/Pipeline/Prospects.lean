import StreamFusion.Proofs.Pipeline.Abreast
import StreamFusion.Proofs.Pipeline.Steady

/-!
# What a run comes to before it reads

Before the source at the bottom of a pipeline is opened, the operations of the pipeline are planned,
and then those of every pipeline that it reads. A plan that is refused ends the run, and one that
lets nothing pass ends the way down (`Pipeline.prospect`). Up to there nothing happens but planning
(`Pipeline.begin_refused`), and no one-shot source is given away (`Recipe.start_nothing`); at the
bottom one is, if there is one (`Pipeline.begin_spends`).
-/

namespace StreamFusion

variable {α β γ : Type}

/-- What a run comes to before it reads an element. -/
inductive Prospect where
  /-- A plan is refused, or the source at the bottom was used before. -/
  | refused (refusal : Refusal)
  /-- A plan lets nothing pass, and what it reads stays untouched. -/
  | nothing
  /-- The source at the bottom is opened. -/
  | opens
deriving DecidableEq, Repr

/-- What the plan of a recipe makes of what lies below. -/
def Recipe.prospect (recipe : Recipe α) (below : Prospect) : Prospect :=
  match recipe.verdict with
  | .error refusal => .refused refusal
  | .ok plan => if plan.never then .nothing else below

/-- What comes of opening a source, where one-shot sources with these numbers are spent. -/
def Source.prospect (spent : Nat → Bool) : Source α → Prospect
  | .once id _ => if spent id.serial then .refused .sourceRead else .opens
  | .derived _ _ base recipe => recipe.prospect (base.prospect spent)
  | .container .. | .replay .. => .opens

/-- What comes of running a pipeline, where one-shot sources with these numbers are spent. -/
def Pipeline.prospect (spent : Nat → Bool) (p : Pipeline α) : Prospect :=
  p.recipe.prospect (p.source.prospect spent)

/-- Which one-shot sources are spent. -/
def World.spent (w : World α) (n : Nat) : Bool := (w.sources n).isSpent

namespace Recipe

variable {recipe : Recipe α} {below : Prospect}

/-- The way down ends at this recipe, or it goes on. -/
theorem prospect_cases (recipe : Recipe α) (below : Prospect) :
    (∃ refusal, recipe.verdict = .error refusal ∧ recipe.prospect below = .refused refusal)
      ∨ ∃ plan, recipe.verdict = .ok plan ∧
        ((plan.never = true ∧ recipe.prospect below = .nothing)
          ∨ (plan.never = false ∧ recipe.prospect below = below)) := by
  unfold prospect
  cases recipe.verdict with
  | error refusal => exact .inl ⟨refusal, rfl, rfl⟩
  | ok plan =>
    refine .inr ⟨plan, rfl, ?_⟩
    cases hnever : plan.never with
    | true => exact .inl ⟨rfl, if_pos hnever⟩
    | false => exact .inr ⟨rfl, if_neg (by simp [hnever])⟩

/-- The recipe passes on what comes from below, whatever that is, or the way down ends here. -/
theorem passes_or_ends (recipe : Recipe α) :
    (∀ below, recipe.prospect below = below)
      ∨ ∃ ending, ending ≠ .opens ∧ ∀ below, recipe.prospect below = ending := by
  unfold prospect
  cases recipe.verdict with
  | error refusal => exact .inr ⟨.refused refusal, nofun, fun _ => rfl⟩
  | ok plan =>
    cases hnever : plan.never with
    | true => exact .inr ⟨.nothing, nofun, fun _ => if_pos hnever⟩
    | false => exact .inl fun _ => if_neg (by simp [hnever])

theorem prospect_of_opens (h : recipe.prospect below = .opens) (other : Prospect) :
    below = .opens ∧ recipe.prospect other = other := by
  obtain hpasses | ⟨ending, hne, hends⟩ := recipe.passes_or_ends
  · exact ⟨(hpasses below).symm.trans h, hpasses other⟩
  · exact absurd ((hends below).symm.trans h) hne

end Recipe

/-- What would be opened, was it not spent, is refused. -/
theorem Source.prospect_spent {source : Source α} {spent : Nat → Bool} {id : Ident}
    (hid : source.oneShot? = some id) (hspent : spent id.serial = true)
    (h : source.prospect (fun _ => false) = .opens) :
    source.prospect spent = .refused .sourceRead := by
  induction source with
  | once other answers =>
    obtain rfl : other = id := Option.some.inj hid
    exact if_pos hspent
  | derived other link base recipe ih =>
    obtain ⟨hbelow, hrecipe⟩ := Recipe.prospect_of_opens h (base.prospect spent)
    exact hrecipe.trans (ih hid hbelow)
  | container other box => exact absurd hid nofun
  | replay other answers => exact absurd hid nofun

/-- Where the way down ends above the source at the bottom, it does not matter what is spent. -/
theorem Source.prospect_of_ne_opens {source : Source α}
    (h : source.prospect (fun _ => false) ≠ .opens) (spent : Nat → Bool) :
    source.prospect spent = source.prospect fun _ => false := by
  induction source with
  | container id box => exact absurd rfl h
  | replay id answers => exact absurd rfl h
  | once id answers => exact absurd rfl h
  | derived id link base recipe ih =>
    obtain hpasses | ⟨ending, -, hends⟩ := recipe.passes_or_ends
    · have hbase : base.prospect (fun _ => false) ≠ .opens :=
        fun hopens => h ((hpasses _).trans hopens)
      exact congrArg recipe.prospect (ih hbase)
    · exact (hends _).trans (hends _).symm

namespace Pipeline

variable {p : Pipeline α} {spent : Nat → Bool}

theorem prospect_spent {id : Ident} (hid : p.source.oneShot? = some id)
    (hspent : spent id.serial = true) (h : p.prospect (fun _ => false) = .opens) :
    p.prospect spent = .refused .sourceRead := by
  obtain ⟨hbelow, hrecipe⟩ := Recipe.prospect_of_opens h (p.source.prospect spent)
  exact hrecipe.trans (Source.prospect_spent hid hspent hbelow)

theorem prospect_of_ne_opens (h : p.prospect (fun _ => false) ≠ .opens) (spent : Nat → Bool) :
    p.prospect spent = p.prospect fun _ => false := by
  obtain hpasses | ⟨ending, -, hends⟩ := p.recipe.passes_or_ends
  · have hsource : p.source.prospect (fun _ => false) ≠ .opens :=
      fun hopens => h ((hpasses _).trans hopens)
    exact congrArg p.recipe.prospect (Source.prospect_of_ne_opens hsource spent)
  · exact (hends _).trans (hends _).symm

end Pipeline

/-! ## Refused -/

/-- The world came from another one by planning. -/
structure World.Planned (ledger : Ledger α) (w w' : World α) : Prop where
  knows : w'.Knows ledger
  sources_eq : w'.sources = w.sources
  journal_eq : ∃ events, (∀ event ∈ events, event.IsPlanning)
    ∧ w'.journal = w.journal.record events

section Refused

variable {ledger : Ledger α} {w : World α}

theorem World.Planned.record {v : World α} (h : World.Planned ledger w v)
    {events : List (Event α)} (hplanning : ∀ event ∈ events, event.IsPlanning) :
    World.Planned ledger w { v with journal := v.journal.record events } := by
  obtain ⟨earlier, hearlier, hjournal⟩ := h.journal_eq
  refine ⟨h.knows.with_journal _, h.sources_eq, earlier ++ events, ?_, ?_⟩
  · exact fun event hmem => (List.mem_append.1 hmem).elim (hearlier event) (hplanning event)
  · show v.journal.record events = _
    rw [hjournal, Journal.record_append]

/-- Planning gives what is in the ledger, and does nothing but planning. -/
theorem Recipe.plan_planned {recipe : Recipe α} (h : recipe.EnteredIn ledger) :
    Act.Answers (World.Planned ledger w) recipe.plan (recipe.verdict.mapError .refused) := by
  intro v hv
  obtain ⟨v', hv', hplan⟩ := Recipe.plan_answers h v hv.knows
  obtain ⟨recipes, events, hplanning, hleft⟩ := recipe.plan_left v
  have hsame : v' = { v with recipes := recipes, journal := v.journal.record events } := by
    rw [hplan] at hleft
    cases hverdict : recipe.verdict <;> rw [hverdict] at hleft <;> exact hleft
  obtain ⟨-, hsources, hjournal⟩ := hv.record hplanning
  subst hsame
  exact ⟨_, ⟨hv', hsources, hjournal⟩, hplan⟩

/-- A recipe is refused for its own plan, or for what lies below. -/
theorem Recipe.start_refused {recipe : Recipe α} {opening : Act α (Opened α)} {below : Prospect}
    {refusal : Refusal} (hrecipe : recipe.EnteredIn ledger)
    (hprospect : recipe.prospect below = .refused refusal)
    (hopening : below = .refused refusal →
      Act.Answers (World.Planned ledger w) opening (.error (.refused refusal))) :
    Act.Answers (World.Planned ledger w) (recipe.start opening) (.error (.refused refusal)) := by
  have hplan : Act.Answers (World.Planned ledger w) recipe.plan
      (recipe.verdict.mapError .refused) := Recipe.plan_planned hrecipe
  obtain ⟨refusal', hverdict, hfound⟩ | ⟨plan, hverdict, ⟨-, hfound⟩ | ⟨hnever, hfound⟩⟩ :=
    recipe.prospect_cases below
  · rw [hprospect] at hfound
    obtain rfl := Prospect.refused.inj hfound
    rw [hverdict] at hplan
    exact hplan.bind_error
  · rw [hprospect] at hfound
    exact absurd hfound nofun
  · rw [hverdict] at hplan
    refine hplan.bind ?_
    rw [hnever, if_neg (by simp)]
    exact (hopening (hfound.symm.trans hprospect)).bind_error

/-- Where a source cannot be opened, nothing happens but planning. -/
theorem Source.opening_refused {source : Source α} (h : source.EnteredIn ledger)
    {refusal : Refusal} (hprospect : source.prospect w.spent = .refused refusal) :
    Act.Answers (World.Planned ledger w) source.opening (.error (.refused refusal)) := by
  induction source with
  | container id box => exact absurd hprospect nofun
  | replay id answers => exact absurd hprospect nofun
  | once id answers =>
    unfold prospect at hprospect
    split at hprospect
    · rename_i hspent
      obtain rfl := Prospect.refused.inj hprospect
      intro v hv
      have hmemo : Act.sourceMemo id v = .ok (v.sources id.serial) v := rfl
      have hspent' : (v.sources id.serial).isSpent = true := by
        rw [hv.sources_eq]
        exact hspent
      rw [opening, Act.bind_ok hmemo, if_pos hspent']
      exact ⟨v, hv, rfl⟩
    · exact absurd hprospect (by simp)
  | derived id link base recipe ih =>
    obtain ⟨-, hrecipe, hbase⟩ := h
    have hstart : Act.Answers (World.Planned ledger w) (recipe.start base.opening)
        (.error (.refused refusal)) := Recipe.start_refused hrecipe hprospect (ih hbase)
    cases link with
    | map f => exact hstart.bind_error.bind_error
    | flatten items => exact hstart.bind_error.bind_error
    | slice start stop => exact hstart.bind_error.bind_error

/-- A pipeline that may be claimed and cannot be opened does nothing but planning. -/
theorem Pipeline.begin_refused {p : Pipeline α} (h : p.EnteredIn ledger) (hknows : w.Knows ledger)
    (hfree : p.Unclaimed w) {refusal : Refusal}
    (hprospect : p.prospect w.spent = .refused refusal) :
    ∃ w' events, p.begin w = .error (.refused refusal) w'
      ∧ (∀ event ∈ events, event.IsPlanning) ∧ w'.journal = w.journal.record events := by
  obtain ⟨-, recipes, hclaim, hsame⟩ | ⟨hnot, -⟩ := p.claim_cases w
  · have hclaimed : World.Planned ledger w { w with recipes := recipes } :=
      ⟨hknows.claimed hsame, rfl, [], nofun, rfl⟩
    obtain ⟨w', hw', hstart⟩ := Recipe.start_refused h.recipe hprospect
      (Source.opening_refused h.source) _ hclaimed
    obtain ⟨events, hplanning, hjournal⟩ := hw'.journal_eq
    refine ⟨w', events, ?_, hplanning, hjournal⟩
    rw [begin, Act.bind_ok hclaim]
    exact hstart
  · exact absurd hfree hnot

end Refused

/-! ## Nothing and opened -/

/-- Whether a source is spent is not changed by any other act. -/
theorem World.steady_spent (n : Nat) (b : Bool) : Steady fun w : World α => w.spent n = b where
  record := fun _ _ h => h
  fresh := fun _ h => h
  recipe := fun _ _ _ h => h
  reading := by
    intro id found w hw
    show (if n = id.serial then _ else w.sources n : SourceMemo).isSpent = b
    split <;> exact hw

/-- A run over what was opened keeps up what is steady. -/
theorem World.Steady.conduct {P : World α → Prop} (h : Steady P) (plan : Plan α)
    (opened : Opened α) {sink : Sink α γ} (hsink : sink.Silent) (seed : γ) :
    Act.Maintains P (plan.conduct opened sink seed) := by
  have hnote : ∀ note, Untaken [(.noted note : Event α)] := fun _ => .singleton fun _ => nofun
  refine (h.record (plan.run_tended hsink seed opened).untaken).bind fun _ => ?_
  cases (plan.run sink seed opened).result with
  | ok stats => exact (h.record (hnote _)).bind fun _ => .pure fun _ h => h
  | error culprit => exact .fail fun _ h => h

/-- Making room for what was opened keeps up what is steady. -/
theorem World.Steady.reserve {P : World α → Prop} (h : Steady P) (recipe : Recipe α)
    (plan : Plan α) (opened : Opened α) : Act.Maintains P (recipe.reserve plan opened) := by
  refine recipe.reserve_leads (h.record ?_)
  rcases opened.discard_cases with ⟨c, -, hdiscard⟩ | ⟨intake, -, hdiscard⟩
  · rw [hdiscard]
    exact .singleton fun _ => nofun
  · rw [hdiscard]
    exact intake.release_tended.untaken

/-- Once the recipe below a link was started, what opening the link goes on to do is to make room for
its results and to run it, if it is cut from behind, and nothing else. -/
theorem Source.opening_derived_leads {id : Ident} {link : Link α} {base : Source α}
    {recipe : Recipe α} {P Q : World α → Prop}
    (hstart : Act.Leads P (recipe.start base.opening) (fun _ => Q) Q)
    (hreserve : ∀ (plan : Plan α) opened, Act.Maintains Q (recipe.reserve plan opened))
    (hconduct : ∀ (plan : Plan α) opened, Act.Maintains Q (plan.conduct opened .collect [])) :
    Act.Leads P (Source.derived id link base recipe).opening (fun _ => Q) Q := by
  have hintake : Act.Leads P (recipe.openIntake base.opening) (fun _ => Q) Q := by
    refine hstart.bind fun started => ?_
    cases started <;> exact .pure fun _ h => h
  have hcollect : Act.Leads P (recipe.collect base.opening) (fun _ => Q) Q := by
    refine hstart.bind fun started => ?_
    cases started with
    | none => exact .pure fun _ h => h
    | some started =>
      exact (hreserve started.1 started.2).bind fun _ =>
        (hconduct started.1 started.2).bind fun _ => .pure fun _ h => h
  cases link with
  | map f => exact hintake.bind fun _ => .pure fun _ h => h
  | flatten items => exact hintake.bind fun _ => .pure fun _ h => h
  | slice start stop => exact hcollect.bind fun _ => .pure fun _ h => h

variable {ledger : Ledger α}

section Nothing

variable {P : World α → Prop} (h : World.Steady P)
include h

/-- A recipe lets nothing pass, or nothing comes from below. -/
theorem Recipe.start_nothing {recipe : Recipe α} {opening : Act α (Opened α)} {below : Prospect}
    (hrecipe : recipe.EnteredIn ledger) (hprospect : recipe.prospect below = .nothing)
    (hopening : below = .nothing →
      Act.Maintains (fun w => w.Knows ledger ∧ P w) opening) :
    Act.Maintains (fun w => w.Knows ledger ∧ P w) (recipe.start opening) := by
  have hplan := (Recipe.plan_answers hrecipe).leads.and (h.plan recipe)
  have hnote : Act.Maintains (fun w => w.Knows ledger ∧ P w)
      (Act.record [.noted .notOpened]) :=
    (Act.record_answers _).maintains.and (h.record (.singleton fun _ => nofun))
  have hnone : Act.Maintains (fun w => w.Knows ledger ∧ P w) (do
      Act.record [.noted .notOpened]
      pure (none : Option (Plan α × Opened α))) := hnote.bind fun _ => .pure fun _ h => h
  refine hplan.bind fun plan w ⟨⟨hfound, hknows⟩, hw⟩ => ?_
  obtain ⟨refusal, hverdict, -⟩ | ⟨plan', hverdict, ⟨hnever, -⟩ | ⟨hnever, hbelow⟩⟩ :=
    recipe.prospect_cases below
  · rw [hverdict] at hfound
    exact absurd hfound nofun
  · rw [hverdict] at hfound
    obtain rfl := Except.ok.inj hfound
    rw [if_pos hnever]
    exact hnone w ⟨hknows, hw⟩
  · -- elements may pass, so it is from below that nothing comes
    rw [hverdict] at hfound
    obtain rfl := Except.ok.inj hfound
    have hsome : Act.Maintains (fun w => w.Knows ledger ∧ P w) (do
        let opened ← opening
        pure (some (plan', opened))) :=
      (hopening (hbelow.symm.trans hprospect)).bind fun _ => .pure fun _ h => h
    rw [hnever, if_neg (by simp)]
    exact hsome w ⟨hknows, hw⟩

theorem Source.opening_nothing {source : Source α} (hentered : source.EnteredIn ledger)
    {spent : Nat → Bool} (hprospect : source.prospect spent = .nothing) :
    Act.Maintains (fun w => w.Knows ledger ∧ P w) source.opening := by
  induction source with
  | container id box => exact absurd hprospect nofun
  | replay id answers => exact absurd hprospect nofun
  | once id answers =>
    unfold prospect at hprospect
    split at hprospect <;> exact absurd hprospect nofun
  | derived id link base recipe ih =>
    obtain ⟨-, hrecipe, hbase⟩ := hentered
    have hroom : ∀ (plan : Plan α) opened,
        Act.Maintains (fun w => w.Knows ledger ∧ P w) (recipe.reserve plan opened) :=
      fun plan opened => (recipe.reserve_leads (Act.record_answers _).maintains).and
        (h.reserve recipe plan opened)
    refine opening_derived_leads (Recipe.start_nothing h hrecipe hprospect (ih hbase)) hroom
      fun plan opened => ?_
    have hknows : Act.Maintains (World.Knows ledger) (plan.conduct opened .collect []) :=
      @Upkeep.conduct _ _ _ _ _ [] (World.upkeep_knows ledger) plan opened _
        Sink.onlyCalls_collect []
    exact hknows.and (h.conduct plan opened Sink.silent_collect [])

end Nothing

section Opens

variable {id : Ident}

/-- The recipe lets what lies below be opened. -/
theorem Recipe.start_spends {recipe : Recipe α} {opening : Act α (Opened α)} {below : Prospect}
    (hrecipe : recipe.EnteredIn ledger) (hprospect : recipe.prospect below = .opens)
    (hopening : Act.Leads (World.Knows ledger) opening (fun _ w => w.spent id.serial = true)
      fun w => w.spent id.serial = true) :
    Act.Leads (World.Knows ledger) (recipe.start opening)
      (fun _ w => w.spent id.serial = true) fun w => w.spent id.serial = true := by
  have hplan := Recipe.plan_answers hrecipe
  obtain ⟨refusal, -, hfound⟩ | ⟨plan, hverdict, ⟨-, hfound⟩ | ⟨hnever, -⟩⟩ :=
    recipe.prospect_cases below
  · exact absurd (hprospect.symm.trans hfound) nofun
  · exact absurd (hprospect.symm.trans hfound) nofun
  · rw [hverdict] at hplan
    refine hplan.bind_leads ?_
    rw [hnever, if_neg (by simp)]
    exact hopening.bind fun _ => .pure fun _ h => h

/-- However opening it ends, the one-shot source at the bottom is spent. -/
theorem Source.opening_spends {source : Source α} (hentered : source.EnteredIn ledger)
    (hid : source.oneShot? = some id) (hprospect : source.prospect (fun _ => false) = .opens) :
    Act.Leads (World.Knows ledger) source.opening (fun _ w => w.spent id.serial = true)
      fun w => w.spent id.serial = true := by
  have hsteady := World.steady_spent (α := α) id.serial true
  induction source with
  | container other box => exact absurd hid nofun
  | replay other answers => exact absurd hid nofun
  | once other answers =>
    obtain rfl : other = id := Option.some.inj hid
    intro w _
    have hmemo : Act.sourceMemo other w = .ok (w.sources other.serial) w := rfl
    rw [opening, Act.bind_ok hmemo]
    by_cases hspent : (w.sources other.serial).isSpent = true
    · rw [if_pos hspent]
      exact hspent
    · rw [if_neg hspent]
      show (if other.serial = other.serial then _ else _ : SourceMemo).isSpent = true
      rw [if_pos rfl]
  | derived other link base recipe ih =>
    obtain ⟨-, hrecipe, hbase⟩ := hentered
    obtain ⟨hbelow, -⟩ := Recipe.prospect_of_opens hprospect .opens
    exact opening_derived_leads (Recipe.start_spends hrecipe hprospect (ih hbase hid hbelow))
      (fun plan opened => hsteady.reserve recipe plan opened)
      fun plan opened => hsteady.conduct plan opened Sink.silent_collect []

end Opens

namespace Pipeline

variable {p : Pipeline α}

theorem begin_nothing (h : p.EnteredIn ledger) {spent : Nat → Bool}
    (hprospect : p.prospect spent = .nothing) {P : World α → Prop} (hsteady : World.Steady P) :
    Act.Maintains (fun w => w.Knows ledger ∧ P w) p.begin :=
  (((World.upkeep_knows ledger).claim p []).and (hsteady.claim p)).bind fun _ =>
    Recipe.start_nothing hsteady h.recipe hprospect (Source.opening_nothing hsteady h.source)

theorem begin_spends (h : p.EnteredIn ledger) {id : Ident} (hid : p.source.oneShot? = some id)
    (hprospect : p.prospect (fun _ => false) = .opens) :
    Act.Leads (fun w => w.Knows ledger ∧ p.Unclaimed w) p.begin
      (fun _ w => w.spent id.serial = true) fun w => w.spent id.serial = true := by
  rintro w ⟨hknows, hfree⟩
  obtain ⟨-, recipes, hclaim, hsame⟩ | ⟨hnot, -⟩ := p.claim_cases w
  · obtain ⟨hbelow, -⟩ := Recipe.prospect_of_opens hprospect .opens
    rw [begin, Act.bind_ok hclaim]
    exact Recipe.start_spends h.recipe hprospect (Source.opening_spends h.source hid hbelow) _
      (hknows.claimed hsame)
  · exact absurd hfree hnot

end Pipeline

end StreamFusion
