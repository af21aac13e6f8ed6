import StreamFusion.Proofs.Pipeline.Prospects

/-!
# Dropped cursors

Nothing is known of the length of a cursor. Where the elements of a cursor are collected right above
it, room is made for as many as the limit allows; if a list cannot hold that many, the cursor is
dropped as soon as it was opened (`Source.Drops`). Such a run does nothing else to a cursor, and no
other run drops one (`Session.runTerminal_drops`); nor does the making of any other iterator
(`Pipeline.iterate_drops`).
-/

namespace StreamFusion

variable {α β γ : Type}

/-! ## Events -/

/-- By none of these events a cursor was dropped. -/
def Undropped (events : List (Event α)) : Prop := ∀ c, Event.dropped c ∉ events

/-- The cursor was dropped as soon as it was opened. -/
def DroppedAtOnce (c : Ident) (own : List (Event α)) : Prop :=
  ∃ opening : Event α, (opening = .opened c ∨ opening = .taken c) ∧ own = [opening, .dropped c]

/-- Nothing happened to a cursor, or it was opened and dropped. -/
def OnlyDropped (events : List (Event α)) : Prop :=
  ∀ c, ofCursor c events = [] ∨ DroppedAtOnce c (ofCursor c events)

theorem dropped_mem_ofCursor {c : Ident} {events : List (Event α)} (h : .dropped c ∈ events) :
    .dropped c ∈ ofCursor c events := List.mem_filter.2 ⟨h, by simp [Event.cursor?]⟩

theorem Undropped.append {first second : List (Event α)} (h : Undropped first)
    (h' : Undropped second) : Undropped (first ++ second) :=
  fun c hmem => (List.mem_append.1 hmem).elim (h c) (h' c)

theorem Undropped.singleton {event : Event α} (h : ∀ c, event ≠ .dropped c) : Undropped [event] :=
  fun c hmem => h c (List.mem_singleton.1 hmem).symm

/-- Moves of intakes drop nothing. -/
theorem Undropped.observes : Observes fun _ (events : List (Event α)) _ => Undropped events where
  nil := fun _ _ => List.not_mem_nil
  append := append
  read := fun _ _ _ => singleton fun _ => nofun
  called := fun _ _ _ _ => singleton fun _ => nofun
  pulled := fun _ _ => singleton fun _ => nofun
  ended := fun _ => singleton fun _ => nofun
  closed := fun _ => singleton fun _ => nofun

theorem Silent.undropped {events : List (Event α)} (h : Silent events) : Undropped events := by
  intro c hmem
  have hown := dropped_mem_ofCursor hmem
  rw [h.ofCursor c] at hown
  cases hown

/-- A cursor that was opened is dropped, and nothing happened to any other one. -/
theorem OnlyDropped.of_opened {c : Ident} {opening : Event α}
    (hopening : opening = .opened c ∨ opening = .taken c) {events : List (Event α)}
    (hown : ∀ d, ofCursor d events = if d = c then [opening] else []) :
    OnlyDropped (events ++ [.dropped c]) := by
  intro d
  rw [ofCursor_append, hown d]
  by_cases hd : d = c
  · subst hd
    rw [if_pos rfl, ofCursor_singleton rfl]
    exact .inr ⟨opening, hopening, rfl⟩
  · have hother : ofCursor d [(.dropped c : Event α)] = [] :=
      ofCursor_singleton_of_ne fun hsame => hd (Option.some.inj hsame).symm
    rw [if_neg hd, hother]
    exact .inl rfl

theorem Silent.onlyDropped {events : List (Event α)} (h : Silent events) : OnlyDropped events :=
  fun c => .inl (h.ofCursor c)

/-- A cursor that has not come to be lost was not dropped. -/
theorem CursorStage.dropped_not_mem {c : Ident} {events : List (Event α)}
    {stage final : CursorStage} (hfinal : final ≠ .lost)
    (h : stage.afterAll c events = some final) : .dropped c ∉ events := by
  intro hmem
  obtain ⟨before, behind, rfl⟩ := List.append_of_mem hmem
  rw [afterAll_append, Option.bind_eq_some_iff] at h
  obtain ⟨middle, -, h⟩ := h
  rw [← List.singleton_append, afterAll_append, afterAll_singleton rfl,
    Option.bind_eq_some_iff] at h
  obtain ⟨later, hlater, h⟩ := h
  cases middle with
  | underway =>
    cases hlater
    exact hfinal (eq_of_over (.inr rfl) h)
  | _ => cases hlater

/-- The holder of a cursor does not drop it. -/
theorem Tended.undropped {before after : Option Ident} {events : List (Event α)}
    (h : Tended before events after) : Undropped events := by
  intro c hmem
  by_cases hbefore : before = some c
  · refine CursorStage.dropped_not_mem ?_ (h.own c hbefore) hmem
    split <;> simp
  · have hown := dropped_mem_ofCursor hmem
    rw [h.others c hbefore] at hown
    cases hown

/-- Without a cursor, nothing is done to one. -/
theorem Tended.silent {after : Option Ident} {events : List (Event α)}
    (h : Tended none events after) : Silent events := by
  intro event hmem
  refine Option.eq_none_iff_forall_ne_some.2 fun c hc => ?_
  have hown : event ∈ ofCursor c events := List.mem_filter.2 ⟨hmem, by simp [hc]⟩
  rw [h.others c nofun] at hown
  cases hown

/-- What has no cursor is let go silently. -/
theorem Opened.discard_silent {opened : Opened α} (h : opened.openCursor? = none) :
    Silent opened.discard := by
  rcases opened.discard_cases with ⟨c, hcursor, -⟩ | ⟨intake, hcursor, hdiscard⟩
  · rw [h] at hcursor
    cases hcursor
  · rw [hdiscard]
    have htended := intake.release_tended
    rw [← hcursor, h] at htended
    exact htended.silent

/-! ## Which cursors are dropped -/

namespace Source

/-- The source gives a cursor of a user. -/
def IsCursor : Source α → Prop
  | .replay .. | .once .. => True
  | _ => False

/-- The recipe by which the elements of the cursor at the bottom are collected right above it, if
they are; `above` is the recipe by which the elements of the source are collected. -/
def collector? : Source α → Option (Recipe α) → Option (Recipe α)
  | .container .., _ => none
  | .replay .., above | .once .., above => above
  | .derived _ (.slice ..) base recipe, _ => base.collector? (some recipe)
  | .derived _ _ base _, _ => base.collector? none

/-- The cursor at the bottom is dropped when it was opened. -/
def Drops (source : Source α) (above : Option (Recipe α)) : Prop :=
  ∃ recipe, source.collector? above = some recipe ∧ recipe.Overflows none

theorem collector?_of_not_isCursor {source : Source α} (h : ¬ source.IsCursor)
    (above : Option (Recipe α)) : source.collector? above = source.collector? none := by
  cases source with
  | container id box => rfl
  | replay id answers => exact absurd trivial h
  | once id answers => exact absurd trivial h
  | derived id link base recipe => cases link <;> rfl

theorem drops_iff_of_not_isCursor {source : Source α} (h : ¬ source.IsCursor)
    (above : Option (Recipe α)) : source.Drops above ↔ source.Drops none := by
  rw [Drops, collector?_of_not_isCursor h]
  rfl

theorem drops_iff_of_isCursor {source : Source α} (h : source.IsCursor)
    (above : Option (Recipe α)) :
    source.Drops above ↔ ∃ recipe, above = some recipe ∧ recipe.Overflows none := by
  cases source with
  | replay id answers => rfl
  | once id answers => rfl
  | container id box => exact h.elim
  | derived id link base recipe => exact h.elim

end Source

/-! ## Quiet worlds -/

/-- Nothing of what was recorded happened to a cursor. -/
def World.Untouched (w : World α) : Prop := Silent w.journal.events

theorem World.Untouched.record {w : World α} (h : w.Untouched) {events : List (Event α)}
    (hevents : Silent events) (v : World α) :
    World.Untouched { v with journal := w.journal.record events } := by
  show Silent (w.journal.record events).events
  rw [Journal.events_record]
  exact h.append hevents

theorem Recipe.plan_untouched (recipe : Recipe α) :
    Act.Maintains World.Untouched recipe.plan := by
  intro w hw
  obtain ⟨recipes, events, hsilent, hleft⟩ := recipe.plan_silent w
  have hlater := hw.record hsilent { w with recipes := recipes }
  rw [← hleft] at hlater
  cases hplan : recipe.plan w with
  | ok plan v =>
    rw [hplan] at hlater
    exact hlater
  | error halt v =>
    rw [hplan] at hlater
    exact hlater

theorem Source.readingClass_untouched (source : Source α) :
    Act.Maintains World.Untouched source.readingClass := by
  have hclassify : Act.Maintains World.Untouched source.classify := by
    cases source with
    | container id box =>
      rw [classify]
      by_cases hempty : box.size = 0
      · rw [if_pos hempty]
        exact .pure fun _ h => h
      · rw [if_neg hempty]
        have hprobed : Act.Maintains World.Untouched (Act.record [(.probed id : Event α)]) :=
          fun w hw => hw.record (.singleton rfl) w
        exact hprobed.bind fun _ => .pure fun _ h => h
    | derived id link base recipe => cases link <;> exact .pure fun _ h => h
    | _ => exact .pure fun _ h => h
  refine (Act.Leads.sourceMemo _).bind fun memo => ?_
  cases memo.kindOfReading with
  | some known => exact .pure fun _ h => h
  | none =>
    exact hclassify.bind fun found =>
      Act.Leads.bind (Q := fun _ => World.Untouched) (fun _ h => h) fun _ => .pure fun _ h => h

/-- The world knows the ledger, and nothing happened to a cursor. -/
def World.Quiet (ledger : Ledger α) (w : World α) : Prop := w.Knows ledger ∧ w.Untouched

variable {ledger : Ledger α}

/-- What planning gives for a recipe, or why there is none. -/
theorem Recipe.plan_quiet {recipe : Recipe α} (h : recipe.EnteredIn ledger) :
    Act.Leads (World.Quiet ledger) recipe.plan
      (fun plan w => recipe.verdict = .ok plan ∧ w.Quiet ledger) (World.Quiet ledger) :=
  ((Recipe.plan_answers h).leads.and recipe.plan_untouched).imp
    (fun _ _ h => ⟨recipe.verdict_of_answer h.1.1, h.1.2, h.2⟩) fun _ h => h

theorem Act.record_quiet {events : List (Event α)} (h : Silent events) :
    Act.Maintains (World.Quiet ledger) (Act.record events) :=
  fun w hw => ⟨hw.1.with_journal _, hw.2.record h w⟩

theorem Source.readingClass_quiet {source : Source α} (h : source.EnteredIn ledger) :
    Act.Maintains (World.Quiet ledger) source.readingClass :=
  (readingClass_answers h).maintains.and source.readingClass_untouched

theorem Pipeline.claim_quiet (p : Pipeline α) : Act.Maintains (World.Quiet ledger) p.claim := by
  intro w hw
  obtain ⟨-, recipes, hclaim, hsame⟩ | ⟨-, hclaim⟩ := p.claim_cases w
  · rw [hclaim]
    exact ⟨hw.1.claimed hsame, hw.2⟩
  · rw [hclaim]
    exact hw

/-! ## Opening and running -/

/-- If `D`, cursors were dropped as soon as they were opened; otherwise none was dropped. -/
def DropsIf (D : Prop) (events : List (Event α)) : Prop :=
  (D → OnlyDropped events) ∧ (¬ D → Undropped events)

/-- No cursor was dropped, and if `D`, nothing at all happened to one. -/
def SparesIf (D : Prop) (events : List (Event α)) : Prop := Undropped events ∧ (D → Silent events)

theorem Silent.dropsIf {events : List (Event α)} (h : Silent events) (D : Prop) :
    DropsIf D events := ⟨fun _ => h.onlyDropped, fun _ => h.undropped⟩

theorem SparesIf.dropsIf {D : Prop} {events : List (Event α)} (h : SparesIf D events) :
    DropsIf D events := ⟨fun hD => (h.2 hD).onlyDropped, fun _ => h.1⟩

/-- What happens last does not drop a cursor, and if `D`, it happens to none. -/
theorem SparesIf.append {D : Prop} {first second : List (Event α)} (h : SparesIf D first)
    (h' : SparesIf D second) : SparesIf D (first ++ second) :=
  ⟨h.1.append h'.1, fun hD => (h.2 hD).append (h'.2 hD)⟩

/-- What was opened, and what happened until then: a cursor was opened if the source is one, and
otherwise, if `D`, there is none. -/
def Source.OpenedAs (source : Source α) (D : Prop) (opened : Opened α)
    (events : List (Event α)) : Prop :=
  (source.IsCursor ∧ ∃ (c : Ident) (answers : List (Option α)) (opening : Event α),
      (opening = .opened c ∨ opening = .taken c)
      ∧ opened = .sequential (.cursor c answers true)
      ∧ ∀ d, ofCursor d events = if d = c then [opening] else [])
    ∨ ¬ source.IsCursor ∧ SparesIf D events ∧ SparesIf D opened.discard
      ∧ (D → opened.openCursor? = none)

/-- The cursor of a user is opened. -/
theorem Source.openedAs_cursor {source : Source α} (h : source.IsCursor) {D : Prop} {c : Ident}
    {opening : Event α} (hopening : opening = .opened c ∨ opening = .taken c)
    {events : List (Event α)} (hsilent : Silent events) (answers : List (Option α)) :
    source.OpenedAs D (.sequential (.cursor c answers true)) (events ++ [opening]) := by
  refine .inl ⟨h, c, answers, opening, hopening, rfl, fun d => ?_⟩
  have hcursor : opening.cursor? = some c := by
    rcases hopening with rfl | rfl <;> rfl
  rw [ofCursor_append, hsilent.ofCursor d, List.nil_append]
  by_cases hd : d = c
  · rw [if_pos hd, hd, ofCursor_singleton hcursor]
  · rw [if_neg hd]
    refine ofCursor_singleton_of_ne fun hsame => hd ?_
    exact Option.some.inj (hsame.symm.trans hcursor)

/-- What is pulled through a link, or is at hand, lets its cursor go in time. -/
theorem Source.openedAs_of_release {source : Source α} (h : ¬ source.IsCursor) {D : Prop}
    {opened : Opened α} {events : List (Event α)} (hevents : SparesIf D events)
    (hnone : D → opened.openCursor? = none)
    (hdiscard : ∃ intake : Intake α, opened.discard = intake.release) :
    source.OpenedAs D opened events := by
  refine .inr ⟨h, hevents, ⟨?_, fun hD => Opened.discard_silent (hnone hD)⟩, hnone⟩
  obtain ⟨intake, hdiscard⟩ := hdiscard
  rw [hdiscard]
  exact intake.release_tended.undropped

/-- A run can go on over what was opened, if no room has to be made for it. -/
theorem Source.OpenedAs.spares {source : Source α} {opened : Opened α} {events : List (Event α)}
    (h : source.OpenedAs (source.Drops none) opened events) :
    SparesIf (source.Drops none) events ∧ (source.Drops none → opened.openCursor? = none) := by
  rcases h with ⟨hcursor, c, answers, opening, hopening, -, hown⟩ | ⟨-, hevents, -, hnone⟩
  · have hkeeps : ¬ source.Drops none := by
      rw [drops_iff_of_isCursor hcursor]
      exact nofun
    refine ⟨⟨fun d hmem => ?_, fun hD => absurd hD hkeeps⟩, fun hD => absurd hD hkeeps⟩
    have hmem := dropped_mem_ofCursor hmem
    rw [hown d] at hmem
    split at hmem
    · have hdropped := List.mem_singleton.1 hmem
      rcases hopening with rfl | rfl <;> cases hdropped
    · cases hmem
  · exact ⟨hevents, hnone⟩

/-- What was started, and what happened until then: no cursor was dropped, and if `D`, nothing
happened to one and none is open. -/
def SparedAs (D : Prop) (started : Option (Plan α × Opened α)) (w : World α) : Prop :=
  SparesIf D w.journal.events
    ∧ (D → ∀ plan opened, started = some (plan, opened) → opened.openCursor? = none)

/-- A run over what was started, once there is room. -/
theorem conductStarted_spares (D : Prop) (started : Option (Plan α × Opened α)) {sink : Sink α γ}
    (hsink : sink.Silent) (seed : γ) :
    Act.Leads (SparedAs D started) (conductStarted sink seed started)
      (fun _ w => SparesIf D w.journal.events) (fun w => DropsIf D w.journal.events) := by
  have hrecord : ∀ {events : List (Event α)}, SparesIf D events →
      Act.Maintains (fun w : World α => SparesIf D w.journal.events) (Act.record events) := by
    intro events hevents w hw
    show SparesIf D (w.journal.record events).events
    rw [Journal.events_record]
    exact hw.append hevents
  have hnote : ∀ note, SparesIf D [(.noted note : Event α)] := fun _ =>
    ⟨(Silent.singleton rfl).undropped, fun _ => .singleton rfl⟩
  cases started with
  | none => exact .pure fun _ h => h.1
  | some started =>
    rintro w ⟨hspares, hnone⟩
    have hrun : SparesIf D (started.1.run sink seed started.2).events := by
      have htended := started.1.run_tended hsink seed started.2
      refine ⟨htended.undropped, fun hD => ?_⟩
      rw [hnone hD _ _ rfl] at htended
      exact htended.silent
    have hconduct : Act.Maintains (fun w : World α => SparesIf D w.journal.events)
        (started.1.conduct started.2 sink seed) := by
      refine (hrecord hrun).bind fun _ => ?_
      cases (started.1.run sink seed started.2).result with
      | ok stats => exact (hrecord (hnote _)).bind fun _ => .pure fun _ h => h
      | error culprit => exact .fail fun _ h => h
    exact (hconduct.map some).imp (fun _ _ h => h) (fun _ h => h.dropsIf) w hspares

section Recipes

variable {recipe : Recipe α}

/-- What was started: nothing, or the plan of the recipe over what was opened. -/
def Recipe.StartedAs (recipe : Recipe α) (ledger : Ledger α) (Q : Opened α → World α → Prop)
    (started : Option (Plan α × Opened α)) (w : World α) : Prop :=
  (started = none ∧ w.Quiet ledger) ∨ ∃ plan opened,
    started = some (plan, opened) ∧ recipe.verdict = .ok plan ∧ Q opened w

theorem Recipe.start_quiet (hrecipe : recipe.EnteredIn ledger) {opening : Act α (Opened α)}
    {Q : Opened α → World α → Prop} {E : World α → Prop}
    (hopening : Act.Leads (World.Quiet ledger) opening Q E)
    (hquiet : ∀ w : World α, w.Quiet ledger → E w) :
    Act.Leads (World.Quiet ledger) (recipe.start opening) (recipe.StartedAs ledger Q) E := by
  have hplan := (Recipe.plan_quiet hrecipe).imp (fun _ _ h => h) hquiet
  have hnote : Act.Leads (World.Quiet ledger) (Act.record [.noted .notOpened])
      (fun _ => World.Quiet ledger) E :=
    (Act.record_quiet (.singleton rfl)).imp (fun _ _ h => h) hquiet
  refine hplan.bind fun plan w ⟨hverdict, hw⟩ => ?_
  have hnothing : Act.Leads (World.Quiet ledger)
      (do Act.record [.noted .notOpened]; pure none) (recipe.StartedAs ledger Q) E :=
    hnote.bind fun _ => .pure fun _ h => .inl ⟨rfl, h⟩
  have hsome : Act.Leads (World.Quiet ledger)
      (do let opened ← opening; pure (some (plan, opened))) (recipe.StartedAs ledger Q) E :=
    hopening.bind fun opened => .pure fun _ h =>
      .inr ⟨plan, opened, rfl, hverdict, h⟩
  by_cases hnever : plan.never
  · rw [if_pos hnever]
    exact hnothing w hw
  · rw [if_neg hnever]
    exact hsome w hw

variable {source : Source α} {started : Option (Plan α × Opened α)}

/-- What was started over a source, for which no room has to be made. -/
theorem Recipe.StartedAs.spares {w : World α}
    (h : recipe.StartedAs ledger
      (fun opened w => source.OpenedAs (source.Drops none) opened w.journal.events) started w) :
    SparedAs (source.Drops none) started w := by
  rcases h with ⟨rfl, hw⟩ | ⟨plan, opened, rfl, -, hopened⟩
  · exact ⟨⟨hw.2.undropped, fun _ => hw.2⟩, fun _ => nofun⟩
  · obtain ⟨hspares, hnone⟩ := hopened.spares
    refine ⟨hspares, fun hD plan' opened' hsame => ?_⟩
    cases hsame
    exact hnone hD

/-- A cursor is dropped right below a recipe if there is no room for what the plan hints at. -/
theorem Recipe.drops_iff_of_isCursor {plan : Plan α} (hplan : recipe.verdict = .ok plan)
    (hcursor : source.IsCursor) :
    source.Drops (some recipe) ↔ ¬ recipe.HasRoom (plan.capacityHint none) := by
  rw [Source.drops_iff_of_isCursor hcursor, ← Recipe.overflows_iff hplan]
  exact ⟨fun ⟨_, hsame, hover⟩ => Option.some.inj hsame ▸ hover, fun h => ⟨recipe, rfl, h⟩⟩

/-- Making room right above a cursor drops the cursor if the recipe overflows. -/
theorem Recipe.reserve_drops {plan : Plan α} {opened : Opened α}
    (hplan : recipe.verdict = .ok plan) :
    Act.Leads (fun w => source.OpenedAs (source.Drops none) opened w.journal.events)
      (recipe.reserve plan opened)
      (fun _ => SparedAs (source.Drops (some recipe)) (some (plan, opened)))
      (fun w => DropsIf (source.Drops (some recipe)) w.journal.events) := by
  intro w hopened
  have hspares := hopened.spares
  rcases hopened with ⟨hcursor, c, answers, opening, hopening, rfl, hown⟩
    | ⟨hnot, hevents, hdiscard, hnone⟩
  · have hiff := recipe.drops_iff_of_isCursor hplan hcursor
    by_cases hroom : recipe.HasRoom (plan.capacityHint none)
    · have hkeeps : ¬ source.Drops (some recipe) := fun hD => hiff.1 hD hroom
      have hroom' : recipe.HasRoom (plan.capacityHint
          (Opened.sequential (.cursor c answers true)).lengthHint) := hroom
      rw [reserve_ok hroom' w]
      exact ⟨⟨hspares.1.1, fun hD => absurd hD hkeeps⟩, fun hD => absurd hD hkeeps⟩
    · have hroom' : ¬ recipe.HasRoom (plan.capacityHint
          (Opened.sequential (.cursor c answers true)).lengthHint) := hroom
      rw [reserve_error hroom' w]
      refine ⟨fun _ => ?_, fun hD => absurd (hiff.2 hroom) hD⟩
      show OnlyDropped (w.journal.record _).events
      rw [Journal.events_record]
      exact .of_opened hopening hown
  · rw [← Source.drops_iff_of_not_isCursor hnot (some recipe)] at hnone hspares hdiscard
    by_cases hroom : recipe.HasRoom (plan.capacityHint opened.lengthHint)
    · rw [reserve_ok hroom w]
      refine ⟨hspares.1, fun hD plan' opened' hsame => ?_⟩
      cases hsame
      exact hnone hD
    · rw [reserve_error hroom w]
      show DropsIf _ (w.journal.record opened.discard).events
      rw [Journal.events_record]
      exact (hspares.1.append hdiscard).dropsIf

theorem Recipe.reserveStarted_drops :
    Act.Leads (recipe.StartedAs ledger
        (fun opened w => source.OpenedAs (source.Drops none) opened w.journal.events) started)
      (recipe.reserveStarted started)
      (fun _ => SparedAs (source.Drops (some recipe)) started)
      (fun w => DropsIf (source.Drops (some recipe)) w.journal.events) := by
  rintro w (⟨rfl, hw⟩ | ⟨plan, opened, rfl, hverdict, hopened⟩)
  · exact ⟨⟨hw.2.undropped, fun _ => hw.2⟩, fun _ => nofun⟩
  · exact reserve_drops hverdict w hopened

section Below

variable (hsource : Act.Leads (World.Quiet ledger) source.opening
    (fun opened w => source.OpenedAs (source.Drops none) opened w.journal.events)
    (fun w => ∀ above, DropsIf (source.Drops above) w.journal.events))
  (hrecipe : recipe.EnteredIn ledger)
include hsource hrecipe

/-- The elements of a source are pulled one by one. -/
theorem Recipe.openIntake_drops :
    Act.Leads (World.Quiet ledger) (recipe.openIntake source.opening)
      (fun intake w => SparesIf (source.Drops none) w.journal.events
        ∧ (source.Drops none → intake.openCursor? = none))
      (fun w => DropsIf (source.Drops none) w.journal.events) := by
  have hopening := hsource.imp (fun _ _ h => h) fun w h => h none
  have hstart := Recipe.start_quiet hrecipe hopening fun w hw => hw.2.dropsIf _
  refine hstart.bind fun started w hstarted => ?_
  obtain ⟨hspares, hnone⟩ := hstarted.spares
  cases started with
  | none => exact ⟨hspares, fun _ => rfl⟩
  | some started =>
    refine ⟨hspares, fun hD => ?_⟩
    rw [Plan.openCursor?_intake]
    exact hnone hD _ _ rfl

/-- The elements of a source are collected. -/
theorem Recipe.collect_drops :
    Act.Leads (World.Quiet ledger) (recipe.collect source.opening)
      (fun _ w => SparesIf (source.Drops (some recipe)) w.journal.events)
      (fun w => DropsIf (source.Drops (some recipe)) w.journal.events) := by
  have hopening := hsource.imp (fun _ _ h => h) fun w h => h (some recipe)
  have hstart := Recipe.start_quiet hrecipe hopening fun w hw => hw.2.dropsIf _
  rw [Recipe.collect_eq_conduct]
  refine hstart.bind fun started => Recipe.reserveStarted_drops.bind fun _ => ?_
  exact (conductStarted_spares _ started Sink.silent_collect []).bind fun _ => .pure fun _ h => h

end Below

end Recipes

/-- Opening a source: a cursor that was opened in vain was dropped. -/
theorem Source.opening_drops {source : Source α} (h : source.EnteredIn ledger) :
    Act.Leads (World.Quiet ledger) source.opening
      (fun opened w => source.OpenedAs (source.Drops none) opened w.journal.events)
      (fun w => ∀ above, DropsIf (source.Drops above) w.journal.events) := by
  induction source with
  | container id box =>
    have hnot : ¬ (Source.container id box).IsCursor := fun h => h
    have hopened : ∀ (intake : Intake α) (opened : Opened α), opened.discard = intake.release →
        opened.openCursor? = none → ∀ w : World α, w.Quiet ledger →
        (Source.container id box).OpenedAs ((Source.container id box).Drops none) opened
          w.journal.events := fun intake opened hdiscard hnone w hw =>
      openedAs_of_release hnot ⟨hw.2.undropped, fun _ => hw.2⟩ (fun _ => hnone) ⟨intake, hdiscard⟩
    have hclass : Act.Leads (World.Quiet ledger) (Source.container id box).readingClass
        (fun _ => World.Quiet ledger)
        (fun w => ∀ above, DropsIf ((Source.container id box).Drops above) w.journal.events) :=
      (readingClass_quiet h).imp (fun _ _ h => h) fun w hw above => hw.2.dropsIf _
    refine hclass.bind fun found => ?_
    cases found with
    | indexed => exact .pure (hopened (.owned []) (.indexed id box) rfl rfl)
    | sequential => exact .pure (hopened (.shelf id box 0) (.sequential (.shelf id box 0)) rfl rfl)
  | replay id answers =>
    have hcursor : (Source.replay id answers).IsCursor := trivial
    intro w hw
    show OpenedAs _ _ _ (w.journal.record _).events
    rw [Journal.events_record]
    exact openedAs_cursor hcursor (.inl rfl) hw.2 answers
  | once id answers =>
    have hcursor : (Source.once id answers).IsCursor := trivial
    intro w hw
    have hmemo : Act.sourceMemo id w = .ok (w.sources id.serial) w := rfl
    rw [opening, Act.bind_ok hmemo]
    by_cases hspent : (w.sources id.serial).isSpent = true
    · rw [if_pos hspent]
      exact fun above => hw.2.dropsIf _
    · rw [if_neg hspent]
      show OpenedAs _ _ _ (w.journal.record _).events
      rw [Journal.events_record]
      exact openedAs_cursor hcursor (.inr rfl) hw.2 answers
  | derived id link base recipe ih =>
    have hnot : ¬ (Source.derived id link base recipe).IsCursor := fun h => h
    obtain ⟨-, hrecipe, hbase⟩ := h
    have hbelow := ih hbase
    -- a link either collects what is below it, or pulls it one by one
    cases link with
    | map f =>
      refine ((Recipe.openIntake_drops hbelow hrecipe).imp (fun _ _ h => h)
        fun _ h _ => h).bind fun intake => ?_
      exact .pure fun w hbegun =>
        openedAs_of_release hnot hbegun.1 hbegun.2 ⟨.mapped f intake, rfl⟩
    | flatten items =>
      refine ((Recipe.openIntake_drops hbelow hrecipe).imp (fun _ _ h => h)
        fun _ h _ => h).bind fun intake => ?_
      exact .pure fun w hbegun =>
        openedAs_of_release hnot hbegun.1 hbegun.2 ⟨.flattened items [] intake, rfl⟩
    | slice start stop =>
      refine ((Recipe.collect_drops hbelow hrecipe).imp (fun _ _ h => h)
        fun _ h _ => h).bind fun found => ?_
      exact .pure fun w hspares =>
        openedAs_of_release hnot hspares (fun _ => rfl) ⟨.owned [], rfl⟩

/-! ## Terminals -/

namespace Pipeline

/-- The terminal opens the cursor at the bottom of the pipeline and drops it, if it gets there. -/
def Drops (p : Pipeline α) : Terminal α → Prop
  | .toList => p.source.Drops (some p.recipe)
  | _ => p.source.Drops none

variable {p : Pipeline α}

/-- What the pipeline begins with: a cursor that was opened in vain was dropped. -/
theorem begin_drops (h : p.EnteredIn ledger) :
    Act.Leads (World.Quiet ledger) p.begin
      (p.recipe.StartedAs ledger
        fun opened w => p.source.OpenedAs (p.source.Drops none) opened w.journal.events)
      (fun w => ∀ above, DropsIf (p.source.Drops above) w.journal.events) := by
  have hclaim : Act.Leads (World.Quiet ledger) p.claim (fun _ => World.Quiet ledger)
      fun w => ∀ above, DropsIf (p.source.Drops above) w.journal.events :=
    p.claim_quiet.imp (fun _ _ h => h) fun _ hw _ => hw.2.dropsIf _
  exact hclaim.bind fun _ => Recipe.start_quiet h.recipe (Source.opening_drops h.source)
    fun _ hw _ => hw.2.dropsIf _

/-- The making of an iterator drops a cursor that has to be collected below and is not, and does
nothing else to one then. -/
theorem iterate_drops (h : p.EnteredIn ledger) :
    Act.Leads (World.Quiet ledger) p.iterate
      (fun _ w => SparesIf (p.source.Drops none) w.journal.events)
      (fun w => DropsIf (p.source.Drops none) w.journal.events) := by
  rw [iterate_eq]
  refine ((begin_drops h).imp (fun _ _ h => h) fun _ h => h none).bind fun started => ?_
  exact .pure fun w hstarted => hstarted.spares.1

end Pipeline

/-- Making room for what was started, if the terminal collects. -/
theorem Session.makeRoom_drops {p : Pipeline α} {started : Option (Plan α × Opened α)}
    (terminal : Terminal α) :
    Act.Leads (p.recipe.StartedAs ledger
        (fun opened w => p.source.OpenedAs (p.source.Drops none) opened w.journal.events) started)
      (makeRoom p.recipe started terminal) (fun _ => SparedAs (p.Drops terminal) started)
      (fun w => DropsIf (p.Drops terminal) w.journal.events) := by
  cases terminal with
  | toList => exact Recipe.reserveStarted_drops
  | _ => exact .pure fun _ h => h.spares

/-- A run drops the cursor of a pipeline if the terminal has no room for its elements, and does
nothing else to one then; no other run drops a cursor. -/
theorem Session.runTerminal_drops {p : Pipeline α} (h : p.EnteredIn ledger)
    (terminal : Terminal α) :
    Act.Leads (World.Quiet ledger) (runTerminal p terminal)
      (fun _ w => DropsIf (p.Drops terminal) w.journal.events)
      (fun w => DropsIf (p.Drops terminal) w.journal.events) := by
  obtain ⟨γ, sink, seed, answer, hsink, hact⟩ := answersOutcome terminal
  have hbegin : Act.Leads (World.Quiet ledger) p.begin
      (p.recipe.StartedAs ledger
        fun opened w => p.source.OpenedAs (p.source.Drops none) opened w.journal.events)
      (fun w => DropsIf (p.Drops terminal) w.journal.events) := by
    cases terminal with
    | toList => exact (Pipeline.begin_drops h).imp (fun _ _ h => h) fun _ h => h (some p.recipe)
    | _ => exact (Pipeline.begin_drops h).imp (fun _ _ h => h) fun _ h => h none
  rw [hact]
  refine hbegin.bind fun started => (makeRoom_drops terminal).bind fun _ => ?_
  refine (conductStarted_spares _ started hsink seed).bind fun found => ?_
  cases answer (outcome seed found) with
  | ok reply => exact .pure fun _ h => h.dropsIf
  | error refusal => exact .refuse fun _ h => h.dropsIf

end StreamFusion
