import StreamFusion.Proofs.Pipeline.Repeating
import StreamFusion.Proofs.Pipeline.Together

/-!
# Worlds abreast

Two pipelines that read the same source have plans of their own. After both were planned, the worlds
differ in what is remembered of recipes and in events that happen to no cursor (`World.Abreast`).
From such worlds the source is opened in the same way, and gets a cursor of the same name
(`Source.opening_abreast`).
-/

namespace StreamFusion

variable {α β γ : Type}

/-- The worlds know the same ledger, and differ only in what is remembered of recipes and in events
that happen to no cursor. -/
structure World.Abreast (ledger : Ledger α) (w w' : World α) : Prop where
  knows : w.Knows ledger
  knows' : w'.Knows ledger
  sources_eq : w.sources = w'.sources
  nextSerial_eq : w.nextSerial = w'.nextSerial
  cursors : SameCursors w.journal.events w'.journal.events

variable {ledger : Ledger α}

namespace World.Abreast

variable {w w' : World α}

theorem symm (h : World.Abreast ledger w w') : World.Abreast ledger w' w :=
  ⟨h.knows', h.knows, h.sources_eq.symm, h.nextSerial_eq.symm, h.cursors.symm⟩

theorem refl (h : w.Knows ledger) : World.Abreast ledger w w := ⟨h, h, rfl, rfl, .refl _⟩

/-- What is remembered of recipes may change, and events may be noted that happen to no cursor. -/
theorem recipes (h : World.Abreast ledger w w') {recipes : Nat → RecipeMemo α}
    {events : List (Event α)} (hsilent : Silent events)
    (hknows : World.Knows ledger
      { w with recipes := recipes, journal := w.journal.record events }) :
    World.Abreast ledger { w with recipes := recipes, journal := w.journal.record events } w' := by
  refine ⟨hknows, h.knows', h.sources_eq, h.nextSerial_eq, ?_⟩
  rw [Journal.events_record]
  exact h.cursors.append_silent_left hsilent

end World.Abreast

/-- The same must happen to every cursor. -/
theorem World.admits_abreast : World.Admits (World.Abreast ledger) SameCursors where
  record := by
    intro w w' events other hw hevents
    refine ⟨hw.knows.with_journal _, hw.knows'.with_journal _, hw.sources_eq, hw.nextSerial_eq, ?_⟩
    rw [Journal.events_record, Journal.events_record]
    exact hw.cursors.append hevents
  append_silent := fun h hlater hmore =>
    (h.append_silent_left hlater).append_silent_right hmore

/-! ## Basic acts -/

namespace Act

theorem record_abreast {events other : List (Event α)} (h : SameCursors events other) :
    Together (World.Abreast ledger) Eq (record events) (record other) :=
  fun _ _ hw => .ok rfl (World.admits_abreast.record hw h)

theorem fresh_abreast : Together (World.Abreast ledger) Eq (fresh : Act α Nat) fresh := by
  intro w w' hw
  exact .ok hw.nextSerial_eq ⟨fresh_knows w hw.knows, fresh_knows w' hw.knows', hw.sources_eq,
    congrArg (· + 1) hw.nextSerial_eq, hw.cursors⟩

theorem sourceMemo_abreast (id : Ident) :
    Together (World.Abreast ledger) Eq (sourceMemo id) (sourceMemo id) :=
  fun _ _ hw => .ok (congrFun hw.sources_eq id.serial) hw

theorem updateSource_abreast (id : Ident) (change : SourceMemo → SourceMemo)
    (hchange : ∀ memo found, (change memo).kindOfReading = some found →
      memo.kindOfReading = some found ∨ ledger.classes id.serial = some found) :
    Together (World.Abreast ledger) Eq (updateSource id change) (updateSource id change) := by
  intro w w' hw
  have hknows := (updateSource_answers id change hchange).maintains
  refine .ok rfl ⟨hknows w hw.knows, hknows w' hw.knows', ?_, hw.nextSerial_eq, hw.cursors⟩
  show (fun n => if n = id.serial then change (w.sources n) else w.sources n) = _
  rw [hw.sources_eq]

end Act

/-! ## Planning and classifying -/

/-- The world that an act leaves, also where it gives no result. -/
def Act.left : EStateM.Result (Halt α) (World α) β → World α
  | .ok _ w | .error _ w => w

/-- Planning changes what is remembered of recipes, and does nothing else but to tell of it. -/
theorem Recipe.plan_left (recipe : Recipe α) (w : World α) :
    ∃ recipes events, (∀ event ∈ events, event.IsPlanning) ∧ Act.left (recipe.plan w) =
      { w with recipes := recipes, journal := w.journal.record events } := by
  have hverdict : ∀ verdict (v : World α), Act.left (Act.ofVerdict verdict v) = v := by
    intro verdict v
    cases verdict <;> rfl
  have hmemo : Act.recipeMemo recipe.serial w = .ok (w.recipes recipe.serial) w := rfl
  rw [plan, Act.bind_ok hmemo]
  cases (w.recipes recipe.serial).verdict with
  | some verdict => exact ⟨w.recipes, [], by simp, hverdict verdict w⟩
  | none =>
    exact ⟨_, _, recipe.isPlanning_of_mem, hverdict (compile recipe.ops recipe.config).verdict _⟩

/-- Planning changes what is remembered of recipes, and does nothing to a cursor. -/
theorem Recipe.plan_silent (recipe : Recipe α) (w : World α) :
    ∃ recipes events, Silent events ∧ Act.left (recipe.plan w) =
      { w with recipes := recipes, journal := w.journal.record events } := by
  obtain ⟨recipes, events, hplanning, hleft⟩ := recipe.plan_left w
  exact ⟨recipes, events, .of_planning hplanning, hleft⟩

/-- Planning in one of the worlds gives what is in the ledger. -/
theorem Recipe.plan_abreast {recipe : Recipe α} (h : recipe.EnteredIn ledger) (w' : World α) :
    Act.Answers (fun w => World.Abreast ledger w w') recipe.plan
      (recipe.verdict.mapError .refused) := by
  intro w hw
  obtain ⟨v, hv, hplan⟩ := Recipe.plan_answers h w hw.knows
  obtain ⟨recipes, events, hsilent, hleft⟩ := recipe.plan_silent w
  have hv' : v = { w with recipes := recipes, journal := w.journal.record events } := by
    rw [hplan] at hleft
    cases hverdict : recipe.verdict <;> rw [hverdict] at hleft <;> exact hleft
  subst hv'
  exact ⟨_, hw.recipes hsilent hv, hplan⟩

theorem Recipe.plan_together {recipe : Recipe α} (h : recipe.EnteredIn ledger) :
    Act.Together (World.Abreast ledger) Eq recipe.plan recipe.plan := by
  intro w w' hw
  obtain ⟨v, hv, hplan⟩ := Recipe.plan_abreast h w' w hw
  obtain ⟨v', hv', hplan'⟩ := Recipe.plan_abreast h v w' hv.symm
  rw [hplan, hplan']
  cases recipe.verdict with
  | ok plan => exact .ok rfl hv'.symm
  | error refusal => exact .error _ hv'.symm

namespace Source

theorem classify_abreast (source : Source α) :
    Act.Together (World.Abreast ledger)
      (fun found found' => found = source.readsAs ∧ found' = source.readsAs) source.classify
      source.classify := by
  cases source with
  | container id box =>
    rw [classify, readsAs]
    by_cases hempty : box.size = 0
    · rw [if_pos hempty, if_pos (.inl hempty)]
      exact .pure ⟨rfl, rfl⟩
    · rw [if_neg hempty]
      refine (Act.record_abreast (.refl _)).bind fun _ _ _ => .pure ?_
      by_cases hfirst : (box.get? 0).isSome
      · rw [if_pos hfirst, if_pos (.inr hfirst)]
        exact ⟨rfl, rfl⟩
      · rw [if_neg hfirst, if_neg (not_or.2 ⟨hempty, hfirst⟩)]
        exact ⟨rfl, rfl⟩
  | derived id link base recipe => cases link <;> exact .pure ⟨rfl, rfl⟩
  | replay id answers => exact .pure ⟨rfl, rfl⟩
  | once id answers => exact .pure ⟨rfl, rfl⟩

theorem readingClass_abreast {source : Source α} (h : source.EnteredIn ledger) :
    Act.Together (World.Abreast ledger) Eq source.readingClass source.readingClass := by
  have hclass : ledger.classes source.id.serial = some source.readsAs := by
    unfold EnteredIn at h
    exact h.1
  refine (Act.sourceMemo_abreast source.id).bind fun memo _ hmemo => ?_
  subst hmemo
  cases memo.kindOfReading with
  | some known => exact .pure rfl
  | none =>
    refine source.classify_abreast.bind fun found found' hfound => ?_
    rw [hfound.1, hfound.2]
    refine (Act.updateSource_abreast source.id _ fun _ _ hnoted => ?_).bind fun _ _ _ => .pure rfl
    exact .inr (hclass.trans hnoted)

end Source

/-! ## Opening -/

section Opening

variable {recipe : Recipe α} {opening : Act α (Opened α)} (hrecipe : recipe.EnteredIn ledger)
  (hopening : Act.Together (World.Abreast ledger) Eq opening opening)
include hrecipe hopening

theorem Recipe.start_together :
    Act.Together (World.Abreast ledger) Eq (recipe.start opening) (recipe.start opening) := by
  refine (Recipe.plan_together hrecipe).bind fun plan _ hplan => ?_
  subst hplan
  by_cases hnever : plan.never = true
  · rw [if_pos hnever]
    exact (Act.record_abreast (.refl _)).bind fun _ _ _ => .pure rfl
  · rw [if_neg hnever]
    exact hopening.bind fun _ _ hopened => .pure (by rw [hopened])

theorem Recipe.openIntake_together :
    Act.Together (World.Abreast ledger) Eq (recipe.openIntake opening)
      (recipe.openIntake opening) := by
  refine (Recipe.start_together hrecipe hopening).bind fun started _ hstarted => ?_
  subst hstarted
  cases started <;> exact .pure rfl

theorem Recipe.collect_together :
    Act.Together (World.Abreast ledger) Eq (recipe.collect opening) (recipe.collect opening) := by
  refine (Recipe.start_together hrecipe hopening).bind fun started _ hstarted => ?_
  subst hstarted
  cases started with
  | none => exact .pure rfl
  | some started =>
    have hconduct : Act.Together (World.Abreast ledger) Eq
        (started.1.conduct started.2 .collect []) (started.1.conduct started.2 .collect []) := by
      refine (Act.record_abreast (.refl _)).bind fun _ _ _ => ?_
      cases (started.1.run .collect [] started.2).result with
      | ok stats => exact (Act.record_abreast (.refl _)).bind fun _ _ _ => .pure rfl
      | error culprit => exact .fail _
    have hroom : SameRoom SameCursors recipe recipe (some started) (some started) :=
      (Classical.em (recipe.RoomFor (some started))).imp (fun h => ⟨h, h⟩)
        fun h => ⟨h, h, .refl _⟩
    exact (hroom.reserve World.admits_abreast).bind fun _ _ _ =>
      hconduct.bind fun _ _ hfound => .pure (by rw [hfound])

end Opening

namespace Source

/-- From worlds abreast a source is opened in the same way, or is refused for the same reason. -/
theorem opening_abreast {source : Source α} (h : source.EnteredIn ledger) :
    Act.Together (World.Abreast ledger) Eq source.opening source.opening := by
  induction source with
  | container id box =>
    refine (readingClass_abreast h).bind fun found _ hfound => ?_
    subst hfound
    cases found <;> exact .pure rfl
  | replay id answers =>
    refine Act.fresh_abreast.bind fun number _ hnumber => ?_
    subst hnumber
    exact (Act.record_abreast (.refl _)).bind fun _ _ _ => .pure rfl
  | once id answers =>
    refine (Act.sourceMemo_abreast id).bind fun memo _ hmemo => ?_
    subst hmemo
    by_cases hspent : memo.isSpent = true
    · rw [if_pos hspent]
      exact .fail _
    · rw [if_neg hspent]
      have hspending : Act.Together (World.Abreast ledger) Eq
          (Act.updateSource id fun memo => { memo with isSpent := true })
          (Act.updateSource id fun memo => { memo with isSpent := true }) :=
        Act.updateSource_abreast id _ fun _ _ hfound => .inl hfound
      exact hspending.bind fun _ _ _ => (Act.record_abreast (.refl _)).bind fun _ _ _ => .pure rfl
  | derived id link base recipe ih =>
    obtain ⟨-, hrecipe, hbase⟩ := h
    have hbelow := ih hbase
    cases link with
    | map f =>
      exact (Recipe.openIntake_together hrecipe hbelow).bind fun _ _ hintake =>
        .pure (by rw [hintake])
    | flatten items =>
      exact (Recipe.openIntake_together hrecipe hbelow).bind fun _ _ hintake =>
        .pure (by rw [hintake])
    | slice start stop =>
      exact (Recipe.collect_together hrecipe hbelow).bind fun _ _ hfound =>
        .pure (by rw [hfound])

/-- What can only be read one element after the other is opened to be pulled. -/
theorem opening_sequential {source : Source α} (h : source.EnteredIn ledger)
    (hreads : source.readsAs = .sequential) :
    Act.Leads (World.Knows ledger) source.opening
      (fun opened _ => ∃ intake, opened = .sequential intake) fun _ => True := by
  have hanything : ∀ act : Act α (Intake α),
      Act.Leads (World.Knows ledger) act (fun _ _ => True) fun _ => True := by
    intro act w _
    cases act w <;> trivial
  cases source with
  | container id box =>
    intro w hw
    obtain ⟨v, -, hclass⟩ := readingClass_answers h w hw
    rw [hreads] at hclass
    rw [opening, Act.bind_ok hclass]
    exact ⟨_, rfl⟩
  | replay id answers => exact fun _ _ => ⟨_, rfl⟩
  | once id answers =>
    refine (Act.Leads.sourceMemo id).bind fun memo => ?_
    by_cases hspent : memo.isSpent = true
    · rw [if_pos hspent]
      exact .refuse fun _ _ => trivial
    · rw [if_neg hspent]
      exact fun _ _ => ⟨_, rfl⟩
  | derived id link base recipe =>
    cases link with
    | map f => exact (hanything _).bind fun _ => .pure fun _ _ => ⟨_, rfl⟩
    | flatten items => exact (hanything _).bind fun _ => .pure fun _ _ => ⟨_, rfl⟩
    | slice start stop => exact absurd hreads (by simp [readsAs])

/-- From worlds abreast, what can only be read one element after the other is opened to the same
intake. -/
theorem opening_pulled {source : Source α} (h : source.EnteredIn ledger)
    (hreads : source.readsAs = .sequential) :
    Act.Together (World.Abreast ledger)
      (fun opened other => ∃ intake, opened = .sequential intake ∧ other = .sequential intake)
      source.opening source.opening := by
  intro w w' hw
  have hsame := opening_abreast h w w' hw
  have hpulled := opening_sequential h hreads w hw.knows
  generalize source.opening w = result at hsame hpulled ⊢
  generalize source.opening w' = result' at hsame ⊢
  cases hsame with
  | error halt hv => exact .error halt hv
  | ok heq hv =>
    obtain ⟨intake, hintake⟩ := hpulled
    exact .ok ⟨intake, hintake, heq ▸ hintake⟩ hv

end Source

end StreamFusion
