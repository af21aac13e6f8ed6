import StreamFusion.Proofs.Pipeline.Upkeep

/-!
# Who holds a cursor

At every moment of a session some cursors are open, and each of them is held once: by an iterator,
or by the run that is going on. No cursor is touched before its number was handed out, and none of a
one-shot source before that source is spent (`World.Tends`). Acts keep this up: what they open is
held by their result, and an act without a result holds nothing.
-/

namespace StreamFusion

variable {α β γ : Type}

/-- After these events every cursor is at some stage of its life; `held` are those underway, each of
them once. Cursors whose number was not handed out yet were not touched, nor were those of
the one-shot sources `once` that are not spent. -/
structure World.Tends (w : World α) (events : List (Event α)) (once : Ident → Prop)
    (held : List Ident) : Prop where
  lives : ∀ c, ∃ stage, CursorStage.unopened.afterAll c events = some stage
    ∧ held.count c = if stage = .underway then 1 else 0
  fresh : ∀ c, w.nextSerial ≤ c.serial → ofCursor c events = []
  known : ∀ id, once id → id.serial < w.nextSerial
  unspent : ∀ id, once id → (w.sources id.serial).isSpent = false → ofCursor id events = []

/-- The events are those of the past and those in the journal. -/
def World.Tending (past : List (Event α)) (once : Ident → Prop) (held : List Ident) (w : World α) :
    Prop :=
  w.Tends (past ++ w.journal.events) once held

namespace World

variable {w : World α} {events later : List (Event α)} {once : Ident → Prop} {held : List Ident}

/-- In the first world nothing was touched. -/
theorem tends_initial : World.initial.Tends ([] : List (Event α)) (fun _ => False) [] where
  lives := fun _ => ⟨.unopened, rfl, rfl⟩
  fresh := fun _ _ => rfl
  known := nofun
  unspent := nofun

namespace Tends

theorem lives_of_untouched (h : w.Tends events once held) {c : Ident}
    (hc : ofCursor c events = []) :
    held.count c = 0 := by
  obtain ⟨stage, hstage, hcount⟩ := h.lives c
  rw [CursorStage.afterAll_of_ofCursor_eq_nil hc] at hstage
  cases hstage
  rw [hcount, if_neg (by simp)]

/-- Something happens to one of the cursors that are held, and it goes on to be held as long as it
is underway. -/
theorem handled {before after : Option Ident} (h : w.Tends events once (before.toList ++ held))
    (hkept : ∀ c, after = some c → before = some c)
    (hothers : ∀ c, before ≠ some c → ofCursor c later = [])
    (hown : ∀ c, before = some c → ∃ stage, CursorStage.underway.afterAll c later = some stage
      ∧ (stage = .underway ↔ after = some c)) :
    w.Tends (events ++ later) once (after.toList ++ held) := by
  have huntouched : ∀ c, ofCursor c events = [] → ofCursor c (events ++ later) = [] := by
    intro c hc
    have hnot : before ≠ some c := by
      intro hbefore
      have hcount := h.lives_of_untouched hc
      rw [hbefore, Option.toList_some, List.singleton_append, List.count_cons_self] at hcount
      omega
    rw [ofCursor_append, hc, hothers c hnot]
    rfl
  refine ⟨fun c => ?_, fun c hc => huntouched c (h.fresh c hc), h.known,
    fun id honce hspent => huntouched id (h.unspent id honce hspent)⟩
  obtain ⟨stage, hstage, hcount⟩ := h.lives c
  rw [CursorStage.afterAll_append, hstage, Option.bind_some]
  by_cases hbefore : before = some c
  · -- the cursor is held by `before` only, so it is underway
    have hstage' : stage = .underway := by
      rw [hbefore, Option.toList_some, List.singleton_append, List.count_cons_self] at hcount
      by_contra hne
      rw [if_neg hne] at hcount
      omega
    have hothers' : held.count c = 0 := by
      rw [hbefore, Option.toList_some, List.singleton_append, List.count_cons_self, hstage',
        if_pos rfl] at hcount
      omega
    obtain ⟨final, hfinal, hunderway⟩ := hown c hbefore
    rw [hstage']
    refine ⟨final, hfinal, ?_⟩
    by_cases hafter : after = some c
    · rw [hafter, Option.toList_some, List.singleton_append, List.count_cons_self, hothers',
        if_pos (hunderway.2 hafter)]
    · rw [List.count_append, hothers', if_neg (fun hstill => hafter (hunderway.1 hstill))]
      cases after with
      | none => rfl
      | some d =>
        have hne : d ≠ c := fun h => hafter (congrArg some h)
        simp [hne]
  · have hafter : after ≠ some c := fun hc => hbefore (hkept c hc)
    have hsame : (after.toList ++ held).count c = (before.toList ++ held).count c := by
      cases before <;> cases after <;> simp_all
    rw [CursorStage.afterAll_of_ofCursor_eq_nil (hothers c hbefore)]
    exact ⟨stage, rfl, hsame.trans hcount⟩

/-- What the holder of one of the cursors does with it. -/
theorem tended {before after : Option Ident} (h : w.Tends events once (before.toList ++ held))
    (htended : Tended before later after) :
    w.Tends (events ++ later) once (after.toList ++ held) := by
  refine h.handled htended.kept htended.others fun c hc => ⟨_, htended.own c hc, ?_⟩
  by_cases hafter : after = some c <;> simp [hafter]

/-- One of the cursors is dropped. -/
theorem dropped {c : Ident} (h : w.Tends events once (c :: held)) :
    w.Tends (events ++ [.dropped c]) once held := by
  have hheld : w.Tends events once ((some c).toList ++ held) := h
  suffices hleft : w.Tends (events ++ [.dropped c]) once ((none : Option Ident).toList ++ held) from
    hleft
  refine hheld.handled nofun (fun d hd => ?_) fun d hd => ?_
  · exact ofCursor_singleton_of_ne hd
  · cases hd
    exact ⟨.lost, CursorStage.afterAll_singleton rfl _, by simp⟩

theorem silent (h : w.Tends events once held) (hsilent : Silent later) :
    w.Tends (events ++ later) once held := by
  have hnone : w.Tends events once ((none : Option Ident).toList ++ held) := h
  exact hnone.tended (.of_silent hsilent)

/-- A cursor that was not touched is opened. -/
theorem opened {c : Ident} {event : Event α} (h : w.Tends events once held)
    (hevent : event = .opened c ∨ event = .taken c) (hc : ofCursor c events = [])
    (hserial : c.serial < w.nextSerial) (hspent : once c → (w.sources c.serial).isSpent = true) :
    w.Tends (events ++ [event]) once (c :: held) := by
  have hcursor : event.cursor? = some c := by
    rcases hevent with rfl | rfl <;> rfl
  have hothers : ∀ d, d ≠ c → ofCursor d [event] = [] := by
    intro d hne
    refine ofCursor_singleton_of_ne fun hsame => hne ?_
    exact Option.some.inj (hsame.symm.trans hcursor)
  refine ⟨fun d => ?_, fun d hd => ?_, h.known, fun id honce hid => ?_⟩
  · by_cases hd : d = c
    · subst hd
      refine ⟨.underway, ?_, ?_⟩
      · rw [CursorStage.afterAll_append, CursorStage.afterAll_of_ofCursor_eq_nil hc,
          Option.bind_some, CursorStage.afterAll_singleton hcursor]
        rcases hevent with rfl | rfl <;> rfl
      · rw [List.count_cons_self, h.lives_of_untouched hc, if_pos rfl]
    · obtain ⟨stage, hstage, hcount⟩ := h.lives d
      refine ⟨stage, ?_, ?_⟩
      · rw [CursorStage.afterAll_append, hstage, Option.bind_some,
          CursorStage.afterAll_of_ofCursor_eq_nil (hothers d hd)]
      · rw [List.count_cons_of_ne (Ne.symm hd), hcount]
  · have hne : d ≠ c := by
      intro hdc
      rw [hdc] at hd
      omega
    rw [ofCursor_append, h.fresh d hd, hothers d hne]
    rfl
  · have hne : id ≠ c := by
      intro hidc
      subst hidc
      rw [hspent honce] at hid
      exact absurd hid (by simp)
    rw [ofCursor_append, h.unspent id honce hid, hothers id hne]
    rfl

/-- More numbers may be handed out and more sources spent. -/
theorem mono {w' : World α} (h : w.Tends events once held) (hserial : w.nextSerial ≤ w'.nextSerial)
    (hspent : ∀ n, (w'.sources n).isSpent = false → (w.sources n).isSpent = false) :
    w'.Tends events once held where
  lives := h.lives
  fresh := fun c hc => h.fresh c (Nat.le_trans hserial hc)
  known := fun id honce => Nat.lt_of_lt_of_le (h.known id honce) hserial
  unspent := fun id honce hid => h.unspent id honce (hspent _ hid)

/-- Fewer sources may be of interest. -/
theorem weaken {fewer : Ident → Prop} (h : w.Tends events once held)
    (hfewer : ∀ id, fewer id → once id) : w.Tends events fewer held :=
  ⟨h.lives, h.fresh, fun id hid => h.known id (hfewer id hid),
    fun id hid => h.unspent id (hfewer id hid)⟩

/-- It matters how often a cursor is held, and not in which order. -/
theorem recount {others : List Ident} (h : w.Tends events once held)
    (hcount : ∀ c, others.count c = held.count c) : w.Tends events once others := by
  refine ⟨fun c => ?_, h.fresh, h.known, h.unspent⟩
  rw [hcount c]
  exact h.lives c

end Tends

/-- When the journal is emptied, its events belong to the past. -/
theorem Tending.emptied {past : List (Event α)} (h : w.Tending past once held) :
    World.Tends { w with journal := .empty } (past ++ w.journal.events) once held :=
  Tends.mono h (Nat.le_refl _) fun _ hn => hn

end World

/-! ## Basic acts -/

section Acts

variable {past : List (Event α)} {once : Ident → Prop} {held : List Ident}

/-- What is written down was done to a cursor that is held. -/
theorem World.Tending.record {before after : Option Ident} {events : List (Event α)} {w : World α}
    (h : w.Tending past once (before.toList ++ held)) (htended : Tended before events after) :
    World.Tending past once (after.toList ++ held)
      { w with journal := w.journal.record events } := by
  have hnow := World.Tends.tended h htended
  show World.Tends _ (past ++ (w.journal.record events).events) once _
  rw [Journal.events_record, ← List.append_assoc]
  exact hnow.mono (Nat.le_refl _) fun _ h => h

/-- It is written down that a cursor was dropped. -/
theorem World.Tending.dropped {c : Ident} {w : World α} (h : w.Tending past once (c :: held)) :
    World.Tending past once held { w with journal := w.journal.record [.dropped c] } := by
  have hnow := World.Tends.dropped h
  show World.Tends _ (past ++ (w.journal.record [.dropped c]).events) once _
  rw [Journal.events_record, ← List.append_assoc]
  exact hnow.mono (Nat.le_refl _) fun _ h => h

namespace Act

theorem record_maintains {events : List (Event α)} (hsilent : Silent events) :
    Maintains (World.Tending past once held) (record events) := by
  intro w hw
  have hnone : w.Tending past once ((none : Option Ident).toList ++ held) := hw
  exact hnone.record (.of_silent hsilent)

theorem fresh_maintains : Maintains (World.Tending past once held) (fresh : Act α Nat) :=
  fun _ hw => World.Tends.mono hw (Nat.le_succ _) fun _ h => h

theorem updateRecipe_maintains (serial : Nat) (change : RecipeMemo α → RecipeMemo α) :
    Maintains (World.Tending past once held) (updateRecipe serial change) :=
  fun _ hw => World.Tends.mono hw (Nat.le_refl _) fun _ h => h

theorem updateSource_maintains (id : Ident) (change : SourceMemo → SourceMemo)
    (hchange : ∀ memo, (change memo).isSpent = false → memo.isSpent = false) :
    Maintains (World.Tending past once held) (updateSource id change) := by
  refine fun w hw => World.Tends.mono hw (Nat.le_refl _) fun n => ?_
  show (if n = id.serial then change (w.sources n) else w.sources n).isSpent = false → _
  split
  · exact hchange _
  · exact fun hn => hn

end Act

/-! ## The acts that runs are made of -/

/-- What is told of planning. -/
theorem Recipe.isPlanning_of_mem (recipe : Recipe α) :
    ∀ event ∈ (.planned recipe.serial ::
      (compile recipe.ops recipe.config).notes.map Event.noted : List (Event α)),
      event.IsPlanning := by
  intro event hmem
  rcases List.mem_cons.1 hmem with rfl | hmem
  · exact trivial
  · obtain ⟨note, -, rfl⟩ := List.mem_map.1 hmem
    exact trivial

theorem Recipe.plan_maintains (recipe : Recipe α) :
    Act.Maintains (World.Tending past once held) recipe.plan := by
  refine (Act.Leads.recipeMemo _).bind fun memo => ?_
  cases memo.verdict with
  | some verdict => exact .ofVerdict
  | none =>
    exact (Act.record_maintains (.of_planning recipe.isPlanning_of_mem)).bind fun _ =>
      (Act.updateRecipe_maintains _ _).bind fun _ => .ofVerdict

theorem Pipeline.claim_maintains (p : Pipeline α) :
    Act.Maintains (World.Tending past once held) p.claim := by
  unfold claim
  cases p.recipe.config.contract with
  | repeatable => exact .pure fun _ h => h
  | singleUse =>
    refine (Act.Leads.recipeMemo _).bind fun memo => ?_
    split
    · exact .refuse fun _ h => h
    · exact Act.updateRecipe_maintains _ _

namespace Source

/-- The one-shot source that is read in the end. -/
def oneShot? : Source α → Option Ident
  | .once id _ => some id
  | .derived _ _ base _ => base.oneShot?
  | _ => none

theorem classify_maintains (source : Source α) :
    Act.Maintains (World.Tending past once held) source.classify := by
  cases source with
  | container id box =>
    by_cases hempty : box.size = 0
    · rw [classify, if_pos hempty]
      exact .pure fun _ h => h
    · rw [classify, if_neg hempty]
      exact (Act.record_maintains (.singleton rfl)).bind fun _ => .pure fun _ h => h
  | derived id link base recipe => cases link <;> exact .pure fun _ h => h
  | _ => exact .pure fun _ h => h

theorem readingClass_maintains (source : Source α) :
    Act.Maintains (World.Tending past once held) source.readingClass := by
  refine (Act.Leads.sourceMemo _).bind fun memo => ?_
  cases memo.kindOfReading with
  | some known => exact .pure fun _ h => h
  | none =>
    refine source.classify_maintains.bind fun found => ?_
    have hnoted : Act.Maintains (World.Tending past once held)
        (Act.updateSource source.id fun memo => { memo with kindOfReading := some found }) :=
      Act.updateSource_maintains _ _ fun _ h => h
    exact hnoted.bind fun _ => .pure fun _ h => h

theorem opening_replay_tends (id : Ident) (answers : List (Option α)) :
    Act.HandsOver (World.Tending past once) (Source.replay id answers).opening
      Opened.openCursor? := by
  intro held w hw
  have hcursor : ofCursor ⟨w.nextSerial, id.label⟩ (past ++ w.journal.events) = [] :=
    hw.fresh _ (Nat.le_refl _)
  have hbumped : World.Tends { w with nextSerial := w.nextSerial + 1 } (past ++ w.journal.events)
      once held := hw.mono (Nat.le_succ _) fun _ h => h
  have hopened := hbumped.opened (.inl rfl) hcursor (Nat.lt_succ_self _)
    -- the number of the cursor is not that of a source
    fun honce => absurd (hw.known _ honce) (Nat.lt_irrefl _)
  show World.Tends _ (past ++ (w.journal.record [.opened ⟨w.nextSerial, id.label⟩]).events) once _
  rw [Journal.events_record, ← List.append_assoc]
  exact hopened.mono (Nat.le_refl _) fun _ h => h

theorem opening_once_tends {id : Ident} (honce : once id) (answers : List (Option α)) :
    Act.HandsOver (World.Tending past once) (Source.once id answers).opening
      Opened.openCursor? := by
  intro held w hw
  have hmemo : Act.sourceMemo id w = .ok (w.sources id.serial) w := rfl
  have hstep : (Source.once id answers).opening w =
      (if (w.sources id.serial).isSpent then Act.refuse .sourceRead
        else do
          Act.updateSource id fun memo => { memo with isSpent := true }
          Act.record [.taken id]
          pure (.sequential (.cursor id answers true)) : Act α (Opened α)) w := rfl
  rw [hstep]
  by_cases hspent : (w.sources id.serial).isSpent = true
  · rw [if_pos hspent]
    exact hw
  · rw [if_neg hspent]
    have huntouched := hw.unspent id honce (by simpa using hspent)
    -- spending the source comes first, as a cursor may be opened once only
    have hspending : Act.Maintains (World.Tending past once held)
        (Act.updateSource id fun memo => { memo with isSpent := true }) :=
      Act.updateSource_maintains _ _ fun _ h => absurd h (by simp)
    have hopened := World.Tends.opened (hspending w hw) (.inr rfl) huntouched (hw.known id honce)
      fun _ => by simp
    show World.Tends _ (past ++ (w.journal.record [.taken id]).events) once _
    rw [Journal.events_record, ← List.append_assoc]
    exact hopened.mono (Nat.le_refl _) fun _ h => h

end Source

/-- Single acts tend the cursors that are held, and open none that was touched before. -/
theorem World.upkeep_tending (past : List (Event α)) (once : Ident → Prop) :
    Upkeep (World.Tending past once) (fun _ => True)
      fun source => ∀ id, source.oneShot? = some id → once id where
  record := fun htended _ _ _ hw => World.Tending.record hw htended
  dropped := fun _ _ _ hw => World.Tending.dropped hw
  plan := fun _ _ => Recipe.plan_maintains _
  readingClass := fun _ _ => Source.readingClass_maintains _
  replay := fun _ => Source.opening_replay_tends _ _
  once := fun honce => Source.opening_once_tends (honce _ rfl) _
  below := fun honce => ⟨honce, trivial⟩
  claim := fun p _ => p.claim_maintains

end Acts

end StreamFusion
