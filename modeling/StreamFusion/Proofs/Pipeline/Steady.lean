import StreamFusion.Pipeline.Description
import StreamFusion.Proofs.Cursor.Holding

/-!
# What the basic acts keep up

A statement about the world is steady if every basic act keeps it up but the one by which a one-shot
source gives its cursor away (`World.Steady`). Then planning, classifying and claiming keep it up,
and so does every run that opens no one-shot source which changes it (`World.Steady.upkeep`). No
event of an open cursor is such an opening (`Tended.untaken`).
-/

namespace StreamFusion

variable {α β : Type}

/-- By none of these events a one-shot source gave its cursor away. -/
def Untaken (events : List (Event α)) : Prop := ∀ c, Event.taken c ∉ events

theorem Untaken.append {first second : List (Event α)} (h : Untaken first) (h' : Untaken second) :
    Untaken (first ++ second) :=
  fun c hmem => (List.mem_append.1 hmem).elim (h c) (h' c)

theorem Untaken.singleton {event : Event α} (h : ∀ c, event ≠ .taken c) : Untaken [event] :=
  fun c hmem => h c (List.mem_singleton.1 hmem).symm

/-- Moves of intakes are no such events. -/
theorem Untaken.observes : Observes fun _ (events : List (Event α)) _ => Untaken events where
  nil := fun _ _ => List.not_mem_nil
  append := append
  read := fun _ _ _ => singleton fun _ => nofun
  called := fun _ _ _ _ => singleton fun _ => nofun
  pulled := fun _ _ => singleton fun _ => nofun
  ended := fun _ => singleton fun _ => nofun
  closed := fun _ => singleton fun _ => nofun

theorem Untaken.of_planning {events : List (Event α)}
    (h : ∀ event ∈ events, event.IsPlanning) : Untaken events := fun _ hmem => h _ hmem

/-- After the first stage, a cursor is not given away, and never comes back to that stage. -/
theorem CursorStage.after_ne_unopened {stage later : CursorStage} {event : Event α}
    (hstage : stage ≠ .unopened) (h : stage.after event = some later) :
    later ≠ .unopened ∧ ∀ c, event ≠ .taken c := by
  cases stage with
  | unopened => exact absurd rfl hstage
  | underway => cases event <;> cases h <;> exact ⟨nofun, fun _ => nofun⟩
  | gone => cases event <;> cases h
  | lost => cases event <;> cases h

/-- Once a cursor was opened, it is not given away any more. -/
theorem CursorStage.taken_not_mem {c : Ident} {events : List (Event α)} {stage final : CursorStage}
    (hstage : stage ≠ .unopened) (h : stage.afterAll c events = some final) :
    Event.taken c ∉ events := by
  induction events generalizing stage with
  | nil => exact List.not_mem_nil
  | cons event rest ih =>
    have happend : stage.afterAll c ([event] ++ rest) = some final := h
    rw [afterAll_append, Option.bind_eq_some_iff] at happend
    obtain ⟨later, hevent, hrest⟩ := happend
    -- an event of the cursor leads on to a stage that is not the first one
    have hlater : later ≠ .unopened ∧ event ≠ .taken c := by
      by_cases hcursor : event.cursor? = some c
      · rw [afterAll_singleton hcursor] at hevent
        exact (after_ne_unopened hstage hevent).imp_right fun hnot => hnot c
      · have hnone : ofCursor c [event] = [] := ofCursor_singleton_of_ne hcursor
        rw [afterAll_of_ofCursor_eq_nil hnone] at hevent
        exact ⟨Option.some.inj hevent ▸ hstage, fun htaken => hcursor (htaken ▸ rfl)⟩
    intro hmem
    rcases List.mem_cons.1 hmem with htaken | hmem
    · exact hlater.2 htaken.symm
    · exact ih hlater.1 hrest hmem

/-- The holder of a cursor is not given another one. -/
theorem Tended.untaken {before after : Option Ident} {events : List (Event α)}
    (h : Tended before events after) : Untaken events := by
  intro c hmem
  by_cases hbefore : before = some c
  · exact CursorStage.taken_not_mem (by simp) (h.own c hbefore) hmem
  · have hown : Event.taken c ∈ ofCursor c events :=
      List.mem_filter.2 ⟨hmem, by simp [Event.cursor?]⟩
    rw [h.others c hbefore] at hown
    exact absurd hown List.not_mem_nil

/-- What the basic acts keep up, except that one-shot sources are spent. -/
structure World.Steady (P : World α → Prop) : Prop where
  record : ∀ {events}, Untaken events → Act.Maintains P (Act.record events)
  fresh : Act.Maintains P Act.fresh
  recipe : ∀ serial change, Act.Maintains P (Act.updateRecipe serial change)
  reading : ∀ id found,
    Act.Maintains P (Act.updateSource id fun memo => { memo with kindOfReading := some found })

namespace World.Steady

variable {P : World α → Prop} (h : Steady P)
include h

theorem plan (recipe : Recipe α) : Act.Maintains P recipe.plan := by
  refine (Act.Leads.recipeMemo _).bind fun memo => ?_
  cases memo.verdict with
  | some verdict => exact .ofVerdict
  | none =>
    exact (h.record (.of_planning recipe.isPlanning_of_mem)).bind fun _ =>
      (h.recipe _ _).bind fun _ => .ofVerdict

theorem readingClass (source : Source α) : Act.Maintains P source.readingClass := by
  have hclassify : Act.Maintains P source.classify := by
    cases source with
    | container id box =>
      have hprobed : Untaken [(.probed id : Event α)] := .singleton fun _ => nofun
      rw [Source.classify]
      split
      · exact .pure fun _ h => h
      · exact (h.record hprobed).bind fun _ => .pure fun _ h => h
    | derived id link base recipe => cases link <;> exact .pure fun _ h => h
    | replay id answers => exact .pure fun _ h => h
    | once id answers => exact .pure fun _ h => h
  refine (Act.Leads.sourceMemo _).bind fun memo => ?_
  cases memo.kindOfReading with
  | some known => exact .pure fun _ h => h
  | none => exact hclassify.bind fun _ => (h.reading _ _).bind fun _ => .pure fun _ h => h

theorem claim (p : Pipeline α) : Act.Maintains P p.claim := by
  unfold Pipeline.claim
  cases p.recipe.config.contract with
  | repeatable => exact .pure fun _ h => h
  | singleUse =>
    refine (Act.Leads.recipeMemo _).bind fun memo => ?_
    split
    · exact .refuse fun _ h => h
    · exact h.recipe _ _

/-- Runs keep it up if the openings of one-shot sources do. -/
theorem upkeep {N : Source α → Prop}
    (honce : ∀ {id answers}, N (.once id answers) →
      Act.Maintains P (Source.once id answers).opening)
    (hbelow : ∀ {id link base recipe}, N (.derived id link base recipe) → N base) :
    Upkeep (fun _ => P) (fun _ => True) N where
  record := fun htended _ _ w hw => h.record htended.untaken w hw
  dropped := fun _ _ w hw => h.record (Untaken.singleton fun _ h => by cases h) w hw
  plan := fun _ _ => h.plan _
  readingClass := fun _ _ => h.readingClass _
  replay := by
    intro id answers _ _
    have hopened : ∀ cursor, Untaken [(.opened cursor : Event α)] :=
      fun _ => .singleton fun _ => nofun
    exact h.fresh.bind fun _ => (h.record (hopened _)).bind fun _ => .pure fun _ h => h
  once := fun hsource _ => honce hsource
  below := fun hsource => ⟨hbelow hsource, trivial⟩
  claim := fun p _ => h.claim p

end World.Steady

end StreamFusion
