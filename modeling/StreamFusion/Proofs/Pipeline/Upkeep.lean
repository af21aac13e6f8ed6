import StreamFusion.Pipeline.Terminal
import StreamFusion.Proofs.Pipeline.Acts
import StreamFusion.Proofs.Pipeline.Questions

/-!
# What runs keep up

A statement about the world and the cursors that are held is kept up by every run, however it ends,
if the single acts keep it up that runs are made of (`Upkeep`): planning, classifying, opening a
cursor, claiming a pipeline, and what is done to an open cursor, or not done when it is dropped. What
a run opens it also lets go; only an iterator goes on holding it (`Upkeep.iterate`).
-/

namespace StreamFusion

variable {α β γ : Type}

/-- Making room changes nothing, or lets the opened source go. -/
theorem Recipe.reserve_leads {P E : World α → Prop} (recipe : Recipe α) {plan : Plan α}
    {opened : Opened α} (hdiscard : Act.Leads P (Act.record opened.discard) (fun _ => E) E) :
    Act.Leads P (recipe.reserve plan opened) (fun _ => P) E := by
  by_cases hroom : recipe.HasRoom (plan.capacityHint opened.lengthHint)
  · rw [reserve_of_hasRoom hroom]
    exact .pure fun _ h => h
  · rw [reserve_of_not_hasRoom hroom]
    exact hdiscard.bind fun _ => .fail fun _ h => h

/-- The result of the act holds the cursor that was opened for it, if one was; without a result, no
cursor is left open. -/
def Act.HandsOver (P : List Ident → World α → Prop) (act : Act α β) (cursor? : β → Option Ident) :
    Prop :=
  ∀ held, Act.Leads (P held) act (fun y => P ((cursor? y).toList ++ held)) (P held)

/-- Single acts on recipes with `M` and sources with `N` keep up `P`, which is about the cursors
that are held and the world. -/
structure Upkeep (P : List Ident → World α → Prop) (M : Recipe α → Prop) (N : Source α → Prop) :
    Prop where
  record : ∀ {before after : Option Ident} {events : List (Event α)}, Tended before events after →
    Unasked events → ∀ held w, P (before.toList ++ held) w →
      P (after.toList ++ held) { w with journal := w.journal.record events }
  dropped : ∀ c held w, P (c :: held) w →
    P held { w with journal := w.journal.record [.dropped c] }
  plan : ∀ {recipe : Recipe α}, M recipe → ∀ held, Act.Maintains (P held) recipe.plan
  readingClass : ∀ {source : Source α}, N source →
    ∀ held, Act.Maintains (P held) source.readingClass
  replay : ∀ {id answers}, N (.replay id answers) →
    Act.HandsOver P (Source.replay id answers).opening Opened.openCursor?
  once : ∀ {id answers}, N (.once id answers) →
    Act.HandsOver P (Source.once id answers).opening Opened.openCursor?
  below : ∀ {id link base recipe}, N (.derived id link base recipe) → N base ∧ M recipe
  claim : ∀ (p : Pipeline α) held, Act.Maintains (P held) p.claim

namespace Upkeep

variable {P : List Ident → World α → Prop} {M : Recipe α → Prop} {N : Source α → Prop}
  {held : List Ident}

theorem record_leads (h : Upkeep P M N) {before after : Option Ident} {events : List (Event α)}
    (htended : Tended before events after) (hunasked : Unasked events) {E : World α → Prop} :
    Act.Leads (P (before.toList ++ held)) (Act.record events)
      (fun _ => P (after.toList ++ held)) E :=
  fun w hw => h.record htended hunasked held w hw

theorem note (h : Upkeep P M N) (note : Note) :
    Act.Maintains (P held) (Act.record [.noted note]) := by
  have hnone : Tended none ([.noted note] : List (Event α)) none := .of_silent (.singleton rfl)
  exact h.record_leads hnone (.notes [note])

/-! ## Opening and running -/

/-- Where there is no room, an opened source is let go. -/
theorem reserve (h : Upkeep P M N) (recipe : Recipe α) (plan : Plan α) (opened : Opened α) :
    Act.Leads (P (opened.openCursor?.toList ++ held)) (recipe.reserve plan opened)
      (fun _ => P (opened.openCursor?.toList ++ held)) (P held) := by
  refine recipe.reserve_leads fun w hw => ?_
  rcases opened.discard_cases with ⟨c, hcursor, hdiscard⟩ | ⟨intake, hcursor, hdiscard⟩
  · rw [hcursor] at hw
    rw [hdiscard]
    exact h.dropped c held w hw
  · rw [hcursor] at hw
    rw [hdiscard]
    exact h.record intake.release_tended (Unasked.observes.release intake) held w hw

/-- A run tends the cursor of the source that was opened for it, to its end. -/
theorem conduct (h : Upkeep P M N) (plan : Plan α) (opened : Opened α) {sink : Sink α γ}
    (hsink : sink.OnlyCalls) (seed : γ) :
    Act.Leads (P (opened.openCursor?.toList ++ held)) (plan.conduct opened sink seed)
      (fun _ => P held) (P held) := by
  have htended := plan.run_tended hsink.silent seed opened
  refine (h.record_leads htended (plan.run_unasked hsink seed opened)).bind fun _ => ?_
  cases (plan.run sink seed opened).result with
  | ok stats => exact (h.note _).bind fun _ => .pure fun _ h => h
  | error culprit => exact .fail fun _ h => h

section Recipe

variable {recipe : Recipe α} {opening : Act α (Opened α)} (h : Upkeep P M N) (hrecipe : M recipe)
  (hopening : Act.HandsOver P opening Opened.openCursor?)
include h hrecipe hopening

theorem start : Act.HandsOver P (recipe.start opening) fun found =>
    found.bind fun found => found.2.openCursor? := by
  intro held
  refine (h.plan hrecipe held).bind fun plan => ?_
  by_cases hnever : plan.never = true
  · rw [if_pos hnever]
    exact (h.note _).bind fun _ => .pure fun _ h => h
  · rw [if_neg hnever]
    exact (hopening held).bind fun opened => .pure fun _ h => h

theorem openIntake : Act.HandsOver P (recipe.openIntake opening) Intake.openCursor? := by
  intro held
  refine (h.start hrecipe hopening held).bind fun found => ?_
  cases found with
  | none => exact .pure fun _ h => h
  | some found =>
    refine .pure fun w hw => ?_
    rw [Plan.openCursor?_intake]
    exact hw

theorem collect (held : List Ident) : Act.Maintains (P held) (recipe.collect opening) := by
  refine (h.start hrecipe hopening held).bind fun found => ?_
  cases found with
  | none => exact .pure fun _ h => h
  | some found =>
    exact (h.reserve recipe found.1 found.2).bind fun _ =>
      (h.conduct found.1 found.2 Sink.onlyCalls_collect []).bind fun _ => .pure fun _ h => h

end Recipe

/-- Opening a source opens at most one cursor, which the opened source holds. -/
theorem opening (h : Upkeep P M N) {source : Source α} (hsource : N source) :
    Act.HandsOver P source.opening Opened.openCursor? := by
  induction source with
  | container id box =>
    intro held
    refine (h.readingClass hsource held).bind fun found => ?_
    cases found with
    | indexed => exact .pure fun _ h => h
    | sequential => exact .pure fun _ h => h
  | replay id answers => exact h.replay hsource
  | once id answers => exact h.once hsource
  | derived id link base recipe ih =>
    intro held
    obtain ⟨hbase, hrecipe⟩ := h.below hsource
    have hbelow := ih hbase
    cases link with
    | map f => exact (h.openIntake hrecipe hbelow held).bind fun _ => .pure fun _ h => h
    | flatten items => exact (h.openIntake hrecipe hbelow held).bind fun _ => .pure fun _ h => h
    | slice start stop => exact (h.collect hrecipe hbelow held).bind fun _ => .pure fun _ h => h

/-! ## Terminals -/

section Terminals

variable {p : Pipeline α} (h : Upkeep P M N) (hrecipe : M p.recipe) (hsource : N p.source)
include h hrecipe hsource

/-- A run holds no cursor when it is over, however it ended. -/
theorem runWith? {sink : Sink α γ} (hsink : sink.OnlyCalls) (seed : γ) (held : List Ident) :
    Act.Maintains (P held) (p.runWith? sink seed) := by
  refine (h.claim p held).bind fun _ => ?_
  refine (h.start hrecipe (h.opening hsource) held).bind fun found => ?_
  cases found with
  | none => exact .pure fun _ h => h
  | some found =>
    have hrun : Act.Leads (P (found.2.openCursor?.toList ++ held))
        (found.1.conduct found.2 sink seed) (fun _ => P held) (P held) :=
      h.conduct found.1 found.2 hsink seed
    exact Act.Leads.map (f := some) (R := fun _ => P held) hrun

theorem runWith {sink : Sink α γ} (hsink : sink.OnlyCalls) (seed : γ) (held : List Ident) :
    Act.Maintains (P held) (p.runWith sink seed) := by
  refine (h.runWith? hrecipe hsource hsink seed held).bind fun found => ?_
  cases found with
  | none => exact .pure fun _ h => h
  | some found => exact .pure fun _ h => h

theorem toList (held : List Ident) : Act.Maintains (P held) p.toList :=
  (h.claim p held).bind fun _ => h.collect hrecipe (h.opening hsource) held

theorem count (held : List Ident) : Act.Maintains (P held) p.count := by
  refine (h.runWith? hrecipe hsource Sink.onlyCalls_count () held).bind fun found => ?_
  cases found with
  | none => exact .pure fun _ h => h
  | some found => exact .pure fun _ h => h

theorem reduce (f : Combiner α α) (held : List Ident) : Act.Maintains (P held) (p.reduce f) := by
  refine (h.runWith hrecipe hsource (Sink.onlyCalls_reduce f) none held).bind fun found => ?_
  cases found with
  | none => exact .refuse fun _ h => h
  | some found => exact .pure fun _ h => h

/-- An iterator holds the cursor that was opened for it. -/
theorem iterate : Act.HandsOver P p.iterate Intake.openCursor? :=
  fun held => (h.claim p held).bind fun _ => h.openIntake hrecipe (h.opening hsource) held

end Terminals

end Upkeep

end StreamFusion
