import StreamFusion.Proofs.Pipeline.Sources
import StreamFusion.Proofs.Pipeline.Upkeep

/-!
# What is remembered is what would be found out

A recipe is planned once and a source is classified once; from then on the answer is remembered. A
ledger has the answers under their numbers, also those that were not asked for yet. A world knows a
ledger if all that it remembers is in it (`World.Knows`), and every act keeps that up. So planning
and classifying give the same in every world that knows the same ledger (`Recipe.plan_answers`,
`Source.readingClass_answers`).
-/

namespace StreamFusion

variable {α β γ : Type}

/-! ## Ledgers -/

/-- What planning gives for recipes and how sources can be read, by their numbers. -/
structure Ledger (α : Type) where
  plans : Nat → Option (Except Refusal (Plan α))
  classes : Nat → Option SourceClass

/-- The ledger has what planning gives for the recipe. -/
def Recipe.EnteredIn (recipe : Recipe α) (ledger : Ledger α) : Prop :=
  ledger.plans recipe.serial = some recipe.verdict

/-- The ledger has the source, and all that it reads. -/
def Source.EnteredIn (source : Source α) (ledger : Ledger α) : Prop :=
  ledger.classes source.id.serial = some source.readsAs ∧
    match source with
    | .derived _ _ base recipe => recipe.EnteredIn ledger ∧ base.EnteredIn ledger
    | _ => True

/-- The ledger has the pipeline, and all that it reads. -/
structure Pipeline.EnteredIn (p : Pipeline α) (ledger : Ledger α) : Prop where
  source : p.source.EnteredIn ledger
  recipe : p.recipe.EnteredIn ledger

namespace Ledger

/-- Entries are added, and none is changed. -/
structure GrowsTo (ledger later : Ledger α) : Prop where
  plans : ∀ n verdict, ledger.plans n = some verdict → later.plans n = some verdict
  classes : ∀ n found, ledger.classes n = some found → later.classes n = some found

theorem GrowsTo.refl (ledger : Ledger α) : ledger.GrowsTo ledger :=
  ⟨fun _ _ h => h, fun _ _ h => h⟩

theorem GrowsTo.trans {ledger middle later : Ledger α} (h : ledger.GrowsTo middle)
    (h' : middle.GrowsTo later) : ledger.GrowsTo later :=
  ⟨fun n verdict hn => h'.plans n verdict (h.plans n verdict hn),
    fun n found hn => h'.classes n found (h.classes n found hn)⟩

end Ledger

theorem Source.EnteredIn.grow {source : Source α} {ledger later : Ledger α}
    (h : source.EnteredIn ledger) (hgrows : ledger.GrowsTo later) : source.EnteredIn later := by
  induction source with
  | derived id link base recipe ih =>
    obtain ⟨hclass, hrecipe, hbase⟩ := h
    exact ⟨hgrows.classes _ _ hclass, hgrows.plans _ _ hrecipe, ih hbase⟩
  | container id box => exact ⟨hgrows.classes _ _ h.1, trivial⟩
  | replay id answers => exact ⟨hgrows.classes _ _ h.1, trivial⟩
  | once id answers => exact ⟨hgrows.classes _ _ h.1, trivial⟩

theorem Pipeline.EnteredIn.grow {p : Pipeline α} {ledger later : Ledger α}
    (h : p.EnteredIn ledger) (hgrows : ledger.GrowsTo later) : p.EnteredIn later :=
  ⟨h.source.grow hgrows, hgrows.plans _ _ h.recipe⟩

/-- A recipe below a link of the source. -/
theorem Source.EnteredIn.recipe {source : Source α} {ledger : Ledger α}
    (h : source.EnteredIn ledger) {recipe : Recipe α} (hmem : recipe ∈ source.recipes) :
    recipe.EnteredIn ledger := by
  induction source with
  | derived id link base other ih =>
    rcases List.mem_cons.1 hmem with rfl | hmem
    · exact h.2.1
    · exact ih h.2.2 hmem
  | container id box => exact absurd hmem List.not_mem_nil
  | replay id answers => exact absurd hmem List.not_mem_nil
  | once id answers => exact absurd hmem List.not_mem_nil

/-- All that is remembered is in the ledger, and the ledger has no number that was not handed out
yet. -/
structure World.Knows (ledger : Ledger α) (w : World α) : Prop where
  plans : ∀ n verdict, (w.recipes n).verdict = some verdict → ledger.plans n = some verdict
  classes : ∀ n found, (w.sources n).kindOfReading = some found → ledger.classes n = some found
  blank : ∀ n, w.nextSerial ≤ n → ledger.plans n = none ∧ ledger.classes n = none

variable {ledger : Ledger α}

theorem World.knows_initial : World.initial.Knows (⟨fun _ => none, fun _ => none⟩ : Ledger α) :=
  ⟨fun _ _ h => absurd h (by simp [initial]), fun _ _ h => absurd h (by simp [initial]),
    fun _ _ => ⟨rfl, rfl⟩⟩

/-- What happened is not among what is known. -/
theorem World.Knows.with_journal {w : World α} (h : w.Knows ledger) (journal : Journal α) :
    World.Knows ledger { w with journal := journal } := ⟨h.plans, h.classes, h.blank⟩

/-! ## Acts with one answer -/

/-- The act keeps what holds of the world, and always gives this answer. -/
def Act.Answers (P : World α → Prop) (act : Act α β) (answer : Except (Halt α) β) : Prop :=
  ∀ w, P w → ∃ w', P w' ∧ act w = match answer with
    | .ok y => .ok y w'
    | .error halt => .error halt w'

namespace Act.Answers

variable {P : World α → Prop} {act : Act α β} {next : β → Act α γ} {y : β}
  {answer : Except (Halt α) γ}

theorem maintains {answer : Except (Halt α) β} (h : Act.Answers P act answer) :
    Act.Maintains P act := by
  intro w hw
  obtain ⟨w', hw', hact⟩ := h w hw
  rw [hact]
  cases answer with
  | ok y => exact hw'
  | error halt => exact hw'

/-- An act with one answer leads to that. -/
theorem leads {answer : Except (Halt α) β} (h : Act.Answers P act answer) :
    Act.Leads P act (fun y w => answer = .ok y ∧ P w) P := by
  intro w hw
  obtain ⟨w', hw', hact⟩ := h w hw
  rw [hact]
  cases answer with
  | ok y => exact ⟨rfl, hw'⟩
  | error halt => exact hw'

theorem bind (h : Act.Answers P act (.ok y)) (hnext : Act.Answers P (next y) answer) :
    Act.Answers P (act >>= next) answer := by
  intro w hw
  obtain ⟨w', hw', hact⟩ := h w hw
  rw [Act.bind_ok hact]
  exact hnext w' hw'

theorem bind_error {halt : Halt α} (h : Act.Answers P act (.error halt)) :
    Act.Answers P (act >>= next) (.error halt) := by
  intro w hw
  obtain ⟨w', hw', hact⟩ := h w hw
  exact ⟨w', hw', Act.bind_error hact⟩

/-- What follows an act that is sure to give this result. -/
theorem bind_leads {R : γ → World α → Prop} {E : World α → Prop} (h : Act.Answers P act (.ok y))
    (hnext : Act.Leads P (next y) R E) : Act.Leads P (act >>= next) R E := by
  intro w hw
  obtain ⟨w', hw', hact⟩ := h w hw
  rw [Act.bind_ok hact]
  exact hnext w' hw'

theorem pure (y : β) : Act.Answers P (Pure.pure y) (.ok y) := fun w hw => ⟨w, hw, rfl⟩

/-- The act changes the world, and what holds of it goes on to hold. -/
theorem ofChange {change : World α → World α} (h : ∀ w, P w → P (change w)) :
    Act.Answers P (modify change) (.ok ()) := fun w hw => ⟨change w, h w hw, rfl⟩

theorem ofVerdict (verdict : Except Refusal (Plan α)) :
    Act.Answers P (Act.ofVerdict verdict) (verdict.mapError .refused) := by
  intro w hw
  cases verdict with
  | ok plan => exact ⟨w, hw, rfl⟩
  | error refusal => exact ⟨w, hw, rfl⟩

end Act.Answers

namespace Act

theorem record_answers (events : List (Event α)) :
    Answers (World.Knows ledger) (record events) (.ok ()) :=
  .ofChange fun _ hw => hw.with_journal _

theorem fresh_knows : Maintains (World.Knows ledger) (fresh : Act α Nat) :=
  fun _ hw => ⟨hw.plans, hw.classes, fun n hn => hw.blank n (Nat.le_of_succ_le hn)⟩

/-- What is noted down of a recipe is in the ledger, or was remembered before. -/
theorem updateRecipe_answers (serial : Nat) (change : RecipeMemo α → RecipeMemo α)
    (hchange : ∀ memo verdict, (change memo).verdict = some verdict →
      memo.verdict = some verdict ∨ ledger.plans serial = some verdict) :
    Answers (World.Knows ledger) (updateRecipe serial change) (.ok ()) := by
  refine .ofChange fun w hw => ⟨fun n verdict hn => ?_, hw.classes, hw.blank⟩
  simp only at hn
  by_cases hserial : n = serial
  · subst hserial
    rw [if_pos rfl] at hn
    exact (hchange _ _ hn).elim (hw.plans n verdict) id
  · rw [if_neg hserial] at hn
    exact hw.plans n verdict hn

/-- What is noted down of a source is in the ledger, or was remembered before. -/
theorem updateSource_answers (id : Ident) (change : SourceMemo → SourceMemo)
    (hchange : ∀ memo found, (change memo).kindOfReading = some found →
      memo.kindOfReading = some found ∨ ledger.classes id.serial = some found) :
    Answers (World.Knows ledger) (updateSource id change) (.ok ()) := by
  refine .ofChange fun w hw => ⟨hw.plans, fun n found hn => ?_, hw.blank⟩
  simp only at hn
  by_cases hserial : n = id.serial
  · subst hserial
    rw [if_pos rfl] at hn
    exact (hchange _ _ hn).elim (hw.classes _ found) fun h => h
  · rw [if_neg hserial] at hn
    exact hw.classes n found hn

theorem spend_knows (id : Ident) : Maintains (World.Knows ledger)
    (updateSource id fun memo => { memo with isSpent := true }) :=
  (updateSource_answers id (fun memo => { memo with isSpent := true })
    fun _ _ hfound => .inl hfound).maintains

end Act

/-! ## Planning and classifying -/

/-- Planning gives what is in the ledger, whether or not it was asked for before. -/
theorem Recipe.plan_answers {recipe : Recipe α} (h : recipe.EnteredIn ledger) :
    Act.Answers (World.Knows ledger) recipe.plan (recipe.verdict.mapError .refused) := by
  intro w hw
  have hmemo : Act.recipeMemo recipe.serial w = .ok (w.recipes recipe.serial) w := rfl
  rw [plan, Act.bind_ok hmemo]
  cases hknown : (w.recipes recipe.serial).verdict with
  | some verdict =>
    have hverdict : some verdict = some recipe.verdict :=
      (hw.plans _ _ hknown).symm.trans h
    rw [Option.some.inj hverdict]
    exact Act.Answers.ofVerdict recipe.verdict w hw
  | none =>
    have hnoted : Act.Answers (World.Knows ledger)
        (Act.updateRecipe recipe.serial fun memo => { memo with verdict := some recipe.verdict })
        (.ok ()) :=
      Act.updateRecipe_answers _ _ fun _ _ hverdict => .inr (h.trans hverdict)
    exact ((Act.record_answers _).bind (hnoted.bind (.ofVerdict recipe.verdict))) w hw

/-- The plan that planning gave is the verdict. -/
theorem Recipe.verdict_of_answer {recipe : Recipe α} {plan : Plan α}
    (h : recipe.verdict.mapError .refused = (.ok plan : Except (Halt α) (Plan α))) :
    recipe.verdict = .ok plan := by
  cases hverdict : recipe.verdict with
  | ok found =>
    rw [hverdict] at h
    exact congrArg _ (Except.ok.inj h)
  | error refusal =>
    rw [hverdict] at h
    cases h

namespace Source

theorem classify_answers (source : Source α) :
    Act.Answers (World.Knows ledger) source.classify (.ok source.readsAs) := by
  cases source with
  | container id box =>
    rw [classify, readsAs]
    by_cases hempty : box.size = 0
    · rw [if_pos hempty, if_pos (.inl hempty)]
      exact .pure _
    · rw [if_neg hempty]
      refine (Act.record_answers _).bind ?_
      by_cases hfirst : (box.get? 0).isSome
      · rw [if_pos hfirst, if_pos (.inr hfirst)]
        exact .pure _
      · rw [if_neg hfirst, if_neg (not_or.2 ⟨hempty, hfirst⟩)]
        exact .pure _
  | derived id link base recipe => cases link <;> exact .pure _
  | replay id answers => exact .pure _
  | once id answers => exact .pure _

/-- Asking how a source can be read gives what is in the ledger, whether or not it was asked for
before. -/
theorem readingClass_answers {source : Source α} (h : source.EnteredIn ledger) :
    Act.Answers (World.Knows ledger) source.readingClass (.ok source.readsAs) := by
  have hclass : ledger.classes source.id.serial = some source.readsAs := by
    unfold EnteredIn at h
    exact h.1
  intro w hw
  have hmemo : Act.sourceMemo source.id w = .ok (w.sources source.id.serial) w := rfl
  rw [readingClass, Act.bind_ok hmemo]
  cases hknown : (w.sources source.id.serial).kindOfReading with
  | some found =>
    have hfound : some found = some source.readsAs :=
      (hw.classes _ _ hknown).symm.trans hclass
    rw [Option.some.inj hfound]
    exact Act.Answers.pure _ w hw
  | none =>
    have hnoted : Act.Answers (World.Knows ledger)
        (Act.updateSource source.id fun memo =>
          { memo with kindOfReading := some source.readsAs })
        (.ok ()) :=
      Act.updateSource_answers _ _ fun _ _ hfound => .inr (hclass.trans hfound)
    obtain ⟨w₁, hw₁, hfound⟩ := source.classify_answers w hw
    obtain ⟨w₂, hw₂, hnow⟩ := hnoted w₁ hw₁
    simp only
    rw [Act.bind_ok hfound, Act.bind_ok hnow]
    exact ⟨w₂, hw₂, rfl⟩

end Source

/-! ## Running -/

/-- Single acts remember nothing but what is in the ledger, whatever cursors are held. -/
theorem World.upkeep_knows (ledger : Ledger α) :
    Upkeep (fun _ => World.Knows ledger) (·.EnteredIn ledger) (·.EnteredIn ledger) where
  record := fun _ _ _ _ hw => hw.with_journal _
  dropped := fun _ _ _ hw => hw.with_journal _
  plan := fun h _ => (Recipe.plan_answers h).maintains
  readingClass := fun h _ => (Source.readingClass_answers h).maintains
  replay := fun _ _ => Act.fresh_knows.bind fun _ =>
    (Act.record_answers _).maintains.bind fun _ => .pure fun _ h => h
  once := by
    intro id answers _ _
    refine (Act.Leads.sourceMemo _).bind fun memo => ?_
    split
    · exact .refuse fun _ h => h
    · exact (Act.spend_knows id).bind fun _ => (Act.record_answers _).maintains.bind fun _ =>
        .pure fun _ h => h
  below := fun h => ⟨h.2.2, h.2.1⟩
  claim := by
    intro p _
    unfold Pipeline.claim
    cases p.recipe.config.contract with
    | repeatable => exact .pure fun _ h => h
    | singleUse =>
      refine (Act.Leads.recipeMemo _).bind fun memo => ?_
      split
      · exact .refuse fun _ h => h
      · exact (Act.updateRecipe_answers _ (fun memo => { memo with isConsumed := true })
          fun _ _ hverdict => .inl hverdict).maintains

end StreamFusion
