import StreamFusion.Proofs.Pipeline.Memory
import StreamFusion.Proofs.Pipeline.Numbers

/-!
# Answers that are remembered

An answer is paid for with at most one question, and once it is remembered the question is not asked
any more. Both are said by one inequality (`World.AskedOnce`), which every single act keeps up
(`World.upkeep_askedOnce`), and so does the making of a pipeline: a copy may come with an answer for
which nobody asked.
-/

namespace StreamFusion

variable {α : Type}

namespace World

/-- The answer to the question is remembered. -/
def answered (w : World α) : Question → Bool
  | .verdict n => (w.recipes n).verdict.isSome
  | .reading n => (w.sources n).kindOfReading.isSome

/-- With what was asked before the journal began, the question was asked at most once, and only if
its answer is remembered. -/
def AskedOnce (question : Question) (before : Nat) (w : World α) : Prop :=
  before + timesAsked question w.journal.events ≤ (w.answered question).toNat

variable {question : Question} {before : Nat} {w w' : World α}

namespace AskedOnce

/-- Whatever is asked is then answered. -/
theorem later (h : w.AskedOnce question before) {events : List (Event α)}
    (hjournal : w'.journal = w.journal.record events)
    (hanswered : timesAsked question events + (w.answered question).toNat
      ≤ (w'.answered question).toNat) : w'.AskedOnce question before := by
  unfold AskedOnce at h ⊢
  rw [hjournal, Journal.events_record, timesAsked_append]
  omega

/-- Nothing is asked, and nothing that was remembered is forgotten. -/
theorem unasked (h : w.AskedOnce question before) {events : List (Event α)}
    (hjournal : w'.journal = w.journal.record events) (hunasked : Unasked events)
    (hanswered : w'.answered question = w.answered question) : w'.AskedOnce question before := by
  refine h.later hjournal (Nat.le_of_eq ?_)
  rw [hunasked.timesAsked_eq, hanswered, Nat.zero_add]

theorem record (h : w.AskedOnce question before) {events : List (Event α)}
    (hunasked : Unasked events) :
    AskedOnce question before { w with journal := w.journal.record events } :=
  h.unasked rfl hunasked (by cases question <;> rfl)

/-- A pipeline is made. Only what no number was handed out for may be answered by it. -/
theorem made (h : w.AskedOnce question before)
    (hblank : ∀ n, w.nextSerial ≤ n → (w.recipes n).verdict = none) {q : Pipeline α}
    (hmade : Pipeline.Made w q w') : w'.AskedOnce question before := by
  obtain ⟨notes, hjournal⟩ := hmade.journal_eq
  refine h.later hjournal ?_
  rw [(Unasked.notes notes).timesAsked_eq, Nat.zero_add]
  cases question with
  | verdict n =>
    show (w.recipes n).verdict.isSome.toNat ≤ (w'.recipes n).verdict.isSome.toNat
    by_cases hn : n < w.nextSerial
    · exact Nat.le_of_eq (by rw [hmade.recipes_eq n hn])
    · rw [hblank n (Nat.le_of_not_lt hn)]
      exact Nat.zero_le _
  | reading n =>
    exact Nat.le_of_eq (by rw [World.answered, World.answered, hmade.sources_eq])

end AskedOnce

end World

/-! ## Single acts -/

section Acts

variable {question : Question} {before : Nat}

/-- Planning is asked for if its answer is not remembered, and then it is. -/
theorem Recipe.plan_askedOnce (recipe : Recipe α) :
    Act.Maintains (World.AskedOnce question before) recipe.plan := by
  intro w hw
  have hmemo : Act.recipeMemo recipe.serial w = .ok (w.recipes recipe.serial) w := rfl
  rw [plan, Act.bind_ok hmemo]
  cases hknown : (w.recipes recipe.serial).verdict with
  | some verdict => exact Act.Leads.ofVerdict w hw
  | none =>
    refine Act.Leads.ofVerdict (P := World.AskedOnce question before) _ (hw.later rfl ?_)
    rw [timesAsked_cons, (Unasked.notes _).timesAsked_eq, Nat.zero_add]
    cases question with
    | reading n => exact Nat.le_of_eq (Nat.zero_add _)
    | verdict n =>
      show (recipe.serial == n).toNat + (w.recipes n).verdict.isSome.toNat
        ≤ (if n = recipe.serial then _ else w.recipes n : RecipeMemo α).verdict.isSome.toNat
      by_cases hn : n = recipe.serial
      · rw [if_pos hn, hn, hknown, beq_self_eq_true]
        exact Nat.le_refl _
      · refine Nat.le_of_eq ?_
        rw [if_neg hn, beq_eq_false_iff_ne.2 (Ne.symm hn), Bool.toNat_false, Nat.zero_add]

namespace Source

/-- Classifying a source asks at most the question of this source. -/
theorem classify_asks (source : Source α) (question : Question) (w : World α) : ∃ events,
    source.classify w = .ok source.readsAs { w with journal := w.journal.record events }
      ∧ timesAsked question events ≤ (question == .reading source.id.serial).toNat := by
  have hprobed : ∀ id : Ident, timesAsked question ([.probed id] : List (Event α))
      ≤ (question == .reading id.serial).toNat := by
    intro id
    rw [timesAsked_cons, timesAsked_nil, Nat.zero_add]
    cases question with
    | verdict n => exact Nat.zero_le _
    | reading n =>
      show (id.serial == n).toNat ≤ (Question.reading n == .reading id.serial).toNat
      by_cases hn : id.serial = n
      · rw [hn, beq_self_eq_true (Question.reading n)]
        exact Bool.toNat_le _
      · rw [beq_eq_false_iff_ne.2 hn]
        exact Nat.zero_le _
  cases source with
  | container id box =>
    by_cases hempty : box.size = 0
    · refine ⟨[], ?_, Nat.zero_le _⟩
      rw [classify, readsAs, if_pos hempty, if_pos (.inl hempty)]
      rfl
    · refine ⟨[.probed id], ?_, hprobed id⟩
      rw [classify, readsAs, if_neg hempty]
      show EStateM.Result.ok (if (box.get? 0).isSome then _ else _) _ = _
      simp only [hempty, false_or]
  | derived id link base recipe => cases link <;> exact ⟨[], rfl, Nat.zero_le _⟩
  | replay id answers => exact ⟨[], rfl, Nat.zero_le _⟩
  | once id answers => exact ⟨[], rfl, Nat.zero_le _⟩

/-- A source is classified if it is not remembered how it can be read, and then it is. -/
theorem readingClass_askedOnce (source : Source α) :
    Act.Maintains (World.AskedOnce question before) source.readingClass := by
  intro w hw
  have hmemo : Act.sourceMemo source.id w = .ok (w.sources source.id.serial) w := rfl
  rw [readingClass, Act.bind_ok hmemo]
  cases hknown : (w.sources source.id.serial).kindOfReading with
  | some found => exact hw
  | none =>
    obtain ⟨events, hclassify, hasked⟩ := source.classify_asks question w
    simp only
    rw [Act.bind_ok hclassify]
    refine hw.later rfl (Nat.le_trans (Nat.add_le_add_right hasked _) ?_)
    cases question with
    | verdict n => exact Nat.le_of_eq (Nat.zero_add _)
    | reading n =>
      show (Question.reading n == .reading source.id.serial).toNat
          + (w.sources n).kindOfReading.isSome.toNat
        ≤ (if n = source.id.serial then _ else w.sources n : SourceMemo).kindOfReading.isSome.toNat
      by_cases hn : n = source.id.serial
      · rw [if_pos hn, hn, hknown, beq_self_eq_true]
        exact Nat.le_refl _
      · refine Nat.le_of_eq ?_
        rw [if_neg hn, beq_eq_false_iff_ne.2 fun h => hn (Question.reading.inj h),
          Bool.toNat_false, Nat.zero_add]

end Source

/-- The answers are left alone by what changes neither verdicts nor readings. -/
theorem World.upkeep_askedOnce (question : Question) (before : Nat) :
    Upkeep (fun _ => World.AskedOnce (α := α) question before) (fun _ => True)
      fun _ => True where
  record := fun _ hunasked _ _ hw => hw.record hunasked
  dropped := fun _ _ _ hw => hw.record (.singleton fun question => by cases question <;> rfl)
  plan := fun _ _ => Recipe.plan_askedOnce _
  readingClass := fun _ _ => Source.readingClass_askedOnce _
  replay := by
    intro id answers _ _ w hw
    exact hw.unasked rfl (.singleton fun question => by cases question <;> rfl)
      (by cases question <;> rfl)
  once := by
    intro id answers _ _ w hw
    have hmemo : Act.sourceMemo id w = .ok (w.sources id.serial) w := rfl
    rw [Source.opening, Act.bind_ok hmemo]
    by_cases hspent : (w.sources id.serial).isSpent = true
    · rw [if_pos hspent]
      exact hw
    · rw [if_neg hspent]
      refine hw.unasked rfl (.singleton fun question => by cases question <;> rfl) ?_
      cases question with
      | verdict n => rfl
      | reading n =>
        show (if n = id.serial then _ else w.sources n : SourceMemo).kindOfReading.isSome = _
        split <;> rfl
  below := fun _ => ⟨trivial, trivial⟩
  claim := by
    intro p _
    unfold Pipeline.claim
    cases p.recipe.config.contract with
    | repeatable => exact .pure fun _ h => h
    | singleUse =>
      refine (Act.Leads.recipeMemo _).bind fun memo => ?_
      split
      · exact .refuse fun _ h => h
      · intro w hw
        refine hw.unasked rfl .nil ?_
        cases question with
        | verdict n =>
          show (if n = p.recipe.serial then _ else w.recipes n : RecipeMemo α).verdict.isSome = _
          split <;> rfl
        | reading n => rfl

end Acts

end StreamFusion
