import StreamFusion.Pipeline.Building
import StreamFusion.Pipeline.Description
import StreamFusion.Proofs.Pipeline.Repeating
import StreamFusion.Proofs.Pipeline.Together

/-!
# Marks of single-use pipelines

A pipeline is marked when a terminal of it runs under the single-use contract. Claiming is the only
act that looks at a mark or sets one: all that follows does the same in worlds that differ in marks
alone, and leaves the marks as they are (`Act.MarkBlind`). This holds of the pipelines that a
pipeline reads, which are planned and opened but not claimed (`Source.opening_markBlind`).
-/

namespace StreamFusion

variable {α β γ : Type}

namespace World

/-- Which numbers are marked. -/
def marks (w : World α) (n : Nat) : Bool := (w.recipes n).isConsumed

/-- The world with these marks, and else as it is. -/
def withMarks (marks : Nat → Bool) (w : World α) : World α :=
  { w with recipes := fun n => { w.recipes n with isConsumed := marks n } }

end World

namespace Act

/-- The end of an act, with these marks in the world that is left. -/
def withMarks (marks : Nat → Bool) :
    EStateM.Result (Halt α) (World α) β → EStateM.Result (Halt α) (World α) β
  | .ok y w => .ok y (w.withMarks marks)
  | .error halt w => .error halt (w.withMarks marks)

/-- The act neither looks at marks nor changes them. -/
def MarkBlind (act : Act α β) : Prop :=
  ∀ marks w, act (w.withMarks marks) = withMarks marks (act w)

namespace MarkBlind

variable {act : Act α β} {next : β → Act α γ}

theorem bind (h : act.MarkBlind) (hnext : ∀ y, (next y).MarkBlind) :
    (act >>= next).MarkBlind := by
  intro marks w
  have hact := h marks w
  cases hresult : act w with
  | ok y w' =>
    rw [hresult] at hact
    rw [bind_ok hact, bind_ok hresult]
    exact hnext y marks w'
  | error halt w' =>
    rw [hresult] at hact
    rw [bind_error hact, bind_error hresult]
    rfl

theorem pure (y : β) : (Pure.pure y : Act α β).MarkBlind := fun _ _ => rfl

theorem fail (halt : Halt α) : (throw halt : Act α β).MarkBlind := fun _ _ => rfl

theorem map (f : β → γ) (h : act.MarkBlind) : (f <$> act).MarkBlind := by
  rw [map_eq_pure_bind]
  exact h.bind fun _ => .pure _

end MarkBlind

theorem fresh_markBlind : (fresh : Act α Nat).MarkBlind := fun _ _ => rfl

theorem record_markBlind (events : List (Event α)) : (record events).MarkBlind := fun _ _ => rfl

theorem sourceMemo_markBlind (id : Ident) : (sourceMemo id : Act α SourceMemo).MarkBlind :=
  fun _ _ => rfl

theorem updateSource_markBlind (id : Ident) (change : SourceMemo → SourceMemo) :
    (updateSource id change : Act α Unit).MarkBlind := fun _ _ => rfl

theorem ofVerdict_markBlind (verdict : Except Refusal (Plan α)) :
    (ofVerdict verdict).MarkBlind := by
  cases verdict with
  | ok plan => exact .pure plan
  | error refusal => exact .fail _

theorem ofAnswer_markBlind (answer : Except Refusal β) :
    (ofAnswer answer : Act α β).MarkBlind := by
  cases answer with
  | ok y => exact .pure y
  | error refusal => exact .fail _

/-- What is remembered of a recipe may be looked up for what planning gave. -/
theorem recipeMemo_markBlind (serial : Nat) {next : RecipeMemo α → Act α β}
    (hsame : ∀ memo marked, next { memo with isConsumed := marked } = next memo)
    (hnext : ∀ memo, (next memo).MarkBlind) : (recipeMemo serial >>= next).MarkBlind := by
  intro marks w
  show next { w.recipes serial with isConsumed := marks serial } (w.withMarks marks) = _
  rw [hsame]
  exact hnext (w.recipes serial) marks w

/-- What planning gives may be noted down. -/
theorem noteVerdict_markBlind (serial : Nat) (verdict : Option (Except Refusal (Plan α))) :
    (updateRecipe serial fun memo => { memo with verdict := verdict }).MarkBlind := by
  intro marks w
  have hmemo : ∀ n, (if n = serial then ⟨verdict, marks n⟩ else ⟨(w.recipes n).verdict, marks n⟩) =
      { (if n = serial then { w.recipes n with verdict := verdict } else w.recipes n) with
        isConsumed := marks n } := by
    intro n
    split <;> rfl
  show EStateM.Result.ok () ({ w with recipes := fun n =>
    if n = serial then ⟨verdict, marks n⟩ else ⟨(w.recipes n).verdict, marks n⟩ } : World α) = _
  rw [funext hmemo]
  rfl

end Act

/-! ## Planning and opening -/

theorem Recipe.plan_markBlind (recipe : Recipe α) : recipe.plan.MarkBlind := by
  refine Act.recipeMemo_markBlind recipe.serial (fun _ _ => rfl) fun memo => ?_
  cases memo.verdict with
  | some verdict => exact Act.ofVerdict_markBlind verdict
  | none =>
    exact (Act.record_markBlind _).bind fun _ => (Act.noteVerdict_markBlind _ _).bind fun _ =>
      Act.ofVerdict_markBlind _

theorem Source.readingClass_markBlind (source : Source α) : source.readingClass.MarkBlind := by
  have hclassify : source.classify.MarkBlind := by
    cases source with
    | container id box =>
      rw [classify]
      by_cases hempty : box.size = 0
      · rw [if_pos hempty]
        exact .pure _
      · rw [if_neg hempty]
        exact (Act.record_markBlind _).bind fun _ => .pure _
    | derived id link base recipe => cases link <;> exact .pure _
    | replay id answers => exact .pure _
    | once id answers => exact .pure _
  refine (Act.sourceMemo_markBlind source.id).bind fun memo => ?_
  cases memo.kindOfReading with
  | some known => exact .pure known
  | none =>
    exact hclassify.bind fun _ => (Act.updateSource_markBlind _ _).bind fun _ => .pure _

theorem Plan.conduct_markBlind (plan : Plan α) (opened : Opened α) (sink : Sink α γ) (seed : γ) :
    (plan.conduct opened sink seed).MarkBlind := by
  refine (Act.record_markBlind _).bind fun _ => ?_
  cases (plan.run sink seed opened).result with
  | ok stats => exact (Act.record_markBlind _).bind fun _ => .pure _
  | error culprit => exact .fail _

theorem conductStarted_markBlind (sink : Sink α γ) (seed : γ)
    (started : Option (Plan α × Opened α)) : (conductStarted sink seed started).MarkBlind := by
  cases started with
  | none => exact .pure none
  | some started => exact (started.1.conduct_markBlind started.2 sink seed).map some

theorem Recipe.reserve_markBlind (recipe : Recipe α) (plan : Plan α) (opened : Opened α) :
    (recipe.reserve plan opened).MarkBlind := by
  by_cases hroom : recipe.HasRoom (plan.capacityHint opened.lengthHint)
  · rw [reserve_of_hasRoom hroom]
    exact .pure ()
  · rw [reserve_of_not_hasRoom hroom]
    exact (Act.record_markBlind _).bind fun _ => .fail .noRoom

section Recipe

variable {recipe : Recipe α} {opening : Act α (Opened α)} (hopening : opening.MarkBlind)
include hopening

theorem Recipe.start_markBlind : (recipe.start opening).MarkBlind := by
  refine recipe.plan_markBlind.bind fun plan => ?_
  by_cases hnever : plan.never = true
  · rw [if_pos hnever]
    exact (Act.record_markBlind _).bind fun _ => .pure none
  · rw [if_neg hnever]
    exact hopening.bind fun _ => .pure _

theorem Recipe.openIntake_markBlind : (recipe.openIntake opening).MarkBlind := by
  refine (start_markBlind hopening).bind fun started => ?_
  cases started <;> exact .pure _

theorem Recipe.collect_markBlind : (recipe.collect opening).MarkBlind := by
  refine (start_markBlind hopening).bind fun started => ?_
  cases started with
  | none => exact .pure []
  | some started =>
    exact (recipe.reserve_markBlind started.1 started.2).bind fun _ =>
      (started.1.conduct_markBlind started.2 .collect []).bind fun _ => .pure _

end Recipe

/-- A source is opened without a look at the marks of the pipelines that it reads. -/
theorem Source.opening_markBlind (source : Source α) : source.opening.MarkBlind := by
  induction source with
  | container id box =>
    refine (readingClass_markBlind _).bind fun found => ?_
    cases found <;> exact .pure _
  | replay id answers =>
    exact Act.fresh_markBlind.bind fun _ => (Act.record_markBlind _).bind fun _ => .pure _
  | once id answers =>
    refine (Act.sourceMemo_markBlind id).bind fun memo => ?_
    by_cases hspent : memo.isSpent = true
    · rw [if_pos hspent]
      exact .fail _
    · rw [if_neg hspent]
      exact (Act.updateSource_markBlind _ _).bind fun _ => (Act.record_markBlind _).bind fun _ =>
        .pure _
  | derived id link base recipe ih =>
    cases link with
    | map f => exact (recipe.openIntake_markBlind ih).bind fun _ => .pure _
    | flatten items => exact (recipe.openIntake_markBlind ih).bind fun _ => .pure _
    | slice start stop => exact (recipe.collect_markBlind ih).bind fun _ => .pure _

/-! ## Claiming -/

namespace Pipeline

/-- The marks after a pipeline was claimed. -/
def claimed (p : Pipeline α) (marks : Nat → Bool) (n : Nat) : Bool :=
  marks n || decide (p.recipe.config.contract = .singleUse ∧ n = p.recipe.serial)

theorem claim_marks {p : Pipeline α} {w : World α} (h : p.Unclaimed w) :
    p.claim w = .ok () (w.withMarks (p.claimed w.marks)) := by
  have hmemo : Act.recipeMemo p.recipe.serial w = .ok (w.recipes p.recipe.serial) w := rfl
  have hmarks : ∀ memos : Nat → RecipeMemo α,
      (∀ n, memos n = { w.recipes n with isConsumed := p.claimed w.marks n }) →
      ({ w with recipes := memos } : World α) = w.withMarks (p.claimed w.marks) := by
    intro memos hmemos
    rw [funext hmemos]
    rfl
  unfold claim
  cases hcontract : p.recipe.config.contract with
  | repeatable =>
    refine congrArg (EStateM.Result.ok ()) (hmarks w.recipes fun n => ?_)
    have hsame : p.claimed w.marks n = (w.recipes n).isConsumed := by
      simp [claimed, hcontract, World.marks]
    rw [hsame]
  | singleUse =>
    have hfree : (w.recipes p.recipe.serial).isConsumed = false := h hcontract
    simp only
    rw [Act.bind_ok hmemo, hfree, if_neg (by simp)]
    refine congrArg (EStateM.Result.ok ()) (hmarks _ fun n => ?_)
    by_cases hn : n = p.recipe.serial
    · simp [claimed, hcontract, hn]
    · simp [claimed, hcontract, hn, World.marks]

theorem claim_refused {p : Pipeline α} {w : World α} (h : ¬ p.Unclaimed w) :
    p.claim w = .error (.refused .terminalRan) w :=
  (p.claim_cases w).elim (fun hfree => absurd hfree.1 h) (·.2)

/-- A pipeline that cannot be claimed is marked already. -/
theorem claimed_of_not_unclaimed {p : Pipeline α} {w : World α} (h : ¬ p.Unclaimed w) :
    p.claimed w.marks = w.marks := by
  funext n
  have hmarked : w.marks p.recipe.serial = true := by
    by_contra hfree
    exact h fun _ => Bool.eq_false_iff.2 hfree
  by_cases hn : n = p.recipe.serial
  · simp [claimed, hn, hmarked]
  · simp [claimed, hn]

/-- What comes after claiming, up to the opening of the source. -/
theorem begin_markBlind (p : Pipeline α) : (p.recipe.start p.source.opening).MarkBlind :=
  Recipe.start_markBlind p.source.opening_markBlind

/-! ## Building pipelines -/

theorem ofSource_markBlind (source : Source α) (config : Config) (width : Nat) :
    (ofSource source config width).MarkBlind := Act.fresh_markBlind.bind fun _ => .pure _

theorem derive_markBlind (p : Pipeline α) (ops : List (Op α)) (config : Config) :
    (p.derive ops config).MarkBlind := Act.fresh_markBlind.bind fun _ => .pure _

theorem link_markBlind (p : Pipeline α) (through : Link α) (width : Nat) :
    (p.link through width).MarkBlind :=
  (p.derive_markBlind _ _).bind fun _ => Act.fresh_markBlind.bind fun _ => ofSource_markBlind _ _ _

theorem slice_markBlind (p : Pipeline α) (start : Int) (stop : Option Int) :
    (p.slice start stop).MarkBlind := by
  unfold slice
  split
  · exact p.derive_markBlind _ _
  · exact p.derive_markBlind _ _
  · exact p.link_markBlind _ _

theorem filterText_markBlind (p : Pipeline α) (query : String) (fields : List String)
    (field : α → String → Option String) : (p.filterText query fields field).MarkBlind := by
  unfold filterText
  simp only
  cases (TextQuery.compile query fields).rejected with
  | none => exact p.derive_markBlind _ _
  | some reason => exact (Act.record_markBlind _).bind fun _ => p.derive_markBlind _ _

theorem copy_markBlind (p : Pipeline α) : p.copy.MarkBlind := by
  refine (p.derive_markBlind _ _).bind fun q => ?_
  exact Act.recipeMemo_markBlind p.recipe.serial (fun _ _ => rfl) fun memo =>
    (Act.noteVerdict_markBlind _ memo.verdict).bind fun _ => .pure q

end Pipeline

end StreamFusion
