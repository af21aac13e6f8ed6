import StreamFusion.Proofs.Cursor.Holding
import StreamFusion.Proofs.Intake.Alike
import StreamFusion.Proofs.Pipeline.Memory

/-!
# Repeating a run

A repeatable pipeline over a source that can be read again gives the same list whenever it is asked:
in any two worlds that know of it what planning and classifying give (`Pipeline.toList_agrees`). The
second run may remember a plan that the first one makes, and it opens a cursor of its own.
-/

namespace StreamFusion

variable {α β γ δ ε : Type}

namespace Act

/-- Two acts end alike: with results that `R` relates, or for the same reason without a result. -/
inductive EndAlike (P P' : World α → Prop) (R : β → γ → Prop) :
    EStateM.Result (Halt α) (World α) β → EStateM.Result (Halt α) (World α) γ → Prop where
  | ok {y : β} {z : γ} {w w' : World α} (h : R y z) (hw : P w) (hw' : P' w') :
      EndAlike P P' R (.ok y w) (.ok z w')
  | error (halt : Halt α) {w w' : World α} (hw : P w) (hw' : P' w') :
      EndAlike P P' R (.error halt w) (.error halt w')

/-- From any world with `P` and any world with `P'` the two acts end alike. -/
def Agrees (P P' : World α → Prop) (R : β → γ → Prop) (act : Act α β) (other : Act α γ) : Prop :=
  ∀ w w', P w → P' w' → EndAlike P P' R (act w) (other w')

namespace Agrees

variable {P P' : World α → Prop} {R : β → γ → Prop} {S : δ → ε → Prop} {act : Act α β}
  {other : Act α γ} {next : β → Act α δ} {next' : γ → Act α ε}

theorem bind (h : Agrees P P' R act other)
    (hnext : ∀ y z, R y z → Agrees P P' S (next y) (next' z)) :
    Agrees P P' S (act >>= next) (other >>= next') := by
  intro w w' hw hw'
  have hact := h w w' hw hw'
  show EndAlike P P' S (EStateM.bind act next w) (EStateM.bind other next' w')
  rw [EStateM.bind, EStateM.bind]
  generalize act w = result at hact ⊢
  generalize other w' = result' at hact ⊢
  cases hact with
  | ok h hv hv' => exact hnext _ _ h _ _ hv hv'
  | error halt hv hv' => exact .error halt hv hv'

theorem pure {y : β} {z : γ} (h : R y z) : Agrees P P' R (Pure.pure y) (Pure.pure z) :=
  fun _ _ hw hw' => .ok h hw hw'

theorem fail (halt : Halt α) : Agrees P P' R (throw halt) (throw halt) :=
  fun _ _ hw hw' => .error halt hw hw'

/-- An act with one answer agrees with itself. -/
theorem of_answers {act other : Act α β} {answer : Except (Halt α) β} (h : Answers P act answer)
    (h' : Answers P' other answer) : Agrees P P' Eq act other := by
  intro w w' hw hw'
  obtain ⟨v, hv, hact⟩ := h w hw
  obtain ⟨v', hv', hother⟩ := h' w' hw'
  rw [hact, hother]
  cases answer with
  | ok y => exact .ok rfl hv hv'
  | error halt => exact .error halt hv hv'

/-- Acts that are sure to give related results. -/
theorem of_answers_ok {y : β} {z : γ} (h : Answers P act (.ok y)) (h' : Answers P' other (.ok z))
    (hR : R y z) : Agrees P P' R act other := by
  intro w w' hw hw'
  obtain ⟨v, hv, hact⟩ := h w hw
  obtain ⟨v', hv', hother⟩ := h' w' hw'
  rw [hact, hother]
  exact .ok hR hv hv'

/-- Acts that are sure to give no result, for the same reason. -/
theorem of_answers_error {halt : Halt α} (h : Answers P act (.error halt))
    (h' : Answers P' other (.error halt)) : Agrees P P' R act other := by
  intro w w' hw hw'
  obtain ⟨v, hv, hact⟩ := h w hw
  obtain ⟨v', hv', hother⟩ := h' w' hw'
  rw [hact, hother]
  exact .error halt hv hv'

end Agrees

end Act

/-! ## Claiming -/

namespace Pipeline

/-- A terminal may run on the pipeline. -/
def Unclaimed (p : Pipeline α) (w : World α) : Prop :=
  p.recipe.config.contract = .singleUse → (w.recipes p.recipe.serial).isConsumed = false

/-- Nothing is claimed without the single-use contract. -/
theorem claim_of_repeatable {p : Pipeline α} (h : p.recipe.config.contract = .repeatable) :
    p.claim = pure () := by
  unfold claim
  rw [h]

/-- Claiming a pipeline is refused, or changes nothing of a world but which pipelines are
claimed. -/
theorem claim_cases (p : Pipeline α) (w : World α) :
    (p.Unclaimed w ∧ ∃ recipes, p.claim w = .ok () { w with recipes := recipes }
        ∧ ∀ n, (recipes n).verdict = (w.recipes n).verdict)
      ∨ (¬ p.Unclaimed w ∧ p.claim w = .error (.refused .terminalRan) w) := by
  have hmemo : Act.recipeMemo p.recipe.serial w = .ok (w.recipes p.recipe.serial) w := rfl
  unfold claim Unclaimed
  cases hcontract : p.recipe.config.contract with
  | repeatable => exact .inl ⟨nofun, w.recipes, rfl, fun _ => rfl⟩
  | singleUse =>
    simp only
    rw [Act.bind_ok hmemo]
    cases hconsumed : (w.recipes p.recipe.serial).isConsumed with
    | true =>
      rw [if_pos rfl]
      exact .inr ⟨by simp, rfl⟩
    | false =>
      rw [if_neg (by simp)]
      refine .inl ⟨fun _ => rfl, _, rfl, fun n => ?_⟩
      simp only
      split
      · rfl
      · rfl

end Pipeline

/-- Which pipelines are claimed is not in the ledger. -/
theorem World.Knows.claimed {ledger : Ledger α} {w : World α} (h : w.Knows ledger)
    {recipes : Nat → RecipeMemo α} (hsame : ∀ n, (recipes n).verdict = (w.recipes n).verdict) :
    World.Knows ledger { w with recipes := recipes } :=
  ⟨fun n verdict hn => h.plans n verdict ((hsame n).symm.trans hn), h.classes, h.blank⟩

section

variable {ledger later : Ledger α}

/-- Whatever events are written down. -/
theorem Act.record_agrees (events events' : List (Event α)) :
    Act.Agrees (World.Knows ledger) (World.Knows later) Eq (Act.record events)
      (Act.record events') :=
  .of_answers (Act.record_answers events) (Act.record_answers events')

/-- Runs over opened sources that are alike, with the same closing action. -/
theorem Plan.conduct_agrees (plan : Plan α) {opened other : Opened α} (h : opened.Alike other)
    (sink : Sink α γ) (seed : γ) :
    Act.Agrees (World.Knows ledger) (World.Knows later) (fun found found' => found.1 = found'.1)
      (plan.conduct opened sink seed) (plan.conduct other sink seed) := by
  obtain ⟨hacc, hresult⟩ := plan.run_alike sink seed h
  refine (Act.record_agrees _ _).bind fun _ _ _ => ?_
  rw [hresult]
  cases (plan.run sink seed other).result with
  | ok stats => exact (Act.record_agrees _ _).bind fun _ _ _ => .pure hacc
  | error culprit => exact .fail _

/-- Opened sources that are alike have the same number of elements, as far as it is known. -/
theorem Opened.Alike.lengthHint_eq {opened other : Opened α} (h : opened.Alike other) :
    opened.lengthHint = other.lengthHint := by
  cases h <;> rfl

/-- Room is made on both sides, or on none of them. -/
theorem Recipe.reserve_agrees {recipe other : Recipe α} {plan plan' : Plan α}
    {opened opened' : Opened α} (hsame : recipe.HasRoom (plan.capacityHint opened.lengthHint)
      ↔ other.HasRoom (plan'.capacityHint opened'.lengthHint)) :
    Act.Agrees (World.Knows ledger) (World.Knows later) Eq (recipe.reserve plan opened)
      (other.reserve plan' opened') := by
  by_cases hroom : recipe.HasRoom (plan.capacityHint opened.lengthHint)
  · rw [reserve_of_hasRoom hroom, reserve_of_hasRoom (hsame.1 hroom)]
    exact .pure rfl
  · rw [reserve_of_not_hasRoom hroom, reserve_of_not_hasRoom (mt hsame.2 hroom)]
    exact (Act.record_agrees _ _).bind fun _ _ _ => .fail .noRoom

section Opening

-- two recipes of one verdict, as a pipeline and a pipeline that was made to read what it reads
variable {recipe other : Recipe α} {opening : Act α (Opened α)}
  (hrecipe : recipe.EnteredIn ledger) (hother : other.EnteredIn later)
  (hverdict : other.verdict = recipe.verdict)
  (hopening : Act.Agrees (World.Knows ledger) (World.Knows later) Opened.Alike opening opening)
include hrecipe hother hverdict hopening

theorem Recipe.start_agrees :
    Act.Agrees (World.Knows ledger) (World.Knows later)
      (Option.Rel fun started started' => started.1 = started'.1 ∧ started.2.Alike started'.2)
      (recipe.start opening) (other.start opening) := by
  have hplan : Act.Agrees (World.Knows ledger) (World.Knows later) Eq recipe.plan other.plan :=
    .of_answers (recipe.plan_answers hrecipe) (hverdict ▸ other.plan_answers hother)
  refine hplan.bind fun plan _ hsame => ?_
  subst hsame
  by_cases hnever : plan.never = true
  · rw [if_pos hnever]
    exact (Act.record_agrees _ _).bind fun _ _ _ => .pure .none
  · rw [if_neg hnever]
    exact hopening.bind fun _ _ hopened => .pure (.some ⟨rfl, hopened⟩)

theorem Recipe.openIntake_agrees :
    Act.Agrees (World.Knows ledger) (World.Knows later) Intake.Alike (recipe.openIntake opening)
      (other.openIntake opening) := by
  refine (recipe.start_agrees hrecipe hother hverdict hopening).bind fun found found' h => ?_
  cases h with
  | none => exact .pure (.same _)
  | @some started started' h =>
    obtain ⟨plan, opened⟩ := started
    obtain ⟨hplan, hopened⟩ := h
    change plan = started'.1 at hplan
    subst hplan
    exact .pure (started'.1.intake_alike hopened)

theorem Recipe.collect_agrees (hwidth : other.width = recipe.width) :
    Act.Agrees (World.Knows ledger) (World.Knows later) Eq (recipe.collect opening)
      (other.collect opening) := by
  refine (recipe.start_agrees hrecipe hother hverdict hopening).bind fun found found' h => ?_
  cases h with
  | none => exact .pure rfl
  | @some started started' h =>
    obtain ⟨plan, opened⟩ := started
    obtain ⟨hplan, hopened⟩ := h
    change plan = started'.1 at hplan
    subst hplan
    have hsame : recipe.HasRoom (started'.1.capacityHint opened.lengthHint)
        ↔ other.HasRoom (started'.1.capacityHint started'.2.lengthHint) := by
      rw [HasRoom, HasRoom, hwidth, hopened.lengthHint_eq]
    refine (reserve_agrees hsame).bind fun _ _ _ => ?_
    refine (started'.1.conduct_agrees hopened .collect []).bind fun collected collected' h => ?_
    refine .pure ?_
    rw [h]

end Opening

/-- A source that can be read again is opened in the same way whenever it is opened. -/
theorem Source.opening_agrees {source : Source α} (h : source.EnteredIn ledger)
    (h' : source.EnteredIn later) (hsource : source.oneShot? = none) :
    Act.Agrees (World.Knows ledger) (World.Knows later) Opened.Alike source.opening
      source.opening := by
  induction source with
  | container id box =>
    have hclass : Act.Agrees (World.Knows ledger) (World.Knows later) Eq
        (Source.container id box).readingClass (Source.container id box).readingClass :=
      .of_answers (Source.readingClass_answers h) (Source.readingClass_answers h')
    refine hclass.bind fun found _ hsame => ?_
    subst hsame
    cases found with
    | indexed => exact .pure (.same _)
    | sequential => exact .pure (.same _)
  | replay id answers =>
    -- the two cursors have numbers of their own
    have hfresh : Act.Agrees (World.Knows ledger) (World.Knows later) (fun _ _ => True)
        (Act.fresh : Act α Nat) (Act.fresh : Act α Nat) :=
      fun w w' hw hw' => .ok trivial (Act.fresh_knows w hw) (Act.fresh_knows w' hw')
    exact hfresh.bind fun _ _ _ => (Act.record_agrees _ _).bind fun _ _ _ =>
      .pure (.sequential (.cursor _ _ answers true))
  | once id answers => exact absurd hsource (by simp [oneShot?])
  | derived id link base recipe ih =>
    obtain ⟨-, hrecipe, hbase⟩ := h
    obtain ⟨-, hrecipe', hbase'⟩ := h'
    have hbelow := ih hbase hbase' hsource
    cases link with
    | map f =>
      exact (recipe.openIntake_agrees hrecipe hrecipe' rfl hbelow).bind fun _ _ hintake =>
        .pure (.sequential (.mapped f hintake))
    | flatten items =>
      exact (recipe.openIntake_agrees hrecipe hrecipe' rfl hbelow).bind fun _ _ hintake =>
        .pure (.sequential (.flattened items [] hintake))
    | slice start stop =>
      refine (recipe.collect_agrees hrecipe hrecipe' rfl hbelow rfl).bind fun found _ hsame => ?_
      subst hsame
      exact .pure (.same _)

/-- A repeatable pipeline over a source that can be read again gives the same list, or the same
reason why there is none, whenever it is asked. -/
theorem Pipeline.toList_agrees {p : Pipeline α} (h : p.EnteredIn ledger) (h' : p.EnteredIn later)
    (hcontract : p.recipe.config.contract = .repeatable) (hsource : p.source.oneShot? = none) :
    Act.Agrees (World.Knows ledger) (World.Knows later) Eq p.toList p.toList := by
  rw [toList, claim_of_repeatable hcontract, pure_bind]
  exact p.recipe.collect_agrees h.recipe h'.recipe rfl
    (Source.opening_agrees h.source h'.source hsource) rfl

end

end StreamFusion
