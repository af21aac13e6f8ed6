import StreamFusion.Pipeline.Terminal
import StreamFusion.Proofs.Intake.Yields
import StreamFusion.Proofs.Plan.Compiled

/-!
# What sources give

Which elements a source gives, and that opening it gives them. A source that reads another pipeline
gives what the plan of that pipeline makes of the elements below. What is remembered of recipes has
to be what planning gives for them (`World.Keeps`); opening keeps it so. Where elements are
collected there has to be room for as many as the plan hints at (`Recipe.collect_eq`).
-/

namespace StreamFusion

variable {α β γ : Type}

/-- An act that succeeds hands its result and its world on. -/
theorem Act.bind_ok {act : Act α β} {next : β → Act α γ} {w w' : World α} {y : β}
    (h : act w = .ok y w') : (act >>= next) w = next y w' := by
  show EStateM.bind act next w = _
  rw [EStateM.bind, h]

/-- An act that gives no result ends what it is the beginning of. -/
theorem Act.bind_error {act : Act α β} {next : β → Act α γ} {w w' : World α} {halt : Halt α}
    (h : act w = .error halt w') : (act >>= next) w = .error halt w' := by
  show EStateM.bind act next w = _
  rw [EStateM.bind, h]

section Reserving

variable {recipe : Recipe α} {plan : Plan α} {opened : Opened α}

/-- Where there is room, nothing else is done. -/
theorem Recipe.reserve_ok (h : recipe.HasRoom (plan.capacityHint opened.lengthHint))
    (w : World α) : recipe.reserve plan opened w = .ok () w := by
  rw [reserve, if_pos h]
  rfl

/-- Where there is no room, the opened source is let go. -/
theorem Recipe.reserve_error (h : ¬ recipe.HasRoom (plan.capacityHint opened.lengthHint))
    (w : World α) : recipe.reserve plan opened w =
      .error .noRoom { w with journal := w.journal.record opened.discard } := by
  rw [reserve, if_neg h]
  rfl

/-- What is done once there is room goes ahead, or there is none. -/
theorem Recipe.reserve_bind_cases (recipe : Recipe α) (plan : Plan α) (opened : Opened α)
    (next : Unit → Act α β) (w : World α) :
    (recipe.reserve plan opened >>= next) w = next () w
      ∨ ∃ w', (recipe.reserve plan opened >>= next) w = .error .noRoom w' := by
  by_cases hroom : recipe.HasRoom (plan.capacityHint opened.lengthHint)
  · exact .inl (Act.bind_ok (reserve_ok hroom w))
  · exact .inr ⟨_, Act.bind_error (reserve_error hroom w)⟩

end Reserving

/-! ## Remembered plans -/

/-- What planning gives for a recipe. -/
def Recipe.verdict (recipe : Recipe α) : Except Refusal (Plan α) :=
  (compile recipe.ops recipe.config).verdict

/-- What is remembered of recipes is in the book, which has one verdict for every number. -/
def World.Keeps (book : Nat → Except Refusal (Plan α)) (w : World α) : Prop :=
  ∀ serial verdict, (w.recipes serial).verdict = some verdict → verdict = book serial

/-- The book has the verdict of a recipe under its number. -/
def Recipe.ListedIn (book : Nat → Except Refusal (Plan α)) (recipe : Recipe α) : Prop :=
  book recipe.serial = recipe.verdict

theorem World.Keeps.of_recipes_eq {book : Nat → Except Refusal (Plan α)} {w w' : World α}
    (h : w.Keeps book) (hrecipes : w'.recipes = w.recipes) : w'.Keeps book :=
  fun serial verdict hverdict => h serial verdict (hrecipes ▸ hverdict)

/-- Nothing is remembered in the first world, so every book will do. -/
theorem World.keeps_initial (book : Nat → Except Refusal (Plan α)) : World.initial.Keeps book :=
  fun _ _ h => absurd h (by simp [World.initial])

section Remembered

variable {book : Nat → Except Refusal (Plan α)} {recipe : Recipe α} {plan : Plan α} {w : World α}

theorem World.Keeps.updateRecipe (h : w.Keeps book) (serial : Nat)
    (change : RecipeMemo α → RecipeMemo α)
    (hchange : ∀ verdict, (change (w.recipes serial)).verdict = some verdict →
      verdict = book serial) :
    ∃ w', Act.updateRecipe serial change w = .ok () w' ∧ w'.sources = w.sources
      ∧ w'.Keeps book := by
  refine ⟨_, rfl, rfl, fun other verdict hverdict => ?_⟩
  by_cases hother : other = serial
  · subst hother
    simp only [if_true] at hverdict
    exact hchange verdict hverdict
  · simp only [if_neg hother] at hverdict
    exact h other verdict hverdict

/-- Planning a recipe gives its plan, whether it is remembered or made now. -/
theorem Recipe.plan_ok (hkeeps : w.Keeps book) (hlisted : recipe.ListedIn book)
    (hplan : recipe.verdict = .ok plan) :
    ∃ w', recipe.plan w = .ok plan w' ∧ w'.sources = w.sources ∧ w'.Keeps book := by
  have hmemo : Act.recipeMemo recipe.serial w = .ok (w.recipes recipe.serial) w := rfl
  rw [Recipe.plan, Act.bind_ok hmemo]
  cases hknown : (w.recipes recipe.serial).verdict with
  | some verdict =>
    have hverdict : verdict = .ok plan :=
      (hkeeps _ _ hknown).trans (hlisted.trans hplan)
    subst hverdict
    exact ⟨w, rfl, rfl, hkeeps⟩
  | none =>
    have hcompiled : (compile recipe.ops recipe.config).verdict = .ok plan := hplan
    simp only [hcompiled]
    set events := Event.planned recipe.serial ::
      (compile recipe.ops recipe.config).notes.map Event.noted
    set w₁ : World α := { w with journal := w.journal.record events }
    have hrecord : Act.record events w = .ok () w₁ := rfl
    have hkeeps₁ : w₁.Keeps book := hkeeps.of_recipes_eq rfl
    obtain ⟨w₂, hupdate, hsources, hkeeps₂⟩ := hkeeps₁.updateRecipe recipe.serial
      (fun memo => { memo with verdict := some (.ok plan) })
      (fun verdict hv => (Option.some.inj hv).symm.trans (hplan.symm.trans hlisted.symm))
    rw [Act.bind_ok hrecord, Act.bind_ok hupdate]
    exact ⟨w₂, rfl, hsources, hkeeps₂⟩

end Remembered

/-! ## Opening -/

/-- In every world with these sources, the opening gives these elements, with this hint at how many
they are. -/
def Act.Opens (book : Nat → Except Refusal (Plan α)) (sources : Nat → SourceMemo)
    (hint : Option Nat) (xs : List α) (opening : Act α (Opened α)) : Prop :=
  ∀ w : World α, w.sources = sources → w.Keeps book →
    ∃ opened w', opening w = .ok opened w' ∧ opened.Holds xs ∧ opened.lengthHint = hint
      ∧ w'.Keeps book

section Opening

variable {book : Nat → Except Refusal (Plan α)} {sources : Nat → SourceMemo} {recipe : Recipe α}
  {plan : Plan α} {opening : Act α (Opened α)} {w : World α} {hint : Option Nat} {xs ys : List α}

/-- A run over an opened source ends with what was handed to the closing action. -/
theorem Plan.conduct_ok (hnumbered : plan.Numbered) {opened : Opened α} (hholds : opened.Holds xs)
    (hresults : Step.allOnList plan.start plan.steps xs = some ys) {sink : Sink α γ} {seed : γ}
    {final : γ × Nat} (hfinal : sink.handAll seed 0 ys = some final) (hkeeps : w.Keeps book) :
    ∃ stats w', plan.conduct opened sink seed w = .ok (final.1, stats) w'
      ∧ stats.emitted = final.2 ∧ w'.Keeps book := by
  obtain ⟨hacc, stats, hresult, hemitted⟩ := Plan.run_holds hnumbered hholds hresults hfinal
  refine ⟨stats, ?_⟩
  simp only [conduct, hresult, hacc]
  exact ⟨_, rfl, hemitted, hkeeps.of_recipes_eq rfl⟩

theorem Recipe.start_never (opening : Act α (Opened α)) (hkeeps : w.Keeps book)
    (hlisted : recipe.ListedIn book) (hplan : recipe.verdict = .ok plan)
    (hnever : plan.never = true) :
    ∃ w', recipe.start opening w = .ok none w' ∧ w'.Keeps book := by
  obtain ⟨w₁, hfound, -, hkeeps₁⟩ := recipe.plan_ok hkeeps hlisted hplan
  rw [start, Act.bind_ok hfound, if_pos hnever]
  exact ⟨_, rfl, hkeeps₁.of_recipes_eq rfl⟩

theorem Recipe.start_opens (hkeeps : w.Keeps book) (hlisted : recipe.ListedIn book)
    (hplan : recipe.verdict = .ok plan) (hnever : plan.never = false)
    (hopens : Act.Opens book w.sources hint xs opening) :
    ∃ opened w', recipe.start opening w = .ok (some (plan, opened)) w' ∧ opened.Holds xs
      ∧ opened.lengthHint = hint ∧ w'.Keeps book := by
  obtain ⟨w₁, hfound, hsources, hkeeps₁⟩ := recipe.plan_ok hkeeps hlisted hplan
  obtain ⟨opened, w₂, hopened, hholds, hlength, hkeeps₂⟩ := hopens w₁ hsources hkeeps₁
  rw [start, Act.bind_ok hfound, if_neg (by rw [hnever]; simp), Act.bind_ok hopened]
  exact ⟨opened, w₂, rfl, hholds, hlength, hkeeps₂⟩

/-- The intake of a recipe yields what its plan makes of the elements of the source. -/
theorem Recipe.openIntake_ok (hkeeps : w.Keeps book) (hlisted : recipe.ListedIn book)
    (hplan : recipe.verdict = .ok plan) (hopens : Act.Opens book w.sources hint xs opening)
    (hys : plan.onList xs = some ys) :
    ∃ intake w', recipe.openIntake opening w = .ok intake w' ∧ intake.Yields ys
      ∧ w'.Keeps book := by
  cases hnever : plan.never with
  | true =>
    obtain ⟨w₁, hstart, hkeeps₁⟩ := recipe.start_never opening hkeeps hlisted hplan hnever
    have hnone : ys = [] := by
      rw [Plan.onList, if_pos hnever, Option.some.injEq] at hys
      exact hys.symm
    rw [openIntake, Act.bind_ok hstart, hnone]
    exact ⟨_, w₁, rfl, Intake.yields_finished .., hkeeps₁⟩
  | false =>
    obtain ⟨opened, w₁, hstart, hholds, -, hkeeps₁⟩ := recipe.start_opens hkeeps hlisted hplan
      hnever hopens
    rw [openIntake, Act.bind_ok hstart]
    exact ⟨_, w₁, rfl, Plan.yields_intake (numbered_of_compile hplan) hholds hys, hkeeps₁⟩

/-- A plan that lets nothing pass has room for that. -/
theorem Recipe.hasRoom_of_never (hplan : recipe.verdict = .ok plan) (hnever : plan.never = true) :
    recipe.HasRoom (plan.capacityHint hint) := by
  rw [HasRoom, Plan.capacityHint_of_never hplan hnever, Nat.zero_mul]
  exact Nat.zero_le _

/-- A recipe collects what its plan makes of the elements of the source, if there is room. -/
theorem Recipe.collect_eq (hkeeps : w.Keeps book) (hlisted : recipe.ListedIn book)
    (hplan : recipe.verdict = .ok plan) (hopens : Act.Opens book w.sources hint xs opening)
    (hys : plan.onList xs = some ys) :
    ∃ w', recipe.collect opening w = (if recipe.HasRoom (plan.capacityHint hint) then .ok ys w'
      else .error .noRoom w') ∧ w'.Keeps book := by
  cases hnever : plan.never with
  | true =>
    obtain ⟨w₁, hstart, hkeeps₁⟩ := recipe.start_never opening hkeeps hlisted hplan hnever
    rw [Plan.onList, if_pos hnever, Option.some.injEq] at hys
    refine ⟨w₁, ?_, hkeeps₁⟩
    rw [collect, Act.bind_ok hstart, ← hys, if_pos (recipe.hasRoom_of_never hplan hnever)]
    rfl
  | false =>
    obtain ⟨opened, w₁, hstart, hholds, hlength, hkeeps₁⟩ := recipe.start_opens hkeeps hlisted
      hplan hnever hopens
    rw [Plan.onList, hnever, if_neg (by simp)] at hys
    subst hlength
    by_cases hroom : recipe.HasRoom (plan.capacityHint opened.lengthHint)
    · obtain ⟨stats, w₂, hrun, -, hkeeps₂⟩ := Plan.conduct_ok (numbered_of_compile hplan) hholds
        hys (Sink.handAll_collect [] 0 ys) hkeeps₁
      refine ⟨w₂, ?_, hkeeps₂⟩
      rw [collect, Act.bind_ok hstart, if_pos hroom]
      simp only
      rw [Act.bind_ok (reserve_ok hroom w₁), Act.bind_ok hrun]
      simp only [List.append_nil, List.reverse_reverse]
      rfl
    · refine ⟨{ w₁ with journal := w₁.journal.record opened.discard }, ?_,
        hkeeps₁.of_recipes_eq rfl⟩
      rw [collect, Act.bind_ok hstart, if_neg hroom]
      exact Act.bind_error (reserve_error hroom w₁)

end Opening

/-! ## Sources -/

/-- How a source can be read. -/
def Source.readsAs : Source α → SourceClass
  | .container _ box => if box.size = 0 ∨ (box.get? 0).isSome then .indexed else .sequential
  | .derived _ (.slice ..) _ _ => .indexed
  | _ => .sequential

/-- What is known before a run of how many elements a source gives: the number, if it can be read by
position. -/
def Source.lengthHint (source : Source α) (length : Nat) : Option Nat :=
  match source.readsAs with
  | .indexed => some length
  | .sequential => none

/-- There is room for as many results as a plan hints at, for a pipeline with so many elements in
its source. -/
def Pipeline.HasRoom (p : Pipeline α) (plan : Plan α) (length : Nat) : Prop :=
  p.recipe.HasRoom (plan.capacityHint (p.source.lengthHint length))

instance (p : Pipeline α) (plan : Plan α) (length : Nat) : Decidable (p.HasRoom plan length) :=
  inferInstanceAs (Decidable (Recipe.HasRoom _ _))

/-- A list cannot hold as many elements as the plan of a recipe hints at, where so much is known of
the length of the source. -/
def Recipe.Overflows (recipe : Recipe α) (hint : Option Nat) : Prop :=
  ∃ plan, recipe.verdict = .ok plan ∧ ¬ recipe.HasRoom (plan.capacityHint hint)

theorem Recipe.overflows_iff {recipe : Recipe α} {plan : Plan α} (h : recipe.verdict = .ok plan)
    (hint : Option Nat) :
    recipe.Overflows hint ↔ ¬ recipe.HasRoom (plan.capacityHint hint) := by
  constructor
  · rintro ⟨other, hother, hroom⟩
    rwa [Except.ok.inj (h.symm.trans hother)]
  · exact fun hroom => ⟨plan, h, hroom⟩

/-- The recipes of the pipelines that a source reads. -/
def Source.recipes : Source α → List (Recipe α)
  | .container .. | .replay .. | .once .. => []
  | .derived _ _ base recipe => recipe :: base.recipes

/-- The recipe of the pipeline and those below its links. -/
def Pipeline.recipes (p : Pipeline α) : List (Recipe α) := p.recipe :: p.source.recipes

/-- The recipe has a plan that makes the second list of the first. -/
def Recipe.Makes (recipe : Recipe α) (xs ys : List α) : Prop :=
  ∃ plan, recipe.verdict = .ok plan ∧ plan.onList xs = some ys

/-- The source gives these elements: it can produce all its positions, it has not been used up, no
callback of a pipeline that it reads fails, and there is room where elements are collected. -/
inductive Source.Gives (sources : Nat → SourceMemo) : Source α → List α → Prop where
  | container {id : Ident} {box : Container α} {xs : List α} (holds : box.Holds xs)
      (remembered : (sources id.serial).kindOfReading ≠ some .sequential) :
      Gives sources (.container id box) xs
  | replay (id : Ident) (answers : List (Option α)) :
      Gives sources (.replay id answers) (heard answers)
  | once {id : Ident} (answers : List (Option α)) (unused : (sources id.serial).isSpent = false) :
      Gives sources (.once id answers) (heard answers)
  | mapped {id : Ident} {f : Callback α α} {base : Source α} {recipe : Recipe α} {xs ys zs : List α}
      (below : Gives sources base xs) (makes : recipe.Makes xs ys)
      (answers : List.Forall₂ (fun y z => f.answer y 0 = some z) ys zs) :
      Gives sources (.derived id (.map f) base recipe) zs
  | flattened {id : Ident} {items : α → List α} {base : Source α} {recipe : Recipe α}
      {xs ys : List α} (below : Gives sources base xs) (makes : recipe.Makes xs ys) :
      Gives sources (.derived id (.flatten items) base recipe) (ys.flatMap items)
  | sliced {id : Ident} {start : Int} {stop : Option Int} {base : Source α} {recipe : Recipe α}
      {xs ys : List α} {plan : Plan α} (below : Gives sources base xs)
      (planned : recipe.verdict = .ok plan) (makes : plan.onList xs = some ys)
      (room : Pipeline.HasRoom ⟨base, recipe⟩ plan xs.length) :
      Gives sources (.derived id (.slice start stop) base recipe) (sliceItems ys start stop)

namespace Source

variable {book : Nat → Except Refusal (Plan α)} {w : World α}

theorem readsAs_of_holds (id : Ident) {box : Container α} {xs : List α} (h : box.Holds xs) :
    (Source.container id box).readsAs = .indexed := by
  refine if_pos (or_iff_not_imp_left.2 fun hsome => ?_)
  have hpos : 0 < box.size := Nat.pos_of_ne_zero hsome
  rw [h.get?_eq 0 hpos, List.getElem?_eq_getElem (h.size_eq ▸ hpos)]
  rfl

theorem classify_ok (source : Source α) (hkeeps : w.Keeps book) :
    ∃ w', source.classify w = .ok source.readsAs w' ∧ w'.Keeps book := by
  cases source with
  | container id box =>
    rw [classify, readsAs]
    by_cases hempty : box.size = 0
    · rw [if_pos hempty, if_pos (.inl hempty)]
      exact ⟨w, rfl, hkeeps⟩
    · rw [if_neg hempty]
      refine ⟨{ w with journal := w.journal.record [.probed id] }, ?_, hkeeps.of_recipes_eq rfl⟩
      by_cases hfirst : (box.get? 0).isSome
      · rw [if_pos hfirst, if_pos (.inr hfirst)]
        rfl
      · rw [if_neg hfirst, if_neg (not_or.2 ⟨hempty, hfirst⟩)]
        rfl
  | derived id link base recipe => cases link <;> exact ⟨w, rfl, hkeeps⟩
  | _ => exact ⟨w, rfl, hkeeps⟩

theorem readingClass_ok {source : Source α} (hkeeps : w.Keeps book)
    (hremembered : ∀ known, (w.sources source.id.serial).kindOfReading = some known →
      known = source.readsAs) :
    ∃ w', source.readingClass w = .ok source.readsAs w' ∧ w'.Keeps book := by
  have hmemo : Act.sourceMemo source.id w = .ok (w.sources source.id.serial) w := rfl
  rw [readingClass, Act.bind_ok hmemo]
  cases hknown : (w.sources source.id.serial).kindOfReading with
  | some known =>
    rw [hremembered known hknown]
    exact ⟨w, rfl, hkeeps⟩
  | none =>
    obtain ⟨w₁, hfound, hkeeps₁⟩ := source.classify_ok hkeeps
    simp only
    rw [Act.bind_ok hfound]
    exact ⟨_, rfl, hkeeps₁.of_recipes_eq rfl⟩

/-- Opening a source gives its elements. -/
theorem Gives.opens {sources : Nat → SourceMemo} {source : Source α} {xs : List α}
    (h : source.Gives sources xs) (hlisted : ∀ recipe ∈ source.recipes, recipe.ListedIn book) :
    Act.Opens book sources (source.lengthHint xs.length) xs source.opening := by
  -- on what the source reads; the recipe below is planned before its source is opened
  induction h with
  | @container id box xs holds remembered =>
    intro w hsources hkeeps
    have hreads := readsAs_of_holds id holds
    obtain ⟨w₁, hfound, hkeeps₁⟩ := readingClass_ok hkeeps
      fun known hknown => by
        rw [hsources] at hknown
        rw [hreads]
        cases known with
        | indexed => rfl
        | sequential => exact absurd hknown remembered
    rw [opening, Act.bind_ok hfound, lengthHint, hreads]
    exact ⟨_, w₁, rfl, holds, congrArg some holds.size_eq, hkeeps₁⟩
  | replay id answers =>
    intro w _ hkeeps
    rw [opening]
    exact ⟨_, _, rfl, Intake.yields_cursor _ answers, rfl, hkeeps.of_recipes_eq rfl⟩
  | @once id answers unused =>
    intro w hsources hkeeps
    have hmemo : Act.sourceMemo id w = .ok (w.sources id.serial) w := rfl
    rw [opening, Act.bind_ok hmemo, hsources, if_neg (by rw [unused]; simp)]
    exact ⟨_, _, rfl, Intake.yields_cursor id answers, rfl, hkeeps.of_recipes_eq rfl⟩
  | @mapped id f base recipe xs ys zs below makes answers ih =>
    intro w hsources hkeeps
    obtain ⟨hrecipe, hbase⟩ := List.forall_mem_cons.1 hlisted
    obtain ⟨plan, hplan, hys⟩ := makes
    obtain ⟨intake, w₁, hintake, hyields, hkeeps₁⟩ :=
      recipe.openIntake_ok hkeeps hrecipe hplan (hsources ▸ ih hbase) hys
    rw [opening, Act.bind_ok hintake]
    exact ⟨_, w₁, rfl, Intake.yields_mapped hyields answers, rfl, hkeeps₁⟩
  | @flattened id items base recipe xs ys below makes ih =>
    intro w hsources hkeeps
    obtain ⟨hrecipe, hbase⟩ := List.forall_mem_cons.1 hlisted
    obtain ⟨plan, hplan, hys⟩ := makes
    obtain ⟨intake, w₁, hintake, hyields, hkeeps₁⟩ :=
      recipe.openIntake_ok hkeeps hrecipe hplan (hsources ▸ ih hbase) hys
    rw [opening, Act.bind_ok hintake]
    exact ⟨_, w₁, rfl, Intake.yields_flattened hyields [], rfl, hkeeps₁⟩
  | @sliced id start stop base recipe xs ys plan below planned makes room ih =>
    intro w hsources hkeeps
    obtain ⟨hrecipe, hbase⟩ := List.forall_mem_cons.1 hlisted
    obtain ⟨w₁, hcollect, hkeeps₁⟩ :=
      recipe.collect_eq hkeeps hrecipe planned (hsources ▸ ih hbase) makes
    have hroom : recipe.HasRoom (plan.capacityHint (base.lengthHint xs.length)) := room
    rw [if_pos hroom] at hcollect
    rw [opening, Act.bind_ok hcollect]
    exact ⟨_, w₁, rfl, rfl, rfl, hkeeps₁⟩

end Source

end StreamFusion
