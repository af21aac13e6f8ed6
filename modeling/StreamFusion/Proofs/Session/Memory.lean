import StreamFusion.Proofs.Pipeline.Memory
import StreamFusion.Proofs.Session.Cursors

/-!
# What a session remembers

Every number of a session belongs to one recipe or one source, so there is a ledger of all that
planning and classifying give for them, and the session knows it (`Session.Knows`). The ledger grows
while pipelines are made, and no entry is ever changed (`Session.Knows.after`).
-/

namespace StreamFusion

variable {α β γ : Type}

namespace Ledger

/-- Enters what planning gives for a new recipe. -/
def enterPlan (ledger : Ledger α) (n : Nat) (verdict : Except Refusal (Plan α)) : Ledger α :=
  { ledger with plans := fun m => if m = n then some verdict else ledger.plans m }

/-- Enters how a new source can be read. -/
def enterClass (ledger : Ledger α) (n : Nat) (found : SourceClass) : Ledger α :=
  { ledger with classes := fun m => if m = n then some found else ledger.classes m }

variable {ledger : Ledger α} {n : Nat}

theorem growsTo_enterPlan (h : ledger.plans n = none) (verdict : Except Refusal (Plan α)) :
    ledger.GrowsTo (ledger.enterPlan n verdict) := by
  refine ⟨fun m known hm => ?_, fun _ _ hm => hm⟩
  have hne : m ≠ n := by
    intro hmn
    rw [hmn, h] at hm
    exact absurd hm (by simp)
  show (if m = n then some verdict else ledger.plans m) = some known
  rw [if_neg hne, hm]

theorem growsTo_enterClass (h : ledger.classes n = none) (found : SourceClass) :
    ledger.GrowsTo (ledger.enterClass n found) := by
  refine ⟨fun _ _ hm => hm, fun m known hm => ?_⟩
  have hne : m ≠ n := by
    intro hmn
    rw [hmn, h] at hm
    exact absurd hm (by simp)
  show (if m = n then some found else ledger.classes m) = some known
  rw [if_neg hne, hm]

end Ledger

namespace World.Knows

variable {ledger : Ledger α} {w : World α}

theorem enterPlan (h : w.Knows ledger) (verdict : Except Refusal (Plan α)) :
    World.Knows (ledger.enterPlan w.nextSerial verdict)
      { w with nextSerial := w.nextSerial + 1 } := by
  have hgrows := Ledger.growsTo_enterPlan (h.blank w.nextSerial (Nat.le_refl _)).1 verdict
  refine ⟨fun n known hn => hgrows.plans n known (h.plans n known hn), h.classes, fun n hn => ?_⟩
  have hlt : w.nextSerial < n := hn
  refine ⟨?_, (h.blank n (by omega)).2⟩
  show (if n = w.nextSerial then some verdict else ledger.plans n) = none
  rw [if_neg (by omega), (h.blank n (by omega)).1]

theorem enterClass (h : w.Knows ledger) (found : SourceClass) :
    World.Knows (ledger.enterClass w.nextSerial found)
      { w with nextSerial := w.nextSerial + 1 } := by
  have hgrows := Ledger.growsTo_enterClass (h.blank w.nextSerial (Nat.le_refl _)).2 found
  refine ⟨h.plans, fun n known hn => hgrows.classes n known (h.classes n known hn), fun n hn => ?_⟩
  have hlt : w.nextSerial < n := hn
  refine ⟨(h.blank n (by omega)).1, ?_⟩
  show (if n = w.nextSerial then some found else ledger.classes n) = none
  rw [if_neg (by omega), (h.blank n (by omega)).2]

end World.Knows

/-! ## Building pipelines -/

/-- The act may add entries to the ledger, and its result goes with the larger ledger. -/
def Act.Learns (ledger : Ledger α) (act : Act α β) (Q : β → Ledger α → Prop) : Prop :=
  Act.Leads (World.Knows ledger) act
    (fun y w => ∃ later, ledger.GrowsTo later ∧ w.Knows later ∧ Q y later)
    (fun w => ∃ later, ledger.GrowsTo later ∧ w.Knows later)

namespace Act.Learns

variable {ledger : Ledger α} {act : Act α β} {next : β → Act α γ} {Q : β → Ledger α → Prop}
  {R : γ → Ledger α → Prop}

theorem bind (h : Act.Learns ledger act Q)
    (hnext : ∀ y later, ledger.GrowsTo later → Q y later → Act.Learns later (next y) R) :
    Act.Learns ledger (act >>= next) R := by
  refine Act.Leads.bind h fun y => ?_
  rintro w ⟨later, hgrows, hknows, hQ⟩
  have hresult := hnext y later hgrows hQ w hknows
  cases hdone : next y w with
  | ok z w' =>
    rw [hdone] at hresult
    obtain ⟨last, hgrows', hlast⟩ := hresult
    exact ⟨last, hgrows.trans hgrows', hlast⟩
  | error halt w' =>
    rw [hdone] at hresult
    obtain ⟨last, hgrows', hlast⟩ := hresult
    exact ⟨last, hgrows.trans hgrows', hlast⟩

theorem of_maintains (h : Act.Maintains (World.Knows ledger) act) (hQ : ∀ y, Q y ledger) :
    Act.Learns ledger act Q := by
  intro w hw
  have hresult := h w hw
  cases hdone : act w with
  | ok y w' =>
    rw [hdone] at hresult
    exact ⟨ledger, .refl ledger, hresult, hQ y⟩
  | error halt w' =>
    rw [hdone] at hresult
    exact ⟨ledger, .refl ledger, hresult⟩

end Act.Learns

namespace Pipeline

variable {ledger : Ledger α} {p : Pipeline α}

/-- A new recipe over a source that is entered already. -/
theorem make_enters {source : Source α} (h : source.EnteredIn ledger) (ops : List (Op α))
    (config : Config) (width : Nat) :
    Act.Learns ledger (return ⟨source, ⟨← Act.fresh, ops, config, width⟩⟩ : Act α (Pipeline α))
      EnteredIn := by
  intro w hw
  have hgrows := Ledger.growsTo_enterPlan (hw.blank w.nextSerial (Nat.le_refl _)).1
    (compile ops config).verdict
  exact ⟨_, hgrows, hw.enterPlan _, h.grow hgrows, if_pos rfl⟩

theorem derive_enters (h : p.EnteredIn ledger) (ops : List (Op α)) (config : Config) :
    Act.Learns ledger (p.derive ops config) EnteredIn := make_enters h.source ops config _

/-- A new source and a pipeline over it. -/
theorem ofSource_enters (source : Nat → Source α) (config : Config) (width : Nat)
    (h : ∀ n later, ledger.GrowsTo later → later.classes n = some (source n).readsAs →
      (source n).EnteredIn later) :
    Act.Learns ledger (do ofSource (source (← Act.fresh)) config width) EnteredIn := by
  have hnumber : Act.Learns ledger (Act.fresh : Act α Nat) fun n later =>
      (source n).EnteredIn later := by
    intro w hw
    have hgrows := Ledger.growsTo_enterClass (hw.blank w.nextSerial (Nat.le_refl _)).2
      (source w.nextSerial).readsAs
    exact ⟨_, hgrows, hw.enterClass _, h _ _ hgrows (if_pos rfl)⟩
  exact hnumber.bind fun n later _ hentered => make_enters hentered [] config width

theorem link_enters (h : p.EnteredIn ledger) (through : Link α) (width : Nat) :
    Act.Learns ledger (p.link through width) EnteredIn := by
  refine (derive_enters h p.recipe.ops p.recipe.config).bind fun base later _ hbase => ?_
  refine ofSource_enters (fun n => .derived ⟨n, none⟩ through base.source base.recipe) _ _ ?_
  exact fun n last hgrows hclass =>
    ⟨hclass, hgrows.plans _ _ hbase.recipe, hbase.source.grow hgrows⟩

theorem slice_enters (h : p.EnteredIn ledger) (start : Int) (stop : Option Int) :
    Act.Learns ledger (p.slice start stop) EnteredIn := by
  unfold slice
  split
  · exact derive_enters h _ _
  · exact derive_enters h _ _
  · exact link_enters h _ _

theorem filterText_enters (h : p.EnteredIn ledger) (query : String) (fields : List String)
    (field : α → String → Option String) :
    Act.Learns ledger (p.filterText query fields field) EnteredIn := by
  unfold filterText
  simp only
  cases (TextQuery.compile query fields).rejected with
  | none => exact derive_enters h _ _
  | some reason =>
    have hnoted : Act.Learns ledger
        (Act.record [.noted (.queryRejected query reason)] : Act α Unit) fun _ _ => True :=
      .of_maintains (Act.record_answers _).maintains fun _ => trivial
    exact hnoted.bind fun _ later hgrows _ => derive_enters (h.grow hgrows) _ _

/-- A copy has the verdict of what it was copied from, as it has the same operations. -/
theorem copy_enters (h : p.EnteredIn ledger) : Act.Learns ledger p.copy EnteredIn := by
  intro w hw
  obtain ⟨later, hgrows, hknows, hentered⟩ :=
    derive_enters h p.recipe.ops p.recipe.config w hw
  set q : Pipeline α := ⟨p.source,
    ⟨w.nextSerial, p.recipe.ops, p.recipe.config, p.recipe.width⟩⟩
  set w₁ : World α := { w with nextSerial := w.nextSerial + 1 }
  have hderive : p.derive p.recipe.ops p.recipe.config w = .ok q w₁ := rfl
  have hmemo : Act.recipeMemo p.recipe.serial w₁ = .ok (w₁.recipes p.recipe.serial) w₁ := rfl
  have hnoted : Act.Answers (World.Knows later)
      (Act.updateRecipe q.recipe.serial fun memo =>
        { memo with verdict := (w₁.recipes p.recipe.serial).verdict })
      (.ok ()) := by
    refine Act.updateRecipe_answers _ _ fun _ verdict hverdict => .inr ?_
    have hbefore : later.plans p.recipe.serial = some p.recipe.verdict :=
      hgrows.plans _ _ h.recipe
    have hsame : some verdict = some p.recipe.verdict :=
      (hknows.plans _ _ hverdict).symm.trans hbefore
    exact hsame ▸ hentered.recipe
  obtain ⟨w₂, hw₂, hdone⟩ := hnoted w₁ hknows
  rw [copy, Act.bind_ok hderive, Act.bind_ok hmemo, Act.bind_ok hdone]
  exact ⟨later, hgrows, hw₂, hentered⟩

end Pipeline

/-! ## What a session keeps up -/

namespace Session

/-- The world of the session knows the ledger, and the ledger has all pipelines of the session. -/
structure Knows (s : Session α) (ledger : Ledger α) : Prop where
  world : s.world.Knows ledger
  pipelines : ∀ name p, s.pipelines.find? name = some p → p.EnteredIn ledger

theorem knows_initial : (initial : Session α).Knows ⟨fun _ => none, fun _ => none⟩ :=
  ⟨World.knows_initial, fun _ _ hfind => absurd hfind (by simp [initial])⟩

end Session

/-- The response leaves a session that knows this ledger or a larger one. -/
def Response.Learns (ledger : Ledger α) (response : Response α) : Prop :=
  ∃ later, ledger.GrowsTo later ∧ response.session.Knows later

namespace Session

section Acts

variable {ledger : Ledger α} {p : Pipeline α}

theorem makeOrigin_enters (width : Nat) (origin : Origin α) :
    Act.Learns ledger (makeOrigin width origin) Pipeline.EnteredIn := by
  cases origin with
  | container label box =>
    exact Pipeline.ofSource_enters (fun n => .container ⟨n, label⟩ box) .standard width
      fun _ _ _ hclass => ⟨hclass, trivial⟩
  | replay label answers =>
    exact Pipeline.ofSource_enters (fun n => .replay ⟨n, label⟩ answers) .standard width
      fun _ _ _ hclass => ⟨hclass, trivial⟩
  | once label answers =>
    exact Pipeline.ofSource_enters (fun n => .once ⟨n, label⟩ answers) .standard width
      fun _ _ _ hclass => ⟨hclass, trivial⟩

variable (h : p.EnteredIn ledger)
include h

theorem makeExtension_enters (extension : Extension α) :
    Act.Learns ledger (makeExtension p extension) Pipeline.EnteredIn := by
  cases extension with
  | op op => exact Pipeline.derive_enters h _ _
  | textFilter query fields field => exact Pipeline.filterText_enters h query fields field
  | slice start stop => exact Pipeline.slice_enters h start stop
  | link through width => exact Pipeline.link_enters h through width
  | config config => exact Pipeline.derive_enters h _ _
  | copy => exact Pipeline.copy_enters h

end Acts

namespace Knows

variable {s : Session α} {ledger : Ledger α}

/-- The session may forget what it remembered of events. -/
theorem perform (h : s.Knows ledger) {act : Act α β} {Q : β → Ledger α → Prop}
    {next : β → Session α → Response α} (hact : Act.Learns ledger act Q)
    (hnext : ∀ y later (later_session : Session α), ledger.GrowsTo later →
      later_session.Knows later → Q y later → (next y later_session).Learns later) :
    (s.perform act next).Learns ledger := by
  have hsession : ∀ {later : Ledger α} {w : World α}, ledger.GrowsTo later → w.Knows later →
      Session.Knows { s with world := { w with journal := .empty } } later :=
    fun hgrows hw => ⟨hw.with_journal _,
      fun name p hfind => (h.pipelines name p hfind).grow hgrows⟩
  have hresult := hact _ (h.world.with_journal .empty)
  unfold Session.perform
  cases hdone : act { s.world with journal := .empty } with
  | ok y w =>
    rw [hdone] at hresult
    obtain ⟨later, hgrows, hw, hQ⟩ := hresult
    obtain ⟨last, hgrows', hlast⟩ := hnext y later _ hgrows (hsession hgrows hw) hQ
    exact ⟨last, hgrows.trans hgrows', hlast⟩
  | error halt w =>
    rw [hdone] at hresult
    obtain ⟨later, hgrows, hw⟩ := hresult
    exact ⟨later, hgrows, hsession hgrows hw⟩

/-- Nothing is learned if the world and the pipelines stay as they are. -/
theorem learns (h : s.Knows ledger) (answer : Reply α) (events : List (Event α))
    (iterators : Dictionary (Intake α)) :
    Response.Learns ledger ⟨answer, events, { s with iterators := iterators }⟩ :=
  ⟨ledger, .refl ledger, h.world, h.pipelines⟩

theorem perform_reply (h : s.Knows ledger) {act : Act α (Reply α)}
    (hact : Act.Maintains (World.Knows ledger) act) : (s.perform act reply).Learns ledger := by
  have hlearns : Act.Learns ledger act fun _ _ => True := .of_maintains hact fun _ => trivial
  exact h.perform hlearns fun answer _ t _ ht _ => ht.learns answer [] t.iterators

theorem perform_bindPipeline (h : s.Knows ledger) {act : Act α (Pipeline α)} (name : String)
    (hact : Act.Learns ledger act Pipeline.EnteredIn) :
    (s.perform act (bindPipeline name)).Learns ledger := by
  refine h.perform hact fun q later t _ ht hq => ⟨later, .refl later, ht.world, ?_⟩
  intro other p hfind
  change Dictionary.find? other (Dictionary.insert name q t.pipelines) = some p at hfind
  by_cases hother : other = name
  · subst hother
    rw [Dictionary.find?_insert_self] at hfind
    exact Option.some.inj hfind ▸ hq
  · rw [Dictionary.find?_insert_of_ne hother] at hfind
    exact ht.pipelines other p hfind

theorem perform_bindIterator (h : s.Knows ledger) {act : Act α (Intake α)} (name : String)
    (hact : Act.Maintains (World.Knows ledger) act) :
    (s.perform act (bindIterator name)).Learns ledger := by
  have hlearns : Act.Learns ledger act fun _ _ => True := .of_maintains hact fun _ => trivial
  exact h.perform hlearns fun intake _ t _ ht _ =>
    ht.learns .done _ (t.iterators.insert name intake)

/-- One command. -/
theorem execute (h : s.Knows ledger) (command : Command α) :
    (s.execute command).Learns ledger := by
  have hpipeline : ∀ (name : String) (body : Pipeline α → Response α),
      (∀ p, p.EnteredIn ledger → (body p).Learns ledger) →
      (s.withPipeline name body).Learns ledger := by
    intro name body hbody
    exact withPipeline_cases (h.learns .noPipeline [] s.iterators)
      fun p hfind => hbody p (h.pipelines name p hfind)
  have hiterator : ∀ (name : String) (pulls : Intake α → Pulls α)
      (answer : List (Option α) → Reply α),
      (s.withIterator name fun intake =>
        s.pulledFrom name (pulls intake) answer).Learns ledger := by
    intro name pulls answer
    exact withIterator_cases (h.learns .noIterator [] s.iterators) fun intake _ => h.learns _ _ _
  cases command with
  | create name origin width =>
    exact h.perform_bindPipeline name (makeOrigin_enters width origin)
  | extend name base extension =>
    exact hpipeline base _ fun p hp =>
      h.perform_bindPipeline name (makeExtension_enters hp extension)
  | inquire name inquiry =>
    exact hpipeline name _ fun p hp => h.perform_reply
      (answerInquiry_maintains (Recipe.plan_answers hp.recipe).maintains
        (Source.readingClass_answers hp.source).maintains inquiry)
  | run name terminal =>
    exact hpipeline name _ fun p hp => h.perform_reply
      (runTerminal_maintains (World.upkeep_knows ledger) hp.recipe hp.source terminal [])
  | iterate name pipeline =>
    exact hpipeline pipeline _ fun p hp => h.perform_bindIterator name
      ((World.upkeep_knows ledger).iterate hp.recipe hp.source [])
  | next name count => exact hiterator name (·.nextTimes count) .pulled
  | rest name => exact hiterator name (·.remaining) _
  | close name =>
    cases hfind : s.iterators.find? name with
    | none =>
      rw [Tends.execute_close_none hfind]
      exact h.learns .done [] s.iterators
    | some intake =>
      rw [Tends.execute_close hfind]
      exact h.learns .done _ _
  | release name =>
    refine ⟨ledger, .refl ledger, h.world, fun other p hfind => ?_⟩
    change Dictionary.find? other (Dictionary.erase name s.pipelines) = some p at hfind
    have hother : other ≠ name := by
      intro hsame
      rw [hsame, Dictionary.find?_erase_self] at hfind
      exact absurd hfind (by simp)
    rw [Dictionary.find?_erase_of_ne hother] at hfind
    exact h.pipelines other p hfind

/-- Any number of commands. -/
theorem after (h : s.Knows ledger) (commands : List (Command α)) :
    ∃ later, ledger.GrowsTo later ∧ (s.after commands).Knows later := by
  induction commands generalizing s ledger with
  | nil => exact ⟨ledger, .refl ledger, h⟩
  | cons command rest ih =>
    obtain ⟨middle, hgrows, hmiddle⟩ := h.execute command
    obtain ⟨later, hgrows', hlater⟩ := ih hmiddle
    exact ⟨later, hgrows.trans hgrows', hlater⟩

end Knows

end Session

end StreamFusion
