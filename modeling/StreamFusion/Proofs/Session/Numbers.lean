import StreamFusion.Proofs.Pipeline.Numbers
import StreamFusion.Proofs.Session.Cursors

/-!
# Pipelines of a session and their numbers

A pipeline comes to its name by a command that makes it, and stays there until the name is given to
another one or forgotten (`Session.after_keepsPipeline`). It gets a number that no pipeline had
before, so no two names have the same pipeline (`Session.Numbered.after`).
-/

namespace StreamFusion

variable {α β : Type}

/-- The command gives the name to a new pipeline. -/
def Command.Makes (name : String) : Command α → Prop
  | .create other _ _ | .extend other _ _ => other = name
  | _ => False

/-- The command gives the name to a new pipeline, or forgets it. -/
def Command.Renames (name : String) : Command α → Prop
  | .create other _ _ | .extend other _ _ | .release other => other = name
  | _ => False

theorem Command.Makes.renames {name : String} {command : Command α} (h : command.Makes name) :
    command.Renames name := by
  cases command with
  | create other origin width => exact h
  | extend other base extension => exact h
  | _ => exact h.elim

namespace Session

theorem makeExtension_remakes (p : Pipeline α) (extension : Extension α) :
    p.Remakes (makeExtension p extension) := by
  cases extension with
  | op op => exact p.derive_remakes _ _
  | textFilter query fields field => exact p.filterText_remakes query fields field
  | slice start stop => exact p.slice_remakes start stop
  | link through width => exact p.link_remakes through width
  | config config => exact p.derive_remakes _ _
  | copy => exact p.copy_remakes

/-- The pipeline of an origin has a source with a new number. -/
theorem makeOrigin_makes (width : Nat) (origin : Origin α) (w : World α) :
    ∃ q w', makeOrigin width origin w = .ok q w' ∧ Pipeline.Made w q w' := by
  have hbelow : w.nextSerial ≤ w.nextSerial + 1 := Nat.le_succ _
  cases origin with
  | container label box =>
    exact ⟨⟨.container ⟨w.nextSerial, label⟩ box, ⟨w.nextSerial + 1, [], .standard, width⟩⟩, _,
      rfl, hbelow, Nat.lt_succ_self _, rfl, fun _ _ => rfl, [], rfl⟩
  | replay label answers =>
    exact ⟨⟨.replay ⟨w.nextSerial, label⟩ answers, ⟨w.nextSerial + 1, [], .standard, width⟩⟩, _,
      rfl, hbelow, Nat.lt_succ_self _, rfl, fun _ _ => rfl, [], rfl⟩
  | once label answers =>
    exact ⟨⟨.once ⟨w.nextSerial, label⟩ answers, ⟨w.nextSerial + 1, [], .standard, width⟩⟩, _,
      rfl, hbelow, Nat.lt_succ_self _, rfl, fun _ _ => rfl, [], rfl⟩

/-! ## Commands that make pipelines -/

variable {s : Session α} {name : String}

/-- The session in which the pipeline was made under this name. -/
def withMade (s : Session α) (name : String) (q : Pipeline α) (w : World α) : Session α :=
  { s with pipelines := s.pipelines.insert name q, world := { w with journal := .empty } }

theorem perform_bindPipeline {act : Act α (Pipeline α)} {q : Pipeline α} {w : World α}
    (h : act { s.world with journal := .empty } = .ok q w) (name : String) :
    s.perform act (bindPipeline name) = ⟨.done, w.journal.events, s.withMade name q w⟩ := by
  unfold perform
  rw [h]
  show Response.mk _ (w.journal.events ++ []) _ = _
  rw [List.append_nil]
  rfl

theorem execute_create (s : Session α) (name : String) (origin : Origin α) (width : Nat) :
    ∃ q w, s.execute (.create name origin width) = ⟨.done, w.journal.events, s.withMade name q w⟩
      ∧ Pipeline.Made { s.world with journal := .empty } q w := by
  obtain ⟨q, w, hmake, hmade⟩ := makeOrigin_makes width origin { s.world with journal := .empty }
  exact ⟨q, w, perform_bindPipeline hmake name, hmade⟩

theorem execute_extend {base : String} {p : Pipeline α} (hbase : s.pipelines.find? base = some p)
    (name : String) (extension : Extension α) :
    ∃ q w, s.execute (.extend name base extension) =
        ⟨.done, w.journal.events, s.withMade name q w⟩
      ∧ Pipeline.Made { s.world with journal := .empty } q w
      ∧ q.source.oneShot? = p.source.oneShot? := by
  obtain ⟨q, w, hmake, hmade, hsource⟩ :=
    makeExtension_remakes p extension { s.world with journal := .empty }
  refine ⟨q, w, ?_, hmade, hsource⟩
  rw [execute, withPipeline, hbase]
  exact perform_bindPipeline hmake name

/-- A command that made a pipeline answers that it is done. -/
theorem execute_makes {command : Command α} (hmakes : command.Makes name)
    (hdone : (s.execute command).reply = .done) :
    ∃ q w, s.execute command = ⟨.done, w.journal.events, s.withMade name q w⟩
      ∧ Pipeline.Made { s.world with journal := .empty } q w := by
  cases command with
  | create other origin width =>
    obtain rfl : other = name := hmakes
    exact s.execute_create other origin width
  | extend other base extension =>
    obtain rfl : other = name := hmakes
    cases hbase : s.pipelines.find? base with
    | none =>
      rw [execute, withPipeline, hbase] at hdone
      exact absurd hdone (by simp [reply])
    | some p =>
      obtain ⟨q, w, hexecute, hmade, -⟩ := execute_extend hbase other extension
      exact ⟨q, w, hexecute, hmade⟩
  | _ => exact hmakes.elim

/-! ## What becomes of names -/

/-- What a command does to the names of pipelines. -/
inductive Changes (s : Session α) (command : Command α) : Session α → Prop where
  | none {t : Session α} (hpipelines : t.pipelines = s.pipelines)
      (hserial : s.world.nextSerial ≤ t.world.nextSerial) : Changes s command t
  | made {name : String} {q : Pipeline α} {w : World α} (hname : command.Makes name)
      (hmade : Pipeline.Made { s.world with journal := .empty } q w) :
      Changes s command (s.withMade name q w)
  | forgotten {name : String} (hname : command.Renames name) :
      Changes s command { s with pipelines := s.pipelines.erase name }

theorem Changes.serial_le {command : Command α} {t : Session α} (h : s.Changes command t) :
    s.world.nextSerial ≤ t.world.nextSerial := by
  cases h with
  | none _ hserial => exact hserial
  | made _ hmade => exact Nat.le_of_lt (Nat.lt_of_le_of_lt hmade.serial_ge hmade.serial_lt)
  | forgotten _ => exact Nat.le_refl _

theorem perform_changes {command : Command α} {act : Act α β} {next : β → Session α → Response α}
    (hact : ∀ bound, Act.Maintains (fun w => bound ≤ w.nextSerial) act)
    (hnext : ∀ y (t : Session α), (next y t).session.pipelines = t.pipelines
      ∧ (next y t).session.world = t.world) :
    s.Changes command (s.perform act next).session := by
  have hserial := hact s.world.nextSerial { s.world with journal := .empty } (Nat.le_refl _)
  unfold perform
  cases hresult : act { s.world with journal := .empty } with
  | ok y w =>
    rw [hresult] at hserial
    obtain ⟨hpipelines, hworld⟩ := hnext y { s with world := { w with journal := .empty } }
    refine .none hpipelines ?_
    show _ ≤ (next y _).session.world.nextSerial
    rw [hworld]
    exact hserial
  | error halt w =>
    rw [hresult] at hserial
    exact .none rfl hserial

theorem execute_changes (s : Session α) (command : Command α) :
    s.Changes command (s.execute command).session := by
  have hnothing : s.Changes command s := .none rfl (Nat.le_refl _)
  have hupkeep := World.upkeep_serials (α := α)
  have hpipeline : ∀ {name : String} {body : Pipeline α → Response α},
      (∀ p, s.Changes command (body p).session) →
      s.Changes command (s.withPipeline name body).session :=
    fun hbody => withPipeline_cases (C := fun r => s.Changes command r.session) hnothing
      fun p _ => hbody p
  have hiterator : ∀ {name : String} (pulls : Intake α → Pulls α)
      (answer : List (Option α) → Reply α), s.Changes command
        (s.withIterator name fun intake => s.pulledFrom name (pulls intake) answer).session :=
    fun pulls answer => withIterator_cases (C := fun r => s.Changes command r.session) hnothing
      fun intake _ => .none rfl (Nat.le_refl _)
  cases command with
  | create name origin width =>
    obtain ⟨q, w, hexecute, hmade⟩ := s.execute_create name origin width
    rw [hexecute]
    exact .made rfl hmade
  | extend name base extension =>
    cases hbase : s.pipelines.find? base with
    | none =>
      rw [execute, withPipeline, hbase]
      exact hnothing
    | some p =>
      obtain ⟨q, w, hexecute, hmade, -⟩ := execute_extend hbase name extension
      rw [hexecute]
      exact .made rfl hmade
  | inquire name inquiry =>
    exact hpipeline fun p => perform_changes
      (fun bound => answerInquiry_maintains ((World.steady_serials bound).plan _)
        ((World.steady_serials bound).readingClass _) inquiry)
      fun _ _ => ⟨rfl, rfl⟩
  | run name terminal =>
    exact hpipeline fun p => perform_changes
      (fun bound => runTerminal_maintains (hupkeep bound) trivial trivial terminal [])
      fun _ _ => ⟨rfl, rfl⟩
  | iterate name pipeline =>
    exact hpipeline fun p => perform_changes
      (fun bound => (hupkeep bound).iterate trivial trivial []) fun _ _ => ⟨rfl, rfl⟩
  | next name count => exact hiterator (·.nextTimes count) .pulled
  | rest name => exact hiterator (·.remaining) _
  | close name =>
    rw [execute]
    split
    · exact .none rfl (Nat.le_refl _)
    · exact hnothing
  | release name => exact .forgotten rfl

/-- A pipeline stays under its name unless that is given away or forgotten. -/
theorem execute_keepsPipeline {command : Command α} (h : ¬ command.Renames name) :
    (s.execute command).session.pipelines.find? name = s.pipelines.find? name := by
  have hchanges := s.execute_changes command
  generalize (s.execute command).session = t at hchanges ⊢
  cases hchanges with
  | none hpipelines => rw [hpipelines]
  | @made other q w hother _ =>
    have hne : name ≠ other := fun hsame => h (hsame ▸ hother.renames)
    exact Dictionary.find?_insert_of_ne hne _ _
  | @forgotten other hother =>
    have hne : name ≠ other := fun hsame => h (hsame ▸ hother)
    exact Dictionary.find?_erase_of_ne hne _

theorem after_keepsPipeline {commands : List (Command α)}
    (h : ∀ command ∈ commands, ¬ command.Renames name) :
    (s.after commands).pipelines.find? name = s.pipelines.find? name := by
  induction commands generalizing s with
  | nil => rfl
  | cons command rest ih =>
    obtain ⟨hcommand, hrest⟩ := List.forall_mem_cons.1 h
    exact (ih hrest).trans (execute_keepsPipeline hcommand)

/-! ## Numbers -/

/-- The numbers of the pipelines were handed out, and every pipeline has its own. -/
structure Numbered (s : Session α) : Prop where
  handedOut : ∀ name p, s.pipelines.find? name = some p → p.recipe.serial < s.world.nextSerial
  distinct : ∀ name other p q, s.pipelines.find? name = some p → s.pipelines.find? other = some q →
    p.recipe.serial = q.recipe.serial → name = other

theorem numbered_initial : (initial : Session α).Numbered :=
  ⟨fun _ _ hfind => absurd hfind (by simp [initial]),
    fun _ _ _ _ hfind => absurd hfind (by simp [initial])⟩

/-- A pipeline of the new session is the new one, or stands under another name as before. -/
theorem find?_withMade {other : String} {p q : Pipeline α} {w : World α}
    (hfind : (s.withMade name q w).pipelines.find? other = some p) :
    (other = name ∧ p = q) ∨ (other ≠ name ∧ s.pipelines.find? other = some p) := by
  change Dictionary.find? other (Dictionary.insert name q s.pipelines) = some p at hfind
  by_cases hother : other = name
  · subst hother
    rw [Dictionary.find?_insert_self] at hfind
    exact .inl ⟨rfl, (Option.some.inj hfind).symm⟩
  · rw [Dictionary.find?_insert_of_ne hother] at hfind
    exact .inr ⟨hother, hfind⟩

/-- A pipeline that is left when a name is forgotten was there before. -/
theorem find?_of_erase {other : String} {p : Pipeline α}
    (hfind : (s.pipelines.erase name).find? other = some p) :
    s.pipelines.find? other = some p := by
  by_cases hother : other = name
  · rw [hother, Dictionary.find?_erase_self] at hfind
    exact absurd hfind (by simp)
  · rwa [Dictionary.find?_erase_of_ne hother] at hfind

namespace Numbered

theorem withMade (h : s.Numbered) {q : Pipeline α} {w : World α}
    (hmade : Pipeline.Made { s.world with journal := .empty } q w) (name : String) :
    (s.withMade name q w).Numbered := by
  -- all numbers of before are below the new one
  have hold : ∀ {other : String} {p : Pipeline α}, s.pipelines.find? other = some p →
      p.recipe.serial < q.recipe.serial :=
    fun hfind => Nat.lt_of_lt_of_le (h.handedOut _ _ hfind) hmade.serial_ge
  constructor
  · intro other p hfind
    obtain ⟨-, rfl⟩ | ⟨-, hbefore⟩ := find?_withMade hfind
    · exact hmade.serial_lt
    · exact Nat.lt_trans (hold hbefore) hmade.serial_lt
  · intro first second p p' hfirst hsecond hserial
    obtain ⟨rfl, rfl⟩ | ⟨-, hbefore⟩ := find?_withMade hfirst
    · obtain ⟨rfl, -⟩ | ⟨-, hbefore'⟩ := find?_withMade hsecond
      · rfl
      · exact absurd hserial (Nat.ne_of_gt (hold hbefore'))
    · obtain ⟨rfl, rfl⟩ | ⟨-, hbefore'⟩ := find?_withMade hsecond
      · exact absurd hserial (Nat.ne_of_lt (hold hbefore))
      · exact h.distinct _ _ _ _ hbefore hbefore' hserial

/-- One command. -/
theorem execute (h : s.Numbered) (command : Command α) :
    (s.execute command).session.Numbered := by
  have hchanges := s.execute_changes command
  generalize (s.execute command).session = t at hchanges ⊢
  cases hchanges with
  | none hpipelines hserial =>
    refine ⟨fun name p hfind => ?_, fun name other p q hname hother => ?_⟩
    · rw [hpipelines] at hfind
      exact Nat.lt_of_lt_of_le (h.handedOut name p hfind) hserial
    · rw [hpipelines] at hname hother
      exact h.distinct name other p q hname hother
  | made _ hmade => exact h.withMade hmade _
  | forgotten _ =>
    exact ⟨fun other p hfind => h.handedOut other p (find?_of_erase hfind),
      fun first second p q hfirst hsecond =>
        h.distinct first second p q (find?_of_erase hfirst) (find?_of_erase hsecond)⟩

/-- Any number of commands. -/
theorem after (h : s.Numbered) (commands : List (Command α)) : (s.after commands).Numbered := by
  induction commands generalizing s with
  | nil => exact h
  | cons command rest ih => exact ih (h.execute command)

end Numbered

end Session

end StreamFusion
