import StreamFusion.Proofs.Pipeline.Steady
import StreamFusion.Proofs.Session.Numbers
import StreamFusion.Proofs.Session.Running

/-!
# Where commands lead to

A command makes a pipeline, or carries out an act on a pipeline, or moves iterators. So what single
acts keep up, and what making a pipeline keeps up, holds of the world that a command leaves
(`Session.execute_reaches`); what happens after the act of the command is done by moves of intakes.
-/

namespace StreamFusion

variable {α β : Type}

/-- The command did an act that left a world with `P`, and after that only what `S` says. -/
def Response.Reaches (S : List (Event α) → Prop) (P : World α → Prop) (response : Response α) :
    Prop :=
  ∃ w later, P w ∧ S later ∧ response.session.world = { w with journal := .empty }
    ∧ response.events = w.journal.events ++ later

namespace Session

variable {S : List (Event α) → Prop} {P : World α → Prop} {s : Session α}

/-- What follows an act leaves the memory as it is, and does only what `S` says. -/
def NextOnly (S : List (Event α) → Prop) (next : β → Session α → Response α) : Prop :=
  ∀ y t, (next y t).session.world = t.world ∧ S (next y t).events

theorem nextOnly_reply (hnil : S []) :
    NextOnly S (reply : Reply α → Session α → Response α) := fun _ _ => ⟨rfl, hnil⟩

/-- An older iterator of the name is let go. -/
theorem nextOnly_bindIterator (hS : Observes fun _ events _ => S events) (name : String) :
    NextOnly S (bindIterator (α := α) name) := by
  intro intake t
  refine ⟨rfl, ?_⟩
  unfold bindIterator
  cases t.iterators.find? name with
  | none => exact hS.nil none
  | some old => exact hS.release old

theorem perform_reaches {Q : World α → Prop} {act : Act α β} {next : β → Session α → Response α}
    (hnil : S []) (hact : Act.Leads P act (fun _ => Q) Q) (hnext : NextOnly S next)
    (hs : P { s.world with journal := .empty }) : (s.perform act next).Reaches S Q := by
  have hresult := hact _ hs
  unfold perform
  cases hdone : act { s.world with journal := .empty } with
  | ok y w =>
    rw [hdone] at hresult
    obtain ⟨hworld, hlater⟩ := hnext y { s with world := { w with journal := .empty } }
    exact ⟨w, _, hresult, hlater, hworld, rfl⟩
  | error halt w =>
    rw [hdone] at hresult
    exact ⟨w, [], hresult, hnil, rfl, (List.append_nil _).symm⟩

/-- Nothing is done to the memory. -/
theorem reaches_of_world_eq {response : Response α} (hs : P { s.world with journal := .empty })
    (hquiet : s.world.journal = .empty) (hworld : response.session.world = s.world)
    (hevents : S response.events) : response.Reaches S P := by
  refine ⟨_, _, hs, hevents, ?_, rfl⟩
  rw [hworld, ← hquiet]

section Commands

variable {command : Command α} (hS : Observes fun _ events _ => S events)
  (hmade : ∀ {q w}, Pipeline.Made { s.world with journal := .empty } q w → P w)
  (hquiet : s.world.journal = .empty) (hs : P { s.world with journal := .empty })
include hS hmade hquiet hs

/-- A command that runs nothing keeps up what planning and classifying keep up, if no pipeline that
is made can break it. -/
theorem execute_reaches_of_not_runsOn (hnot : ∀ name, ¬ command.RunsOn name)
    (hplan : ∀ name p, s.pipelines.find? name = some p → Act.Maintains P p.recipe.plan)
    (hreading : ∀ name p, s.pipelines.find? name = some p →
      Act.Maintains P p.source.readingClass) :
    (s.execute command).Reaches S P := by
  have hnil : S [] := hS.nil none
  have hnothing : ∀ answer, (s.reply answer).Reaches S P :=
    fun answer => reaches_of_world_eq hs hquiet rfl hnil
  have hiterator : ∀ {name : String} (pulls : Intake α → Pulls α)
      (answer : List (Option α) → Reply α), (∀ intake, S (pulls intake).events) →
      (s.withIterator name fun intake => s.pulledFrom name (pulls intake) answer).Reaches S P :=
    fun pulls answer hpulls => withIterator_cases (hnothing _)
      fun intake _ => reaches_of_world_eq hs hquiet rfl (hpulls intake)
  cases command with
  | create name origin width =>
    obtain ⟨q, w, hexecute, hnew⟩ := s.execute_create name origin width
    rw [hexecute]
    exact ⟨w, [], hmade hnew, hnil, rfl, (List.append_nil _).symm⟩
  | extend name base extension =>
    cases hbase : s.pipelines.find? base with
    | none =>
      rw [execute, withPipeline, hbase]
      exact hnothing _
    | some p =>
      obtain ⟨q, w, hexecute, hnew, -⟩ := execute_extend hbase name extension
      rw [hexecute]
      exact ⟨w, [], hmade hnew, hnil, rfl, (List.append_nil _).symm⟩
  | inquire name inquiry =>
    exact withPipeline_cases (hnothing _) fun p hfind => perform_reaches hnil
      (answerInquiry_maintains (hplan name p hfind) (hreading name p hfind) inquiry)
      (nextOnly_reply hnil) hs
  | run name terminal => exact absurd rfl (hnot name)
  | iterate name pipeline => exact absurd rfl (hnot pipeline)
  | next name count => exact hiterator (·.nextTimes count) .pulled (hS.nextTimes count)
  | rest name => exact hiterator (·.remaining) _ hS.remaining
  | close name =>
    cases hfind : s.iterators.find? name with
    | none =>
      rw [Tends.execute_close_none hfind]
      exact hnothing _
    | some intake =>
      rw [Tends.execute_close hfind]
      exact reaches_of_world_eq hs hquiet rfl (hS.release intake)
  | release name => exact reaches_of_world_eq hs hquiet rfl hnil

/-- A command keeps up what single acts keep up, if no pipeline that is made can break it, and
nothing that is read by the pipeline that is run. -/
theorem execute_reaches {N : Source α → Prop} (hupkeep : Upkeep (fun _ => P) (fun _ => True) N)
    (hreading : ∀ source : Source α, Act.Maintains P source.readingClass)
    (hruns : ∀ name p, command.RunsOn name → s.pipelines.find? name = some p → N p.source) :
    (s.execute command).Reaches S P := by
  have hnil : S [] := hS.nil none
  have hnothing : (s.reply .noPipeline).Reaches S P := reaches_of_world_eq hs hquiet rfl hnil
  cases command with
  | run name terminal =>
    exact withPipeline_cases hnothing fun p hfind => perform_reaches hnil
      (runTerminal_maintains hupkeep trivial (hruns name p rfl hfind) terminal [])
      (nextOnly_reply hnil) hs
  | iterate name pipeline =>
    exact withPipeline_cases hnothing fun p hfind => perform_reaches hnil
      (hupkeep.iterate trivial (hruns pipeline p rfl hfind) [])
      (nextOnly_bindIterator hS name) hs
  | _ =>
    exact execute_reaches_of_not_runsOn hS hmade hquiet hs (fun _ h => h)
      (fun _ _ _ => hupkeep.plan trivial []) fun _ _ _ => hreading _

end Commands

end Session

end StreamFusion
