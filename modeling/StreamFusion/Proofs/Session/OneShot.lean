import StreamFusion.Proofs.Pipeline.Openings
import StreamFusion.Proofs.Session.Memory
import StreamFusion.Proofs.Session.Reaching

/-!
# One-shot sources in a session

A one-shot source is opened by the first command that comes to read it, and by no other one
(`Session.opened_once`). A run that ends before it has to read the source, as a plan on its way down
is refused or lets nothing pass, leaves the source to later runs; and once the source was opened,
every run that would have to read it is refused, and nothing happens but planning.
-/

namespace StreamFusion

variable {α β : Type}

namespace Session

variable {s : Session α} {name : String} {command : Command α}

/-! ## What commands do to the memory -/

theorem GoesOn.nextUntaken {rest : Recipe α → Option (Plan α × Opened α) → Act α β}
    {next : β → Session α → Response α} (h : GoesOn rest next) : NextOnly Untaken next := by
  cases h with
  | answer hsink seed answer => exact nextOnly_reply fun _ => List.not_mem_nil
  | iterator name => exact nextOnly_bindIterator Untaken.observes name

/-- Making room for what was started keeps up what is steady. -/
theorem makeRoom_maintains {P : World α → Prop} (hsteady : World.Steady P) (recipe : Recipe α)
    (started : Option (Plan α × Opened α)) (terminal : Terminal α) :
    Act.Maintains P (makeRoom recipe started terminal) := by
  cases terminal with
  | toList =>
    cases started with
    | none => exact .pure fun _ h => h
    | some found => exact hsteady.reserve recipe found.1 found.2
  | _ => exact .pure fun _ h => h

/-- What goes on after the source was opened keeps up what is steady. -/
theorem GoesOn.maintains {rest : Recipe α → Option (Plan α × Opened α) → Act α β}
    {next : β → Session α → Response α} (h : GoesOn rest next) {P : World α → Prop}
    (hsteady : World.Steady P) (recipe : Recipe α) (started : Option (Plan α × Opened α)) :
    Act.Maintains P (rest recipe started) := by
  cases h with
  | @answer terminal γ sink hsink seed answer =>
    have hconduct : Act.Maintains P (conductStarted sink seed started) := by
      cases started with
      | none => exact .pure fun _ h => h
      | some found =>
        exact (hsteady.conduct found.1 found.2 hsink seed).bind fun _ => .pure fun _ h => h
    refine (makeRoom_maintains hsteady recipe started terminal).bind fun _ =>
      hconduct.bind fun found => ?_
    cases answer (outcome seed found) with
    | ok told => exact .pure fun _ h => h
    | error refusal => exact .refuse fun _ h => h
  | iterator name => exact .pure fun _ h => h

/-- A command keeps up what is steady if no pipeline that is made can break it, and no one-shot
source at the bottom of the pipeline that is run. -/
theorem reaches_of_steady {P : World α → Prop} {N : Source α → Prop} (hsteady : World.Steady P)
    (honce : ∀ {id answers}, N (.once id answers) →
      Act.Maintains P (Source.once id answers).opening)
    (hbelow : ∀ {id link base recipe}, N (.derived id link base recipe) → N base)
    (hmade : ∀ {w w' : World α} {q}, Pipeline.Made w q w' → w.journal = .empty → P w → P w')
    (hruns : ∀ name p, command.RunsOn name → s.pipelines.find? name = some p → N p.source)
    (hquiet : s.world.journal = .empty) (hs : P { s.world with journal := .empty }) :
    (s.execute command).Reaches Untaken P :=
  execute_reaches Untaken.observes (fun hnew => hmade hnew rfl hs) hquiet hs
    (hsteady.upkeep honce hbelow) hsteady.readingClass hruns

/-! ## Spent sources and openings -/

/-- After these events, the spent sources are those that gave their cursor away. -/
def Accounts (s : Session α) (past : List (Event α)) : Prop :=
  ∀ n, (s.world.spent n).toNat = timesTaken n past

theorem accounts_initial : (initial : Session α).Accounts [] := fun _ => rfl

namespace Accounts

variable {past : List (Event α)}

/-- One command. -/
theorem execute (h : s.Accounts past) (hquiet : s.world.journal = .empty) (command : Command α) :
    (s.execute command).session.Accounts (past ++ (s.execute command).events) := by
  have hstart : World.Accounts past { s.world with journal := .empty } := by
    intro n
    show (s.world.spent n).toNat = timesTaken n (past ++ [])
    rw [List.append_nil]
    exact h n
  -- no pipeline that is made spends a source, or opens one
  have hmade : ∀ {w w' : World α} {q}, Pipeline.Made w q w' → w.journal = .empty →
      w.Accounts past → w'.Accounts past := by
    intro w w' q hnew hempty hw n
    have hbefore := hw n
    rw [hempty, Journal.events_empty, List.append_nil] at hbefore
    rw [hnew.spent_eq, timesTaken_append, (hnew.untaken hempty).timesTaken_eq]
    exact hbefore
  have hreaches : (s.execute command).Reaches Untaken (World.Accounts past) :=
    reaches_of_steady (N := fun _ => True) (World.steady_accounts past)
      (fun _ => World.opening_once_accounts _ _) (fun _ => trivial) hmade
      (fun _ _ _ _ => trivial) hquiet hstart
  obtain ⟨w, later, hw, huntaken, hworld, hevents⟩ := hreaches
  intro n
  rw [hworld, hevents, ← List.append_assoc, timesTaken_append, huntaken.timesTaken_eq]
  exact hw n

/-- Any number of commands. -/
theorem after (h : s.Accounts past) (htends : s.Tends past) (commands : List (Command α)) :
    (s.after commands).Accounts (past ++ s.happened commands) := by
  induction commands generalizing s past with
  | nil =>
    rw [show s.happened [] = [] from rfl, List.append_nil]
    exact h
  | cons command rest ih =>
    have hlater := ih (h.execute htends.quiet command) (htends.execute command)
    rw [List.append_assoc] at hlater
    exact hlater

/-- A one-shot source gives its cursor away once at most. -/
theorem timesTaken_le (h : s.Accounts past) (n : Nat) : timesTaken n past ≤ 1 := by
  rw [← h n]
  exact Bool.toNat_le _

/-- How often a command opens a source can be told from the memory before and after it. -/
theorem timesTaken_events (h : s.Accounts past) (hquiet : s.world.journal = .empty)
    (command : Command α) (n : Nat) :
    timesTaken n past + timesTaken n (s.execute command).events =
      ((s.execute command).session.world.spent n).toNat := by
  rw [← timesTaken_append]
  exact (h.execute hquiet command n).symm

end Accounts

/-! ## Runs over one-shot sources -/

/-- A command that does not run a pipeline over this one-shot source leaves it as it is. -/
theorem execute_spent_eq (hquiet : s.world.journal = .empty) {n : Nat}
    (hruns : ∀ name p, command.RunsOn name → s.pipelines.find? name = some p →
      ∀ id, p.source.oneShot? = some id → id.serial ≠ n) :
    (s.execute command).session.world.spent n = s.world.spent n := by
  have hmade : ∀ {w w' : World α} {q}, Pipeline.Made w q w' → w.journal = .empty →
      w.spent n = s.world.spent n → w'.spent n = s.world.spent n :=
    fun hnew _ hw => (hnew.spent_eq n).trans hw
  have hreaches : (s.execute command).Reaches Untaken fun w => w.spent n = s.world.spent n :=
    reaches_of_steady (N := fun source => ∀ id, source.oneShot? = some id → id.serial ≠ n)
      (World.steady_spent n _) (fun hsource => World.opening_once_spent (hsource _ rfl) _)
      (fun hsource => hsource) hmade hruns hquiet rfl
  obtain ⟨w, later, hw, -, hworld, -⟩ := hreaches
  rw [hworld]
  exact hw

section Runs

variable {ledger : Ledger α} {p : Pipeline α} (h : s.Knows ledger)
  (hname : s.pipelines.find? name = some p) (hruns : command.RunsOn name)
include h hname hruns

/-- A run that is refused on its way down does nothing but planning. -/
theorem execute_planning (hfree : p.Unclaimed s.world) {refusal : Refusal}
    (hprospect : p.prospect s.world.spent = .refused refusal) :
    (s.execute command).reply = .refused refusal
      ∧ ∀ event ∈ (s.execute command).events, event.IsPlanning := by
  obtain ⟨β, rest, next, -, hexecute⟩ := execute_runsOn hruns
  obtain ⟨w, events, hbegin, hplanning, hjournal⟩ :=
    Pipeline.begin_refused (h.pipelines name p hname) (h.world.with_journal .empty) hfree hprospect
  have hact : (p.begin >>= rest p.recipe) { s.world with journal := .empty } =
      .error (.refused refusal) w := Act.bind_error hbegin
  rw [hexecute s p hname, perform, hact]
  refine ⟨rfl, fun event hmem => hplanning event ?_⟩
  change event ∈ w.journal.events at hmem
  rwa [hjournal, Journal.events_record] at hmem

/-- A run that lets nothing pass on its way down spends no source. -/
theorem execute_nothing (hprospect : p.prospect (fun _ => false) = .nothing) (n : Nat) :
    (s.execute command).session.world.spent n = s.world.spent n := by
  obtain ⟨β, rest, next, hgoes, hexecute⟩ := execute_runsOn hruns
  have hsteady := World.steady_spent (α := α) n (s.world.spent n)
  have hbegin := Pipeline.begin_nothing (h.pipelines name p hname) hprospect hsteady
  have hact : Act.Leads (fun w => w.Knows ledger ∧ w.spent n = s.world.spent n)
      (p.begin >>= rest p.recipe) (fun _ w => w.spent n = s.world.spent n)
      fun w => w.spent n = s.world.spent n :=
    (hbegin.imp (fun _ _ hw => hw.2) fun _ hw => hw.2).bind fun started =>
      hgoes.maintains hsteady p.recipe started
  rw [hexecute s p hname]
  obtain ⟨w, later, hw, -, hworld, -⟩ :=
    perform_reaches (fun _ => List.not_mem_nil) hact hgoes.nextUntaken
      ⟨h.world.with_journal .empty, rfl⟩
  rw [hworld]
  exact hw

/-- A run that comes down to its one-shot source leaves it spent, however the run ends. -/
theorem execute_opens (hfree : p.Unclaimed s.world) {id : Ident}
    (hid : p.source.oneShot? = some id) (hprospect : p.prospect (fun _ => false) = .opens) :
    (s.execute command).session.world.spent id.serial = true := by
  obtain ⟨β, rest, next, hgoes, hexecute⟩ := execute_runsOn hruns
  have hact : Act.Leads (fun w => w.Knows ledger ∧ p.Unclaimed w) (p.begin >>= rest p.recipe)
      (fun _ w => w.spent id.serial = true) fun w => w.spent id.serial = true :=
    (Pipeline.begin_spends (h.pipelines name p hname) hid hprospect).bind fun started =>
      hgoes.maintains (World.steady_spent id.serial true) p.recipe started
  rw [hexecute s p hname]
  obtain ⟨w, later, hw, -, hworld, -⟩ :=
    perform_reaches (fun _ => List.not_mem_nil) hact hgoes.nextUntaken
      ⟨h.world.with_journal .empty, hfree⟩
  rw [hworld]
  exact hw

end Runs

/-- Whatever was done before: a one-shot source gave its cursor away once at most, and only a run,
or the making of an iterator, over a pipeline that reads the source in the end does that; extensions
of a pipeline read the same source. Let such a run not be refused for the contract of its pipeline,
which does nothing at all. If a plan on its way down is refused, it does nothing but planning, and
if one lets nothing pass, the source is not opened. Otherwise the source is opened if it was not
before; if it was, the run is refused, and nothing happens but planning. -/
theorem opened_once (commands : List (Command α)) :
    let s : Session α := initial.after commands
    let past := initial.happened commands
    (∀ n, timesTaken n past ≤ 1)
      ∧ (∀ base p, s.pipelines.find? base = some p → ∀ name extension, ∃ q,
        (s.execute (.extend name base extension)).session.pipelines.find? name = some q
          ∧ q.source.oneShot? = p.source.oneShot?)
      ∧ ∀ command : Command α,
        let response := s.execute command
        (∀ n, timesTaken n response.events ≠ 0 → ∃ name p id, command.RunsOn name
          ∧ s.pipelines.find? name = some p ∧ p.source.oneShot? = some id ∧ id.serial = n)
        ∧ ∀ name p id, command.RunsOn name → s.pipelines.find? name = some p →
          p.source.oneShot? = some id →
          (¬ p.Unclaimed s.world → response = ⟨.refused .terminalRan, [], s⟩)
            ∧ (p.Unclaimed s.world → match p.prospect fun _ => false with
              | .refused refusal => response.reply = .refused refusal
                ∧ ∀ event ∈ response.events, event.IsPlanning
              | .nothing => timesTaken id.serial response.events = 0
              | .opens =>
                if timesTaken id.serial past = 0 then timesTaken id.serial response.events = 1
                else response.reply = .refused (.consumed "one-shot source was already read")
                  ∧ ∀ event ∈ response.events, event.IsPlanning) := by
  intro s past
  obtain ⟨ledger, -, hknows⟩ := (knows_initial (α := α)).after commands
  have htends : s.Tends past := (tends_initial (α := α)).executeAll commands
  have haccounts : s.Accounts past := Accounts.after accounts_initial tends_initial commands
  refine ⟨haccounts.timesTaken_le, fun base p hbase name extension => ?_, fun command => ⟨?_, ?_⟩⟩
  · obtain ⟨q, w, hexecute, -, hsource⟩ := execute_extend hbase name extension
    rw [hexecute]
    exact ⟨q, Dictionary.find?_insert_self _ _ _, hsource⟩
  · intro n htaken
    -- without a run over the source its memory stays as it is, and so it is not opened
    by_contra hnone
    have hsame := execute_spent_eq htends.quiet (n := n) fun name p hruns hname id hid hserial =>
      hnone ⟨name, p, id, hruns, hname, hid, hserial⟩
    have htimes := haccounts.timesTaken_events htends.quiet command n
    rw [hsame, haccounts n] at htimes
    exact htaken (Nat.left_eq_add.1 htimes.symm)
  · intro name p id hruns hname hid
    have htimes := haccounts.timesTaken_events htends.quiet command id.serial
    refine ⟨execute_claimed htends.quiet hname hruns, fun hfree => ?_⟩
    cases hprospect : p.prospect fun _ => false with
    | refused refusal =>
      have hnow := Pipeline.prospect_of_ne_opens (p := p) (by simp [hprospect]) s.world.spent
      exact execute_planning hknows hname hruns hfree (hnow.trans hprospect)
    | nothing =>
      rw [execute_nothing hknows hname hruns hprospect, haccounts] at htimes
      exact Nat.left_eq_add.1 htimes.symm
    | opens =>
      by_cases hpast : timesTaken id.serial past = 0
      · rw [if_pos hpast]
        rw [execute_opens hknows hname hruns hfree hid hprospect, hpast, Nat.zero_add] at htimes
        exact htimes
      · rw [if_neg hpast]
        have hspent : s.world.spent id.serial = true := by
          rw [← haccounts id.serial] at hpast
          cases hfound : s.world.spent id.serial with
          | true => rfl
          | false => exact absurd (by rw [hfound]; rfl) hpast
        exact execute_planning hknows hname hruns hfree
          (Pipeline.prospect_spent hid hspent hprospect)

/-- Three ways to read a one-shot source. One is refused for the plan below its link, one lets
nothing pass, and both leave the source to an iterator over the third; after that the source is
spent. -/
theorem opened_once_linked :
    let commands : List (Command Nat) :=
      [.create "p" (.once none [some 1, some 2]) 8,
        .extend "q" "p" (.link (.map (.plain (· + 1))) 8),
        .extend "r" "p" (.op (.range 1 none)),
        .extend "r" "r" (.op (.filter (.plain (· == 2)) none)),
        .extend "r" "r" (.link (.map (.plain (· + 1))) 8),
        .extend "e" "q" (.op (.range 0 (some 0)))]
    let s : Session Nat := initial.after commands
    let later := s.after [.run "r" .toList, .run "e" .count, .iterate "i" "q"]
    (s.execute (.run "r" .toList)).reply = .refused (.skipWithFilter 1 "filter")
      ∧ timesTaken 0 (s.execute (.run "e" .count)).events = 0
      ∧ timesTaken 0 (s.execute (.iterate "i" "q")).events = 1
      ∧ (later.execute (.run "p" .toList)).reply =
        .refused (.consumed "one-shot source was already read") := by
  intro commands s later
  let used : List (Command Nat) := [.run "r" .toList, .run "e" .count, .iterate "i" "q"]
  let source : Source Nat := .once ⟨0, none⟩ [some 1, some 2]
  let filtered : List (Op Nat) := [.range 1 none, .filter (.plain (· == 2)) none]
  let linked : Nat → List (Op Nat) → Source Nat := fun n ops =>
    .derived ⟨n + 1, none⟩ (.map (.plain (· + 1))) source ⟨n, ops, .standard, 8⟩
  have hp : s.pipelines.find? "p" = some ⟨source, ⟨1, [], .standard, 8⟩⟩ := rfl
  have hq : s.pipelines.find? "q" = some ⟨linked 2 [], ⟨4, [], .standard, 8⟩⟩ := rfl
  have hr : s.pipelines.find? "r" = some ⟨linked 7 filtered, ⟨9, [], .standard, 8⟩⟩ := rfl
  have he : s.pipelines.find? "e" =
      some ⟨linked 2 [], ⟨10, [.range 0 (some 0)], .standard, 8⟩⟩ := rfl
  have hfree : ∀ {serial : Nat} {ops : List (Op Nat)} {below : Source Nat} {w : World Nat},
      Pipeline.Unclaimed ⟨below, ⟨serial, ops, .standard, 8⟩⟩ w := nofun
  obtain ⟨-, -, hnow⟩ := opened_once commands
  obtain ⟨-, -, hlater⟩ := opened_once (commands ++ used)
  refine ⟨?_, ?_, ?_, ?_⟩
  · exact (((hnow (.run "r" .toList)).2 "r" _ ⟨0, none⟩ rfl hr rfl).2 hfree).1
  · exact ((hnow (.run "e" .count)).2 "e" _ ⟨0, none⟩ rfl he rfl).2 hfree
  · exact ((hnow (.iterate "i" "q")).2 "q" _ ⟨0, none⟩ rfl hq rfl).2 hfree
  · exact (((hlater (.run "p" .toList)).2 "p" _ ⟨0, none⟩ rfl hp rfl).2 hfree).1

end Session

end StreamFusion
