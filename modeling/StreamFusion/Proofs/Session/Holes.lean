import StreamFusion.Proofs.Pipeline.Holes
import StreamFusion.Proofs.Session.Memory
import StreamFusion.Proofs.Session.Running

/-!
# Containers with holes in a session

A run by position does not read what it jumps over, so a hole there goes unnoticed; apart from that
it hands out what a walk through the container hands out (`Session.reads_past_holes`). That jumping
makes no difference at all is true of containers without holes only
(`Session.walk_ends_at_hole`).
-/

namespace StreamFusion

variable {α β : Type}

namespace Session

/-- For every container, every plan and every closing action, a run by position hands out what a
walk through the container hands out, if none of the positions that it jumps over is a hole. If one
is, the walk ends there and hands out nothing, and the run by position hands out what a walk through
any container hands out that has elements there and is the same elsewhere. So a transform that gives
every element back may be put in front of a segmented pipeline without changing its list, unless
there is a hole among the positions that the pipeline jumps over and the first position is none. -/
theorem reads_past_holes (box : Container α) :
    (∀ {γ : Type} (plan : Plan α) (sink : Sink α γ) (seed : γ) (source : Ident),
        (∀ other : Container α, box.SameFrom other (plan.jumped box.size) →
          other.SolidBelow (plan.jumped box.size) →
          plan.HandsAlike sink seed (.indexed source box) (.walk source other)
            ∧ (plan.run sink seed (.indexed source box)).GoesWith
              (plan.run sink seed (.walk source other)) plan.leadingSkip box.size)
          ∧ ∀ hole, hole < plan.jumped box.size → box.get? hole = none →
            plan.handed sink seed (.walk source box) = []
              ∧ (plan.run sink seed (.walk source box)).acc = seed)
      ∧ ∀ (commands : List (Command α)) {name name' : String} {p q : Pipeline α}
          {f : Callback α α} {source : Ident},
          let s := initial.after commands
          s.pipelines.find? name = some p → s.pipelines.find? name' = some q →
          q.IsTransformed p f → f.GivesBack → p.recipe.config.rangeMode = .segmented →
          p.source = .container source box →
          (∀ plan, p.recipe.verdict = .ok plan → box.Suits plan) →
          (p.Unclaimed s.world ↔ q.Unclaimed s.world) →
          (s.execute (.run name' .toList)).reply = (s.execute (.run name .toList)).reply := by
  refine ⟨fun plan sink seed source => ⟨?_, ?_⟩, ?_⟩
  · exact fun other hsame hsolid => plan.handsAlike_walk hsame hsolid sink seed source
  · intro hole hlt hhole
    obtain ⟨hhanded, hacc, -⟩ := plan.walk_of_hole sink seed source hlt hhole
    exact ⟨hhanded, hacc⟩
  · intro commands name name' p q f source s hname hname' h hf hmode hsource hbox hclaims
    obtain ⟨ledger, -, hknows⟩ := (knows_initial (α := α)).after commands
    have hquiet := hknows.world.with_journal .empty
    have halike := Pipeline.toList_transformed (hknows.pipelines name p hname)
      (hknows.pipelines name' q hname') h hmode hsource hbox hf hquiet hclaims
    rw [reply_toList hname, reply_toList hname']
    generalize p.toList { s.world with journal := .empty } = result at halike ⊢
    generalize q.toList { s.world with journal := .empty } = result' at halike ⊢
    cases halike with
    | ok hsame _ _ => rw [hsame]
    | error halt _ _ => rfl

/-- A hole behind what is jumped over changes nothing; a hole in front of it is not noticed, so the
run by position goes on where the walk ends. -/
theorem reads_past_holes_sparse :
    let plan : Plan Nat := (Draft.ofOps .segmented [.range 2 none]).toPlan
    let last : Container Nat := .sparse 4 [1, 2, 3, 4] [3]
    let second : Container Nat := .sparse 4 [1, 2, 3, 4] [1]
    let identity : Callback Nat Nat := .plain id
    let commands : List (Command Nat) :=
      [.create "numbers" (.container none last) 8, .extend "segmented" "numbers" (.config .segmented),
        .extend "plain" "segmented" (.op (.range 2 none)),
        .extend "same" "segmented" (.op (.transform identity)),
        .extend "behind" "same" (.op (.range 2 none))]
    let s : Session Nat := initial.after commands
    (s.execute (.run "behind" .toList)).reply = (s.execute (.run "plain" .toList)).reply
      ∧ plan.handed .collect [] (.indexed ⟨0, none⟩ second) =
        plan.handed .collect [] (.walk ⟨0, none⟩ (.ofList [1, 2, 3, 4]))
      ∧ plan.handed .collect [] (.walk ⟨0, none⟩ second) = [] := by
  intro plan last second identity commands s
  refine ⟨?_, ?_, ?_⟩
  · have hsuits : ∀ found, (compile [.range 2 none] Config.segmented).verdict = .ok found →
        last.Suits found := by
      intro found hfound
      cases hfound
      exact .inr (by decide)
    exact (reads_past_holes last).2 commands rfl rfl ⟨rfl, rfl, rfl, rfl⟩ (fun _ _ => rfl) rfl rfl hsuits
      ⟨fun _ => nofun, fun _ => nofun⟩
  · have hsame : second.SameFrom (.ofList [1, 2, 3, 4]) 2 :=
      ⟨rfl, fun position hle => if_neg (by simp; omega)⟩
    exact (((reads_past_holes second).1 plan .collect [] ⟨0, none⟩).1 _ hsame
      (by decide)).1.handed_eq
  · exact ((reads_past_holes second).1 plan .collect [] ⟨0, none⟩).2 1 (by decide) rfl |>.1

/-- The jump passes over a hole, and the run by position hands out the third element; the walk ends
at the hole. So a pipeline with a transform in front that gives every element back gives another
list. -/
theorem walk_ends_at_hole :
    let box : Container Nat := .sparse 3 [1, 2, 3] [1]
    let plan : Plan Nat := (Draft.ofOps .segmented [.range 2 none]).toPlan
    let p : Pipeline Nat := ⟨.container ⟨0, none⟩ box, ⟨1, [.range 2 none], .segmented, 8⟩⟩
    let q : Pipeline Nat := ⟨.container ⟨0, none⟩ box,
      ⟨2, [.transform (.plain id), .range 2 none], .segmented, 8⟩⟩
    plan.handed .collect [] (.indexed ⟨0, none⟩ box) = [⟨3, 0, .onward⟩]
      ∧ plan.handed .collect [] (.walk ⟨0, none⟩ box) = []
      ∧ (∃ w, p.toList .initial = .ok [3] w) ∧ ∃ w, q.toList .initial = .ok [] w := by
  intro box plan p q
  set other : Plan Nat := (Draft.ofOps .segmented [.transform (.plain id), .range 2 none]).toPlan
  have hread : (Opened.indexed ⟨0, none⟩ box).Feeds plan [1, 2, 3] := by
    have hsame : box.SameFrom (.ofList [1, 2, 3]) (plan.jumped box.size) :=
      ⟨rfl, fun position hle => if_neg (by change 2 ≤ position at hle; simp; omega)⟩
    exact Opened.feeds_solid ⟨0, none⟩ hsame (by decide)
  -- behind the jump there is one element left, whatever is done with it
  have hle : plan.jumped 3 ≤ [1, 2, 3].length := by decide
  have hjump : ∀ {γ : Type} (sink : Sink Nat γ) (seed : γ), plan.drainList sink seed [1, 2, 3] =
      drainIntake plan sink (.owned [3]) 2 ⟨plan.startAfterJump 3, seed, .empty⟩ :=
    fun sink seed => plan.drain_start sink seed hle
  have hhole : (1 : Nat) < plan.jumped box.size := by decide
  refine ⟨?_, (plan.walk_of_hole .collect [] ⟨0, none⟩ hhole rfl).1, ?_, ?_⟩
  · have hdrain : (plan.drainList Sink.collect.logged ([], []) [1, 2, 3]).state.acc =
        ([3], [⟨3, 0, .onward⟩]) := by
      rw [hjump, Plan.drainIntake_eq]
      show (drainIntake plan Sink.collect.logged (.owned []) 3 _).state.acc = _
      rw [Plan.drainIntake_eq]
      rfl
    rw [Plan.handed, (hread.tells Sink.collect.logged ([], [])).acc_eq, hdrain]
    rfl
  · have hdrain : plan.drainList .collect [] [1, 2, 3] =
        ⟨⟨⟨[⟨0, none⟩], [], 1, false⟩, [3], .empty⟩, .owned [], 3, .exhausted⟩ := by
      rw [hjump, Plan.drainIntake_eq]
      show drainIntake plan .collect (.owned []) 3 _ = _
      rw [Plan.drainIntake_eq]
      rfl
    obtain ⟨-, hacc, hresult⟩ := hread.tells .collect []
    rw [hdrain] at hacc hresult
    obtain ⟨w, hstart⟩ : ∃ w, p.recipe.start p.source.opening .initial =
        .ok (some (plan, .indexed ⟨0, none⟩ box)) w := ⟨_, rfl⟩
    obtain ⟨w', hlist⟩ := Pipeline.toList_of_run rfl hstart (by decide) hresult
    rw [hacc] at hlist
    exact ⟨w', hlist⟩
  · have happended : other.IsAppended (Callback.plan (.plain id)) plan :=
      Draft.isAppended_toPlan [.transform (.plain id)] [.range 2 none]
    have hwalked : (Opened.indexed ⟨0, none⟩ box).Feeds other [1] :=
      (box.suits_transformed happended).feeds ⟨0, none⟩
    have hdrain : other.drainList .collect [] [1] =
        ⟨⟨⟨[⟨1, none⟩], [], 0, false⟩, [], ⟨[.called none 1 none]⟩⟩, .owned [], 1, .exhausted⟩ := by
      rw [Plan.drainList, Plan.drainIntake_eq]
      show drainIntake other .collect (.owned []) 1 _ = _
      rw [Plan.drainIntake_eq]
      rfl
    obtain ⟨-, hacc, hresult⟩ := hwalked.tells .collect []
    rw [hdrain] at hacc hresult
    obtain ⟨w, hstart⟩ : ∃ w, q.recipe.start q.source.opening .initial =
        .ok (some (other, .indexed ⟨0, none⟩ box)) w := ⟨_, rfl⟩
    obtain ⟨w', hlist⟩ := Pipeline.toList_of_run rfl hstart (by decide) hresult
    rw [hacc] at hlist
    exact ⟨w', hlist⟩

end Session

end StreamFusion
