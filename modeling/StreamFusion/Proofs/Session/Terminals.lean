import StreamFusion.Proofs.Pipeline.Repeating
import StreamFusion.Proofs.Pipeline.Results
import StreamFusion.Proofs.Pipeline.Terminals
import StreamFusion.Proofs.Session.Memory

/-!
# Terminals in a session

What `toList` gives for a repeatable pipeline, all terminals of the pipeline tell, then and whenever
they are run later in the session (`Session.terminals_of_toList`).
-/

namespace StreamFusion

variable {α : Type}

namespace Session

/-- However a session came to where it is, and whatever is done in it afterwards: the list that a
repeatable pipeline over a source that can be read again gives is what all its terminals tell, and
if that list is refused, all its terminals are. -/
theorem terminals_of_toList (commands further : List (Command α)) {name : String} {p : Pipeline α}
    (hname : (initial.after commands).pipelines.find? name = some p)
    (hcontract : p.recipe.config.contract = .repeatable) (hsource : p.source.oneShot? = none) :
    let w := (initial.after commands).world
    let later := ((initial.after commands).after further).world
    (∀ ys v, p.toList w = .ok ys v → ∃ own, p.Tells later ys own)
      ∧ ∀ refusal v, p.toList w = .error (.refused refusal) v → p.Refuses later refusal := by
  intro w later
  obtain ⟨ledger, -, hknows⟩ := (knows_initial (α := α)).after commands
  obtain ⟨ledger', hgrows, hknows'⟩ := hknows.after further
  have hentered := hknows.pipelines name p hname
  have hquiet : World.Knows ledger' { later with journal := .empty } :=
    ⟨hknows'.world.plans, hknows'.world.classes, hknows'.world.blank⟩
  have hagrees := Pipeline.toList_agrees hentered (hentered.grow hgrows) hcontract hsource w
    { later with journal := .empty } hknows.world hquiet
  constructor
  · intro ys v hlist
    rw [hlist] at hagrees
    generalize hagain : p.toList { later with journal := .empty } = result at hagrees
    cases hagrees with
    | ok hsame _ _ =>
      subst hsame
      exact ⟨_, Pipeline.tells_of_toList hagain⟩
  · intro refusal v hrefused
    rw [hrefused] at hagrees
    generalize hagain : p.toList { later with journal := .empty } = result at hagrees
    cases hagrees with
    | error halt _ _ => exact Pipeline.refuses_of_toList hagain

/-- A filter behind a cursor, and a start behind that filter, which planning refuses; both are run
again after the first of them was run. -/
theorem terminals_of_toList_again :
    let commands : List (Command Nat) :=
      [.create "numbers" (.replay none [some 3, some 5, some 8]) 8,
        .extend "large" "numbers" (.op (.filter (.plain fun x => decide (4 < x)) none)),
        .extend "later" "large" (.op (.range 1 none))]
    let source : Source Nat := .replay ⟨0, none⟩ [some 3, some 5, some 8]
    let large : Pipeline Nat :=
      ⟨source, ⟨2, [.filter (.plain fun x => decide (4 < x)) none], .standard, 8⟩⟩
    let skipping : Pipeline Nat :=
      ⟨source, ⟨3, [.filter (.plain fun x => decide (4 < x)) none, .range 1 none], .standard, 8⟩⟩
    let s : Session Nat := initial.after commands
    (s.pipelines.find? "large" = some large ∧ s.pipelines.find? "later" = some skipping)
      ∧ (∃ own, large.Tells (s.after [.run "large" .toList]).world [5, 8] own)
      ∧ skipping.Refuses (s.after [.run "large" .toList]).world (.skipWithFilter 1 "filter") := by
  intro commands source large skipping s
  have hlarge : s.pipelines.find? "large" = some large := rfl
  have hskipping : s.pipelines.find? "later" = some skipping := rfl
  have hready : large.Ready s.world [3, 5, 8] := by
    refine ⟨nofun, ⟨fun _ => large.recipe.verdict, ?_, ?_⟩, ?_⟩
    · exact fun serial verdict hverdict => absurd hverdict nofun
    · intro recipe hmem
      rw [List.mem_singleton.1 hmem]
      exact rfl
    · exact .replay _ _
  obtain ⟨v, hlist⟩ := Pipeline.toList_of_onList hready rfl rfl (by decide)
  refine ⟨⟨hlarge, hskipping⟩, ?_, ?_⟩
  · exact (terminals_of_toList commands [.run "large" .toList] hlarge rfl rfl).1 [5, 8] v hlist
  · exact (terminals_of_toList commands [.run "large" .toList] hskipping rfl rfl).2 _ _ rfl

end Session

end StreamFusion
