import StreamFusion.Proofs.Pipeline.Cutting
import StreamFusion.Proofs.Session.Memory
import StreamFusion.Proofs.Session.Running

/-!
# Linked pipelines in a session

Nobody can tell whether a callback is a transform in the middle of a segmented pipeline or a link
between two pipelines: terminals get the same reply, and the same happens to the cursor at the
bottom (`Session.links_unnoticed`). A pipeline that flattens what another one gives answers like a
pipeline over the items. Only lists may tell: a link hides the limits below it from the pipeline
above, so of two such pipelines one may ask for more room than there is
(`Session.links_unnoticed_without_room`).
-/

namespace StreamFusion

variable {α : Type}

namespace Session

section Rooms

variable {s : Session α} {name other : String} {p q : Pipeline α}

/-- There is no room for the list of the pipeline of this name; or it is not opened at all, like
that of the other name. -/
def GivesNoList (s : Session α) (name other : String) : Prop :=
  (s.execute (.run name .toList)).reply = .noRoom
    ∨ ∃ halt, (s.execute (.run name .toList)).reply = haltReply halt
      ∧ (s.execute (.run other .toList)).reply = haltReply halt

theorem givesNoList_of_overflows (hname : s.pipelines.find? name = some p)
    (hother : s.pipelines.find? other = some q) {W : World α → World α → Prop}
    {R : Option (Plan α × Opened α) → Option (Plan α × Opened α) → Prop}
    (h : Act.EndTogether W R (p.begin { s.world with journal := .empty })
      (q.begin { s.world with journal := .empty })) {hint : Option Nat}
    (hstarted : ∀ started started', R started started' → p.recipe.StartedWith hint started)
    (hover : p.recipe.Overflows hint) : s.GivesNoList name other := by
  obtain ⟨halt, v, hlist, rfl | ⟨v', hlist'⟩⟩ := Pipeline.toList_of_overflows h hstarted hover
  · left
    rw [reply_toList hname, hlist]
    rfl
  · right
    refine ⟨halt, ?_, ?_⟩
    · rw [reply_toList hname, hlist]
    · rw [reply_toList hother, hlist']

/-- Pipelines begin alike for a terminal if they do for runs, and none of them is short of room. -/
theorem alikeFor_of_started {N : List (Event α) → List (Event α) → Prop} {terminal : Terminal α}
    {started started' : Option (Plan α × Opened α)} (halike : StartedAlike N started started')
    {hint hint' : Option Nat} (hstarted : p.recipe.StartedWith hint started)
    (hstarted' : q.recipe.StartedWith hint' started')
    (hroom : terminal = .toList → ¬ p.recipe.Overflows hint ∧ ¬ q.recipe.Overflows hint') :
    AlikeFor N terminal p q started started' :=
  ⟨halike, fun hlist => .inl
    ⟨hstarted.roomFor_iff.2 (hroom hlist).1, hstarted'.roomFor_iff.2 (hroom hlist).2⟩⟩

end Rooms

/-- A segmented pipeline that cannot be refused for its ranges may be cut in two at a transform that
takes no index, if no callback of it fails. However a session came to where it is, every terminal
gets the same reply from the pipeline and from the two linked ones, unless it asks for a list and
one of the two has more to make room for than a list can hold; and the same happens to every cursor,
which so is pulled as often and left in the same state. A pipeline that reads the items of the
elements of another one gives every terminal the reply of a pipeline that does the same operations
to the items of what the operations of the other one make, with the same exception. In both cases, a
pipeline without room gives no list. -/
theorem links_unnoticed (commands : List (Command α)) :
    let s : Session α := initial.after commands
    (∀ {name name' : String} {p q : Pipeline α} {f : Callback α α} {before behind : List (Op α)},
        s.pipelines.find? name = some p → s.pipelines.find? name' = some q →
        q.IsCut p f before behind → p.source.readsAs = .sequential → f.indexed = false →
        (∀ op ∈ before, op.Total) → (∀ op ∈ Op.transform f :: behind, op.Total) →
        (q.Unclaimed s.world ↔ p.Unclaimed s.world) →
        (∀ terminal : Terminal α,
          (terminal = .toList → ¬ q.recipe.Overflows none ∧ ¬ p.recipe.Overflows none) →
          (s.execute (.run name' terminal)).reply = (s.execute (.run name terminal)).reply
            ∧ SameCursors (s.execute (.run name' terminal)).events
              (s.execute (.run name terminal)).events)
          ∧ (q.recipe.Overflows none → s.GivesNoList name' name)
          ∧ (p.recipe.Overflows none → s.GivesNoList name name'))
      ∧ ∀ {name : String} {q : Pipeline α} {id : Ident} {items : α → List α} {base : Source α}
          {first : Recipe α} {xs : List α},
          s.pipelines.find? name = some q → q.source = .derived id (.flatten items) base first →
          first.config.FallsBack → q.recipe.config.FallsBack → (∀ op ∈ first.ops, op.Total) →
          base.Gives s.world.sources xs →
          ∃ ys, Op.allOnList first.ops xs = some ys ∧
            ∀ {name' : String} {p : Pipeline α}, s.pipelines.find? name' = some p →
              p.recipe.ops = q.recipe.ops → p.recipe.config.FallsBack →
              p.source.Gives s.world.sources (ys.flatMap items) →
              (q.Unclaimed s.world ↔ p.Unclaimed s.world) →
              let hint := p.source.lengthHint (ys.flatMap items).length
              (∀ terminal : Terminal α,
                (terminal = .toList → ¬ q.recipe.Overflows none ∧ ¬ p.recipe.Overflows hint) →
                (s.execute (.run name terminal)).reply =
                  (s.execute (.run name' terminal)).reply)
              ∧ (q.recipe.Overflows none → s.GivesNoList name name')
              ∧ (p.recipe.Overflows hint → s.GivesNoList name' name) := by
  intro s
  obtain ⟨ledger, -, hknows⟩ := (knows_initial (α := α)).after commands
  have hquiet := hknows.world.with_journal .empty
  constructor
  · intro name name' p q f before behind hname hname' h hreads hf hbefore hbehind hclaims
    have hbegin := h.begin (hknows.pipelines name p hname) (hknows.pipelines name' q hname') hreads
      hf hbefore hbehind hquiet hclaims
    refine ⟨fun terminal hroom => ?_,
      givesNoList_of_overflows hname' hname hbegin fun _ _ h => h.2.1,
      givesNoList_of_overflows hname hname' hbegin.swap fun _ _ h => h.2.2⟩
    obtain ⟨hreply, w, w', hw, hevents, hevents'⟩ :=
      execute_run_together World.admits_abreast hname' hname
        (hbegin.imp fun _ _ h => alikeFor_of_started h.1 h.2.1 h.2.2 hroom)
    refine ⟨hreply, ?_⟩
    rw [hevents, hevents']
    exact hw.cursors
  · intro name q id items base first xs hname hsource hfalls hfalls' htotal hgives
    obtain ⟨ys, hys⟩ := Op.allOnList_total htotal xs
    refine ⟨ys, hys, fun {name' p} hname' hops hfalls'' hgives' hclaims => ?_⟩
    obtain ⟨plan, hplan⟩ := hfalls.exists_plan first.ops
    have hmakes : first.Makes xs ys :=
      ⟨plan, hplan, onList_of_segmented hfalls.rangeMode_eq hplan hys⟩
    have hflattened : q.source.Gives s.world.sources (ys.flatMap items) := by
      rw [hsource]
      exact .flattened hgives hmakes
    have hhint : q.source.lengthHint (ys.flatMap items).length = none := by
      rw [hsource]
      rfl
    obtain ⟨last, hlast⟩ := hfalls'.exists_plan q.recipe.ops
    have hlast' : p.recipe.verdict = .ok last := by
      rw [Recipe.verdict, hops, hfalls''.verdict, ← hfalls'.verdict]
      exact hlast
    have hbegin := Pipeline.begin_of_gives (hknows.pipelines name q hname)
      (hknows.pipelines name' p hname') hquiet hflattened hgives' hlast hlast' hclaims
    refine ⟨fun terminal hroom => ?_,
      givesNoList_of_overflows hname hname' hbegin fun _ _ h => hhint ▸ h.2.1,
      givesNoList_of_overflows hname' hname hbegin.swap fun _ _ h => h.2.2⟩
    exact (execute_run_together World.admits_anything hname hname' (hbegin.imp
      fun _ _ h => alikeFor_of_started h.1 (hhint ▸ h.2.1) h.2.2 hroom)).1

/-- Doubled numbers, multiplied, with a limit behind that is met between two equal numbers; and the
doubled numbers as often as they say, against a list of them. -/
theorem links_unnoticed_doubled :
    let tenfold : Callback Nat Nat := .plain (· * 10)
    let doubling : Op Nat := .flatten (.plain fun x => [x, x])
    let doubled : List (Command Nat) :=
      [.create "p" (.replay none [some 1, some 2]) 8, .extend "p" "p" (.config .segmented),
        .extend "p" "p" (.op doubling)]
    let s : Session Nat := initial.after (doubled ++
      [.extend "q" "p" (.link (.map tenfold) 8), .extend "q" "q" (.op (.range 0 (some 3))),
        .extend "p" "p" (.op (.transform tenfold)), .extend "p" "p" (.op (.range 0 (some 3)))])
    let s' : Session Nat := initial.after (doubled ++
      [.extend "q" "p" (.link (.flatten fun x => List.replicate x x) 8),
        .create "p" (.container none (.ofList [1, 1, 2, 2, 2, 2])) 8,
        .extend "p" "p" (.config .segmented)])
    ((s.execute (.run "q" .toList)).reply = (s.execute (.run "p" .toList)).reply
        ∧ SameCursors (s.execute (.run "q" .toList)).events
          (s.execute (.run "p" .toList)).events)
      ∧ (s'.execute (.run "q" .count)).reply = (s'.execute (.run "p" .count)).reply := by
  intro tenfold doubling doubled s s'
  have hdoubling : ∀ op ∈ [doubling], op.Total :=
    fun op hop => by rw [List.mem_singleton.1 hop]; exact Callback.total_plain _
  have hbehind : ∀ op ∈ [Op.transform tenfold, .range 0 (some 3)], op.Total :=
    List.forall_mem_cons.2 ⟨Callback.total_plain _, List.forall_mem_cons.2 ⟨trivial, nofun⟩⟩
  have hsegmented : Config.segmented.FallsBack := ⟨rfl, rfl⟩
  let numbers : Source Nat := .replay ⟨0, none⟩ [some 1, some 2]
  constructor
  · let q : Pipeline Nat :=
      ⟨.derived ⟨5, none⟩ (.map tenfold) numbers ⟨4, [doubling], .segmented, 8⟩,
        ⟨7, [.range 0 (some 3)], .segmented, 8⟩⟩
    let p : Pipeline Nat :=
      ⟨numbers, ⟨9, [doubling, .transform tenfold, .range 0 (some 3)], .segmented, 8⟩⟩
    have hq : s.pipelines.find? "q" = some q := rfl
    have hp : s.pipelines.find? "p" = some p := rfl
    have h : q.IsCut p tenfold [doubling] [.range 0 (some 3)] :=
      ⟨rfl, rfl, ⟨_, _, rfl, rfl, rfl, rfl⟩, hsegmented, hsegmented⟩
    have hplan : p.recipe.verdict = .ok (Draft.ofOps .segmented p.recipe.ops).toPlan := rfl
    have hplan' : q.recipe.verdict = .ok (Draft.ofOps .segmented q.recipe.ops).toPlan := rfl
    have hroom : ¬ q.recipe.Overflows none ∧ ¬ p.recipe.Overflows none := by
      rw [Recipe.overflows_iff hplan', Recipe.overflows_iff hplan]
      decide
    exact ((links_unnoticed _).1 hp hq h rfl rfl hdoubling hbehind
      ⟨fun _ => nofun, fun _ => nofun⟩).1 .toList fun _ => hroom
  · let first : Recipe Nat := ⟨4, [doubling], .segmented, 8⟩
    let q : Pipeline Nat :=
      ⟨.derived ⟨5, none⟩ (.flatten fun x => List.replicate x x) numbers first,
        ⟨6, [], .segmented, 8⟩⟩
    let p : Pipeline Nat :=
      ⟨.container ⟨7, none⟩ (.ofList [1, 1, 2, 2, 2, 2]), ⟨9, [], .segmented, 8⟩⟩
    have hq : s'.pipelines.find? "q" = some q := rfl
    have hp : s'.pipelines.find? "p" = some p := rfl
    have hgives : numbers.Gives s'.world.sources [1, 2] := .replay _ _
    have hlisted : p.source.Gives s'.world.sources [1, 1, 2, 2, 2, 2] :=
      .container (Container.holds_ofList _) nofun
    have hdoubled : Op.allOnList [doubling] [1, 2] = some [1, 1, 2, 2] := rfl
    obtain ⟨ys, hys, hsame⟩ := (links_unnoticed _).2 hq rfl hsegmented hsegmented hdoubling hgives
    obtain rfl : [1, 1, 2, 2] = ys := Option.some.inj (hdoubled.symm.trans hys)
    exact (hsame hp rfl hsegmented hlisted ⟨fun _ => nofun, fun _ => nofun⟩).1 .count nofun

/-- A limit behind a cursor is the largest one. If a callback is linked to it, the elements are
listed; if it is a transform, there is no room for as many as the limit allows. -/
theorem links_unnoticed_without_room :
    let limited : List (Command Nat) :=
      [.create "p" (.replay none [some 1, some 2, some 3]) 8, .extend "p" "p" (.config .segmented),
        .extend "p" "p" (.op (.range 0 (some maxCount)))]
    let s : Session Nat := initial.after (limited ++
      [.extend "q" "p" (.link (.map (.plain id)) 8),
        .extend "p" "p" (.op (.transform (.plain id)))])
    (∃ q p : Pipeline Nat, s.pipelines.find? "q" = some q ∧ s.pipelines.find? "p" = some p
        ∧ q.IsCut p (.plain id) [.range 0 (some maxCount)] [])
      ∧ (s.execute (.run "q" .toList)).reply = .elements [1, 2, 3]
      ∧ (s.execute (.run "p" .toList)).reply = .noRoom := by
  intro limited s
  let source : Source Nat := .replay ⟨0, none⟩ [some 1, some 2, some 3]
  let first : Recipe Nat := ⟨4, [.range 0 (some maxCount)], .segmented, 8⟩
  let q : Pipeline Nat := ⟨.derived ⟨5, none⟩ (.map (.plain id)) source first,
    ⟨6, [], .segmented, 8⟩⟩
  let p : Pipeline Nat :=
    ⟨source, ⟨7, [.range 0 (some maxCount), .transform (.plain id)], .segmented, 8⟩⟩
  have hqname : s.pipelines.find? "q" = some q := rfl
  have hpname : s.pipelines.find? "p" = some p := rfl
  have hsegmented : Config.segmented.FallsBack := ⟨rfl, rfl⟩
  have hcut : q.IsCut p (.plain id) [.range 0 (some maxCount)] [] :=
    ⟨rfl, rfl, ⟨_, _, rfl, rfl, hsegmented⟩, hsegmented, hsegmented⟩
  have hgives : source.Gives s.world.sources [1, 2, 3] := .replay _ _
  have hlinked : q.source.Gives s.world.sources [1, 2, 3] :=
    .mapped hgives ⟨_, rfl, rfl⟩ (.cons rfl (.cons rfl (.cons rfl .nil)))
  obtain ⟨ledger, -, hknows⟩ := (knows_initial (α := Nat)).after _
  have hquiet := hknows.world.with_journal .empty
  have hq : q.Ready { s.world with journal := .empty } [1, 2, 3] :=
    Pipeline.ready_of_entered (hknows.pipelines "q" q hqname) hquiet rfl hlinked
  have hp : p.Ready { s.world with journal := .empty } [1, 2, 3] :=
    Pipeline.ready_of_entered (hknows.pipelines "p" p hpname) hquiet rfl hgives
  obtain ⟨w, hlist⟩ := Pipeline.toList_of_onList hq rfl rfl (by decide)
  obtain ⟨w', hlist'⟩ := Pipeline.toList_of_not_hasRoom hp rfl rfl (by decide)
  refine ⟨⟨q, p, hqname, hpname, hcut⟩, ?_⟩
  rw [reply_toList hqname, reply_toList hpname, hlist, hlist']
  exact ⟨rfl, rfl⟩

end Session

end StreamFusion
