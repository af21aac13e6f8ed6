import StreamFusion.Proofs.Pipeline.Slicing
import StreamFusion.Proofs.Session.Memory
import StreamFusion.Proofs.Session.Numbers
import StreamFusion.Proofs.Session.Running

/-!
# Slices in a session

A slice of a repeatable pipeline gives the elements of the pipeline between its bounds, whatever the
signs of the bounds are and whenever it is asked, if there is room for them (`Session.slices`). A
slice whose bounds count from the start is a range, and asks for as much room as the range lets pass;
over a cursor that may be far more than there are elements (`Session.slices_without_room`).
-/

namespace StreamFusion

variable {α : Type}

namespace Session

/-- A slice is made, and gets its name. -/
theorem execute_slice {s : Session α} {name : String} {p : Pipeline α}
    (hname : s.pipelines.find? name = some p) (new : String) (start : Int) (stop : Option Int) :
    (s.execute (.extend new name (.slice start stop))).reply = .done
      ∧ ∃ q, (s.execute (.extend new name (.slice start stop))).session.pipelines.find? new = some q
        ∧ p.IsSlice start stop q := by
  obtain ⟨q, w, hmake, hslice⟩ := p.slice_ok start stop { s.world with journal := .empty }
  have hexecute : s.execute (.extend new name (.slice start stop)) =
      ⟨.done, w.journal.events, s.withMade new q w⟩ := by
    rw [execute, withPipeline, hname]
    exact perform_bindPipeline hmake new
  rw [hexecute]
  exact ⟨rfl, q, Dictionary.find?_insert_self _ _ _, hslice⟩

/-- What is replied with a list, if there is room for it. -/
theorem reply_toList_of_room {s : Session α} {name : String} {p : Pipeline α} {xs : List α}
    (hname : s.pipelines.find? name = some p) {room : Prop} [Decidable room]
    (h : ∃ w, p.toList { s.world with journal := .empty } =
      if room then .ok xs w else .error .noRoom w) :
    (s.execute (.run name .toList)).reply = if room then .elements xs else .noRoom := by
  obtain ⟨w, hlist⟩ := h
  rw [reply_toList hname, hlist]
  by_cases hroom : room
  · rw [if_pos hroom, if_pos hroom]
  · rw [if_neg hroom, if_neg hroom]
    rfl

/-- However a session came to where it is: a slice of a repeatable pipeline over a source that can
be read again is made, and its bounds mean positions in the list that the pipeline gave, in order.
Whatever is done in the session afterwards, if a bound counts from the end, the slice gives the
elements between its bounds as soon as a list can hold them. If no bound does, this is so for a
segmented pipeline that cannot be refused for its ranges, over a source that has all its elements,
if no callback fails, and a list can hold as many elements as the plan of the slice hints at. In
both cases there is no other reason why there should be no list. -/
theorem slices (commands : List (Command α)) {name : String} {p : Pipeline α} {ys : List α}
    (hname : (initial.after commands).pipelines.find? name = some p)
    (hcontract : p.recipe.config.contract = .repeatable) (hsource : p.source.oneShot? = none)
    (hlist : ((initial.after commands).execute (.run name .toList)).reply = .elements ys)
    (start : Int) (stop : Option Int) (new : String) :
    let s : Session α := initial.after commands
    let made := s.execute (.extend new name (.slice start stop))
    let first := boundPlace ys.length start
    let last := sliceEnd ys.length start stop
    (sliceBounds ys.length start stop = (first, last) ∧ first ≤ last ∧ last ≤ ys.length)
      ∧ made.reply = .done
      ∧ ∃ q, made.session.pipelines.find? new = some q
        ∧ (Pipeline.CountsBack start stop →
          ∀ (further : List (Command α)) (other : String),
            (made.session.after further).pipelines.find? other = some q →
            ((made.session.after further).execute (.run other .toList)).reply =
              if p.recipe.HasRoom (last - first) then .elements (ys.extract first last)
              else .noRoom)
        ∧ (¬ Pipeline.CountsBack start stop → p.recipe.config.FallsBack →
          (∀ op ∈ p.recipe.ops, op.Total) → ∀ xs, p.source.Gives s.world.sources xs →
          ∃ plan, q.recipe.verdict = .ok plan ∧ ∀ (further : List (Command α)) (other : String),
            (made.session.after further).pipelines.find? other = some q →
            ((made.session.after further).execute (.run other .toList)).reply =
              if q.HasRoom plan xs.length then .elements (ys.extract first last)
              else .noRoom) := by
  intro s made first last
  have hplaces : sliceBounds ys.length start stop = (first, last) ∧ first ≤ last
      ∧ last ≤ ys.length :=
    ⟨sliceBounds_eq _ _ _, boundPlace_le_sliceEnd _ _ _, sliceEnd_le _ _ _⟩
  obtain ⟨hdone, q, hq, hslice⟩ := execute_slice hname new start stop
  obtain ⟨ledger, -, hknows⟩ := (knows_initial (α := α)).after commands
  obtain ⟨middle, -, hmade⟩ := hknows.execute (.extend new name (.slice start stop))
  obtain ⟨v, hys⟩ := toList_of_reply hname hlist
  have hentered := hknows.pipelines name p hname
  have hquiet := hknows.world.with_journal .empty
  have hitems : sliceItems ys start stop = ys.extract first last := sliceItems_eq ..
  have hlength : (ys.extract first last).length = last - first := by
    rw [List.extract_eq_take_drop, List.length_take, List.length_drop]
    exact Nat.min_eq_left (Nat.sub_le_sub_right hplaces.2.2 first)
  refine ⟨hplaces, hdone, q, hq, fun hback further other hother => ?_,
    fun hforth hfalls htotal xs hgives => ?_⟩
  · obtain ⟨later, -, hlater⟩ := hmade.after further
    have hroom := hslice.toList_back hentered hquiet hcontract hsource hys
      (hlater.world.with_journal .empty) hback (hlater.pipelines other q hother)
    rw [hitems, hlength] at hroom
    exact reply_toList_of_room hother hroom
  · obtain ⟨plan, hplan⟩ := (hslice.config_eq ▸ hfalls).exists_plan q.recipe.ops
    refine ⟨plan, hplan, fun further other hother => ?_⟩
    obtain ⟨later, -, hlater⟩ := hmade.after further
    have hroom := hslice.toList_forth hentered hquiet hcontract hsource hys
      (hlater.world.with_journal .empty) hforth (hlater.pipelines other q hother) hfalls htotal
      hgives hplan
    rw [hitems] at hroom
    exact reply_toList_of_room hother hroom

/-- The last two odd numbers, and the odd numbers from the second one up to the third one; the first
slice collects the odd numbers, the second one is a range. -/
theorem slices_odd :
    let odd : Op Nat := .filter (.plain fun x => x % 2 == 1) none
    let commands : List (Command Nat) :=
      [.create "p" (.container none (.ofList [0, 1, 2, 3, 4, 5, 6, 7, 8, 9])) 8,
        .extend "baseline" "p" (.op odd), .extend "p" "p" (.config .segmented),
        .extend "segmented" "p" (.op odd)]
    let s : Session Nat := initial.after commands
    let last := s.execute (.extend "q" "baseline" (.slice (-2) none))
    let inner := s.execute (.extend "q" "segmented" (.slice 1 (some 3)))
    (last.session.execute (.run "q" .toList)).reply = .elements [7, 9]
      ∧ (inner.session.execute (.run "q" .toList)).reply = .elements [3, 5] := by
  intro odd commands s last inner
  let numbers : Source Nat :=
    .container ⟨0, none⟩ (.ofList [0, 1, 2, 3, 4, 5, 6, 7, 8, 9])
  have hgives : numbers.Gives s.world.sources [0, 1, 2, 3, 4, 5, 6, 7, 8, 9] :=
    .container (Container.holds_ofList _) nofun
  -- both pipelines give the odd numbers
  have hodd : ∀ {name : String} {recipe : Recipe Nat} {plan : Plan Nat},
      s.pipelines.find? name = some ⟨numbers, recipe⟩ → recipe.verdict = .ok plan →
      plan.onList [0, 1, 2, 3, 4, 5, 6, 7, 8, 9] = some [1, 3, 5, 7, 9] →
      Pipeline.HasRoom ⟨numbers, recipe⟩ plan 10 →
      (s.execute (.run name .toList)).reply = .elements [1, 3, 5, 7, 9] := by
    intro name recipe plan hname hplan hvalue hroom
    have hready : Pipeline.Ready ⟨numbers, recipe⟩ { s.world with journal := .empty }
        [0, 1, 2, 3, 4, 5, 6, 7, 8, 9] := Pipeline.ready_of_unplanned rfl rfl hgives
    obtain ⟨w, hlisted⟩ := Pipeline.toList_of_onList hready hplan hvalue hroom
    rw [reply_toList hname, hlisted]
  have hbaseline : s.pipelines.find? "baseline" =
      some ⟨numbers, ⟨2, [odd], .standard, 8⟩⟩ := rfl
  have hsegmented : s.pipelines.find? "segmented" =
      some ⟨numbers, ⟨4, [odd], .segmented, 8⟩⟩ := rfl
  have htotal : ∀ op ∈ [odd], op.Total :=
    fun op hop => by rw [List.mem_singleton.1 hop]; exact Callback.total_plain _
  constructor
  · obtain ⟨-, -, q, hq, hback, -⟩ := slices commands hbaseline rfl rfl
      (hodd hbaseline rfl (by decide) (by decide)) (-2) none "q"
    exact (hback (.inl (by decide)) [] "q" hq).trans (if_pos (by decide))
  · obtain ⟨-, -, q, hq, -, hforth⟩ := slices commands hsegmented rfl rfl
      (hodd hsegmented rfl (by decide) (by decide)) 1 (some 3) "q"
    obtain ⟨plan, hplan, hinner⟩ :=
      hforth (Pipeline.not_countsBack_natCast 1 (some 3)) ⟨rfl, rfl⟩ htotal _ hgives
    have hq' : q = ⟨numbers, ⟨5, [odd, .range 1 (some 3)], .segmented, 8⟩⟩ :=
      (Option.some.inj hq).symm
    subst hq'
    obtain rfl := Except.ok.inj hplan
    exact (hinner [] "q" hq).trans (if_pos (by decide))

/-- Three elements of a cursor: the pipeline gives all of them, but there is no room for as many as
the slice might have that ends at the largest bound. -/
theorem slices_without_room :
    let commands : List (Command Nat) :=
      [.create "p" (.replay none [some 1, some 2, some 3]) 8, .extend "p" "p" (.config .segmented)]
    let s : Session Nat := initial.after commands
    let made := s.execute (.extend "q" "p" (.slice 0 (some 0x7FFFFFFFFFFFFFFF)))
    (s.execute (.run "p" .toList)).reply = .elements [1, 2, 3]
      ∧ (made.session.execute (.run "q" .toList)).reply = .noRoom := by
  intro commands s made
  let source : Source Nat := .replay ⟨0, none⟩ [some 1, some 2, some 3]
  let p : Pipeline Nat := ⟨source, ⟨2, [], .segmented, 8⟩⟩
  let q : Pipeline Nat := ⟨source, ⟨3, [.range 0 (some 0x7FFFFFFFFFFFFFFF)], .segmented, 8⟩⟩
  have hgives : ∀ sources, source.Gives sources [1, 2, 3] := fun _ => .replay _ _
  have hp : p.Ready { s.world with journal := .empty } [1, 2, 3] :=
    Pipeline.ready_of_unplanned rfl rfl (hgives _)
  have hq : q.Ready { made.session.world with journal := .empty } [1, 2, 3] :=
    Pipeline.ready_of_unplanned rfl rfl (hgives _)
  have hpname : s.pipelines.find? "p" = some p := rfl
  have hqname : made.session.pipelines.find? "q" = some q := rfl
  obtain ⟨w, hlist⟩ := Pipeline.toList_of_onList hp rfl rfl (by decide)
  obtain ⟨w', hlist'⟩ := Pipeline.toList_of_not_hasRoom hq rfl rfl (by decide)
  rw [reply_toList hpname, reply_toList hqname, hlist, hlist']
  exact ⟨rfl, rfl⟩

end Session

end StreamFusion
