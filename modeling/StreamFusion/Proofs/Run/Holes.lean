import StreamFusion.Proofs.Run.Skeletons

/-!
# Holes

A position of a container without an element ends every run that comes to it. A run by position does
not read what it jumps over, so it does not come to a hole there: it hands out what it would hand
out if all positions that it jumps over had elements (`Plan.handsAlike_walk`). A run that walks from
the first position on ends at such a hole, before the leading gate lets anything pass
(`Plan.walk_of_hole`).
-/

namespace StreamFusion

variable {α γ : Type}

namespace Container

/-- The elements from a position on, up to the first hole. -/
def itemsFrom (box : Container α) (position : Nat) : List α :=
  heard ((List.range' position (box.size - position)).map box.get?)

/-- The first positions all have elements. -/
def SolidBelow (box : Container α) (count : Nat) : Prop :=
  ∀ position, position < count → (box.get? position).isSome

instance (box : Container α) (count : Nat) : Decidable (box.SolidBelow count) :=
  inferInstanceAs (Decidable (∀ position, position < count → _))

/-- The containers differ at most at the first positions. -/
structure SameFrom (box other : Container α) (count : Nat) : Prop where
  size_eq : box.size = other.size
  get?_eq : ∀ position, count ≤ position → box.get? position = other.get? position

theorem SameFrom.refl (box : Container α) (count : Nat) : box.SameFrom box count :=
  ⟨rfl, fun _ _ => rfl⟩

variable {box other : Container α} {position count : Nat}

theorem itemsFrom_of_le (h : box.size ≤ position) : box.itemsFrom position = [] := by
  rw [itemsFrom, Nat.sub_eq_zero_of_le h]
  rfl

theorem itemsFrom_of_lt (h : position < box.size) :
    box.itemsFrom position =
      match box.get? position with
      | some x => x :: box.itemsFrom (position + 1)
      | none => [] := by
  obtain ⟨left, hleft⟩ : ∃ left, box.size - position = left + 1 :=
    ⟨box.size - position - 1, by omega⟩
  have hrest : box.size - (position + 1) = left := by omega
  rw [itemsFrom, itemsFrom, hleft, hrest, List.range'_succ, List.map_cons]
  cases box.get? position <;> rfl

/-- Containers that agree from a position on give the same elements from there on. -/
theorem SameFrom.itemsFrom_eq (h : box.SameFrom other count) (hle : count ≤ position) :
    box.itemsFrom position = other.itemsFrom position := by
  rw [itemsFrom, itemsFrom, h.size_eq]
  refine congrArg heard (List.map_congr_left fun n hmem => h.get?_eq n ?_)
  exact Nat.le_trans hle (List.mem_range'_1.1 hmem).1

/-- The first elements of a container are those at its first positions, if these have elements. -/
theorem SolidBelow.drop_itemsFrom (h : box.SolidBelow count) (hle : count ≤ box.size) :
    count ≤ (box.itemsFrom 0).length ∧ (box.itemsFrom 0).drop count = box.itemsFrom count := by
  induction count with
  | zero => exact ⟨Nat.zero_le _, rfl⟩
  | succ count ih =>
    obtain ⟨hlength, hdrop⟩ := ih (fun n hn => h n (Nat.lt_succ_of_lt hn)) (Nat.le_of_succ_le hle)
    obtain ⟨x, hx⟩ := Option.isSome_iff_exists.1 (h count (Nat.lt_succ_self count))
    rw [itemsFrom_of_lt hle, hx] at hdrop
    have hlt : count < (box.itemsFrom 0).length := by
      refine Nat.lt_of_not_le fun hnot => ?_
      rw [List.drop_eq_nil_of_le hnot] at hdrop
      exact absurd hdrop (by simp)
    refine ⟨hlt, ?_⟩
    rw [← List.drop_drop, hdrop]
    rfl

/-- Nothing behind a hole is given. -/
theorem length_itemsFrom_le (h : box.get? count = none) (hle : position ≤ count) :
    (box.itemsFrom position).length ≤ count - position := by
  induction hleft : count - position generalizing position with
  | zero =>
    have hsame : position = count := by omega
    subst hsame
    by_cases hlt : position < box.size
    · rw [itemsFrom_of_lt hlt, h]
      exact Nat.le_refl 0
    · rw [itemsFrom_of_le (Nat.not_lt.1 hlt)]
      exact Nat.le_refl 0
  | succ left ih =>
    by_cases hlt : position < box.size
    · rw [itemsFrom_of_lt hlt]
      cases box.get? position with
      | none => exact Nat.zero_le _
      | some x =>
        have hrest : (box.itemsFrom (position + 1)).length ≤ count - (position + 1) := by
          rw [show count - (position + 1) = left by omega]
          exact ih (by omega) (by omega)
        rw [List.length_cons]
        omega
    · rw [itemsFrom_of_le (Nat.not_lt.1 hlt)]
      exact Nat.zero_le _

end Container

/-- Pulling from a container gives its elements up to the first hole. -/
theorem Intake.yields_from (source : Ident) (box : Container α) (position : Nat) :
    (shelf source box position).Yields (box.itemsFrom position) := by
  induction hleft : box.size - position generalizing position with
  | zero =>
    have hle : box.size ≤ position := Nat.le_of_sub_eq_zero hleft
    rw [Container.itemsFrom_of_le hle]
    exact .nothing (by rw [pull, if_neg (Nat.not_lt.2 hle)])
  | succ left ih =>
    have hlt : position < box.size := by omega
    rw [Container.itemsFrom_of_lt hlt]
    cases hread : box.get? position with
    | none => exact .nothing (by rw [pull, if_pos hlt, hread])
    | some x => exact .item (by rw [pull, if_pos hlt, hread]) (ih (position + 1) (by omega))

/-- A container that is walked position by position. -/
def Opened.walk (source : Ident) (box : Container α) : Opened α := .sequential (.shelf source box 0)

theorem Opened.feeds_walk (plan : Plan α) (source : Ident) (box : Container α) :
    (Opened.walk source box).Feeds plan (box.itemsFrom 0) :=
  feeds_sequential (Intake.yields_from source box 0)

theorem Plan.jumped_le (plan : Plan α) (size : Nat) : plan.jumped size ≤ size := by
  rw [plan.jumped_eq]
  exact Nat.min_le_right ..

/-- Reading by position gives what a container without holes at the positions that are jumped over
would give. -/
theorem Opened.feeds_solid {plan : Plan α} (source : Ident) {box other : Container α}
    (hsame : box.SameFrom other (plan.jumped box.size))
    (hsolid : other.SolidBelow (plan.jumped box.size)) :
    (Opened.indexed source box).Feeds plan (other.itemsFrom 0) := by
  have hle : plan.jumped box.size ≤ other.size := hsame.size_eq ▸ plan.jumped_le box.size
  obtain ⟨hlength, hdrop⟩ := hsolid.drop_itemsFrom hle
  refine ⟨hlength, ?_⟩
  show (Intake.shelf source box (plan.jumped box.size)).Yields
    ((other.itemsFrom 0).drop (plan.jumped box.size))
  rw [hdrop, ← hsame.itemsFrom_eq (Nat.le_refl _)]
  exact Intake.yields_from source box _

namespace Plan

variable {plan : Plan α} {box other : Container α}

/-- A run by position hands out what a walk through a container without holes at the positions that
are jumped over hands out. -/
theorem handsAlike_walk (hsame : box.SameFrom other (plan.jumped box.size))
    (hsolid : other.SolidBelow (plan.jumped box.size)) (sink : Sink α γ) (seed : γ)
    (source : Ident) :
    plan.HandsAlike sink seed (.indexed source box) (.walk source other)
      ∧ (plan.run sink seed (.indexed source box)).GoesWith
        (plan.run sink seed (.walk source other)) plan.leadingSkip box.size := by
  have hread : (Opened.indexed source box).Feeds plan (other.itemsFrom 0) :=
    Opened.feeds_solid source hsame hsolid
  exact ⟨handsAlike_of_feeds hread (Opened.feeds_walk plan source other) (.shelf ..) (.shelf ..)
      sink seed,
    goesWith_of_feeds hread (Intake.yields_from source other 0) sink seed⟩

/-- A list of no more elements than the leading gate drops is drained without handing anything
out. -/
theorem drainList_dropped (sink : Sink α γ) (seed : γ) {xs : List α}
    (h : xs.length ≤ plan.leadingSkip) :
    (plan.drainList sink seed xs).state.acc = seed
      ∧ (plan.drainList sink seed xs).state.counters.emitted = 0
      ∧ (plan.drainList sink seed xs).ending = .exhausted := by
  have hempty : ∀ (scanned : Nat) (s : RunState α γ),
      drainIntake plan sink (.owned []) scanned s = ⟨s, .owned [], scanned, .exhausted⟩ :=
    fun scanned s => plan.drainIntake_eq sink (.owned []) scanned s
  rw [drainList]
  cases hgate : plan.leadingGate with
  | none =>
    have hnone : xs = [] := by
      rw [leadingSkip, hgate] at h
      exact List.eq_nil_of_length_eq_zero (Nat.le_zero.1 h)
    rw [hnone, hempty]
    exact ⟨rfl, rfl, rfl⟩
  | some number =>
    have hskip : xs.length ≤ (plan.start.window number).skip := by
      rw [leadingSkip, hgate] at h
      exact h
    rw [drain_jump hgate sink (s := ⟨plan.start, seed, .empty⟩) rfl hskip (Nat.le_refl _) 0,
      List.drop_length, hempty]
    exact ⟨rfl, rfl, rfl⟩

/-- A walk ends at a hole among the positions that a run by position jumps over, and hands out
nothing. -/
theorem walk_of_hole (sink : Sink α γ) (seed : γ) (source : Ident) {hole : Nat}
    (hlt : hole < plan.jumped box.size) (hhole : box.get? hole = none) :
    plan.handed sink seed (.walk source box) = []
      ∧ (plan.run sink seed (.walk source box)).acc = seed
      ∧ ∃ stats, (plan.run sink seed (.walk source box)).result = .ok stats
        ∧ stats.emitted = 0 := by
  have hshort : (box.itemsFrom 0).length ≤ plan.leadingSkip := by
    have hlength := Container.length_itemsFrom_le hhole (Nat.zero_le hole)
    have hjumped : plan.jumped box.size ≤ plan.leadingSkip := by
      rw [plan.jumped_eq]
      exact Nat.min_le_left ..
    omega
  have hfeeds := Opened.feeds_walk plan source box
  obtain ⟨hacc, hemitted, hending⟩ := drainList_dropped sink seed hshort
  obtain ⟨-, hrun, hresult⟩ := hfeeds.tells sink seed
  refine ⟨?_, hrun.trans hacc, ?_⟩
  · have hkept := (hfeeds.tells sink.logged (seed, [])).acc_eq
    rw [handed, hkept, (drainList_dropped sink.logged (seed, []) hshort).1]
    rfl
  · rw [hending] at hresult
    exact ⟨_, hresult, hemitted⟩

end Plan

end StreamFusion
