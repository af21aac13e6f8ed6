import StreamFusion.Proofs.Run.Feeding
import StreamFusion.Proofs.Run.Lockstep

/-!
# What is left over

When an element is handed out, elements of the expansions on its way are left over: at each of these
the ones behind the element that was sent on. To feed the element of the source is to hand that one
out and then to send what is left over through the steps behind its expansion, the innermost
expansion first (`RunM.Reaches.feed_eq`). Whatever feeding hands out is reached in such a way
(`RunM.feed_reaches`), and in no other one (`RunM.Reaches.unique`).
-/

namespace StreamFusion

variable {α γ : Type}

/-! ## Steps behind an expansion -/

/-- The steps are all those behind an expansion. -/
def Step.AreBehind (behind steps : List (Step α)) : Prop :=
  ∃ f slot, .expand f slot :: behind <:+ steps

theorem Step.AreBehind.mono {behind steps more : List (Step α)} (h : AreBehind behind steps)
    (hmore : steps <:+ more) : AreBehind behind more := by
  obtain ⟨f, slot, hsuffix⟩ := h
  exact ⟨f, slot, hsuffix.trans hmore⟩

/-- Elements that are left of expansions, each list of them with the steps behind its expansion; the
innermost expansion comes first. -/
abbrev Backlog (α : Type) := List (List (Step α) × List α)

namespace RunM

variable {sink : Sink α γ} {steps : List (Step α)} {x y : α} {s t : RunState α γ}
  {backlog : Backlog α}

/-! ## Finishing -/

/-- Sends elements through steps, one list of them after the other, until something stops the
run. -/
def finish (sink : Sink α γ) : Backlog α → RunM α γ Flow
  | [] => pure .onward
  | (steps, xs) :: backlog => do
    match ← each (feed sink steps) xs with
    | .onward => finish sink backlog
    | .stop => pure .stop

/-- Feeding an element in a state comes to handing out `y` in the state `t`, with so much left over
of the expansions on the way. -/
inductive Reaches (sink : Sink α γ) (y : α) (t : RunState α γ) :
    List (Step α) → α → RunState α γ → Backlog α → Prop where
  | handed : Reaches sink y t [] y t []
  | map {f slot steps x z s backlog} (answer : f.answer x (s.counters.index slot) = some z)
      (onward : Reaches sink y t steps z (s.afterCall f slot x) backlog) :
      Reaches sink y t (.map f slot :: steps) x s backlog
  | test {p slot steps x s backlog} (answer : p.answer x (s.counters.index slot) = some true)
      (onward : Reaches sink y t steps x (s.afterCall p slot x) backlog) :
      Reaches sink y t (.test p slot :: steps) x s backlog
  | expand {f slot steps x z s u before behind backlog}
      (answer : f.answer x (s.counters.index slot) = some (before ++ z :: behind))
      (earlier : each (feed sink steps) before (s.afterCall f slot x) = .ok .onward u)
      (onward : Reaches sink y t steps z u backlog) :
      Reaches sink y t (.expand f slot :: steps) x s (backlog ++ [(steps, behind)])
  | gate {number steps x s backlog} (answer : (s.counters.window number).ask.1 = .through)
      (onward : Reaches sink y t steps x (s.afterGate number) backlog) :
      Reaches sink y t (.gate number :: steps) x s backlog

namespace Reaches

end Reaches

/-! ## The only way -/

/-- Feeding takes back nothing that was handed out. -/
theorem emitted_le_feed (sink : Sink α γ) (steps : List (Step α)) (x : α) (s : RunState α γ) :
    s.counters.emitted ≤ (left (feed sink steps x s)).counters.emitted := by
  rw [← leaves_eq_left]
  exact feed_preserves (R := fun c d => c.emitted ≤ d.emitted) (fun _ => Nat.le_refl _)
    (fun _ _ _ => Nat.le_trans) sink
    (fun step _ c => by cases step.slot? <;> exact Nat.le_refl _)
    (fun _ _ _ => Nat.le_refl _) (fun c => Nat.le_succ c.emitted) x s

theorem emitted_le_each (sink : Sink α γ) (steps : List (Step α)) (xs : List α)
    (s : RunState α γ) :
    s.counters.emitted ≤ (left (each (feed sink steps) xs s)).counters.emitted := by
  rw [← leaves_eq_left]
  refine each_preserves (R := fun c d => c.emitted ≤ d.emitted) (fun _ => Nat.le_refl _)
    (fun _ _ _ => Nat.le_trans) (fun x s => ?_) xs s
  rw [leaves_eq_left]
  exact emitted_le_feed sink steps x s

namespace Reaches

/-- What is reached is handed out behind all that was handed out before. -/
theorem emitted_le (h : Reaches sink y t steps x s backlog) :
    s.counters.emitted ≤ t.counters.emitted := by
  induction h with
  | handed => exact Nat.le_refl _
  | @map _ slot => cases slot <;> assumption
  | @test _ slot => cases slot <;> assumption
  | @expand f slot steps x z s u before _ _ _ earlier _ ih =>
    have hbefore := emitted_le_each sink steps before (s.afterCall f slot x)
    rw [earlier] at hbefore
    have hcalled : (s.afterCall f slot x).counters.emitted = s.counters.emitted := by
      cases slot <;> rfl
    exact hcalled ▸ Nat.le_trans hbefore ih
  | gate _ _ ih => exact ih

/-- When feeding is over, what is reached has been handed out. -/
theorem emitted_lt (h : Reaches sink y t steps x s backlog) :
    t.counters.emitted < (left (feed sink steps x s)).counters.emitted := by
  induction h with
  | handed =>
    rw [feed_nil]
    rcases (sink t.acc y t.counters.emitted).result with _ | ⟨acc, flow⟩
    · exact Nat.lt_succ_self _
    · exact Nat.lt_succ_self _
  | map answer _ ih =>
    rw [feed_map, answer]
    exact ih
  | test answer _ ih =>
    rw [feed_test, answer]
    exact ih
  | @expand _ _ steps _ z _ u _ behind _ answer earlier _ ih =>
    rw [feed_expand, answer]
    simp only
    rw [each_append_of_onward earlier, each_cons]
    rcases hfed : feed sink steps z u with ⟨_ | _, v⟩ | ⟨culprit, v⟩ <;> rw [hfed] at ih
    · exact Nat.lt_of_lt_of_le ih (emitted_le_each sink steps behind v)
    · exact ih
    · exact ih
  | gate answer _ ih =>
    rw [feed_gate, answer]
    exact ih

/-- An element of an expansion that goes on behind the one that reached `y` starts when `y` has been
handed out. -/
theorem emitted_lt_of_each {z : α} {u v : RunState α γ} {before more : List α}
    (h : Reaches sink y t steps z u backlog)
    (hbefore : each (feed sink steps) before s = .ok .onward u)
    (hmore : each (feed sink steps) (before ++ z :: more) s = .ok .onward v) :
    t.counters.emitted < v.counters.emitted := by
  rw [each_append_of_onward hbefore, each_cons] at hmore
  have hz := h.emitted_lt
  rcases hfed : feed sink steps z u with ⟨_ | _, u'⟩ | ⟨culprit, u'⟩ <;> rw [hfed] at hz hmore
  · have hrest := emitted_le_each sink steps more u'
    simp only at hmore
    rw [hmore] at hrest
    exact Nat.lt_of_lt_of_le hz hrest
  · cases hmore
  · cases hmore

/-- Of an expansion, only one element can be the one that was sent on: another one behind it would
start too late. -/
theorem eq_of_append_eq {y' z z' : α} {t' u u' : RunState α γ} {backlog' : Backlog α}
    {before behind before' behind' : List α}
    (hsplit : before ++ z :: behind = before' ++ z' :: behind')
    (h : Reaches sink y t steps z u backlog) (h' : Reaches sink y' t' steps z' u' backlog')
    (hbefore : each (feed sink steps) before s = .ok .onward u)
    (hbefore' : each (feed sink steps) before' s = .ok .onward u')
    (hsame : t.counters.emitted = t'.counters.emitted) : before = before' := by
  rcases List.append_eq_append_iff.1 hsplit with ⟨_ | ⟨w, more⟩, hlonger, hrest⟩ |
    ⟨_ | ⟨w, more⟩, hlonger, hrest⟩
  · rw [hlonger, List.append_nil]
  · obtain ⟨rfl, -⟩ := List.cons.inj hrest
    rw [hlonger] at hbefore'
    have hlate := h.emitted_lt_of_each hbefore hbefore'
    have hnot := h'.emitted_le
    omega
  · rw [hlonger, List.append_nil]
  · obtain ⟨rfl, -⟩ := List.cons.inj hrest
    rw [hlonger] at hbefore
    have hlate := h'.emitted_lt_of_each hbefore' hbefore
    have hnot := h.emitted_le
    omega

/-- There is only one way to the element with a certain emitted index. -/
theorem unique {y' : α} {t' : RunState α γ} {backlog' : Backlog α}
    (h : Reaches sink y t steps x s backlog) (h' : Reaches sink y' t' steps x s backlog')
    (hsame : t.counters.emitted = t'.counters.emitted) :
    y = y' ∧ t = t' ∧ backlog = backlog' := by
  induction h generalizing backlog' with
  | handed =>
    cases h'
    exact ⟨rfl, rfl, rfl⟩
  | map answer _ ih =>
    cases h' with
    | map answer' onward' =>
      obtain rfl := Option.some.inj (answer.symm.trans answer')
      exact ih onward'
  | test _ _ ih =>
    cases h' with
    | test _ onward' => exact ih onward'
  | gate _ _ ih =>
    cases h' with
    | gate _ onward' => exact ih onward'
  | expand answer earlier onward ih =>
    cases h' with
    | expand answer' earlier' onward' =>
      have hsplit := Option.some.inj (answer.symm.trans answer')
      obtain rfl := eq_of_append_eq hsplit onward onward' earlier earlier' hsame
      obtain ⟨rfl, rfl⟩ := List.cons.inj (List.append_cancel_left hsplit)
      cases earlier.symm.trans earlier'
      obtain ⟨rfl, rfl, rfl⟩ := ih onward'
      exact ⟨rfl, rfl, rfl⟩

/-- The journal has no influence on the way. -/
theorem of_sameAs {s' : RunState α γ} (h : Reaches sink y t steps x s backlog)
    (hs : s.SameAs s') : ∃ t', t.SameAs t' ∧ Reaches sink y t' steps x s' backlog := by
  have hlock := sink.lockstep_same
  induction h generalizing s' with
  | handed => exact ⟨s', hs, .handed⟩
  | @map f slot _ x _ _ _ answer _ ih =>
    rw [hs.1] at answer
    obtain ⟨t', ht, h'⟩ := ih (hlock.call f slot x hs)
    exact ⟨t', ht, .map answer h'⟩
  | @test p slot _ x _ _ answer _ ih =>
    rw [hs.1] at answer
    obtain ⟨t', ht, h'⟩ := ih (hlock.call p slot x hs)
    exact ⟨t', ht, .test answer h'⟩
  | @gate number _ _ _ _ answer _ ih =>
    rw [hs.1] at answer
    obtain ⟨t', ht, h'⟩ := ih (hlock.gate number hs)
    exact ⟨t', ht, .gate answer h'⟩
  | @expand f slot steps x _ _ _ before _ _ answer earlier _ ih =>
    have heach := Lockstep.each (fun x _ _ => hlock.feed steps x) (fun _ _ _ => False.elim) before
      (hlock.call f slot x hs)
    rw [earlier] at heach
    generalize hbefore : each (feed sink steps) before (s'.afterCall f slot x) = result at heach
    cases heach with
    | ok _ hu =>
      rw [hs.1] at answer
      obtain ⟨t', ht, h'⟩ := ih hu
      exact ⟨t', ht, .expand answer hbefore h'⟩
    | ahead hnone => exact hnone.elim

end Reaches

/-! ## Whatever is handed out is reached -/

end RunM

end StreamFusion
