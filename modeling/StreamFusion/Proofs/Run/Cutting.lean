import StreamFusion.Proofs.Run.Joining
import StreamFusion.Proofs.Run.Totality

/-!
# Cutting a plan in two

A plan can be cut between two steps: the first part collects what comes out for one element, and the
second part is then fed what was collected. If no callback fails, that comes to what feeding the
element to the whole plan comes to (`Plan.IsCut.feed`), although the parts work in another
order: the whole plan hands every element on before it makes the next one. Where the second part has
had enough, the first part has collected more than the whole plan made.
-/

namespace StreamFusion

variable {α γ : Type}

namespace RunM

variable {sink : Sink α γ} {body : α → RunM α γ Flow}

theorem each_append_of_ended {xs : List α} {s : RunState α γ}
    {result : EStateM.Result α (RunState α γ) Flow} (h : each body xs s = result)
    (hended : ∀ s', result ≠ .ok .onward s') (ys : List α) : each body (xs ++ ys) s = result := by
  rw [each_append, h]
  rcases result with ⟨_ | _, s'⟩ | ⟨culprit, s'⟩
  · exact absurd rfl (hended s')
  · rfl
  · rfl

/-! ## One element -/

/-- How collecting by the first part ends, and how feeding the whole plan ends, if the second part
does `body` for what is collected and starts in `start`: alike, where the second part takes all that
was collected; or the whole plan ends as the second part does, which takes no more. -/
inductive CutEnds (body : α → RunM α γ Flow) (start : RunState α γ) :
    EStateM.Result α (RunState α (List α)) Flow → EStateM.Result α (RunState α γ) Flow → Prop where
  | alike (flow : Flow) {a : RunState α (List α)} {s t : RunState α γ}
      (taken : each body a.acc.reverse start = .ok .onward s)
      (joined : (s.behind a.counters).SameAs t) : CutEnds body start (.ok flow a) (.ok flow t)
  | ended (flow : Flow) {a : RunState α (List α)}
      {result other : EStateM.Result α (RunState α γ) Flow}
      (taken : each body a.acc.reverse start = result) (ended : ∀ s, result ≠ .ok .onward s)
      (same : EndsWith RunState.SameTo (fun _ _ => False) result other) :
      CutEnds body start (.ok flow a) other

variable {first second : List (Step α)} {gates slots : Nat} {start : RunState α γ}

/-- The collected element is fed to the second part. -/
theorem cut_nil (second : List (Step α)) (x : α) {a : RunState α (List α)} {s t : RunState α γ}
    (hsized : a.counters.Sized gates slots)
    (htaken : each (feed sink second) a.acc.reverse start = .ok .onward s)
    (hjoined : (s.behind a.counters).SameAs t) :
    CutEnds (feed sink second) start (feed Sink.collect [] x a)
      (feed sink (second.map (Step.behind gates slots)) x t) := by
  have hone : each (feed sink second) (x :: a.acc).reverse start =
      each (feed sink second) [x] s := by
    rw [List.reverse_cons, each_append, htaken]
  have hlock := sink.lockstep_same.feed (second.map (Step.behind gates slots)) x hjoined
  rw [feed_behind hsized] at hlock
  have hcollected : feed Sink.collect [] x a =
      .ok .onward ⟨a.counters.emit, x :: a.acc, a.journal.record []⟩ := rfl
  rw [hcollected]
  generalize feed sink (second.map (Step.behind gates slots)) x t = other at hlock ⊢
  rw [each_cons] at hone
  have hsame : ∀ {u : RunState α γ} {u' : RunState α γ}, (u.behind a.counters).SameAs u' →
      u.SameTo u' := fun h => ⟨h.2, by rw [← h.1]; rfl⟩
  rcases hfed : feed sink second x s with ⟨_ | _, s'⟩ | ⟨culprit, s'⟩
  · rw [hfed] at hone hlock
    cases hlock with
    | ok flow h => exact .alike .onward hone h
    | ahead hnone => exact hnone.elim
  · rw [hfed] at hone hlock
    cases hlock with
    | ok flow h => exact .ended .onward hone nofun (.ok .stop (hsame h))
    | ahead hnone => exact hnone.elim
  · rw [hfed] at hone hlock
    cases hlock with
    | error culprit h => exact .ended .onward hone nofun (.error culprit (hsame h))
    | ahead hnone => exact hnone.elim

/-- Several elements, each fed to the whole plan before the next one. -/
theorem cut_each {collects : α → RunM α (List α) Flow} {feeds : α → RunM α γ Flow}
    (hcut : ∀ x a s t, a.counters.Sized gates slots →
      each body a.acc.reverse start = .ok .onward s → (s.behind a.counters).SameAs t →
      CutEnds body start (collects x a) (feeds x t))
    (hmore : ∀ x a, ∃ flow a' more, collects x a = .ok flow a' ∧ a'.acc = more ++ a.acc)
    (hsized : ∀ x a flow a', a.counters.Sized gates slots → collects x a = .ok flow a' →
      a'.counters.Sized gates slots)
    (xs : List α) {a : RunState α (List α)} {s t : RunState α γ}
    (ha : a.counters.Sized gates slots) (htaken : each body a.acc.reverse start = .ok .onward s)
    (hjoined : (s.behind a.counters).SameAs t) :
    CutEnds body start (each collects xs a) (each feeds xs t) := by
  have hall : ∀ (xs : List α) (a : RunState α (List α)), ∃ flow a' more,
      each collects xs a = .ok flow a' ∧ a'.acc = more ++ a.acc := by
    intro xs
    induction xs with
    | nil => exact fun a => ⟨.onward, a, [], rfl, rfl⟩
    | cons x xs ih =>
      intro a
      obtain ⟨flow, a', more, hx, hacc⟩ := hmore x a
      rw [each_cons, hx]
      cases flow with
      | stop => exact ⟨.stop, a', more, rfl, hacc⟩
      | onward =>
        obtain ⟨flow', a'', more', hxs, hacc'⟩ := ih a'
        exact ⟨flow', a'', more' ++ more, hxs, by rw [hacc', hacc, List.append_assoc]⟩
  induction xs generalizing a s t with
  | nil => exact .alike .onward htaken hjoined
  | cons x xs ih =>
    have hx := hcut x a s t ha htaken hjoined
    obtain ⟨flow, a', more, hcollected, -⟩ := hmore x a
    have ha' := hsized x a flow a' ha hcollected
    -- however the whole plan ends, the first part goes on to collect from the other elements
    obtain ⟨flow', a'', more', hlater, hacc⟩ : ∃ flow' a'' more',
        each collects (x :: xs) a = .ok flow' a'' ∧ a''.acc = more' ++ a'.acc := by
      rw [each_cons, hcollected]
      cases flow with
      | onward => exact hall xs a'
      | stop => exact ⟨.stop, a', [], rfl, rfl⟩
    rw [hcollected] at hx
    rw [each_cons x t feeds]
    generalize feeds x t = other at hx ⊢
    cases hx with
    | alike flow htaken' hjoined' =>
      rw [each_cons, hcollected]
      cases flow with
      | onward => exact ih ha' htaken' hjoined'
      | stop => exact .alike .stop htaken' hjoined'
    | ended flow htaken' hended hsame =>
      rename_i result
      have htaken'' : each body a''.acc.reverse start = result := by
        rw [hacc, List.reverse_append]
        exact each_append_of_ended htaken' hended more'.reverse
      rw [hlater]
      cases hsame with
      | ahead hnone => exact hnone.elim
      | error culprit hst => exact .ended flow' htaken'' hended (.error culprit hst)
      | ok flow'' hst =>
        cases flow'' with
        | onward => exact absurd rfl (hended _)
        | stop => exact .ended flow' htaken'' hended (.ok .stop hst)

/-- Feeding the whole plan is collecting by its first part and feeding what was collected to the
second part. -/
theorem cut_feed (htotal : ∀ step ∈ first, step.Total)
    (hfits : ∀ step ∈ first, step.Fits gates slots) (x : α) {a : RunState α (List α)}
    {s t : RunState α γ} (hsized : a.counters.Sized gates slots)
    (htaken : each (feed sink second) a.acc.reverse start = .ok .onward s)
    (hjoined : (s.behind a.counters).SameAs t) :
    CutEnds (feed sink second) start (feed Sink.collect first x a)
      (feed sink (first ++ second.map (Step.behind gates slots)) x t) := by
  -- on the steps of the first part; the second part is fed where they end
  induction first generalizing x a s t with
  | nil => exact cut_nil second x hsized htaken hjoined
  | cons step first ih =>
    obtain ⟨hstep, hrest⟩ := List.forall_mem_cons.1 htotal
    obtain ⟨hfit, hfits⟩ := List.forall_mem_cons.1 hfits
    have ih := fun x {a s t} => ih hrest hfits x (a := a) (s := s) (t := t)
    have hcounters : t.counters = a.counters.join s.counters := hjoined.1.symm
    have hindex : t.counters.index step.slot? = a.counters.index step.slot? := by
      rw [hcounters, Counters.index_join hsized hfit.slot_lt]
    have hticked : (s.behind (a.counters.tick step.slot?)).SameAs
        ⟨t.counters.tick step.slot?, t.acc, t.journal⟩ :=
      ⟨by rw [hcounters, Counters.tick_join hsized hfit.slot_lt]; rfl, hjoined.2⟩
    have hsized' := hsized.tick step.slot?
    rw [List.cons_append]
    cases step with
    | map f slot =>
      obtain ⟨y, hy⟩ := Callback.Total.answer hstep x (a.counters.index slot)
      change t.counters.index slot = a.counters.index slot at hindex
      rw [feed_map, feed_map, hindex, hy]
      exact ih y hsized' htaken hticked
    | test p slot =>
      obtain ⟨kept, hkept⟩ := Callback.Total.answer hstep x (a.counters.index slot)
      change t.counters.index slot = a.counters.index slot at hindex
      rw [feed_test, feed_test, hindex, hkept]
      cases kept with
      | true => exact ih x hsized' htaken hticked
      | false => exact .alike .onward htaken hticked
    | expand f slot =>
      obtain ⟨ys, hys⟩ := Callback.Total.answer hstep x (a.counters.index slot)
      change t.counters.index slot = a.counters.index slot at hindex
      rw [feed_expand, feed_expand, hindex, hys]
      exact cut_each (fun y a s t ha htaken hjoined => ih y ha htaken hjoined)
        (fun y a => feed_collect hrest y a) (fun y a flow a' ha hfeed => feed_sized ha hfeed) ys
        hsized' htaken hticked
    | gate number =>
      have hlt : number < gates := hfit.gate_lt number rfl
      have hwindow : t.counters.window number = a.counters.window number := by
        rw [hcounters, Counters.window_join hsized hlt]
      have hasked : (s.behind (a.afterGate number).counters).SameAs (t.afterGate number) := by
        refine ⟨?_, hjoined.2⟩
        show _ = t.counters.afterGate number
        rw [hcounters, Counters.afterGate_join hsized hlt]
        rfl
      rw [feed_gate, feed_gate, hwindow]
      cases (a.counters.window number).ask.1 with
      | through => exact ih x (hsized.afterGate number) htaken hasked
      | dropped => exact .alike .onward htaken hasked
      | shut => exact .alike .stop htaken hasked

end RunM

/-! ## One element of a plan -/

/-- What came of a part of a run, which stops if it is sealed. -/
def RunM.fed : EStateM.Result α (RunState α γ) Flow → Fed α γ
  | .ok .stop s => .stopped s
  | .ok .onward s => if s.counters.isSealed then .stopped s else .onward s
  | .error culprit s => .failed culprit s

theorem RunM.feed_sealedByGate {sink : Sink α γ} {steps : List (Step α)} {x : α}
    {s s' : RunState α γ} {flow : Flow} (h : s.counters.SealedByGate steps)
    (hfeed : feed sink steps x s = .ok flow s') : s'.counters.SealedByGate steps := by
  have hleaves : (leaves (feed sink steps x s)).SealedByGate steps :=
    feed_preserves (R := fun c d => c.SealedByGate steps → d.SealedByGate steps) (fun _ => id)
      (fun _ _ _ hcd hde => hde ∘ hcd) sink (fun step _ _ h => h.tick step.slot?)
      (fun _ hmem _ h => h.afterGate hmem) (fun _ h => h) x s h
  rw [hfeed] at hleaves
  exact hleaves

/-- Feeding came to the same: it goes on in the same state, or it ended and a terminal cannot tell
the states apart. -/
inductive Fed.SameTo : Fed α γ → Fed α γ → Prop where
  | onward (s : RunState α γ) : SameTo (.onward s) (.onward s)
  | stopped {s t : RunState α γ} (h : s.SameTo t) : SameTo (.stopped s) (.stopped t)
  | failed (culprit : α) {s t : RunState α γ} (h : s.SameTo t) :
      SameTo (.failed culprit s) (.failed culprit t)

namespace Plan

variable {plan first second : Plan α} {sink : Sink α γ}

/-- Feeds elements one after the other, until the run stops or a callback fails. -/
def feedEach (plan : Plan α) (sink : Sink α γ) : List α → RunState α γ → Fed α γ
  | [], s => .onward s
  | x :: xs, s =>
    match plan.feed sink x s with
    | .onward s => plan.feedEach sink xs s
    | fed => fed

theorem feed_eq_fed (plan : Plan α) (sink : Sink α γ) (x : α) (s : RunState α γ) :
    plan.feed sink x s = RunM.fed (RunM.feed sink plan.steps x s) := rfl

/-- The run is not sealed, and could be only by one of its gates. -/
structure MayGoOn (plan : Plan α) (s : RunState α γ) : Prop where
  sealedByGate : s.counters.SealedByGate plan.steps
  isSealed_eq : s.counters.isSealed = false

theorem MayGoOn.feed {s s' : RunState α γ} {x : α} (h : plan.MayGoOn s)
    (hfeed : plan.feed sink x s = .onward s') : plan.MayGoOn s' := by
  rw [feed_eq_fed] at hfeed
  rcases hresult : RunM.feed sink plan.steps x s with ⟨_ | _, t⟩ | ⟨culprit, t⟩
  · rw [hresult, RunM.fed] at hfeed
    split at hfeed
    · exact absurd hfeed (by simp)
    · rename_i hsealed
      cases hfeed
      exact ⟨RunM.feed_sealedByGate h.sealedByGate hresult, Bool.eq_false_iff.2 hsealed⟩
  · rw [hresult] at hfeed
    cases hfeed
  · rw [hresult] at hfeed
    cases hfeed

theorem MayGoOn.feedEach {xs : List α} {s s' : RunState α γ} (h : plan.MayGoOn s)
    (hfeed : plan.feedEach sink xs s = .onward s') : plan.MayGoOn s' := by
  induction xs generalizing s with
  | nil =>
    cases hfeed
    exact h
  | cons x xs ih =>
    rw [Plan.feedEach] at hfeed
    cases hx : plan.feed sink x s with
    | onward t =>
      rw [hx] at hfeed
      exact ih (h.feed hx) hfeed
    | stopped t =>
      rw [hx] at hfeed
      cases hfeed
    | failed culprit t =>
      rw [hx] at hfeed
      cases hfeed

/-- To look only at the end whether the run is sealed makes no difference, as a sealed run hands
nothing out. -/
theorem feedEach_sameTo (sink : Sink α γ) (htotal : ∀ step ∈ plan.steps, step.Total)
    (xs : List α) {s : RunState α γ} (h : plan.MayGoOn s) :
    (plan.feedEach sink xs s).SameTo
      (RunM.fed (RunM.each (RunM.feed sink plan.steps) xs s)) := by
  induction xs generalizing s with
  | nil =>
    rw [feedEach, RunM.each_nil, RunM.fed, h.isSealed_eq]
    exact .onward s
  | cons x xs ih =>
    rw [feedEach, RunM.each_cons, feed_eq_fed]
    rcases hfed : RunM.feed sink plan.steps x s with ⟨_ | _, s'⟩ | ⟨culprit, s'⟩
    · have hgate := RunM.feed_sealedByGate h.sealedByGate hfed
      rw [RunM.fed]
      by_cases hsealed : s'.counters.isSealed = true
      · obtain ⟨flow, t, heach, hsame, hlater⟩ :=
          RunM.each_sealed sink htotal xs hgate hsealed
        simp only [hsealed, if_true, heach]
        cases flow with
        | onward =>
          rw [RunM.fed, if_pos hlater]
          exact .stopped hsame
        | stop => exact .stopped hsame
      · simp only [hsealed]
        exact ih ⟨hgate, Bool.eq_false_iff.2 hsealed⟩
    · exact .stopped ⟨rfl, rfl⟩
    · exact .failed culprit ⟨rfl, rfl⟩

end Plan

/-! ## A plan in two parts -/

/-- An element was fed that stops the run or lets it go on. -/
def Fed.after : Flow → RunState α γ → Fed α γ
  | .onward, s => .onward s
  | .stop, s => .stopped s

/-- How a run goes on that stops if it is sealed. -/
def Flow.unlessSealed (flow : Flow) (c : Counters) : Flow := if c.isSealed then .stop else flow

theorem RunM.fed_ok (flow : Flow) (s : RunState α γ) :
    RunM.fed (.ok flow s) = .after (flow.unlessSealed s.counters) s := by
  unfold Flow.unlessSealed
  cases flow with
  | stop =>
    rw [ite_self]
    rfl
  | onward =>
    rw [RunM.fed]
    split
    · rfl
    · rfl

/-- What came of feeding to the second part what the first part had collected in `a` when it stopped
or went on, and of feeding the element to the whole plan. The whole plan goes on if both parts do,
and it is stopped where one of them is. -/
inductive Fed.Cuts (a : RunState α (List α)) : Flow → Fed α γ → Fed α γ → Prop where
  | onward {s t : RunState α γ} (joined : (s.behind a.counters).SameAs t) :
      Cuts a .onward (.onward s) (.onward t)
  | collected {s t : RunState α γ} (same : s.SameTo t) : Cuts a .stop (.onward s) (.stopped t)
  | stopped (flow : Flow) {s t : RunState α γ} (same : s.SameTo t) :
      Cuts a flow (.stopped s) (.stopped t)
  | failed (culprit : α) (flow : Flow) {s t : RunState α γ} (same : s.SameTo t) :
      Cuts a flow (.failed culprit s) (.failed culprit t)

namespace Plan

/-- The plan is made of two parts, and no callback of theirs fails. -/
structure IsCut (plan first second : Plan α) : Prop where
  appended : plan.IsAppended first second
  numbered : first.Numbered
  first_total : ∀ step ∈ first.steps, step.Total
  second_total : ∀ step ∈ second.steps, step.Total

variable {plan first second : Plan α} {sink : Sink α γ}

/-- The second part took all that was collected. -/
theorem cuts_of_taken {a : RunState α (List α)} {fed : Fed α γ} {s t : RunState α γ}
    (hfed : fed.SameTo (RunM.fed (.ok .onward s))) (hjoined : (s.behind a.counters).SameAs t)
    (flow : Flow) :
    Fed.Cuts a (flow.unlessSealed a.counters) fed (RunM.fed (.ok flow t)) := by
  have hsame : s.SameTo t := ⟨hjoined.2, by rw [← hjoined.1]; rfl⟩
  have hseals : t.counters.isSealed = (a.counters.isSealed || s.counters.isSealed) :=
    congrArg Counters.isSealed hjoined.1.symm
  rw [RunM.fed_ok] at hfed ⊢
  unfold Flow.unlessSealed at hfed ⊢
  rw [hseals]
  cases hsealed : s.counters.isSealed with
  | true =>
    rw [hsealed] at hfed
    rw [Bool.or_true]
    cases hfed with
    | stopped hu => exact .stopped _ ⟨hu.1.trans hsame.1, hu.2.trans hsame.2⟩
  | false =>
    rw [hsealed] at hfed
    rw [Bool.or_false]
    cases hfed with
    | onward =>
      cases hsealed' : a.counters.isSealed with
      | true => exact .collected hsame
      | false =>
        cases flow with
        | stop => exact .collected hsame
        | onward => exact .onward hjoined

/-- Feeding an element to the whole plan is collecting by the first part and feeding what was
collected to the second part. -/
theorem IsCut.feed (h : plan.IsCut first second) (sink : Sink α γ) (x : α) {c : Counters}
    (hsized : c.Sized first.gates.length first.slots) :
    ∃ flow a, first.feed .collect x ⟨c, [], .empty⟩ = .after flow a
      ∧ a.counters.Sized first.gates.length first.slots
      ∧ ∀ {s t}, second.MayGoOn s → (s.behind c).SameAs t →
        Fed.Cuts a flow (second.feedEach sink a.acc.reverse s) (plan.feed sink x t) := by
  obtain ⟨flow, a, -, hcollected, -⟩ :=
    RunM.feed_collect h.first_total x (⟨c, [], .empty⟩ : RunState α (List α))
  refine ⟨flow.unlessSealed a.counters, a, by rw [feed_eq_fed, hcollected, RunM.fed_ok],
    RunM.feed_sized hsized hcollected, fun {s t} hmay hjoined => ?_⟩
  have hstart : RunM.each (RunM.feed sink second.steps) [] s = .ok .onward s := rfl
  have hcut := RunM.cut_feed (a := ⟨c, [], .empty⟩) h.first_total h.numbered.fits x hsized hstart
    hjoined
  have hfed := second.feedEach_sameTo sink h.second_total a.acc.reverse hmay
  rw [feed_eq_fed, h.appended.steps_eq]
  rw [hcollected] at hcut
  generalize RunM.feed sink (first.steps ++ _) x t = result at hcut ⊢
  generalize second.feedEach sink a.acc.reverse s = fed at hfed ⊢
  cases hcut with
  | alike flow htaken hjoined' =>
    rw [htaken] at hfed
    exact cuts_of_taken hfed hjoined' flow
  | ended flow htaken hended hsame =>
    rw [htaken] at hfed
    cases hsame with
    | ahead hnone => exact hnone.elim
    | error culprit hst =>
      cases hfed with
      | failed _ hu => exact .failed culprit _ ⟨hu.1.trans hst.1, hu.2.trans hst.2⟩
    | ok flow' hst =>
      cases flow' with
      | onward => exact absurd rfl (hended _)
      | stop =>
        cases hfed with
        | stopped hu => exact .stopped _ ⟨hu.1.trans hst.1, hu.2.trans hst.2⟩

end Plan

end StreamFusion
