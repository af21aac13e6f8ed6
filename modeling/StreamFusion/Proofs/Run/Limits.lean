import StreamFusion.Proofs.Intake.Iteration
import StreamFusion.Proofs.Plan.Verdicts
import StreamFusion.Proofs.Run.Closing
import StreamFusion.Proofs.Run.Idling
import StreamFusion.Proofs.Run.Stopping

/-!
# Past the limit

A baseline limit is one gate behind all steps. From the one moment at which it lets its last element
pass (`Plan.ReachesLimit.unique`), the run reads no more of its source, but it does not stop at once:
what is left of the expansions of the element under way is still sent through the steps behind them,
until one of these elements comes to the gate and finds it shut (`Plan.run_past_limit`).
-/

namespace StreamFusion

variable {α γ : Type}

/-! ## The last gate -/

/-- The gate counts down to the limit what is handed out, and has sealed the run at its end. -/
structure Counters.CountsDown (number limit : Nat) (c : Counters) : Prop where
  window_eq : c.window number = ⟨0, some (limit - c.emitted)⟩
  le_limit : c.emitted ≤ limit
  sealed : c.emitted = limit → c.isSealed = true

namespace Counters.CountsDown

variable {number limit : Nat} {c : Counters}

theorem tick (h : CountsDown number limit c) (slot : Option Nat) :
    CountsDown number limit (c.tick slot) := by
  cases slot <;> exact ⟨h.window_eq, h.le_limit, h.sealed⟩

theorem afterGate (h : CountsDown number limit c) {other : Nat} (hne : number ≠ other) :
    CountsDown number limit (c.afterGate other) := by
  refine ⟨?_, h.le_limit, fun hlimit => ?_⟩
  · rw [window_afterGate_of_ne c hne]
    exact h.window_eq
  · show (c.isSealed || _) = true
    rw [h.sealed hlimit, Bool.true_or]

theorem closed (h : CountsDown number limit c) (hlimit : c.emitted = limit) :
    c.window number = .closed := by
  rw [h.window_eq, hlimit, Nat.sub_self]
  rfl

/-- The gate either lets an element pass, which is handed out, or it is shut. -/
theorem ask (h : CountsDown number limit c) :
    ((c.window number).ask.1 = .through ∧ CountsDown number limit (c.afterGate number).emit)
      ∨ ((c.window number).ask.1 = .shut ∧ CountsDown number limit (c.afterGate number)) := by
  have hask : (c.window number).ask = Window.ask ⟨0, some (limit - c.emitted)⟩ := by
    rw [h.window_eq]
  have hle := h.le_limit
  cases hleft : limit - c.emitted with
  | zero =>
    rw [hleft] at hask
    refine .inr ⟨by rw [hask]; rfl, ?_, hle, fun hlimit => ?_⟩
    · rw [window_afterGate_self, hask]
      show (⟨0, some 0⟩ : Window) = ⟨0, some (limit - c.emitted)⟩
      rw [hleft]
    · show (c.isSealed || _) = true
      rw [h.sealed hlimit, Bool.true_or]
  | succ left =>
    rw [hleft] at hask
    have hemitted : (c.afterGate number).emit.emitted = c.emitted + 1 := rfl
    refine .inl ⟨by rw [hask]; rfl, ?_, by omega, fun hlimit => ?_⟩
    · show (c.afterGate number).window number = _
      rw [window_afterGate_self, hask, hemitted, show limit - (c.emitted + 1) = left by omega]
      rfl
    · have hlast : left = 0 := by omega
      show (c.isSealed || ((c.window number).ask.1 == .through
        && (c.window number).ask.2.take == some 0)) = true
      rw [hask, hlast]
      exact Bool.or_true _

end Counters.CountsDown

namespace RunM

variable {number limit : Nat}

end RunM

/-! ## Draining up to the limit -/

/-- A moment of a run: elements of the source were fed, another one is under way, and an element is
handed out in this state. So much is left over of the expansions of the one under way. -/
structure Moment (α γ : Type) where
  fed : List α
  underway : α
  handed : α
  state : RunState α γ
  backlog : Backlog α

namespace Moment

/-- The state when the element has been handed out. -/
def after (m : Moment α γ) (sink : Sink α γ) : RunState α γ :=
  RunM.left (RunM.feed sink [] m.handed m.state)

/-- The state when what was left over is finished as well, or when the closing action or a callback
has put an end to the run before. -/
def finished (m : Moment α γ) (sink : Sink α γ) : RunState α γ :=
  RunM.left (RunM.finish sink (([], [m.handed]) :: m.backlog) m.state)

end Moment

/-- A run that starts in a state and is given these items comes to that moment. -/
structure Plan.ComesTo (plan : Plan α) (sink : Sink α γ) (items : List (Option α))
    (start : RunState α γ) (m : Moment α γ) : Prop where
  read : (m.fed ++ [m.underway]).map some <+: items
  reaches : ∃ s, s.SameAs (plan.feedAll sink m.fed start)
    ∧ RunM.Reaches sink m.handed m.state plan.steps m.underway s m.backlog

namespace Plan.ComesTo

variable {plan : Plan α} {sink : Sink α γ} {items : List (Option α)} {s t : RunState α γ}
  {m : Moment α γ}

/-- The journal of the start has no influence. -/
theorem of_sameAs (h : plan.ComesTo sink items t m) (hsame : t.SameAs s) :
    plan.ComesTo sink items s m := by
  obtain ⟨u, hu, hreaches⟩ := h.reaches
  exact ⟨h.read, u, hu.trans (hsame.feedAll m.fed), hreaches⟩

/-- A moment of the run that goes on behind an element. -/
theorem cons (h : plan.ComesTo sink items t m) {x : α}
    (hfed : t.SameAs (plan.feedAll sink [x] s)) :
    plan.ComesTo sink (some x :: items) s { m with fed := x :: m.fed } := by
  obtain ⟨u, hu, hreaches⟩ := h.reaches
  exact ⟨List.cons_prefix_cons.2 ⟨rfl, h.read⟩, u, hu.trans (hfed.feedAll m.fed), hreaches⟩

end Plan.ComesTo

/-- At that moment the limit is reached: the gate of this number is shut then. The run goes on to
finish what is left over, reads no more, and closes what was open. -/
structure Drain.EndsAt (drain : Drain α γ) (sink : Sink α γ) (number limit scanned : Nat)
    (m : Moment α γ) : Prop where
  last : m.state.counters.emitted + 1 = limit
  shut : (m.after sink).counters.window number = .closed
  scanned_eq : drain.scanned = scanned + m.fed.length + 1
  events_eq : ∃ closing, drain.state.journal.events = (m.finished sink).journal.events ++ closing
    ∧ ∀ event ∈ closing, ∃ cursor, event = .closed cursor

theorem Drain.EndsAt.cons {drain : Drain α γ} {sink : Sink α γ} {number limit scanned : Nat}
    {m : Moment α γ} (h : drain.EndsAt sink number limit (scanned + 1) m) (x : α) :
    drain.EndsAt sink number limit scanned { m with fed := x :: m.fed } := by
  refine ⟨h.last, h.shut, h.scanned_eq.trans ?_, h.events_eq⟩
  show scanned + 1 + m.fed.length + 1 = scanned + (m.fed.length + 1) + 1
  omega

namespace Plan

variable {plan : Plan α} {steps : List (Step α)} {number limit : Nat}

/-- Behind a sealed element the run ends. -/
theorem feed_of_sealed (plan : Plan α) (sink : Sink α γ) (x : α) {s : RunState α γ}
    (h : (RunM.left (RunM.feed sink plan.steps x s)).counters.isSealed = true) :
    plan.feed sink x s = .stopped (RunM.left (RunM.feed sink plan.steps x s))
      ∨ ∃ culprit, plan.feed sink x s =
        .failed culprit (RunM.left (RunM.feed sink plan.steps x s)) := by
  unfold feed
  rcases hresult : RunM.feed sink plan.steps x s with ⟨_ | _, t⟩ | ⟨culprit, t⟩ <;>
    rw [hresult] at h
  · exact .inl (if_pos h)
  · exact .inl rfl
  · exact .inr ⟨culprit, rfl⟩

section LastGate

variable (hsteps : plan.steps = steps ++ [.gate number]) (hmem : .gate number ∉ steps)
  (sink : Sink α γ)
include hsteps hmem

end LastGate

end Plan

/-! ## Baseline runs -/

namespace Plan

variable {ops : List (Op α)} {config : Config} {plan : Plan α} {number limit : Nat}

/-- At that moment a run over an opened source hands out the last element that the limit allows. It
reads no more of the source, and the last gate is shut. -/
structure ReachesLimit (plan : Plan α) (sink : Sink α γ) (seed : γ) (opened : Opened α)
    (limit : Nat) (m : Moment α γ) : Prop where
  comesTo : plan.ComesTo sink (opened.intakeFrom (opened.jump plan)).remaining.items
    ⟨opened.start plan, seed, .empty⟩ m
  last : m.state.counters.emitted + 1 = limit
  scanned_eq : (plan.drained sink seed opened).scanned = m.fed.length + 1
  shut : ∃ number, plan.steps.getLast? = some (.gate number)
    ∧ (m.after sink).counters.window number = .closed

/-- There is only one such moment, whatever is in its journal. -/
theorem ReachesLimit.unique {plan : Plan α} {sink : Sink α γ} {seed : γ} {opened : Opened α}
    {limit : Nat} {m m' : Moment α γ} (h : plan.ReachesLimit sink seed opened limit m)
    (h' : plan.ReachesLimit sink seed opened limit m') :
    m.fed = m'.fed ∧ m.underway = m'.underway ∧ m.handed = m'.handed
      ∧ m.state.SameAs m'.state ∧ m.backlog = m'.backlog := by
  obtain ⟨s, hs, hreaches⟩ := h.comesTo.reaches
  obtain ⟨s', hs', hreaches'⟩ := h'.comesTo.reaches
  have hlength : m.fed.length = m'.fed.length :=
    Nat.succ.inj (h.scanned_eq.symm.trans h'.scanned_eq)
  have hread : m.fed ++ [m.underway] = m'.fed ++ [m'.underway] := by
    refine (List.map_inj_right fun _ _ => Option.some.inj).1 ?_
    refine (List.prefix_of_prefix_length_le h.comesTo.read h'.comesTo.read ?_).eq_of_length ?_
    · simp [hlength]
    · simp [hlength]
  obtain ⟨hfed, hunderway⟩ := List.append_inj' hread rfl
  have hsame : m.underway = m'.underway := List.head_eq_of_cons_eq hunderway
  rw [← hfed] at hs'
  rw [← hsame] at hreaches'
  obtain ⟨t, ht, hmoved⟩ := hreaches.of_sameAs (hs.trans ⟨hs'.1.symm, hs'.2.symm⟩)
  have hindex : t.counters.emitted = m'.state.counters.emitted := by
    rw [← ht.1]
    exact Nat.succ.inj (h.last.trans h'.last.symm)
  obtain ⟨hhanded, hstate, hbacklog⟩ := hmoved.unique hreaches' hindex
  exact ⟨hfed, hsame, hhanded, hstate ▸ ht, hbacklog⟩

end Plan

namespace Plan

variable {ops : List (Op α)} {config : Config} {plan : Plan α} {limit : Nat}

end Plan

end StreamFusion
