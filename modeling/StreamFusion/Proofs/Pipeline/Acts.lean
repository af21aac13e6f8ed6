import StreamFusion.Pipeline.World

/-!
# What acts lead to

A statement about an act says what holds of the world before it, of its result and the world after
it, and of the world in which it leaves off without a result (`Act.Leads`). Statements about the
parts of an act give the statement about the act (`Act.Leads.bind`); every other rule is about one
of the basic acts.
-/

namespace StreamFusion

variable {α β γ : Type}

namespace Act

/-- From a world with `P` the act comes to a result and a world with `Q`, or it gives no result and
leaves a world with `E`. -/
def Leads (P : World α → Prop) (act : Act α β) (Q : β → World α → Prop) (E : World α → Prop) :
    Prop :=
  ∀ w, P w → match act w with
    | .ok y w' => Q y w'
    | .error _ w' => E w'

/-- The act keeps what holds of the world, whether or not it gives a result. -/
abbrev Maintains (P : World α → Prop) (act : Act α β) : Prop := Leads P act (fun _ => P) P

namespace Leads

variable {P E : World α → Prop} {Q : β → World α → Prop} {R : γ → World α → Prop}
  {act : Act α β} {next : β → Act α γ}

theorem bind (h : Leads P act Q E) (hnext : ∀ y, Leads (Q y) (next y) R E) :
    Leads P (act >>= next) R E := by
  intro w hw
  have hact := h w hw
  show match EStateM.bind act next w with
    | .ok y w' => R y w'
    | .error _ w' => E w'
  rw [EStateM.bind]
  cases hresult : act w with
  | ok y w' =>
    rw [hresult] at hact
    exact hnext y w' hact
  | error halt w' =>
    rw [hresult] at hact
    exact hact

/-- Less is said of the world after the act. -/
theorem imp {Q' : β → World α → Prop} {E' : World α → Prop} (h : Leads P act Q E)
    (hresult : ∀ y w, Q y w → Q' y w) (hnone : ∀ w, E w → E' w) : Leads P act Q' E' := by
  intro w hw
  have hact := h w hw
  cases hdone : act w with
  | ok y w' =>
    rw [hdone] at hact
    exact hresult y w' hact
  | error halt w' =>
    rw [hdone] at hact
    exact hnone w' hact

theorem pure {y : β} (h : ∀ w, P w → Q y w) : Leads P (Pure.pure y) Q E := h

/-- The act is followed by a function of its result. -/
theorem map {f : β → γ} (h : Leads P act (fun y => R (f y)) E) : Leads P (f <$> act) R E := by
  intro w hw
  have hact := h w hw
  show match EStateM.map f act w with
    | .ok y w' => R y w'
    | .error _ w' => E w'
  rw [EStateM.map]
  cases hresult : act w with
  | ok y w' =>
    rw [hresult] at hact
    exact hact
  | error halt w' =>
    rw [hresult] at hact
    exact hact

/-- Two statements about an act. -/
theorem and {P' E' : World α → Prop} {Q' : β → World α → Prop} (h : Leads P act Q E)
    (h' : Leads P' act Q' E') :
    Leads (fun w => P w ∧ P' w) act (fun y w => Q y w ∧ Q' y w) (fun w => E w ∧ E' w) := by
  intro w hw
  have hfirst := h w hw.1
  have hsecond := h' w hw.2
  cases hresult : act w with
  | ok y w' =>
    rw [hresult] at hfirst hsecond
    exact ⟨hfirst, hsecond⟩
  | error halt w' =>
    rw [hresult] at hfirst hsecond
    exact ⟨hfirst, hsecond⟩

theorem refuse {refusal : Refusal} (h : ∀ w, P w → E w) : Leads P (Act.refuse refusal) Q E := h

theorem fail {halt : Halt α} (h : ∀ w, P w → E w) : Leads P (throw halt) Q E := h

/-- Looking up what is remembered of a source changes nothing. -/
theorem sourceMemo (id : Ident) : Leads P (Act.sourceMemo id) (fun _ => P) E := fun _ h => h

/-- Looking up what is remembered of a recipe changes nothing. -/
theorem recipeMemo (serial : Nat) : Leads P (Act.recipeMemo serial) (fun _ => P) E :=
  fun _ h => h

theorem ofVerdict {verdict : Except Refusal (Plan α)} :
    Maintains P (Act.ofVerdict verdict) := by
  cases verdict with
  | ok plan => exact fun _ h => h
  | error refusal => exact fun _ h => h

end Leads

namespace Maintains

variable {P : World α → Prop} {act : Act α β}

theorem map (f : β → γ) (h : Maintains P act) : Maintains P (f <$> act) :=
  Leads.map (R := fun _ => P) h

theorem bind_pure (f : β → γ) (h : Maintains P act) :
    Maintains P (act >>= fun y => Pure.pure (f y)) :=
  h.bind fun _ => .pure fun _ h => h

end Maintains

end Act

end StreamFusion
