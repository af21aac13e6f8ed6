import Mathlib.Tactic.Common
import StreamFusion.Operation.Meaning

/-!
# Laws of the meaning of operations

What `Callback.answersFrom` and `Op.allOnList` do on lists that are cut, and that they give a result
whenever the callbacks do.
-/

namespace StreamFusion

variable {α β : Type}

namespace Callback

/-! ## Answers on a list -/

theorem answersFrom_cons (f : Callback α β) (first : Nat) (x : α) (xs : List α) (ys : List β) :
    f.answersFrom first (x :: xs) = some ys ↔
      ∃ y rest, f.answer x first = some y ∧ f.answersFrom (first + 1) xs = some rest
        ∧ ys = y :: rest := by
  simp only [answersFrom, Option.bind_eq_bind, Option.bind_eq_some_iff, Option.some.injEq]
  constructor
  · rintro ⟨y, hy, rest, hrest, rfl⟩
    exact ⟨y, rest, hy, hrest, rfl⟩
  · rintro ⟨y, rest, hy, hrest, rfl⟩
    exact ⟨y, hy, rest, hrest, rfl⟩

theorem length_answersFrom {f : Callback α β} {first : Nat} {xs : List α} {ys : List β}
    (h : f.answersFrom first xs = some ys) : ys.length = xs.length := by
  induction xs generalizing first ys with
  | nil =>
    rw [answersFrom, Option.some.injEq] at h
    rw [← h]
    rfl
  | cons x xs ih =>
    obtain ⟨y, rest, -, hrest, rfl⟩ := (answersFrom_cons ..).1 h
    rw [List.length_cons, List.length_cons, ih hrest]

/-- A callback that takes no index answers the same from every index on. -/
theorem answersFrom_of_not_indexed {f : Callback α β} (h : f.indexed = false)
    (first other : Nat) (xs : List α) : f.answersFrom first xs = f.answersFrom other xs := by
  induction xs generalizing first other with
  | nil => rfl
  | cons x xs ih =>
    have hx : f.answer x first = f.answer x other := by
      simp only [answer, h, Bool.false_eq_true, if_false]
    rw [answersFrom, answersFrom, hx, ih (first + 1) (other + 1)]

/-- Dropping elements from the front moves the first index. -/
theorem answersFrom_drop {f : Callback α β} {first : Nat} {xs : List α} {ys : List β}
    (h : f.answersFrom first xs = some ys) (n : Nat) :
    f.answersFrom (first + n) (xs.drop n) = some (ys.drop n) := by
  induction n generalizing first xs ys with
  | zero => exact h
  | succ n ih =>
    cases xs with
    | nil =>
      rw [answersFrom, Option.some.injEq] at h
      rw [← h]
      rfl
    | cons x xs =>
      obtain ⟨y, rest, -, hrest, rfl⟩ := (answersFrom_cons ..).1 h
      rw [List.drop_succ_cons, List.drop_succ_cons, show first + (n + 1) = first + 1 + n by omega]
      exact ih hrest

theorem answersFrom_take {f : Callback α β} {first : Nat} {xs : List α} {ys : List β}
    (h : f.answersFrom first xs = some ys) (n : Nat) :
    f.answersFrom first (xs.take n) = some (ys.take n) := by
  induction n generalizing first xs ys with
  | zero => rfl
  | succ n ih =>
    cases xs with
    | nil =>
      rw [answersFrom, Option.some.injEq] at h
      rw [← h]
      rfl
    | cons x xs =>
      obtain ⟨y, rest, hy, hrest, rfl⟩ := (answersFrom_cons ..).1 h
      rw [List.take_succ_cons, List.take_succ_cons, answersFrom_cons]
      exact ⟨y, rest.take n, hy, ih hrest, rfl⟩

/-- A callback that never fails. -/
def Total (f : Callback α β) : Prop := ∀ x index, ∃ y, f.run x index = some y

theorem Total.answer {f : Callback α β} (h : f.Total) (x : α) (index : Nat) :
    ∃ y, f.answer x index = some y := h x _

theorem Total.answersFrom {f : Callback α β} (h : f.Total) (first : Nat) (xs : List α) :
    ∃ ys, f.answersFrom first xs = some ys := by
  induction xs generalizing first with
  | nil => exact ⟨[], rfl⟩
  | cons x xs ih =>
    obtain ⟨y, hy⟩ := h.answer x first
    obtain ⟨ys, hys⟩ := ih (first + 1)
    exact ⟨y :: ys, (answersFrom_cons ..).2 ⟨y, ys, hy, hys, rfl⟩⟩

theorem total_plain (f : α → β) : (plain f).Total := fun x _ => ⟨f x, rfl⟩

end Callback

namespace Op

/-! ## Operations that never fail -/

/-- An operation whose callback never fails. -/
def Total : Op α → Prop
  | .transform f => f.Total
  | .filter test _ => test.Total
  | .flatten expand => expand.Total
  | .never _ _ | .range _ _ => True

theorem Total.onList {op : Op α} (h : op.Total) (xs : List α) : ∃ ys, op.onList xs = some ys := by
  cases op with
  | transform f => exact Callback.Total.answersFrom h 0 xs
  | filter test search =>
    obtain ⟨kept, hkept⟩ := Callback.Total.answersFrom h 0 xs
    exact ⟨keepWhere xs kept, by rw [Op.onList, hkept, Option.map_some]⟩
  | never indexed search => exact ⟨[], rfl⟩
  | range start stop => cases stop <;> exact ⟨_, rfl⟩
  | flatten expand =>
    obtain ⟨parts, hparts⟩ := Callback.Total.answersFrom h 0 xs
    exact ⟨parts.flatten, by rw [Op.onList, hparts, Option.map_some]⟩

theorem allOnList_total {ops : List (Op α)} (h : ∀ op ∈ ops, op.Total) (xs : List α) :
    ∃ ys, allOnList ops xs = some ys := by
  induction ops generalizing xs with
  | nil => exact ⟨xs, rfl⟩
  | cons op ops ih =>
    obtain ⟨zs, hzs⟩ := (h op List.mem_cons_self).onList xs
    obtain ⟨ys, hys⟩ := ih (fun op hop => h op (List.mem_cons_of_mem _ hop)) zs
    exact ⟨ys, by rw [allOnList, hzs]; exact hys⟩

/-! ## Lists of operations -/

theorem onList_nil (op : Op α) : op.onList [] = some [] := by
  rcases op with _ | _ | _ | ⟨start, _ | stop⟩ | _ <;>
    simp [onList, Callback.answersFrom, keepWhere]

theorem allOnList_nil (ops : List (Op α)) : allOnList ops [] = some [] := by
  induction ops with
  | nil => rfl
  | cons op ops ih =>
    rw [allOnList, onList_nil]
    exact ih

theorem allOnList_singleton (op : Op α) : allOnList [op] = op.onList := by
  funext xs
  simp only [allOnList, Option.bind_eq_bind]
  cases op.onList xs <;> rfl

theorem allOnList_append (ops others : List (Op α)) (xs : List α) :
    allOnList (ops ++ others) xs = (allOnList ops xs).bind (allOnList others) := by
  induction ops generalizing xs with
  | nil => rfl
  | cons op ops ih =>
    simp only [List.cons_append, allOnList, Option.bind_eq_bind, Option.bind_assoc, ih]

theorem allOnList_concat (ops : List (Op α)) (op : Op α) (xs : List α) :
    allOnList (ops ++ [op]) xs = (allOnList ops xs).bind op.onList := by
  rw [allOnList_append, allOnList_singleton]

end Op

end StreamFusion
