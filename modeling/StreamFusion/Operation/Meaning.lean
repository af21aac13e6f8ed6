import StreamFusion.Operation.Basic

/-!
# The meaning of operations

What a list of operations does to a whole list of elements, one operation after the other. The
index of an element is its position in the list that reaches the operation. There is no result if
a callback fails at any element.
-/

namespace StreamFusion

variable {α β : Type}

/-- The answers of a callback on a list, from index `first` on; none if one of the calls fails. -/
def Callback.answersFrom (f : Callback α β) (first : Nat) : List α → Option (List β)
  | [] => some []
  | x :: xs => do
    let y ← f.answer x first
    let ys ← f.answersFrom (first + 1) xs
    some (y :: ys)

/-- The elements with a true answer. -/
def keepWhere : List α → List Bool → List α
  | x :: xs, kept :: rest => if kept then x :: keepWhere xs rest else keepWhere xs rest
  | _, _ => []

namespace Op

/-- The operation on a whole list. -/
def onList (op : Op α) (xs : List α) : Option (List α) :=
  match op with
  | .transform f => f.answersFrom 0 xs
  | .filter test _ => (test.answersFrom 0 xs).map (keepWhere xs)
  | .never _ _ => some []
  | .range start none => some (xs.drop start)
  | .range start (some stop) => some ((xs.drop start).take (stop - start))
  | .flatten expand => (expand.answersFrom 0 xs).map List.flatten

/-- The operations on a whole list, one after the other. -/
def allOnList : List (Op α) → List α → Option (List α)
  | [], xs => some xs
  | op :: ops, xs => do allOnList ops (← op.onList xs)

end Op

end StreamFusion
