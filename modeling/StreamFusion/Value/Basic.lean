import StreamFusion.Dictionary

/-!
# Values

The elements of a script's streams are JSON trees with whole numbers. The members of an object are
kept in increasing order of their keys, so equality of values is equality of trees.
-/

namespace StreamFusion

/-- A JSON tree with whole numbers. -/
inductive Value where
  | null
  | bool (b : Bool)
  | int (n : Int)
  | text (s : String)
  | list (items : List Value)
  | object (members : List (String × Value))
deriving Inhabited

namespace Value

mutual

/-- Equality of values, member by member. -/
def decEq : (a b : Value) → Decidable (a = b)
  | .null, .null => isTrue rfl
  | .bool a, .bool b => decidable_of_iff (a = b) (by simp)
  | .int a, .int b => decidable_of_iff (a = b) (by simp)
  | .text a, .text b => decidable_of_iff (a = b) (by simp)
  | .list a, .list b =>
    match decEqItems a b with
    | isTrue h => isTrue (by rw [h])
    | isFalse h => isFalse (by simp [h])
  | .object a, .object b =>
    match decEqMembers a b with
    | isTrue h => isTrue (by rw [h])
    | isFalse h => isFalse (by simp [h])
  | .null, .bool _ | .null, .int _ | .null, .text _ | .null, .list _ | .null, .object _
  | .bool _, .null | .bool _, .int _ | .bool _, .text _ | .bool _, .list _ | .bool _, .object _
  | .int _, .null | .int _, .bool _ | .int _, .text _ | .int _, .list _ | .int _, .object _
  | .text _, .null | .text _, .bool _ | .text _, .int _ | .text _, .list _ | .text _, .object _
  | .list _, .null | .list _, .bool _ | .list _, .int _ | .list _, .text _ | .list _, .object _
  | .object _, .null | .object _, .bool _ | .object _, .int _ | .object _, .text _
  | .object _, .list _ => isFalse (by simp)

/-- Equality of lists of values. -/
def decEqItems : (a b : List Value) → Decidable (a = b)
  | [], [] => isTrue rfl
  | [], _ :: _ => isFalse (by simp)
  | _ :: _, [] => isFalse (by simp)
  | x :: xs, y :: ys =>
    match decEq x y, decEqItems xs ys with
    | isTrue h, isTrue hs => isTrue (by rw [h, hs])
    | isFalse h, _ => isFalse (by simp [h])
    | _, isFalse hs => isFalse (by simp [hs])

/-- Equality of lists of object members. -/
def decEqMembers : (a b : List (String × Value)) → Decidable (a = b)
  | [], [] => isTrue rfl
  | [], _ :: _ => isFalse (by simp)
  | _ :: _, [] => isFalse (by simp)
  | (k, x) :: xs, (l, y) :: ys =>
    if hk : k = l then
      match decEq x y, decEqMembers xs ys with
      | isTrue h, isTrue hs => isTrue (by rw [hk, h, hs])
      | isFalse h, _ => isFalse (by simp [h])
      | _, isFalse hs => isFalse (by simp [hs])
    else isFalse (by simp [hk])

end

instance : DecidableEq Value := decEq

/-- Is `n` a signed 64-bit number? -/
def isWord (n : Int) : Bool := -0x8000000000000000 ≤ n && n < 0x8000000000000000

/-- The signed 64-bit number that agrees with `n` modulo 2^64. -/
def wrap (n : Int) : Int := Int.bmod n 0x10000000000000000

/-- The signed 64-bit number that a value is, if it is one. -/
def word? : Value → Option Int
  | .int n => if isWord n then some n else none
  | _ => none

/-- The member of an object. -/
def member? (key : String) : Value → Option Value
  | .object members => Dictionary.find? key members
  | _ => none

/-- The object of a list of members; a later member replaces an earlier one of its key. -/
def ofMembers (members : List (String × Value)) : Value :=
  .object (Dictionary.ofEntries members)

/-- The text at a named field: the member of that name, if the value is an object and the member
is a text. -/
def textField (name : String) (v : Value) : Option String :=
  match v.member? name with
  | some (.text s) => some s
  | _ => none

end Value

end StreamFusion
