import StreamFusion.Callback
import StreamFusion.Value.Compact

/-!
# Named callbacks

The callbacks that a script can name. Arithmetic is on signed 64-bit numbers and wraps around; a
rule that is meant for numbers leaves other values as they are, or says no to them.
-/

namespace StreamFusion

namespace Script

/-- What replaces an element. -/
inductive MapRule where
  | same
  | add (n : Int)
  | mul (n : Int)
  | addIndex (n : Int)
  | withIndex
  | wrap
  | const (v : Value)
  | label (s : String)
  | get (key : String)
  | set (key : String) (v : Value)
  | size

/-- What an element is tested for. -/
inductive TestRule where
  | no
  | yes
  | gt (n : Int)
  | lt (n : Int)
  | mod (m r : Int)
  | eq (v : Value)
  | indexMod (m r : Int)
  | indexLt (n : Int)
  | indexEq
  | isInt
  | isArray
  | has (key : String)
  | not (rule : TestRule)
deriving Inhabited

/-- What an element expands to. -/
inductive ExpandRule where
  | same
  | copies (n : Int)
  | plus (n : Int)
  | upto
  | indexCopies
  | items
  | skipOdd

/-- How an element is folded into an accumulator. -/
inductive CombineRule where
  | keep
  | sum
  | sub
  | max
  | poly
  | indexSum
  | pair
  | list
  | last

/-- Is the remainder of `n` by `m`, at least one, equal to `r`? -/
def hasRemainder (n m r : Int) : Bool := n.emod (max m 1) == r

/-- The number of entries of a list or an object, and of characters of a text. -/
def sizeOf : Value → Nat
  | .list items => items.length
  | .object members => members.length
  | .text s => s.length
  | _ => 0

/-- The number as a value, wrapped around to 64 bits. -/
def wrapped (n : Int) : Value := .int (Value.wrap n)

namespace MapRule

/-- The replacement of an element. -/
def apply (rule : MapRule) (x : Value) (index : Nat) : Value :=
  match rule with
  | .same => x
  | .add n => (x.word?.map fun k => wrapped (k + n)).getD x
  | .mul n => (x.word?.map fun k => wrapped (k * n)).getD x
  | .addIndex n => (x.word?.map fun k => wrapped (k + n * index)).getD x
  | .withIndex => .list [x, .int index]
  | .wrap => .list [x]
  | .const v => v
  | .label s => .text (s ++ x.compact)
  | .get key => (x.member? key).getD .null
  | .set key v =>
    match x with
    | .object members => .object (Dictionary.insert key v members)
    | x => x
  | .size => .int (sizeOf x)

end MapRule

namespace TestRule

/-- The answer for an element. -/
def apply (rule : TestRule) (x : Value) (index : Nat) : Bool :=
  match rule with
  | .no => false
  | .yes => true
  | .gt n => x.word?.any (n < ·)
  | .lt n => x.word?.any (· < n)
  | .mod m r => x.word?.any fun k => hasRemainder k m r
  | .eq v => x = v
  | .indexMod m r => hasRemainder index m r
  | .indexLt n => index < n
  | .indexEq => x.word? = some (index : Int)
  | .isInt => x.word?.isSome
  | .isArray =>
    match x with
    | .list _ => true
    | _ => false
  | .has key => (x.member? key).isSome
  | .not rule => !rule.apply x index

end TestRule

namespace ExpandRule

/-- The expansion of an element. -/
def apply (rule : ExpandRule) (x : Value) (index : Nat) : List Value :=
  match rule with
  | .same => [x]
  | .copies n => List.replicate n.toNat x
  | .plus n => x :: (x.word?.map fun k => wrapped (k + n)).toList
  | .upto =>
    match x.word? with
    | some k => (List.range (min k 100).toNat).map fun (i : Nat) => .int i
    | none => [x]
  | .indexCopies => List.replicate (index % 4) x
  | .items =>
    match x with
    | .list xs => xs
    | _ => []
  | .skipOdd => if x.word?.any (· % 2 ≠ 0) then [] else [x]

end ExpandRule

namespace CombineRule

/-- Folds two numbers; an accumulator or element that is none leaves the accumulator as it is. -/
def onWords (f : Int → Int → Int) (acc x : Value) : Value :=
  match acc.word?, x.word? with
  | some a, some k => wrapped (f a k)
  | _, _ => acc

/-- The accumulator after an element. Lists take up the index if the callback takes one. -/
def apply (rule : CombineRule) (indexed : Bool) (acc x : Value) (index : Nat) : Value :=
  match rule with
  | .keep => acc
  | .sum => onWords (· + ·) acc x
  | .sub => onWords (· - ·) acc x
  | .max => onWords Max.max acc x
  | .poly => onWords (fun a k => a * 31 + k) acc x
  | .indexSum => (acc.word?.map fun a => wrapped (a + index)).getD acc
  | .pair => .list [acc, x]
  | .list =>
    match acc with
    | .list xs => .list (xs ++ [if indexed then .list [x, .int index] else x])
    | acc => .list [acc, x]
  | .last => x

end CombineRule

/-- A named callback: its rule, the tag under which an observer follows it, and the element at which
it fails. -/
structure Routine (ρ : Type) where
  rule : ρ
  tag : Option String
  failsOn : Option Value

namespace Routine

variable {ρ β : Type}

/-- The callback of a function, from what its rule does. -/
def callback (f : Routine ρ) (indexed : Bool) (apply : ρ → Value → Nat → β) :
    Callback Value β where
  label := f.tag
  indexed := indexed
  run x index := if f.failsOn = some x then none else some (apply f.rule x index)

/-- The combiner of a function, with its results read by `read`. -/
def combiner (f : Routine CombineRule) (indexed : Bool) (read : Value → Value) :
    Combiner Value Value where
  label := f.tag
  indexed := indexed
  run acc x index :=
    if f.failsOn = some x then none else some (read (f.rule.apply indexed acc x index))

end Routine

end Script

end StreamFusion
