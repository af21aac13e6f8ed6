import StreamFusion.Value.Basic

/-!
# Shapes

The shape of the elements of a stream: any value, a byte, a list, or an object of texts. Reading a
value into a shape gives the value of that shape that stands for it. The width of a shape is the
number of bytes that one of its elements takes up in a list, without what it points to.
-/

namespace StreamFusion

/-- The shape of the elements of a stream. -/
inductive Shape where
  | any
  | byte
  | list
  | texts
deriving DecidableEq, Repr

namespace Shape

/-- The members of an object that are texts. -/
def textMembers (members : List (String × Value)) : List (String × Value) :=
  members.filter fun member =>
    match member.2 with
    | .text _ => true
    | _ => false

/-- Reads a value into a shape. A byte is a 64-bit number modulo 256, and zero for anything else; a
value that is no list is a list by itself; an object keeps its texts, and anything else has none. -/
def read : Shape → Value → Value
  | .any, v => v
  | .byte, v => .int ((v.word?.getD 0) % 256)
  | .list, .list items => .list items
  | .list, v => .list [v]
  | .texts, .object members => .object (textMembers members)
  | .texts, _ => .object []

/-- The width of the elements of a shape. An object of texts is taken to be a hash table. -/
def width : Shape → Nat
  | .any => 32
  | .byte => 1
  | .list => 24
  | .texts => 48

end Shape

end StreamFusion
