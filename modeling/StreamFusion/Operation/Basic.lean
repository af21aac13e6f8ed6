import StreamFusion.Callback

/-!
# Operations

What a pipeline does to its elements, as data. Nothing runs until a terminal asks for elements.
-/

namespace StreamFusion

variable {α : Type}

/-- One operation of a pipeline. -/
inductive Op (α : Type) where
  /-- Replaces every element. -/
  | transform (f : Callback α α)
  /-- Keeps the elements that pass a test; `search` is the text query that made it, if one did. -/
  | filter (test : Callback α Bool) (search : Option TextQuery)
  /-- A filter that is known to keep nothing. -/
  | never (indexed : Bool) (search : Option TextQuery)
  /-- Passes over `start` elements, then keeps `stop - start` of them, all of them without
  `stop`. -/
  | range (start : Nat) (stop : Option Nat)
  /-- Replaces every element by the elements that it expands to. -/
  | flatten (expand : Callback α (List α))

/-- What can be told of an operation without running it. -/
inductive OpInfo where
  | transform (indexed : Bool)
  | filter (indexed never : Bool) (search : Option TextQuery)
  | range (start : Nat) (stop : Option Nat)
  | flatten (indexed : Bool)
deriving DecidableEq, Repr

/-- What can be told of an operation. -/
def Op.info : Op α → OpInfo
  | .transform f => .transform f.indexed
  | .filter test search => .filter test.indexed false search
  | .never indexed search => .filter indexed true search
  | .range start stop => .range start stop
  | .flatten expand => .flatten expand.indexed

/-- The record of an operation. -/
def OpInfo.text : OpInfo → String
  | .transform indexed => Text.record "Transform" [("indexed", Text.truth indexed)]
  | .filter indexed never search =>
    Text.record "Filter"
      [("indexed", Text.truth indexed), ("never", Text.truth never),
        ("search", Text.optional (search.map TextQuery.text))]
  | .range start stop =>
    Text.record "Range" [("start", toString start), ("end", Text.optionalCount stop)]
  | .flatten indexed => Text.record "Flatten" [("indexed", Text.truth indexed)]

/-- The record of a list of operations. -/
def Op.listText (ops : List (Op α)) : String := Text.listing (ops.map fun op => op.info.text)

/-- The filter that keeps the elements a text query accepts. A rejected query keeps nothing. -/
def Op.textFilter (query : TextQuery) (field : α → String → Option String) : Op α :=
  if query.isRejected then .never false (some query)
  else .filter (.plain fun x => query.accepts (field x)) (some query)

end StreamFusion
