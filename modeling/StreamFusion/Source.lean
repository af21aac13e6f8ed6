import StreamFusion.Config
import StreamFusion.Container
import StreamFusion.Operation.Basic

/-!
# Sources and pipelines

A pipeline is a source together with a recipe: what is to be done with the elements of the source.
The source of a pipeline may in turn be another pipeline, read through a link. Sources and recipes
are numbered; what was found out about them is kept under their numbers.
-/

namespace StreamFusion

variable {α : Type}

/-- The operations of a pipeline and their configuration. -/
structure Recipe (α : Type) where
  serial : Nat
  ops : List (Op α)
  config : Config
  /-- How many bytes an element takes up in a list. -/
  width : Nat

/-- How a source reads another pipeline. -/
inductive Link (α : Type) where
  /-- Every element is replaced. -/
  | map (f : Callback α α)
  /-- Every element is replaced by its items. -/
  | flatten (items : α → List α)
  /-- All elements are collected, and those between two bounds are kept. -/
  | slice (start : Int) (stop : Option Int)

/-- Where the elements of a pipeline come from. -/
inductive Source (α : Type) where
  /-- A container. -/
  | container (id : Ident) (box : Container α)
  /-- A new cursor for every run; all of them give the same answers. -/
  | replay (id : Ident) (answers : List (Option α))
  /-- One cursor, for one run. -/
  | once (id : Ident) (answers : List (Option α))
  /-- The results of another pipeline. -/
  | derived (id : Ident) (link : Link α) (base : Source α) (recipe : Recipe α)

/-- A source and what is to be done with its elements. -/
structure Pipeline (α : Type) where
  source : Source α
  recipe : Recipe α

/-- How a source can be read. -/
inductive SourceClass where
  /-- At any position. -/
  | indexed
  /-- One element after the other. -/
  | sequential
deriving DecidableEq, Repr

/-- The kinds of sources that a reader is told of. -/
inductive SourceKind where
  | indexed
  | replay
  | once
  | deferred
deriving DecidableEq, Repr

/-- The name of a source class. -/
def SourceClass.name : SourceClass → String
  | .indexed => "Indexed"
  | .sequential => "Sequential"

/-- The name of a kind of source. -/
def SourceKind.name : SourceKind → String
  | .indexed => "indexed"
  | .replay => "replay"
  | .once => "once"
  | .deferred => "deferred"

namespace Source

/-- The number of a source. -/
def id : Source α → Ident
  | .container id _ | .replay id _ | .once id _ | .derived id .. => id

/-- The kind of a source. A pipeline that is sliced is read when its elements are needed; other
links give a new cursor for every run. -/
def kind : Source α → SourceKind
  | .container .. => .indexed
  | .replay .. => .replay
  | .once .. => .once
  | .derived _ (.slice ..) _ _ => .deferred
  | .derived .. => .replay

end Source

/-- The positions between two bounds in a list of the given length. A negative bound counts from the
end; bounds are capped, and the second one is at least the first. -/
def sliceBounds (length : Nat) (start : Int) (stop : Option Int) : Nat × Nat :=
  let resolve (bound : Int) : Nat :=
    if bound < 0 then length - bound.natAbs else min bound.natAbs length
  let lower := resolve start
  let upper := match stop with
    | some bound => resolve bound
    | none => length
  (lower, max upper lower)

/-- The items of a list between two bounds. -/
def sliceItems (items : List α) (start : Int) (stop : Option Int) : List α :=
  let bounds := sliceBounds items.length start stop
  (items.take bounds.2).drop bounds.1

end StreamFusion
