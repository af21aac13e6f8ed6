import StreamFusion.Pipeline.World

/-!
# Building pipelines

Pipelines are made from sources and from other pipelines. What a pipeline was made from stays as it
is, and nothing runs. A new pipeline has not been planned and has not run; only a copy takes over
what planning gave.
-/

namespace StreamFusion

variable {α : Type}

namespace Pipeline

/-- A pipeline without operations, over elements of a width. -/
def ofSource (source : Source α) (config : Config) (width : Nat) : Act α (Pipeline α) :=
  return ⟨source, ⟨← Act.fresh, [], config, width⟩⟩

/-- A pipeline over a container. -/
def ofContainer (label : Option String) (box : Container α) (width : Nat) :
    Act α (Pipeline α) := do
  ofSource (.container ⟨← Act.fresh, label⟩ box) .standard width

/-- A pipeline over a new cursor for every run. -/
def replay (label : Option String) (answers : List (Option α)) (width : Nat) :
    Act α (Pipeline α) := do
  ofSource (.replay ⟨← Act.fresh, label⟩ answers) .standard width

/-- A pipeline over one cursor. -/
def once (label : Option String) (answers : List (Option α)) (width : Nat) :
    Act α (Pipeline α) := do
  ofSource (.once ⟨← Act.fresh, label⟩ answers) .standard width

/-- Other operations and another configuration over the same source. -/
def derive (p : Pipeline α) (ops : List (Op α)) (config : Config) : Act α (Pipeline α) :=
  return ⟨p.source, ⟨← Act.fresh, ops, config, p.recipe.width⟩⟩

/-- One more operation. -/
def push (p : Pipeline α) (op : Op α) : Act α (Pipeline α) :=
  p.derive (p.recipe.ops ++ [op]) p.recipe.config

/-- The same operations under another configuration. -/
def withConfig (p : Pipeline α) (config : Config) : Act α (Pipeline α) :=
  p.derive p.recipe.ops config

/-- A pipeline that reads this one through a link, over elements of a width of its own. -/
def link (p : Pipeline α) (through : Link α) (width : Nat) : Act α (Pipeline α) := do
  let base ← p.derive p.recipe.ops p.recipe.config
  ofSource (.derived ⟨← Act.fresh, none⟩ through base.source base.recipe) p.recipe.config width

/-- The elements between two bounds, where negative bounds count from the end. Only those need to
know how many elements there are. -/
def slice (p : Pipeline α) (start : Int) (stop : Option Int) : Act α (Pipeline α) :=
  match start, stop with
  | .ofNat lower, none => p.push (.range lower none)
  | .ofNat lower, some (.ofNat upper) => p.push (.range lower (some upper))
  | start, stop => p.link (.slice start stop) p.recipe.width

/-- The elements that a text query accepts. -/
def filterText (p : Pipeline α) (query : String) (fields : List String)
    (field : α → String → Option String) : Act α (Pipeline α) := do
  let compiled := TextQuery.compile query fields
  match compiled.rejected with
  | some reason => Act.record [.noted (.queryRejected query reason)]
  | none => pure ()
  p.push (.textFilter compiled field)

/-- A copy, with what planning gave. The copy has not run. -/
def copy (p : Pipeline α) : Act α (Pipeline α) := do
  let q ← p.derive p.recipe.ops p.recipe.config
  let known := (← Act.recipeMemo p.recipe.serial).verdict
  Act.updateRecipe q.recipe.serial fun memo => { memo with verdict := known }
  pure q

end Pipeline

end StreamFusion
