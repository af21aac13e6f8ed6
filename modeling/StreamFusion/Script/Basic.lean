import StreamFusion.Script.Rule
import StreamFusion.Session.Basic
import StreamFusion.Value.Shape

/-!
# Scripts

A script is a list of steps on named streams of values. The shape of the elements of every stream is
known from the steps before, and with it the command that a step stands for: results of callbacks
are read into the shape of the stream.
-/

namespace StreamFusion

namespace Script

/-- What a new stream holds. -/
inductive Stock where
  | items (items : List Value)
  /-- The bytes of a text. -/
  | text (text : String)
  /-- A container of a size, with holes, that an observer follows. -/
  | sparse (size : Nat) (items : List Value) (holes : List Nat)
  | replay (items : List Value)
  | once (items : List Value)
  /-- Cursors that an observer follows; at the pulls in `holes` they give nothing. -/
  | replayCursor (items : List Value) (holes : List Nat)
  | onceCursor (items : List Value) (holes : List Nat)

/-- How a step makes a stream from another one. -/
inductive Alteration where
  | transform (f : Routine MapRule) (indexed : Bool)
  | filter (f : Routine TestRule) (indexed : Bool)
  | flatMap (f : Routine ExpandRule) (indexed : Bool)
  | range (start : Nat) (stop : Option Nat)
  | slice (start : Int) (stop : Option Int)
  | flatten
  | map (f : Routine MapRule) (target : Shape)
  | filterText (query : String) (fields : List String)
  | withConfig (config : Config)
  | copy

/-- What a step wants to know of the elements of a stream. -/
inductive Goal where
  | toList
  | count
  | isEmpty
  | forEach (f : Routine MapRule) (indexed : Bool)
  | tryForEach (f : Routine TestRule)
  | fold (f : Routine CombineRule) (indexed : Bool) (seed : Value)
  | reduce (f : Routine CombineRule) (indexed : Bool)
  | any (f : Routine TestRule) (indexed : Bool)
  | all (f : Routine TestRule) (indexed : Bool)
  | find (f : Routine TestRule) (indexed : Bool)

/-- What a step does. -/
inductive Action where
  | source (stock : Stock) (shape : Shape)
  | alter (alteration : Alteration)
  | inquire (inquiry : Inquiry)
  | run (goal : Goal)
  | iterate
  | next (count : Nat)
  | rest
  | close
  | release

/-- A step of a script: what it acts on, the name of what it makes, and what it does. -/
structure Instruction where
  subject : String
  result : String
  action : Action

/-- The answers of a cursor to its pulls, from the pull of number `pull` on. A hole takes no item
away. -/
def cursorAnswers (holes : List Nat) (pull : Nat) : List Value → List (Option Value)
  | [] => []
  | x :: items =>
    if pull ∈ holes then [none] else some x :: cursorAnswers holes (pull + 1) items

/-- The origin of a stock, for elements of a shape, under the name of its stream. -/
def Stock.origin (name : String) (shape : Shape) : Stock → Origin Value
  | .items xs => .container none (.ofList (xs.map shape.read))
  | .text s => .container none (.ofText s fun byte => .int byte)
  | .sparse size xs holes => .container (some name) (.sparse size (xs.map shape.read) holes)
  | .replay xs => .replay none (xs.map fun x => some (shape.read x))
  | .once xs => .once none (xs.map fun x => some (shape.read x))
  | .replayCursor xs holes => .replay (some name) (cursorAnswers holes 0 (xs.map shape.read))
  | .onceCursor xs holes => .once (some name) (cursorAnswers holes 0 (xs.map shape.read))

/-- The items of a value that is a list. -/
def listItems : Value → List Value
  | .list items => items
  | _ => []

/-- The items of a value that is a list, and any other value by itself. -/
def unnest : Value → List Value
  | .list items => items
  | v => [v]

/-- The texts of a value under field names. -/
def textAt (v : Value) (name : String) : Option String := v.textField name

/-- The extension of a stream of a shape, and the shape of the new stream. -/
def Alteration.extension (shape : Shape) : Alteration → Extension Value × Shape
  | .transform f indexed =>
    (.op (.transform (f.callback indexed fun rule x i => shape.read (rule.apply x i))), shape)
  | .filter f indexed => (.op (.filter (f.callback indexed TestRule.apply) none), shape)
  | .flatMap f indexed =>
    (.op (.flatten (f.callback indexed fun rule x i => (rule.apply x i).map shape.read)), shape)
  | .range start stop => (.op (.range start stop), shape)
  | .slice start stop => (.slice start stop, shape)
  | .flatten =>
    match shape with
    | .list => (.link (.flatten listItems) Shape.any.width, .any)
    | _ => (.op (.flatten (.plain unnest)), shape)
  | .map f target =>
    (.link (.map (f.callback false fun rule x i => target.read (rule.apply x i))) target.width,
      target)
  | .filterText query fields => (.textFilter query fields textAt, shape)
  | .withConfig config => (.config config, shape)
  | .copy => (.copy, shape)

/-- The terminal that reaches a goal on a stream of a shape. -/
def Goal.terminal (shape : Shape) : Goal → Terminal Value
  | .toList => .toList
  | .count => .count
  | .isEmpty => .isEmpty
  | .forEach f indexed => .forEach (f.callback indexed MapRule.apply)
  | .tryForEach f => .tryForEach (f.callback false TestRule.apply)
  | .fold f indexed seed => .fold (f.combiner indexed id) seed
  | .reduce f indexed => .reduce (f.combiner indexed shape.read)
  | .any f indexed => .any (f.callback indexed TestRule.apply)
  | .all f indexed => .all (f.callback indexed TestRule.apply)
  | .find f indexed => .find (f.callback indexed TestRule.apply)

/-- The shapes of the named streams. -/
abbrev Shapes := Dictionary Shape

/-- The command of a step, and the shapes of the streams after it. -/
def Instruction.command (shapes : Shapes) (step : Instruction) : Command Value × Shapes :=
  let shape := (shapes.find? step.subject).getD .any
  match step.action with
  | .source stock shape =>
    (.create step.result (stock.origin step.result shape) shape.width,
      shapes.insert step.result shape)
  | .alter alteration =>
    let (extension, after) := alteration.extension shape
    (.extend step.result step.subject extension, shapes.insert step.result after)
  | .inquire inquiry => (.inquire step.subject inquiry, shapes)
  | .run goal => (.run step.subject (goal.terminal shape), shapes)
  | .iterate => (.iterate step.result step.subject, shapes)
  | .next count => (.next step.subject count, shapes)
  | .rest => (.rest step.subject, shapes)
  | .close => (.close step.subject, shapes)
  | .release => (.release step.subject, shapes)

/-- The commands of a script. -/
def commands (shapes : Shapes) : List Instruction → List (Command Value)
  | [] => []
  | step :: rest => (step.command shapes).1 :: commands (step.command shapes).2 rest

/-- The answers to the steps of a script with their events, and what happens at its end. -/
def run (steps : List Instruction) : List (Reply Value × List (Event Value)) × List (Event Value) :=
  let (answers, final) := Session.initial.executeAll (commands [] steps)
  (answers, final.finish)

end Script

end StreamFusion
