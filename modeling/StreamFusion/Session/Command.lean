import StreamFusion.Pipeline.Building
import StreamFusion.Pipeline.Description
import StreamFusion.Pipeline.Terminal

/-!
# Commands

What a session can be told to do with its named pipelines and iterators, and what it answers.
-/

namespace StreamFusion

variable {α : Type}

/-- The origin of the elements of a new pipeline. -/
inductive Origin (α : Type) where
  | container (label : Option String) (box : Container α)
  | replay (label : Option String) (answers : List (Option α))
  | once (label : Option String) (answers : List (Option α))

/-- How a pipeline is made from another one. -/
inductive Extension (α : Type) where
  | op (op : Op α)
  | textFilter (query : String) (fields : List String) (field : α → String → Option String)
  | slice (start : Int) (stop : Option Int)
  | link (through : Link α) (width : Nat)
  | config (config : Config)
  | copy

/-- What can be asked of a pipeline without running it. -/
inductive Inquiry where
  | config
  | sourceClass
  | planSummary
  | describe
  | text
deriving DecidableEq, Repr

/-- What sets a pipeline going. -/
inductive Terminal (α : Type) where
  | toList
  | count
  | isEmpty
  | forEach (f : Callback α α)
  | tryForEach (fails : Callback α Bool)
  | fold (f : Combiner α α) (seed : α)
  | reduce (f : Combiner α α)
  | any (test : Callback α Bool)
  | all (test : Callback α Bool)
  | find (test : Callback α Bool)

/-- One command of a session. -/
inductive Command (α : Type) where
  /-- Names a new pipeline over elements of a width. -/
  | create (name : String) (origin : Origin α) (width : Nat)
  /-- Names a pipeline made from another one. -/
  | extend (name base : String) (extension : Extension α)
  /-- Asks about a pipeline. -/
  | inquire (name : String) (inquiry : Inquiry)
  /-- Runs a pipeline. -/
  | run (name : String) (terminal : Terminal α)
  /-- Names an iterator over a pipeline. -/
  | iterate (name pipeline : String)
  /-- Pulls that many times. -/
  | next (iterator : String) (count : Nat)
  /-- Pulls until there is nothing more. -/
  | rest (iterator : String)
  /-- Lets an iterator go. -/
  | close (iterator : String)
  /-- Forgets a pipeline. -/
  | release (name : String)

/-- What a session answers to a command. -/
inductive Reply (α : Type) where
  | done
  | elements (items : List α)
  | results (items : List α)
  | indexedResults (items : List (α × Nat))
  | kept (items : List α) (failed : Option α)
  | element (x : α)
  | found (x : Option α)
  | pulled (items : List (Option α))
  | count (n : Nat)
  | truth (b : Bool)
  | config (config : Config)
  | sourceClass (found : SourceClass)
  | planSummary (summary : PlanSummary)
  | description (ops : List OpInfo)
  | text (s : String)
  | refused (refusal : Refusal)
  /-- A callback failed at an element. -/
  | failed (culprit : α)
  /-- There was no room for the elements of a list. -/
  | noRoom
  /-- No iterator has that name. -/
  | noIterator
  /-- No pipeline has that name. -/
  | noPipeline

end StreamFusion
