import StreamFusion.Dictionary
import StreamFusion.Intake.Pulls
import StreamFusion.Session.Command

/-!
# Sessions

A session keeps pipelines and iterators under names and carries out commands on them. A command that
gives no result leaves the names as they were. The events of a command are told with its answer.
-/

namespace StreamFusion

variable {α β : Type}

/-- Named pipelines and iterators, and what is remembered between runs. -/
structure Session (α : Type) where
  pipelines : Dictionary (Pipeline α)
  iterators : Dictionary (Intake α)
  world : World α

/-- The answer to a command, what happened meanwhile, and the session after it. -/
structure Response (α : Type) where
  reply : Reply α
  events : List (Event α)
  session : Session α

namespace Session

/-- The session without any names. -/
def initial : Session α := ⟨[], [], .initial⟩

/-- The answer of an act that was refused or that failed. -/
def haltReply : Halt α → Reply α
  | .refused refusal => .refused refusal
  | .failed culprit => .failed culprit
  | .noRoom => .noRoom

/-- Carries out an act with an empty journal, and then goes on with its result. -/
def perform (s : Session α) (act : Act α β) (next : β → Session α → Response α) : Response α :=
  match act { s.world with journal := .empty } with
  | .ok b w =>
    let response := next b { s with world := { w with journal := .empty } }
    { response with events := w.journal.events ++ response.events }
  | .error halt w =>
    ⟨haltReply halt, w.journal.events, { s with world := { w with journal := .empty } }⟩

/-- Answers and stays as it is. -/
def reply (answer : Reply α) (s : Session α) : Response α := ⟨answer, [], s⟩

/-- Gives a pipeline a name. -/
def bindPipeline (name : String) (p : Pipeline α) (s : Session α) : Response α :=
  ⟨.done, [], { s with pipelines := s.pipelines.insert name p }⟩

/-- Gives an iterator a name. An older one of that name is let go after the new one was made. -/
def bindIterator (name : String) (intake : Intake α) (s : Session α) : Response α :=
  let released := match s.iterators.find? name with
    | some old => old.release
    | none => []
  ⟨.done, released, { s with iterators := s.iterators.insert name intake }⟩

/-- The act that makes the pipeline of an origin, over elements of a width. -/
def makeOrigin (width : Nat) : Origin α → Act α (Pipeline α)
  | .container label box => Pipeline.ofContainer label box width
  | .replay label answers => Pipeline.replay label answers width
  | .once label answers => Pipeline.once label answers width

/-- The act that makes a pipeline from another one. -/
def makeExtension (p : Pipeline α) : Extension α → Act α (Pipeline α)
  | .op op => p.push op
  | .textFilter query fields field => p.filterText query fields field
  | .slice start stop => p.slice start stop
  | .link through width => p.link through width
  | .config config => p.withConfig config
  | .copy => p.copy

/-- The act that answers an inquiry. -/
def answerInquiry (p : Pipeline α) : Inquiry → Act α (Reply α)
  | .config => pure (.config p.recipe.config)
  | .sourceClass => .sourceClass <$> p.sourceClass
  | .planSummary => .planSummary <$> p.planSummary
  | .describe => pure (.description p.describe)
  | .text => .text <$> p.text

/-- The act that runs a terminal. -/
def runTerminal (p : Pipeline α) : Terminal α → Act α (Reply α)
  | .toList => .elements <$> p.toList
  | .count => .count <$> p.count
  | .isEmpty => .truth <$> p.isEmpty
  | .forEach f => do
    let found ← p.forEach f
    pure (if f.indexed then .indexedResults found else .results (found.map Prod.fst))
  | .tryForEach fails => do
    let (kept, failed) ← p.tryForEach fails
    pure (.kept kept failed)
  | .fold f seed => .element <$> p.fold f seed
  | .reduce f => .element <$> p.reduce f
  | .any test => .truth <$> p.any test
  | .all test => .truth <$> p.all test
  | .find test => .found <$> p.find test

/-- Answers with what was pulled from an iterator, and keeps the iterator where it stopped. -/
def pulledFrom (s : Session α) (name : String) (pulls : Pulls α)
    (answer : List (Option α) → Reply α) : Response α :=
  let reply := match pulls.culprit with
    | some culprit => .failed culprit
    | none => answer pulls.items
  ⟨reply, pulls.events, { s with iterators := s.iterators.insert name pulls.rest }⟩

/-- Does something with a named pipeline. -/
def withPipeline (s : Session α) (name : String) (body : Pipeline α → Response α) : Response α :=
  match s.pipelines.find? name with
  | some p => body p
  | none => s.reply .noPipeline

/-- Does something with a named iterator. -/
def withIterator (s : Session α) (name : String) (body : Intake α → Response α) : Response α :=
  match s.iterators.find? name with
  | some intake => body intake
  | none => s.reply .noIterator

/-- Carries out a command. -/
def execute (s : Session α) : Command α → Response α
  | .create name origin width => s.perform (makeOrigin width origin) (bindPipeline name)
  | .extend name base extension =>
    s.withPipeline base fun p => s.perform (makeExtension p extension) (bindPipeline name)
  | .inquire name inquiry => s.withPipeline name fun p => s.perform (answerInquiry p inquiry) reply
  | .run name terminal => s.withPipeline name fun p => s.perform (runTerminal p terminal) reply
  | .iterate name pipeline =>
    s.withPipeline pipeline fun p => s.perform p.iterate (bindIterator name)
  | .next name count =>
    s.withIterator name fun intake => s.pulledFrom name (intake.nextTimes count) .pulled
  | .rest name =>
    s.withIterator name fun intake =>
      s.pulledFrom name intake.remaining fun items => .elements (items.filterMap id)
  | .close name =>
    match s.iterators.find? name with
    | some intake => ⟨.done, intake.release, { s with iterators := s.iterators.erase name }⟩
    | none => s.reply .done
  | .release name => ⟨.done, [], { s with pipelines := s.pipelines.erase name }⟩

/-- Carries out commands one after the other. -/
def executeAll (s : Session α) : List (Command α) → List (Reply α × List (Event α)) × Session α
  | [] => ([], s)
  | command :: rest =>
    let response := s.execute command
    let (later, final) := response.session.executeAll rest
    ((response.reply, response.events) :: later, final)

/-- What happens when a session ends: the iterators that are left are let go, in the order of their
names. -/
def finish (s : Session α) : List (Event α) := s.iterators.flatMap fun entry => entry.2.release

end Session

end StreamFusion
