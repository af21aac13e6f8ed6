import StreamFusion.Script.Basic

/-!
# Reports

Answers, events and descriptions as values, as a script's reader gets them. Events of sources and
callbacks without a label are not told, nor are plans as such.
-/

namespace StreamFusion

namespace Script

/-- A count as a value. -/
def countValue (n : Nat) : Value := .int n

/-- A count that may be absent. -/
def optionalCountValue : Option Nat → Value
  | some n => countValue n
  | none => .null

/-- An element that may be absent. -/
def optionalElement : Option Value → Value
  | some x => .list [x]
  | none => .text "none"

/-- The values of texts. -/
def textValues (texts : List String) : Value := .list (texts.map .text)

/-- What a reader is told when a callback failed at an element. -/
def failureMessage (culprit : Value) : String := "callback failure on " ++ culprit.compact

/-- An error: its kind and its message. -/
def errorMembers (kind message : String) : List (String × Value) :=
  [("error", .text kind), ("message", .text message)]

/-- A refusal as an error. -/
def refusalMembers (refusal : Refusal) : List (String × Value) :=
  errorMembers refusal.kind refusal.message

/-- A gate. -/
def windowValue (w : Window) : Value :=
  .ofMembers [("skip", countValue w.skip), ("take", optionalCountValue w.take)]

/-- The summary of a plan. -/
def summaryValue (s : PlanSummary) : Value :=
  .ofMembers [("steps", countValue s.steps), ("skip_initial", countValue s.skipInitial),
    ("max_emits", optionalCountValue s.maxEmits), ("needs_index", .bool s.needsIndex),
    ("never", .bool s.never), ("gates", .list (s.gates.map windowValue))]

/-- The word for a match rule. -/
def matchRuleWord : MatchRule → String
  | .startsWith => "starts_with"
  | .contains => "contains"

/-- The word for a rejection. -/
def rejectionWord : Rejection → String
  | .noFields => "no_fields"
  | .notSpecific => "not_specific"

/-- A token of a query. -/
def tokenValue (t : TokenRule) : Value :=
  .ofMembers [("token", .text t.token), ("rule", .text (matchRuleWord t.rule))]

/-- A compiled query. -/
def queryValue (q : TextQuery) : Value :=
  let rejected := match q.rejected with
    | some reason => [("rejected", .text (rejectionWord reason))]
    | none => []
  .ofMembers ([("query", .text q.query), ("fields", textValues q.fields),
    ("tokens", .list (q.tokens.map tokenValue))] ++ rejected)

/-- An operation. -/
def opValue : OpInfo → Value
  | .transform indexed => .ofMembers [("op", .text "transform"), ("indexed", .bool indexed)]
  | .filter indexed never search =>
    let found := match search with
      | some q => [("search", queryValue q)]
      | none => []
    .ofMembers ([("op", .text "filter"), ("indexed", .bool indexed), ("never", .bool never)] ++
      found)
  | .range start stop =>
    .ofMembers [("op", .text "range"), ("start", countValue start),
      ("end", optionalCountValue stop)]
  | .flatten indexed => .ofMembers [("op", .text "flatten"), ("indexed", .bool indexed)]

/-- A configuration. -/
def configValue (config : Config) : Value :=
  let contract := match config.contract with
    | .repeatable => "repeatable"
    | .singleUse => "single_use"
  let rangeMode := match config.rangeMode with
    | .baseline => "baseline"
    | .segmented => "segmented"
  let overflow := match config.overflow with
    | .fallback => "fallback"
    | .reject => "reject"
  .ofMembers [("contract", .text contract), ("range_mode", .text rangeMode),
    ("segment_cap", countValue config.segmentCap), ("overflow", .text overflow)]

/-- The word for a source class. -/
def classWord : SourceClass → String
  | .indexed => "indexed"
  | .sequential => "sequential"

/-- The members of an answer: its result, or its error. -/
def replyMembers : Reply Value → List (String × Value)
  | .done => [("ok", .null)]
  | .elements items => [("ok", .list items)]
  | .results items => [("ok", .list items)]
  | .indexedResults items =>
    [("ok", .list (items.map fun entry => .list [entry.1, countValue entry.2]))]
  | .kept items failed =>
    let failedOn := match failed with
      | some x => [("failed_on", x)]
      | none => []
    [("ok", .ofMembers (("kept", .list items) :: failedOn))]
  | .element x => [("ok", x)]
  | .found x => [("ok", optionalElement x)]
  | .pulled items => [("ok", .list (items.map optionalElement))]
  | .count n => [("ok", countValue n)]
  | .truth b => [("ok", .bool b)]
  | .config config => [("ok", configValue config)]
  | .sourceClass found => [("ok", .text (classWord found))]
  | .planSummary summary => [("ok", summaryValue summary)]
  | .description ops => [("ok", .list (ops.map opValue))]
  | .text s => [("ok", .text s)]
  | .refused refusal => refusalMembers refusal
  | .failed culprit => errorMembers "Panic" (failureMessage culprit)
  | .noRoom => errorMembers "Panic" "capacity overflow"
  | .noIterator => errorMembers "NoIterator" "no iterator"
  | .noPipeline => errorMembers "BadInput" "no pipeline"

/-- What the trace tells of an event, if it tells anything. -/
def traceEntry : Event Value → Option Value
  | .opened cursor => cursor.label.map fun name => textValues ["open", name]
  | .pulled cursor x => cursor.label.map fun name => .list [.text "pull", .text name, x]
  | .ended cursor => cursor.label.map fun name => textValues ["end", name]
  | .closed cursor => cursor.label.map fun name => textValues ["close", name]
  | .probed source => source.label.map fun name => .list [.text "get", .text name, .int 0]
  | .read source position =>
    source.label.map fun name => .list [.text "get", .text name, countValue position]
  | .called label x index =>
    label.map fun tag => .list ([.text "call", .text tag, x] ++ (index.map countValue).toList)
  | .taken _ | .dropped _ | .planned _ | .noted _ => none

/-- The fields of a note. -/
def noteFields : Note → List (String × Value)
  | .compiled steps gates skipInitial maxEmits slots =>
    [("steps", countValue steps), ("gates", countValue gates),
      ("skip_initial", countValue skipInitial),
      ("max_emits", .text (Text.optionalCount maxEmits)), ("index_slots", countValue slots)]
  | .staticallyEmpty | .notOpened => []
  | .runFinished stats =>
    [("scanned", countValue stats.scanned), ("jumped", countValue stats.jumped),
      ("emitted", countValue stats.emitted), ("early_stop", .bool stats.earlyStop)]
  | .queryRejected query reason => [("query", .text query), ("reason", .text reason.name)]
  | .segmentsExceedCap segments cap => [("segments", countValue segments), ("cap", countValue cap)]

/-- What the log tells of an event, if it tells anything. -/
def logEntry : Event Value → Option Value
  | .noted note =>
    some (.ofMembers ([("level", .text note.level.name), ("message", .text note.message)] ++
      noteFields note))
  | _ => none

/-- A list of entries under a name, left out if it is empty. -/
def nonEmpty (name : String) (entries : List Value) : List (String × Value) :=
  if entries.isEmpty then [] else [(name, .list entries)]

/-- The answer to one step. -/
def answerValue (log : Bool) (answer : Reply Value × List (Event Value)) : Value :=
  .ofMembers (replyMembers answer.1 ++ nonEmpty "trace" (answer.2.filterMap traceEntry) ++
    if log then nonEmpty "log" (answer.2.filterMap logEntry) else [])

/-- The answers to a script. -/
def report (log : Bool) (steps : List Instruction) : Value :=
  let (answers, final) := run steps
  .ofMembers (("steps", .list (answers.map (answerValue log))) ::
    nonEmpty "end" (final.filterMap traceEntry))

/-- What planning a list of operations gives. -/
def planReport (ops : List (Op Value)) (config : Config) : Value :=
  let plan := match (compile ops config).verdict with
    | .ok plan =>
      [("ok", summaryValue plan.summary), ("debug", .text plan.summary.text)]
    | .error refusal => refusalMembers refusal
  .ofMembers [("ops", .list (ops.map fun op => opValue op.info)),
    ("ops_debug", .text (Op.listText ops)), ("plan", .ofMembers plan)]

/-- What a text query finds in items that are read into a shape. -/
def queryReport (query : String) (fields : List String) (shape : Shape) (items : List Value) :
    Value :=
  let compiled := TextQuery.compile query fields
  let found := items.map shape.read
  let fieldValue (x : Value) (name : String) : Value :=
    match textAt x name with
    | some s => .text s
    | none => .null
  .ofMembers [("info", queryValue compiled), ("rejected", .bool compiled.isRejected),
    ("matches", .list (found.map fun x => .bool (compiled.accepts (textAt x)))),
    ("fields", .list (found.map fun x => .list (fields.map (fieldValue x))))]

/-- What a container holds at some positions. -/
def accessReport (box : Container Value) (positions : List Nat) : Value :=
  .ofMembers [("len", countValue box.size), ("is_empty", .bool box.isEmpty),
    ("get", .list (positions.map fun position => optionalElement (box.get? position)))]

/-- The texts of a refusal. -/
def refusalReport (refusal : Refusal) : Value :=
  .ofMembers [("display", .text refusal.message), ("debug", .text refusal.text)]

end Script

end StreamFusion
