import StreamFusion.Text.CodePoints
import StreamFusion.Text.Lowercase
import StreamFusion.Text.Record

/-!
# Text queries

A query is a list of words to be found in the named text fields of an element, letter case apart.
Every word must be found in at least one field: a word of fewer than four characters at its start,
a longer one anywhere. A query without fields, or without any word of three characters, is rejected
and matches nothing.
-/

namespace StreamFusion

/-- Where a token must stand in a field. -/
inductive MatchRule where
  | startsWith
  | contains
deriving DecidableEq, Repr

/-- A word in lower case, and where it must stand. -/
structure TokenRule where
  token : String
  rule : MatchRule
deriving DecidableEq, Repr

/-- Why a query matches nothing. -/
inductive Rejection where
  | noFields
  | notSpecific
deriving DecidableEq, Repr

/-- A compiled query. The tokens stand in the order in which they are tried, longest first. -/
structure TextQuery where
  query : String
  fields : List String
  tokens : List TokenRule
  rejected : Option Rejection
deriving DecidableEq, Repr

namespace Text

/-- Do the characters of `part` stand together in a list of characters? -/
def occursIn (part : List Char) : List Char → Bool
  | [] => part.isEmpty
  | c :: rest => part.isPrefixOf (c :: rest) || occursIn part rest

end Text

namespace TokenRule

/-- A word of fewer characters must stand at the start of a field. -/
def containsLength : Nat := 4

/-- The token of a word. The length of the word counts, not that of its lower case. -/
def ofWord (word : String) : TokenRule where
  token := Text.lowercase word
  rule := if word.length < containsLength then .startsWith else .contains

/-- Is the token found in a text in lower case? -/
def found (t : TokenRule) (text : String) : Bool :=
  match t.rule with
  | .startsWith => t.token.toList.isPrefixOf text.toList
  | .contains => Text.occursIn t.token.toList text.toList

end TokenRule

namespace TextQuery

/-- A query needs a word of this length. -/
def specificLength : Nat := 3

/-- The words of a query, longest first; words of one length keep their order. -/
def sortedWords (query : String) : List String :=
  (Text.words query).mergeSort (fun a b => b.length ≤ a.length)

/-- Why a query with these words and fields is rejected, if it is. -/
def rejection? (words fields : List String) : Option Rejection :=
  if fields.isEmpty then some .noFields
  else if words.any (fun word => specificLength ≤ word.length) then none
  else some .notSpecific

/-- The compiled query. -/
def compile (query : String) (fields : List String) : TextQuery where
  query := query
  fields := fields
  tokens := (sortedWords query).map TokenRule.ofWord
  rejected := rejection? (sortedWords query) fields

/-- Is the query rejected? -/
def isRejected (q : TextQuery) : Bool := q.rejected.isSome

/-- Does an element with these field texts match? A missing text counts as an empty one. -/
def accepts (q : TextQuery) (field : String → Option String) : Bool :=
  if q.isRejected then false
  else
    let texts := q.fields.map fun name => Text.lowercase ((field name).getD "")
    q.tokens.all fun token => texts.any token.found

end TextQuery

/-- The name of a match rule. -/
def MatchRule.name : MatchRule → String
  | .startsWith => "StartsWith"
  | .contains => "Contains"

/-- The name of a rejection. -/
def Rejection.name : Rejection → String
  | .noFields => "NoFields"
  | .notSpecific => "NotSpecific"

/-- The record of a token. -/
def TokenRule.text (t : TokenRule) : String :=
  Text.record "TokenRule" [("token", Text.quoted t.token), ("rule", t.rule.name)]

/-- The record of a query. -/
def TextQuery.text (q : TextQuery) : String :=
  Text.record "SearchInfo"
    [("query", Text.quoted q.query), ("fields", Text.listing (q.fields.map Text.quoted)),
      ("tokens", Text.listing (q.tokens.map TokenRule.text)),
      ("rejected", Text.optional (q.rejected.map Rejection.name))]

end StreamFusion
