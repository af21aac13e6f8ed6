import StreamFusion.Text.Lowercase.Table

/-!
# Lower case

The lower case of a text, character by character. Two characters are special: U+0130 becomes two
characters, and a capital sigma at the end of a word becomes the final small sigma. It ends a word
if the next character before it, past those that the rule looks past, is cased, and the next one
after it is not.
-/

namespace StreamFusion

namespace Text

/-- Is the character cased? -/
def isCased (c : Char) : Bool := casedRanges.holds c.toNat

/-- Does the word-final rule look past the character? -/
def isCaseIgnorable (c : Char) : Bool := caseIgnorableRanges.holds c.toNat

/-- The lower case of a character by itself. -/
def lowerChar (c : Char) : List Char :=
  if c = '\u0130' then ['i', '\u0307']
  else
    match lowerRuns.findSome? (fun run => run.lower? c.toNat) with
    | some code => [Char.ofNat code]
    | none => [c]

/-- Is the next character, past those that the word-final rule looks past, cased? -/
def meetsCased (cs : List Char) : Bool :=
  match cs.dropWhile isCaseIgnorable with
  | c :: _ => isCased c
  | [] => false

/-- The small sigma for a capital one between `before`, read backwards, and `after`. -/
def smallSigma (before after : List Char) : Char :=
  if meetsCased before && !meetsCased after then 'ς' else 'σ'

/-- The lower case of characters that follow `before`, which is read backwards. -/
def lowerFrom (before : List Char) : List Char → List Char
  | [] => []
  | c :: rest =>
    (if c = 'Σ' then [smallSigma before rest] else lowerChar c) ++ lowerFrom (c :: before) rest

/-- The lower case of a text. -/
def lowercase (s : String) : String := String.ofList (lowerFrom [] s.toList)

end Text

end StreamFusion
