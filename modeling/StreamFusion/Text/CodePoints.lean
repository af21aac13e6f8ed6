/-!
# Code points and words

A set of code points is a list of closed ranges in increasing order. Blanks are the characters with
the Unicode property White_Space. The words of a text are its longest stretches without blanks, in
order.
-/

namespace StreamFusion

namespace Text

/-- Closed ranges of code points, in increasing order. -/
abbrev CodeRanges := List (Nat × Nat)

/-- Does a range of the list hold the code point? -/
def CodeRanges.holds (ranges : CodeRanges) (code : Nat) : Bool :=
  ranges.any (fun range => range.1 ≤ code && code ≤ range.2)

/-- The code points of blanks. -/
def blankRanges : CodeRanges :=
  [(0x9, 0xD), (0x20, 0x20), (0x85, 0x85), (0xA0, 0xA0), (0x1680, 0x1680), (0x2000, 0x200A),
  (0x2028, 0x2029), (0x202F, 0x202F), (0x205F, 0x205F), (0x3000, 0x3000)]

/-- Is the character a blank? -/
def isBlank (c : Char) : Bool := blankRanges.holds c.toNat

/-- The words of a list of characters, where `word` holds the characters of the word that is being
read, the last one first. -/
def wordsFrom (word : List Char) : List Char → List (List Char)
  | [] => if word.isEmpty then [] else [word.reverse]
  | c :: rest =>
    if isBlank c then
      if word.isEmpty then wordsFrom [] rest else word.reverse :: wordsFrom [] rest
    else wordsFrom (c :: word) rest

/-- The words of a text. -/
def words (s : String) : List String := (wordsFrom [] s.toList).map String.ofList

end Text

end StreamFusion
