import StreamFusion.Text.Hidden

/-!
# Records in text

How data is shown to a reader: a record is its name and its fields in braces, a list stands in
square brackets, and a value that may be absent is `None` or `Some(value)`. A text stands in quotes:
a quote, a backslash, a tab, a line feed, a carriage return and NUL are escaped by a letter or
digit, other characters without a glyph of their own by their code point in hexadecimal, and all
else stands for itself.
-/

namespace StreamFusion

namespace Text

/-- A character by its code point, in braces. -/
def escapeCode (c : Char) : List Char :=
  ['\\', 'u', '\x7b'] ++ Nat.toDigits 16 c.toNat ++ ['\x7d']

/-- One character inside a quoted text. -/
def escape (c : Char) : List Char :=
  if c = '\x00' then ['\\', '0']
  else if c = '\t' then ['\\', 't']
  else if c = '\n' then ['\\', 'n']
  else if c = '\r' then ['\\', 'r']
  else if c = '\\' then ['\\', '\\']
  else if c = '"' then ['\\', '"']
  else if isHidden c then escapeCode c
  else [c]

/-- A text in quotes. -/
def quoted (s : String) : String :=
  String.ofList ('"' :: (s.toList.flatMap escape ++ ['"']))

/-- A record: its name, then its fields in braces. -/
def record (name : String) (fields : List (String × String)) : String :=
  name ++ " \x7b " ++ ", ".intercalate (fields.map fun field => field.1 ++ ": " ++ field.2) ++ " \x7d"

/-- A value under the name of its case. -/
def tagged (name value : String) : String := name ++ "(" ++ value ++ ")"

/-- A list in square brackets. -/
def listing (items : List String) : String := "[" ++ ", ".intercalate items ++ "]"

/-- A value that may be absent. -/
def optional : Option String → String
  | none => "None"
  | some value => tagged "Some" value

/-- A truth value. -/
def truth (b : Bool) : String := if b then "true" else "false"

/-- A count that may be absent. -/
def optionalCount (count : Option Nat) : String := optional (count.map toString)

end Text

end StreamFusion
