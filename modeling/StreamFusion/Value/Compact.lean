import StreamFusion.Value.Basic

/-!
# Compact text of values

The JSON text of a value without any blanks. Object members stand in the order of their keys. In a
text, the quote, the backslash and the control characters below U+0020 are escaped, all else stands
for itself.
-/

namespace StreamFusion

namespace Value

/-- The last hexadecimal digit of a number, in lower case. -/
def hexDigit (n : Nat) : Char := Nat.digitChar (n % 16)

/-- One character inside a JSON text. -/
def escapeChar (c : Char) : List Char :=
  if c = '"' then ['\\', '"']
  else if c = '\\' then ['\\', '\\']
  else if c = '\n' then ['\\', 'n']
  else if c = '\t' then ['\\', 't']
  else if c = '\r' then ['\\', 'r']
  else if c = '\x08' then ['\\', 'b']
  else if c = '\x0c' then ['\\', 'f']
  else if c.toNat < 0x20 then ['\\', 'u', '0', '0', hexDigit (c.toNat / 16), hexDigit c.toNat]
  else [c]

/-- A JSON text between its quotes. -/
def quoted (s : String) : String :=
  String.ofList ('"' :: (s.toList.flatMap escapeChar ++ ['"']))

mutual

/-- The JSON text of a value, without blanks. -/
def compact : Value → String
  | .null => "null"
  | .bool true => "true"
  | .bool false => "false"
  | .int n => toString n
  | .text s => quoted s
  | .list items => "[" ++ compactItems items ++ "]"
  | .object members => "\x7b" ++ compactMembers members ++ "\x7d"

/-- Values with commas between them. -/
def compactItems : List Value → String
  | [] => ""
  | [v] => compact v
  | v :: w :: rest => compact v ++ "," ++ compactItems (w :: rest)

/-- Object members with commas between them. -/
def compactMembers : List (String × Value) → String
  | [] => ""
  | [(key, v)] => quoted key ++ ":" ++ compact v
  | (key, v) :: entry :: rest =>
    quoted key ++ ":" ++ compact v ++ "," ++ compactMembers (entry :: rest)

end

end Value

end StreamFusion
