import FusedGemm.Json.Numeral

/-!
# JSON values

The tree of a JSON text, with the members of an object in the order of the text and none dropped.
`Json.text` writes a tree over several lines, two spaces for each level.
-/

namespace FusedGemm

/-- The content of a string.  An escape sequence may stand for half of a character without the
other half; such a string has no content. -/
abbrev JsonString := Option String

/-- A JSON value. -/
inductive Json where
  | null
  | bool (b : Bool)
  | number (n : Numeral)
  | string (s : JsonString)
  | array (items : List Json)
  | object (members : List (JsonString × Json))

namespace Json

/-- The lower-case hexadecimal digit of a number below sixteen. -/
def hexDigit (n : Nat) : Char := if n < 10 then Char.ofNat (48 + n) else Char.ofNat (87 + n)

/-- The text of a character in a string.  Quotes, backslashes and control characters are escaped. -/
def escape (c : Char) : List Char :=
  if c = '"' then ['\\', '"']
  else if c = '\\' then ['\\', '\\']
  else if c = '\x08' then ['\\', 'b']
  else if c = '\x0c' then ['\\', 'f']
  else if c = '\n' then ['\\', 'n']
  else if c = '\r' then ['\\', 'r']
  else if c = '\t' then ['\\', 't']
  else if c.toNat < 32 then
    ['\\', 'u', '0', '0', hexDigit (c.toNat / 16), hexDigit (c.toNat % 16)]
  else [c]

/-- The text of a string between quotes. -/
def quote (s : String) : String := "\"" ++ String.ofList (s.toList.flatMap escape) ++ "\""

/-- The start of a line at the given level. -/
def newLine (level : Nat) : String := "\n" ++ "".pushn ' ' (2 * level)

/-- The texts of the items of an array or object, one per line between brackets. -/
def block (left right : String) (level : Nat) (items : List String) : String :=
  if items.isEmpty then left ++ right
  else left ++ ",".intercalate (items.map (newLine (level + 1) ++ ·)) ++ newLine level ++ right

mutual

/-- The text of a value that stands at the given level. -/
def textAt (level : Nat) : Json → String
  | .null => "null"
  | .bool b => if b then "true" else "false"
  | .number n => n.text
  | .string s => quote (s.getD "")
  | .array items => block "[" "]" level (itemTexts (level + 1) items)
  | .object members => block "\x7b" "\x7d" level (memberTexts (level + 1) members)

/-- The texts of several values. -/
def itemTexts (level : Nat) : List Json → List String
  | [] => []
  | v :: vs => textAt level v :: itemTexts level vs

/-- The texts of several members. -/
def memberTexts (level : Nat) : List (JsonString × Json) → List String
  | [] => []
  | (k, v) :: ms => (quote (k.getD "") ++ ": " ++ textAt level v) :: memberTexts level ms

end

/-- The text of a value. -/
def text (v : Json) : String := textAt 0 v

end Json

end FusedGemm
