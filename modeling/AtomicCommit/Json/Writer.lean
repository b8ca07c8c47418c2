import AtomicCommit.Json.Value

/-!
# Writing JSON

The compact text of a value: members in the order listed, no blanks, and in literals an escape for
quote, backslash and control characters only.
-/

namespace AtomicCommit.Json

/-- The digit of a number below sixteen. -/
def hexByte (n : UInt8) : UInt8 := if n < 10 then 0x30 + n else 0x57 + n

/-- A byte of a text as it stands in a literal. -/
def literalByte (b : UInt8) : List UInt8 :=
  if b = 0x22 ∨ b = 0x5c then [0x5c, b]
  else if 0x20 ≤ b then [b]
  else if b = 0x08 then [0x5c, byte 'b']
  else if b = 0x09 then [0x5c, byte 't']
  else if b = 0x0a then [0x5c, byte 'n']
  else if b = 0x0c then [0x5c, byte 'f']
  else if b = 0x0d then [0x5c, byte 'r']
  else [0x5c, byte 'u', 0x30, 0x30, hexByte (b / 16), hexByte (b % 16)]

/-- A text as a literal. -/
def literal (text : String) : List UInt8 :=
  0x22 :: (Text.utf8 text).flatMap literalByte ++ [0x22]

namespace Value

mutual

/-- The compact text of a value. -/
def render : Value → List UInt8
  | .null => Text.utf8 "null"
  | .bool true => Text.utf8 "true"
  | .bool false => Text.utf8 "false"
  | .number n => Text.utf8 n.text
  | .string text => literal text
  | .array items => 0x5b :: renderItems items
  | .object members => 0x7b :: renderMembers members

/-- The items of an array with the closing bracket. -/
def renderItems : List Value → List UInt8
  | [] => [0x5d]
  | [item] => render item ++ [0x5d]
  | item :: rest => render item ++ 0x2c :: renderItems rest

/-- The members of an object with the closing brace. -/
def renderMembers : List (String × Value) → List UInt8
  | [] => [0x7d]
  | [(key, value)] => literal key ++ 0x3a :: render value ++ [0x7d]
  | (key, value) :: rest => literal key ++ 0x3a :: render value ++ 0x2c :: renderMembers rest

end

/-- The compact text of a value, as characters. -/
def text (value : Value) : String := (Text.ofUtf8? value.render).getD ""

end Value

end AtomicCommit.Json
