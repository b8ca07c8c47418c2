import AtomicCommit.Text.Utf8

/-!
# JSON texts

`Tree` is what the grammar alone tells of a JSON text: literals keep their pieces, numbers their
digits, and objects every member in order. What a text means (characters of a literal, value of a
number, repeated keys) is decided by those who read a tree, since not every part of a text is
asked for its meaning.

## Main definitions

* `Tree.ofBytes?`: the tree of a whole text.
* `Literal.text?`: the characters of a literal, if its pieces make up a text.
-/

namespace AtomicCommit.Json

/-- One piece of a string literal. -/
inductive Piece where
  /-- A byte that stands for itself, or what an escape of one letter stands for. -/
  | octet (byte : UInt8)
  /-- A code unit of 16 bits, from an escape of four hexadecimal digits. -/
  | unit (code : Nat)
deriving DecidableEq

/-- The pieces between the quotes of a string literal. -/
abbrev Literal := List Piece

/-- The digits of a number, each below ten. -/
structure NumberText where
  /-- Whether a minus sign stands first. -/
  negative : Bool
  /-- The digits before the point. -/
  whole : List Nat
  /-- The digits after the point, if there is one. -/
  fraction : List Nat
  /-- The exponent, if there is one: whether it is negative, and its digits. -/
  exponent : Option (Bool × List Nat)
deriving DecidableEq

/-- The grammatical structure of a JSON text. -/
inductive Tree where
  /-- The word `null`. -/
  | null
  /-- The word `true` or `false`. -/
  | bool (b : Bool)
  /-- A number. -/
  | number (text : NumberText)
  /-- A string literal. -/
  | string (text : Literal)
  /-- The items of an array. -/
  | array (items : List Tree)
  /-- The members of an object, repeated keys included. -/
  | object (members : List (Literal × Tree))

instance : Inhabited Tree := ⟨.null⟩

/-! ## Literals -/

/-- The encoding of a code point. -/
def encodePoint (code : Nat) : List UInt8 := String.utf8EncodeChar (Char.ofNat code)

/-- The bytes of the pieces onto those already found in reverse. A code unit of the surrogate range
counts only as half of a pair. -/
def Literal.bytesOnto (found : List UInt8) : Literal → Option (List UInt8)
  | [] => some found.reverse
  | .octet b :: rest => bytesOnto (b :: found) rest
  | .unit code :: rest =>
    if code < 0xd800 ∨ 0xdfff < code then
      bytesOnto ((encodePoint code).reverse ++ found) rest
    else
      match rest with
      | .unit next :: rest =>
        if code < 0xdc00 ∧ 0xdc00 ≤ next ∧ next ≤ 0xdfff then
          bytesOnto ((encodePoint (0x10000 + (code - 0xd800) * 0x400 + (next - 0xdc00))).reverse
            ++ found) rest
        else none
      | _ => none

/-- The text of a literal, or `none` if its pieces do not make up characters. -/
def Literal.text? (literal : Literal) : Option String :=
  (literal.bytesOnto []).bind Text.ofUtf8?

/-! ## Reading -/

/-- The bytes of ASCII characters. -/
abbrev byte (c : Char) : UInt8 := UInt8.ofNat c.toNat

/-- Whether a byte separates tokens: space, tab, line feed or carriage return. -/
def isBlank (b : UInt8) : Bool := b = 0x20 || b = 0x09 || b = 0x0a || b = 0x0d

/-- The text from its first byte that is no blank. -/
def skipBlanks (s : List UInt8) : List UInt8 := s.dropWhile isBlank

/-- The value of an ASCII digit. -/
def digit? (b : UInt8) : Option Nat := if 0x30 ≤ b ∧ b ≤ 0x39 then some (b.toNat - 0x30) else none

/-- The leading digits onto those already read in reverse, and the rest. -/
def digitsOnto (read : List Nat) : List UInt8 → List Nat × List UInt8
  | [] => (read.reverse, [])
  | b :: rest =>
    match digit? b with
    | some d => digitsOnto (d :: read) rest
    | none => (read.reverse, b :: rest)

/-- The leading digits of a text, and the rest. -/
def readDigits (s : List UInt8) : List Nat × List UInt8 := digitsOnto [] s

/-- The rest of a text after a word. -/
def readWord? : List UInt8 → List UInt8 → Option (List UInt8)
  | [], s => some s
  | w :: ws, b :: s => if w = b then readWord? ws s else none
  | _ :: _, [] => none

/-- The value of a hexadecimal digit. -/
def hexDigit? (b : UInt8) : Option Nat :=
  if 0x30 ≤ b ∧ b ≤ 0x39 then some (b.toNat - 0x30)
  else if 0x61 ≤ b ∧ b ≤ 0x66 then some (b.toNat - 0x57)
  else if 0x41 ≤ b ∧ b ≤ 0x46 then some (b.toNat - 0x37)
  else none

/-- The code unit of four hexadecimal digits. -/
def codeUnit? (a b c d : UInt8) : Option Nat := do
  let a ← hexDigit? a
  let b ← hexDigit? b
  let c ← hexDigit? c
  let d ← hexDigit? d
  return ((a * 16 + b) * 16 + c) * 16 + d

/-- What an escape of one letter stands for. -/
def escaped? (b : UInt8) : Option UInt8 :=
  if b = byte '"' ∨ b = byte '\\' ∨ b = byte '/' then some b
  else if b = byte 'b' then some 0x08
  else if b = byte 'f' then some 0x0c
  else if b = byte 'n' then some 0x0a
  else if b = byte 'r' then some 0x0d
  else if b = byte 't' then some 0x09
  else none

/-- The pieces up to the closing quote onto those already read in reverse, and the rest after the
quote. Control characters may not stand in a literal. -/
def literalOnto (read : Literal) : List UInt8 → Option (Literal × List UInt8)
  | [] => none
  | [b] => if b = byte '"' then some (read.reverse, []) else none
  | b :: e :: rest =>
    if b = byte '"' then some (read.reverse, e :: rest)
    else if b = byte '\\' then
      if e = byte 'u' then
        match rest with
        | h₁ :: h₂ :: h₃ :: h₄ :: rest =>
          match codeUnit? h₁ h₂ h₃ h₄ with
          | some code => literalOnto (.unit code :: read) rest
          | none => none
        | _ => none
      else
        match escaped? e with
        | some b => literalOnto (.octet b :: read) rest
        | none => none
    else if b < 0x20 then none
    else literalOnto (.octet b :: read) (e :: rest)

/-- The digits before the point: a zero alone, or digits that start with another one. -/
def readWhole? (s : List UInt8) : Option (List Nat × List UInt8) :=
  match readDigits s with
  | ([], _) => none
  | (0 :: _, _) => some ([0], s.drop 1)
  | r => some r

/-- The point and the digits after it, if the text has them here. -/
def readFraction (s : List UInt8) : List Nat × List UInt8 :=
  match s with
  | b :: rest =>
    if b = byte '.' then
      match readDigits rest with
      | ([], _) => ([], s)
      | r => r
    else ([], s)
  | [] => ([], s)

/-- The exponent, if the text has one here. -/
def readExponent (s : List UInt8) : Option (Bool × List Nat) × List UInt8 :=
  match s with
  | b :: rest =>
    if b = byte 'e' ∨ b = byte 'E' then
      let (negative, digits) :=
        match rest with
        | sign :: digits =>
          if sign = byte '-' then (true, digits)
          else if sign = byte '+' then (false, digits)
          else (false, rest)
        | [] => (false, rest)
      match readDigits digits with
      | ([], _) => (none, s)
      | (ds, rest) => (some (negative, ds), rest)
    else (none, s)
  | [] => (none, s)

/-- A number at the start of a text, and the rest. A point or an exponent without digits is left
to the rest, where nothing can follow it. -/
def readNumber? (s : List UInt8) : Option (NumberText × List UInt8) :=
  let (negative, unsigned) :=
    match s with
    | b :: rest => if b = byte '-' then (true, rest) else (false, s)
    | [] => (false, s)
  (readWhole? unsigned).map fun (whole, rest) =>
    let (fraction, rest) := readFraction rest
    let (exponent, rest) := readExponent rest
    ({ negative, whole, fraction, exponent }, rest)

mutual

/-- A value at the start of a text, and the rest. The first argument bounds the number of nested
steps. -/
def readValue : Nat → List UInt8 → Option (Tree × List UInt8)
  | 0, _ => none
  | fuel + 1, s =>
    match skipBlanks s with
    | [] => none
    | b :: rest =>
      if b = byte '"' then (literalOnto [] rest).map fun (text, rest) => (.string text, rest)
      else if b = byte '[' then
        match skipBlanks rest with
        | c :: after =>
          if c = byte ']' then some (.array [], after)
          else (readItems fuel [] (c :: after)).map fun (items, rest) => (.array items, rest)
        | [] => none
      else if b = byte '\x7b' then
        match skipBlanks rest with
        | c :: after =>
          if c = byte '\x7d' then some (.object [], after)
          else (readMembers fuel [] (c :: after)).map fun (members, rest) =>
            (.object members, rest)
        | [] => none
      else if b = byte 'n' then
        (readWord? [0x75, 0x6c, 0x6c] rest).map fun rest => (.null, rest)
      else if b = byte 't' then
        (readWord? [0x72, 0x75, 0x65] rest).map fun rest => (.bool true, rest)
      else if b = byte 'f' then
        (readWord? [0x61, 0x6c, 0x73, 0x65] rest).map fun rest => (.bool false, rest)
      else (readNumber? (b :: rest)).map fun (text, rest) => (.number text, rest)

/-- One or more items up to the closing bracket, onto those already read in reverse. -/
def readItems : Nat → List Tree → List UInt8 → Option (List Tree × List UInt8)
  | 0, _, _ => none
  | fuel + 1, read, s =>
    match readValue fuel s with
    | none => none
    | some (item, rest) =>
      match skipBlanks rest with
      | [] => none
      | b :: rest =>
        if b = byte ',' then readItems fuel (item :: read) rest
        else if b = byte ']' then some ((item :: read).reverse, rest)
        else none

/-- One or more members up to the closing brace, onto those already read in reverse. -/
def readMembers : Nat → List (Literal × Tree) → List UInt8 →
    Option (List (Literal × Tree) × List UInt8)
  | 0, _, _ => none
  | fuel + 1, read, s =>
    match skipBlanks s with
    | [] => none
    | q :: afterQuote =>
      if q ≠ byte '"' then none
      else
        match literalOnto [] afterQuote with
        | none => none
        | some (key, rest) =>
          match skipBlanks rest with
          | [] => none
          | c :: afterColon =>
            if c ≠ byte ':' then none
            else
              match readValue fuel afterColon with
              | none => none
              | some (value, rest) =>
                match skipBlanks rest with
                | [] => none
                | b :: rest =>
                  if b = byte ',' then readMembers fuel ((key, value) :: read) rest
                  else if b = byte '\x7d' then some (((key, value) :: read).reverse, rest)
                  else none

end

namespace Tree

/-- The tree of a text that is one JSON value, with blanks around it. -/
def ofBytes? (bytes : List UInt8) : Option Tree :=
  match readValue (2 * bytes.length + 2) bytes with
  | some (tree, rest) => if (skipBlanks rest).isEmpty then some tree else none
  | none => none

end Tree

end AtomicCommit.Json
