/-!
# Hexadecimal text

Digits, bytes and byte strings in base sixteen. Writing uses lower case, reading takes both.
-/

namespace AtomicCommit.Hex

/-- The lower-case digit of a number below sixteen. -/
def digit (n : Nat) : Char :=
  if n < 10 then Char.ofNat (48 + n) else Char.ofNat (87 + n)

/-- The value of a digit in either case. -/
def value? (c : Char) : Option Nat :=
  if '0' ≤ c ∧ c ≤ '9' then some (c.toNat - 48)
  else if 'a' ≤ c ∧ c ≤ 'f' then some (c.toNat - 87)
  else if 'A' ≤ c ∧ c ≤ 'F' then some (c.toNat - 55)
  else none

/-- The number written by the digits, most significant first, or `none` at a character that is no
digit. -/
def number? (digits : List Char) : Option Nat :=
  digits.foldlM (fun n c => (value? c).map (16 * n + ·)) 0

/-- The last `width` digits of a number, most significant first. -/
def digits (width n : Nat) : List Char :=
  (List.range width).map fun i => digit (n / Nat.pow 16 (width - 1 - i) % 16)

/-- The shortest digits of a number. -/
def shortest (n : Nat) : List Char := Nat.toDigits 16 n

/-- Two digits per byte. -/
def encode (bytes : List UInt8) : String :=
  String.ofList (bytes.flatMap fun b => digits 2 b.toNat)

/-- The bytes written by pairs of digits, onto those already read in reverse. -/
def decodeOnto (read : List UInt8) : List Char → Option (List UInt8)
  | [] => some read.reverse
  | [_] => none
  | a :: b :: rest =>
    match value? a, value? b with
    | some x, some y => decodeOnto (UInt8.ofNat (16 * x + y) :: read) rest
    | _, _ => none

/-- The bytes of a text of digit pairs. -/
def decode? (text : String) : Option (List UInt8) := decodeOnto [] text.toList

end AtomicCommit.Hex
