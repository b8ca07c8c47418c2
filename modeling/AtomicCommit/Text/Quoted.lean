import AtomicCommit.Text.Hex
import AtomicCommit.Text.Hidden

/-!
# Quoted text

How messages show a text between double quotes: quote, backslash and the common controls by an
escape of two characters, what can not be shown by its code point, all else as it is.
-/

namespace AtomicCommit.Text

/-- A character as it stands between the quotes. -/
def quotedChar (c : Char) : List Char :=
  match c with
  | '"' => ['\\', '"']
  | '\\' => ['\\', '\\']
  | '\n' => ['\\', 'n']
  | '\t' => ['\\', 't']
  | '\r' => ['\\', 'r']
  | '\x00' => ['\\', '0']
  | c => if isHidden c then ['\\', 'u', '\x7b'] ++ Hex.shortest c.toNat ++ ['\x7d'] else [c]

/-- The text between double quotes. -/
def quoted (text : String) : String :=
  String.ofList ('"' :: text.toList.flatMap quotedChar ++ ['"'])

/-- The texts of several values, separated by commas between two brackets. -/
def listed (opening closing : String) (items : List String) : String :=
  opening ++ ", ".intercalate items ++ closing

end AtomicCommit.Text
