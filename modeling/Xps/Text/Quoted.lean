import Xps.Text.Visible

/-!
# Quoted characters

A character between single quotes. What cannot be seen or would end the quotes is escaped.
-/

namespace Xps.Text

/-- A number in hex digits, without zeros in front. -/
def hex (n : Nat) : List Char := Nat.toDigits 16 n

/-- A character as it stands between single quotes. -/
def escape (c : Char) : List Char :=
  match c with
  | '\x00' => ['\\', '0']
  | '\t' => ['\\', 't']
  | '\n' => ['\\', 'n']
  | '\r' => ['\\', 'r']
  | '\\' => ['\\', '\\']
  | '\'' => ['\\', '\'']
  | c => if isVisible c then [c] else ['\\', 'u', '\x7b'] ++ hex c.toNat ++ ['\x7d']

def quote (c : Char) : String := String.ofList ('\'' :: escape c ++ ['\''])

end Xps.Text
