import Scriptlet.Text.Shown

/-!
# Quoted text

Text between double quotes, in which the quote, the backslash and the characters that would not be
shown are escaped. Common controls have a letter; the others are written by their number, in
hexadecimal between braces.
-/

namespace Scriptlet.Quoted

/-- The escape letter of a character that has one. -/
def letter? : Char → Option Char
  | '\x00' => some '0'
  | '\t' => some 't'
  | '\r' => some 'r'
  | '\n' => some 'n'
  | '\\' => some '\\'
  | '"' => some '"'
  | _ => none

/-- A code point in hexadecimal, without leading zeros. -/
def hexadecimal (c : Char) : List Char := Nat.toDigits 16 c.toNat

/-- One character inside the quotes. -/
def escape (c : Char) : List Char :=
  match letter? c with
  | some letter => ['\\', letter]
  | none => if isShown c then [c] else '\\' :: 'u' :: '\x7b' :: hexadecimal c ++ ['\x7d']

/-- The text between double quotes. -/
def encode (text : String) : String :=
  String.ofList ('"' :: text.toList.flatMap escape ++ ['"'])

end Scriptlet.Quoted
