import ActivityCatalog.Text.Hidden

namespace ActivityCatalog.Text

/-!
# Quoted texts in messages

A message shows a text between double quotes in such a way that every character
of it can be seen: quotes, backslashes and the common controls have a short
escape, and every other hidden character is written by its code point in
lower-case hexadecimal digits.
-/

/-- The escape of a character by its code point. -/
def codePointEscape (char : Char) : List Char :=
  ['\\', 'u', '\x7b'] ++ Nat.toDigits 16 char.toNat ++ ['\x7d']

/-- A character as it stands in a quoted text. -/
def quotedChar (char : Char) : List Char :=
  match char with
  | '"' => ['\\', '"']
  | '\\' => ['\\', '\\']
  | '\t' => ['\\', 't']
  | '\r' => ['\\', 'r']
  | '\n' => ['\\', 'n']
  | '\x00' => ['\\', '0']
  | _ => if isHidden char then codePointEscape char else [char]

/-- A text between quotes with every character visible. -/
def quoted (text : String) : String :=
  "\"" ++ String.ofList (text.toList.flatMap quotedChar) ++ "\""

end ActivityCatalog.Text
