import ActivityCatalog.Json.Lexeme

namespace ActivityCatalog.Json

/-!
# JSON tokens

A text is scanned one character at a time.  The scanner is either between
tokens or inside a word, a number or a string; it fails at the first character
that no token allows, and at an end inside a string or a word.

Two faults are kept in the token instead of failing, since they matter only to
a reader that uses the token: a number whose double is infinite and a string
with a lone surrogate escape carry no value.
-/

/-- A token of a JSON text. -/
inductive Token where
  | openBrace
  | closeBrace
  | openBracket
  | closeBracket
  | comma
  | colon
  | null
  | bool (value : Bool)
  | number (value : Option Number)
  | string (text : Option String)
  deriving Repr, DecidableEq

/-- A part of a string as it is written: a character or a 16-bit escape. -/
inductive Piece where
  | char (value : Char)
  | escape (unit : Nat)
  deriving Repr, DecidableEq

namespace Piece

/-- The first unit of a surrogate pair. -/
def isLeading (unit : Nat) : Bool :=
  0xD800 ≤ unit && unit ≤ 0xDBFF

/-- The second unit of a surrogate pair. -/
def isTrailing (unit : Nat) : Bool :=
  0xDC00 ≤ unit && unit ≤ 0xDFFF

/-- The characters of the pieces, unless a surrogate stands alone. -/
def chars? : List Piece → Option (List Char)
  | [] =>
      some []
  | .char value :: rest =>
      (chars? rest).map (value :: ·)
  | .escape leading :: .escape trailing :: rest =>
      if isLeading leading then
        if isTrailing trailing then
          let code := 0x10000 + (leading - 0xD800) * 0x400 + (trailing - 0xDC00)
          (chars? rest).map (Char.ofNat code :: ·)
        else
          none
      else if isTrailing leading then
        none
      else
        (chars? (.escape trailing :: rest)).map (Char.ofNat leading :: ·)
  | .escape unit :: rest =>
      if isLeading unit || isTrailing unit then
        none
      else
        (chars? rest).map (Char.ofNat unit :: ·)

end Piece

/-- The value of a hexadecimal digit. -/
def hexValue? (char : Char) : Option Nat :=
  if '0' ≤ char ∧ char ≤ '9' then
    some (char.toNat - '0'.toNat)
  else if 'a' ≤ char ∧ char ≤ 'f' then
    some (char.toNat - 'a'.toNat + 10)
  else if 'A' ≤ char ∧ char ≤ 'F' then
    some (char.toNat - 'A'.toNat + 10)
  else
    none

/-- The character of a one-letter escape. -/
def shortEscape? : Char → Option Char
  | '"' => some '"'
  | '\\' => some '\\'
  | '/' => some '/'
  | 'b' => some '\x08'
  | 'f' => some '\x0c'
  | 'n' => some '\n'
  | 'r' => some '\r'
  | 't' => some '\t'
  | _ => none

/-- The characters allowed between tokens. -/
def isSpace (char : Char) : Bool :=
  char == ' ' || char == '\t' || char == '\n' || char == '\r'

/-- The characters that occur in number lexemes. -/
def isNumberChar (char : Char) : Bool :=
  char.isDigit || char == '-' || char == '+' || char == '.' || char == 'e' || char == 'E'

/-- Where the scanner stands; collected parts are in reverse. -/
inductive ScanState where
  | between
  | word (expected : List Char) (token : Token)
  | number (chars : List Char)
  | string (pieces : List Piece)
  | escape (pieces : List Piece)
  | hex (pieces : List Piece) (missing : Nat) (unit : Nat)
  deriving Repr, DecidableEq

/-- A scanner and the tokens found so far, last first. -/
structure Scanner where
  state : ScanState
  tokens : List Token
  deriving Repr, DecidableEq

namespace Scanner

/-- A scanner before its text. -/
def start : Scanner :=
  ⟨.between, []⟩

/-- Finish a token. -/
def emit (scanner : Scanner) (token : Token) : Scanner :=
  ⟨.between, token :: scanner.tokens⟩

/-- Go on inside a token. -/
def become (scanner : Scanner) (state : ScanState) : Scanner :=
  { scanner with state }

/-- Finish the number collected in reverse. -/
def emitNumber? (scanner : Scanner) (chars : List Char) : Option Scanner :=
  (Lexeme.ofChars? chars.reverse).map fun lexeme =>
    scanner.emit (.number lexeme.number?)

/-- Finish the string collected in reverse. -/
def emitString (scanner : Scanner) (pieces : List Piece) : Scanner :=
  scanner.emit (.string ((Piece.chars? pieces.reverse).map String.ofList))

/-- Take a character between tokens. -/
def stepBetween? (scanner : Scanner) (char : Char) : Option Scanner :=
  if isSpace char then
    some (scanner.become .between)
  else
    match char with
    | '\x7b' => some (scanner.emit .openBrace)
    | '\x7d' => some (scanner.emit .closeBrace)
    | '[' => some (scanner.emit .openBracket)
    | ']' => some (scanner.emit .closeBracket)
    | ',' => some (scanner.emit .comma)
    | ':' => some (scanner.emit .colon)
    | '"' => some (scanner.become (.string []))
    | 'n' => some (scanner.become (.word ['u', 'l', 'l'] .null))
    | 't' => some (scanner.become (.word ['r', 'u', 'e'] (.bool true)))
    | 'f' => some (scanner.become (.word ['a', 'l', 's', 'e'] (.bool false)))
    | _ =>
        if char == '-' || char.isDigit then
          some (scanner.become (.number [char]))
        else
          none

/-- Take one character. -/
def step? (scanner : Scanner) (char : Char) : Option Scanner :=
  match scanner.state with
  | .between =>
      scanner.stepBetween? char
  | .word [] token =>
      (scanner.emit token).stepBetween? char
  | .word [last] token =>
      if char = last then some (scanner.emit token) else none
  | .word (next :: rest) token =>
      if char = next then some (scanner.become (.word rest token)) else none
  | .number chars =>
      if isNumberChar char then
        some (scanner.become (.number (char :: chars)))
      else
        (scanner.emitNumber? chars).bind fun scanner => scanner.stepBetween? char
  | .string pieces =>
      if char = '"' then
        some (scanner.emitString pieces)
      else if char = '\\' then
        some (scanner.become (.escape pieces))
      else if char.toNat < 0x20 then
        none
      else
        some (scanner.become (.string (.char char :: pieces)))
  | .escape pieces =>
      if char = 'u' then
        some (scanner.become (.hex pieces 4 0))
      else
        (shortEscape? char).map fun escaped =>
          scanner.become (.string (.char escaped :: pieces))
  | .hex pieces missing unit =>
      (hexValue? char).map fun digit =>
        let unit := unit * 16 + digit
        if missing ≤ 1 then
          scanner.become (.string (.escape unit :: pieces))
        else
          scanner.become (.hex pieces (missing - 1) unit)

/-- The tokens at the end of the text. -/
def finish? (scanner : Scanner) : Option (List Token) :=
  match scanner.state with
  | .between =>
      some scanner.tokens.reverse
  | .number chars =>
      (scanner.emitNumber? chars).map fun scanner => scanner.tokens.reverse
  | _ =>
      none

end Scanner

/-- The tokens of a text. -/
def Token.scan? (text : String) : Option (List Token) :=
  (text.toList.foldlM Scanner.step? Scanner.start).bind Scanner.finish?

end ActivityCatalog.Json
