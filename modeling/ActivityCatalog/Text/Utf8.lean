namespace ActivityCatalog.Text.Utf8

/-!
# Bytes and texts

Bytes are read as UTF-8 one character after another.  Where they are not UTF-8,
the fault tells how many bytes begin a character that does not go on, or that
the bytes end inside a character.
-/

/-- A place where bytes are not UTF-8; without a length the bytes end there. -/
structure Fault where
  offset : Nat
  length : Option Nat
  deriving Repr, DecidableEq

/-- The text of a fault. -/
def Fault.message (fault : Fault) : String :=
  match fault.length with
  | some length =>
      "invalid utf-8 sequence of " ++ toString length ++ " bytes from index " ++
        toString fault.offset
  | none =>
      "incomplete utf-8 byte sequence from index " ++ toString fault.offset

/-- What the first byte of a character says: its length and the bounds of the second byte. -/
def lead? (byte : Nat) : Option (Nat × Nat × Nat) :=
  if 0xC2 ≤ byte ∧ byte ≤ 0xDF then some (2, 0x80, 0xBF)
  else if byte = 0xE0 then some (3, 0xA0, 0xBF)
  else if byte = 0xED then some (3, 0x80, 0x9F)
  else if 0xE1 ≤ byte ∧ byte ≤ 0xEF then some (3, 0x80, 0xBF)
  else if byte = 0xF0 then some (4, 0x90, 0xBF)
  else if 0xF1 ≤ byte ∧ byte ≤ 0xF3 then some (4, 0x80, 0xBF)
  else if byte = 0xF4 then some (4, 0x80, 0x8F)
  else none

/-- Whether a byte goes on with a character. -/
def isTail (byte : UInt8) : Bool :=
  0x80 ≤ byte.toNat && byte.toNat ≤ 0xBF

/-- The six bits that a byte adds to a character. -/
def tailBits (byte : UInt8) : Nat :=
  byte.toNat % 64

/-- One character, or how many bytes are no character, or an end inside one. -/
inductive Step where
  | char (value : Char) (length : Nat)
  | invalid (length : Nat)
  | incomplete
  deriving Repr, DecidableEq

/-- Read the third and fourth byte of a character. -/
def stepTail (length bits : Nat) : List UInt8 → Step
  | [] =>
      .incomplete
  | third :: rest =>
      if !isTail third then
        .invalid 2
      else
        let bits := bits * 64 + tailBits third
        if length = 3 then
          .char (Char.ofNat bits) 3
        else
          match rest with
          | [] => .incomplete
          | fourth :: _ =>
              if isTail fourth then
                .char (Char.ofNat (bits * 64 + tailBits fourth)) 4
              else
                .invalid 3

/-- Read the character that starts with a byte. -/
def step (first : UInt8) (rest : List UInt8) : Step :=
  if first.toNat < 0x80 then
    .char (Char.ofNat first.toNat) 1
  else
    match lead? first.toNat with
    | none => .invalid 1
    | some (length, low, high) =>
        match rest with
        | [] => .incomplete
        | second :: more =>
            if second.toNat < low ∨ high < second.toNat then
              .invalid 1
            else
              let bits := first.toNat % (1 <<< (7 - length)) * 64 + tailBits second
              if length = 2 then
                .char (Char.ofNat bits) 2
              else
                stepTail length bits more

/-- Read at most so many characters, with the offset of the bytes. -/
def decodeFrom : Nat → Nat → List UInt8 → Except Fault (List Char)
  | budget + 1, offset, first :: rest =>
      match step first rest with
      | .char value length =>
          (decodeFrom budget (offset + length) (rest.drop (length - 1))).map (value :: ·)
      | .invalid length =>
          .error ⟨offset, some length⟩
      | .incomplete =>
          .error ⟨offset, none⟩
  | _, _, _ =>
      .ok []

/-- The text of bytes that are UTF-8. -/
def decode (bytes : List UInt8) : Except Fault String :=
  (decodeFrom bytes.length 0 bytes).map String.ofList

/-- The character that stands for bytes that are none. -/
def replacement : Char :=
  '\ufffd'

/-- Read at most so many characters, each fault as the replacement character. -/
def decodeLossyFrom : Nat → List UInt8 → List Char
  | budget + 1, first :: rest =>
      match step first rest with
      | .char value length =>
          value :: decodeLossyFrom budget (rest.drop (length - 1))
      | .invalid length =>
          replacement :: decodeLossyFrom budget (rest.drop (length - 1))
      | .incomplete =>
          [replacement]
  | _, _ =>
      []

/-- The text of bytes, with the replacement character where they are not UTF-8. -/
def decodeLossy (bytes : List UInt8) : String :=
  String.ofList (decodeLossyFrom bytes.length bytes)

end ActivityCatalog.Text.Utf8
