import ActivityCatalog.Json.Token

namespace ActivityCatalog.Text.Percent

/-!
# Percent encoding

A byte may be written as `%` and two hexadecimal digits.  A `%` without them stands
for itself, as every other byte does.
-/

/-- The value of a hexadecimal digit given as a byte. -/
def digitOf? (byte : UInt8) : Option Nat :=
  Json.hexValue? (Char.ofNat byte.toNat)

/-- The byte of two hexadecimal digits. -/
def byteOf? (high low : UInt8) : Option UInt8 := do
  let high ← digitOf? high
  let low ← digitOf? low
  pure (UInt8.ofNat (high * 16 + low))

/-- The byte of a percent sign. -/
def sign : UInt8 :=
  37

/-- The bytes that encoded bytes stand for. -/
def decode : List UInt8 → List UInt8
  | first :: high :: low :: rest =>
      if first = sign then
        match byteOf? high low with
        | some byte => byte :: decode rest
        | none => first :: decode (high :: low :: rest)
      else
        first :: decode (high :: low :: rest)
  | bytes =>
      bytes

end ActivityCatalog.Text.Percent
