import ActivityCatalog.Text.Percent
import ActivityCatalog.Text.Utf8

namespace ActivityCatalog.Http

/-!
# Form encoding

The query of a target is a list of names and values.  Fields are separated by
`&`, a name from its value by the first `=`; an empty field is none, and one
without `=` has an empty value.  In either part `+` is a space and all else is
percent-encoded.  Bytes that are not UTF-8 become the replacement character.
-/

namespace Form

/-- The byte of a plus sign. -/
def plus : UInt8 :=
  43

/-- The byte of a space. -/
def space : UInt8 :=
  32

/-- The byte that one byte alone stands for. -/
def plain (byte : UInt8) : UInt8 :=
  if byte = plus then space else byte

/-- The bytes that encoded bytes stand for. -/
def unescape (bytes : List UInt8) : List UInt8 :=
  Text.Percent.decode (bytes.map plain)

/-- The text of a name or a value. -/
def decode (text : String) : String :=
  Text.Utf8.decodeLossy (unescape text.toUTF8.toList)

/-- The name and the value of a field. -/
def fieldOf (field : List Char) : String × String :=
  let name := field.takeWhile (· != '=')
  let value := (field.dropWhile (· != '=')).drop 1
  (decode (String.ofList name), decode (String.ofList value))

/-- The names and values of a query. -/
def parse (query : String) : List (String × String) :=
  ((query.toList.splitOn '&').filter fun field => !field.isEmpty).map fieldOf

end Form

end ActivityCatalog.Http
