namespace ActivityCatalog

/-!
# Paths and places

A path is written in bytes, and its pieces are separated by `/`.  It starts from the top
if its first byte is the separator, and from the current folder otherwise.  An empty
piece and `.` stay where they are, and `..` leads to the folder above.

A place is where a path leads: the names on the way there, without pieces that lead
nowhere or back.  The current folder has folders above it, which have no names here.
-/

/-- The bytes of a name. -/
abbrev FileName :=
  List UInt8

/-- The bytes of a path. -/
abbrev FilePath :=
  List UInt8

/-- A place, as the names that lead there. -/
abbrev Place :=
  List FileName

namespace FilePath

/-- The byte that separates the pieces of a path. -/
def separator : UInt8 :=
  47

/-- The path that a text tells. -/
def ofText (text : String) : FilePath :=
  text.toUTF8.toList

end FilePath

namespace Place

/-- The piece that leads to the folder above. -/
def above : FileName :=
  FilePath.ofText ".."

/-- The current folder. -/
def current : Place :=
  []

/-- The folder of all folders. -/
def top : Place :=
  [[FilePath.separator]]

/-- Whether a place is the current folder, one above it, or the top. -/
def isGiven (place : Place) : Bool :=
  place == top || place.all (· == above)

/-- The folder above a place, which for the top is the top itself. -/
def parent (place : Place) : Place :=
  if place == top then
    top
  else if place.all (· == above) then
    place ++ [above]
  else
    place.dropLast

/-- The name that leads to a place last. -/
def name (place : Place) : FileName :=
  place.getLast?.getD []

/-- The place beside another, whose name goes on with an ending. -/
def beside (place : Place) (ending : String) : Place :=
  place.dropLast ++ [place.name ++ FilePath.ofText ending]

/-- Whether a place is told from the top on. -/
def isFromTop (place : Place) : Bool :=
  place.head? == some [FilePath.separator]

/-- Where a place is told from, and the names from there. -/
def origin (place : Place) : Place × List FileName :=
  if place.isFromTop then (top, place.drop 1) else (current, place)

/-- The path of a place. -/
def path (place : Place) : FilePath :=
  let names := [FilePath.separator].intercalate place.origin.2
  if place.isFromTop then FilePath.separator :: names else names

end Place

namespace FilePath

/-- The pieces of a path. -/
def pieces (path : FilePath) : List FileName :=
  path.splitOn separator

/-- The path of pieces. -/
def ofPieces (pieces : List FileName) : FilePath :=
  [separator].intercalate pieces

/-- Where a path starts from. -/
def start (path : FilePath) : Place :=
  if path.head? == some separator then .top else .current

/-- Whether a piece stays in its folder. -/
def staysPut (piece : FileName) : Bool :=
  piece == [] || piece == ofText "."

/-- The paths up to each piece that leads on, given the pieces before. -/
def stationsFrom (before : List FileName) : List FileName → List FilePath
  | [] =>
      []
  | piece :: rest =>
      let walked := before ++ [piece]
      if staysPut piece then
        stationsFrom walked rest
      else
        ofPieces walked :: stationsFrom walked rest

/-- The paths up to each piece that leads on. -/
def stations (path : FilePath) : List FilePath :=
  stationsFrom [] (pieces path)

/-- The paths that a path goes through, nearest first. -/
def parents (path : FilePath) : List FilePath :=
  (stations path).reverse.drop 1

/-- The place that one more piece leads to, whatever stands there. -/
def goOn (place : Place) (piece : FileName) : Place :=
  if staysPut piece then
    place
  else if piece == Place.above then
    place.parent
  else
    place ++ [piece]

/-- The place of a path, whatever stands on the way. -/
def place (path : FilePath) : Place :=
  (pieces path).foldl goOn (start path)

end FilePath

end ActivityCatalog
