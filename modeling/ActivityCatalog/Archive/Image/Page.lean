import ActivityCatalog.Archive.Fault
import ActivityCatalog.Archive.Image.Record

namespace ActivityCatalog

/-!
# Pages of an image

An image begins with a header of a hundred bytes, which says how large its pages are
and how it is written.  Rows are in trees of pages, numbered from one: a leaf holds rows
in the order of their numbers, and a branch leads to pages one after another.  What a
row holds begins in its page, and goes on in a chain of pages if it is too long.
-/

/-- The header of an image, and its bytes. -/
structure Image where
  bytes : List UInt8
  pageSize : Nat
  usableSize : Nat
  pageCount : Nat
  keepsLog : Bool
  isSealed : Bool
  canGrow : Bool
  encoding : Image.Encoding
  deriving Repr, DecidableEq

namespace Image

/-- The bytes that every image begins with. -/
def magic : List UInt8 :=
  "SQLite format 3\x00".toUTF8.toList

/-- The bytes of a header, with zeros for those that are missing. -/
def headerOf (bytes : List UInt8) : List UInt8 :=
  (bytes.take 100).rightpad 100 0

/-- The page size that a header tells. -/
def pageSizeOf (header : List UInt8) : Nat :=
  numberAt header 17 1 * 65536 + numberAt header 16 1 * 256

/-- Whether pages may have a size. -/
def isPageSize (size : Nat) : Bool :=
  (List.range 8).any fun exponent => size == 512 <<< exponent

/-- How texts are written, by the number that tells it. -/
def encodingOf (number : Nat) : Encoding :=
  match number % 4 with
  | 2 => .utf16Low
  | 3 => .utf16High
  | _ => .utf8

/-- How many pages a header tells, unless it was written without telling. -/
def toldPages? (header : List UInt8) : Option Nat :=
  let told := numberAt header 28 4
  if told = 0 || numberAt header 24 4 != numberAt header 92 4 then none else some told

/-- Whether bytes are those of an image whose changes go to a log first. -/
def asksForLog (bytes : List UInt8) : Bool :=
  let header := headerOf bytes
  magic.isPrefixOf header && numberAt header 19 1 == 2

/-- Whether pages can be added, by what a header tells of free pages and of the last tree. -/
def canGrowTo (header : List UInt8) (pageCount : Nat) : Bool :=
  let free := numberAt header 36 4
  let firstFree := numberAt header 32 4
  numberAt header 52 4 ≤ pageCount &&
    (free == 0 || (free < pageCount && 2 ≤ firstFree && firstFree ≤ pageCount))

/-- Read the header of an image. -/
def ofBytes (bytes : List UInt8) : Except StorageFailure Image :=
  let header := headerOf bytes
  let pageSize := pageSizeOf header
  let usableSize := pageSize - numberAt header 20 1
  let pages := (bytes.length + pageSize - 1) / pageSize
  let pageCount := (toldPages? header).getD pages
  if !magic.isPrefixOf header || 2 < numberAt header 19 1 then
    .error .notArchive
  else if (header.drop 21).take 3 != [64, 32, 32] || !isPageSize pageSize then
    .error .notArchive
  else if pages < pageCount then
    .error .malformed
  else if usableSize < 480 then
    .error .notArchive
  else if 4 < numberAt header 47 1 then
    .error .unknownFormat
  else
    .ok
      { bytes := bytes,
        pageSize := pageSize,
        usableSize := usableSize,
        pageCount := pageCount,
        keepsLog := numberAt header 19 1 == 2,
        isSealed := 2 < numberAt header 18 1,
        canGrow := canGrowTo header pageCount,
        encoding := encodingOf (numberAt header 56 4) }

/-- The bytes of a page. -/
def page? (image : Image) (number : Nat) : Option (List UInt8) :=
  if number = 0 || image.pageCount < number then
    none
  else
    let bytes := (image.bytes.drop ((number - 1) * image.pageSize)).take image.pageSize
    some (bytes.rightpad image.pageSize 0)

/-- Where the tree begins in a page. -/
def treeOffset (number : Nat) : Nat :=
  if number = 1 then 100 else 0

/-- The bytes of a chain of pages, of which there are at most so many. -/
def chain? (image : Image) : Nat → Nat → Nat → Option (List UInt8)
  | _, _, 0 =>
      some []
  | 0, _, _ =>
      none
  | budget + 1, number, length => do
      let page ← image.page? number
      let part := ((page.take image.usableSize).drop 4).take length
      let rest ← image.chain? budget (numberAt page 0 4) (length - part.length)
      pure (part ++ rest)

/-- How many bytes of a row are in its page. -/
def localLength (image : Image) (length : Nat) : Nat :=
  let least := (image.usableSize - 12) * 32 / 255 - 23
  let fitting := least + (length - least) % (image.usableSize - 4)
  if length ≤ image.usableSize - 35 then length
  else if fitting ≤ image.usableSize - 35 then fitting
  else least

/-- A row, with its number. -/
abbrev NumberedRow :=
  Nat × List Cell

/-- Read the row of a leaf. -/
def row? (image : Image) (bytes : List UInt8) : Option NumberedRow := do
  let (length, rest) ← varying? bytes
  let (number, rest) ← varying? rest
  let inPage := rest.take (image.localLength length)
  let chain := numberAt rest inPage.length 4
  let further ← image.chain? image.pageCount chain (length - inPage.length)
  let cells ← record? image.encoding (inPage ++ further)
  pure (number, cells)

/-- What a page of a tree holds: rows, or the numbers of further pages. -/
inductive TreePage where
  | leaf (rows : List NumberedRow)
  | branch (pages : List Nat)
  deriving Repr, DecidableEq

/-- Where the entries of a page begin. -/
def entryOffsets (page : List UInt8) (first count : Nat) : List Nat :=
  (List.range count).map fun index => numberAt page (first + 2 * index) 2

/-- Read a page of a tree. -/
def treePage? (image : Image) (number : Nat) : Option TreePage := do
  let page ← image.page? number
  let offset := treeOffset number
  let count := numberAt page (offset + 3) 2
  match numberAt page offset 1 with
  | 13 =>
      let rows ← (entryOffsets page (offset + 8) count).mapM fun entry =>
        image.row? (page.drop entry)
      pure (.leaf rows)
  | 5 =>
      let pages := (entryOffsets page (offset + 12) count).map fun entry =>
        numberAt page entry 4
      pure (.branch (pages ++ [numberAt page (offset + 8) 4]))
  | _ =>
      none

/-- Read the rows of trees, of which at most so many pages are visited. -/
def rowsFrom (image : Image) : Nat → List Nat → Option (List NumberedRow)
  | _, [] =>
      some []
  | 0, _ =>
      none
  | budget + 1, number :: pending => do
      match ← image.treePage? number with
      | .leaf rows =>
          let further ← image.rowsFrom budget pending
          pure (rows ++ further)
      | .branch pages =>
          image.rowsFrom budget (pages ++ pending)

/-- The rows of the tree that begins with a page. -/
def rows? (image : Image) (root : Nat) : Option (List NumberedRow) :=
  image.rowsFrom image.pageCount [root]

end Image

end ActivityCatalog
