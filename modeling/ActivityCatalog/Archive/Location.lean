import ActivityCatalog.FilePath
import ActivityCatalog.Text.Percent
import ActivityCatalog.Text.Utf8

namespace ActivityCatalog

/-!
# Where archives are

An archive is told by the path of its file, or by an address: `file:`, an authority
that has to be that of this machine, the path of the file, and parameters after `?`
that say how the file is opened.  In an address the path, and the names and values of
the parameters, are percent-encoded; each ends at a byte that is zero, and all ends
at `#`.

Parameters are read one after another, and an access that was narrowed is not widened
by a later one.  A parameter without a name or with an unknown one says nothing.  Of
switches the first one counts, which says yes by a word, or by a number that is not
zero in its last byte.

An archive in no file is forgotten when it is closed, unless it is shared: then it lasts
as long as it is open anywhere.
-/

/-- How the file of an archive is opened. -/
inductive ArchiveAccess where
  | read
  | write
  | create
  | memory
  deriving Repr, DecidableEq

/-- Why a text tells no archive. -/
inductive LocationFault where
  | containsNul (offset : Nat)
  | foreignAuthority (authority : String)
  | unknownMode (kind mode : String)
  | widerAccess (mode : String)
  | unknownSystem (name : String)
  deriving Repr, DecidableEq

/-- Where an archive is, and how its file is opened. -/
structure ArchiveLocation where
  path : FilePath
  access : ArchiveAccess
  isShared : Bool
  isImmutable : Bool
  isUnlocked : Bool
  isIndexReadOnly : Bool
  modeFile : Option FilePath
  system : String
  deriving Repr, DecidableEq

/-- The text of a fault. -/
def LocationFault.message : LocationFault → String
  | .containsNul offset =>
      "nul byte found in provided data at position: " ++ toString offset
  | .foreignAuthority authority =>
      "invalid uri authority: " ++ authority
  | .unknownMode kind mode =>
      "no such " ++ kind ++ " mode: " ++ mode
  | .widerAccess mode =>
      "access mode not allowed: " ++ mode
  | .unknownSystem name =>
      "no such vfs: " ++ name

namespace ArchiveAccess

/-- The access of a mode. -/
def ofMode? : String → Option ArchiveAccess
  | "ro" => some .read
  | "rw" => some .write
  | "rwc" => some .create
  | "memory" => some .memory
  | _ => none

/-- How much an access asks for. -/
def demand : ArchiveAccess → Nat
  | .memory => 0
  | .read => 1
  | .write => 2
  | .create => 3

/-- How much an access may be changed to ask for. -/
def allowance : ArchiveAccess → Nat
  | .memory => 3
  | access => access.demand

end ArchiveAccess

namespace ArchiveLocation

/-- The name of the archive that is in no file. -/
def memoryName : String :=
  ":memory:"

/-- The system of files that is used if none is named. -/
def usualSystem : String :=
  "unix"

/-- The system of files that locks none. -/
def openSystem : String :=
  "unix-none"

/-- The system of files that locks each by a file beside it. -/
def besideSystem : String :=
  "unix-dotfile"

/-- The system of files that are locked for as long as they are open. -/
def exclusiveSystem : String :=
  "unix-excl"

/-- The system of files that keeps none. -/
def memorySystem : String :=
  "memdb"

/-- The systems of files that are known. -/
def knownSystems : List String :=
  [usualSystem, openSystem, besideSystem, exclusiveSystem, memorySystem]

/-- The location of a path. -/
def ofFile (path : FilePath) : ArchiveLocation :=
  { path := path,
    access := .create,
    isShared := false,
    isImmutable := false,
    isUnlocked := false,
    isIndexReadOnly := false,
    modeFile := none,
    system := usualSystem }

/-- Whether an archive is in no file of any system. -/
def isNameless (location : ArchiveLocation) : Bool :=
  location.path.isEmpty || location.path == FilePath.ofText memoryName ||
    location.access == .memory

/-- Whether an archive is forgotten when it is closed. -/
def isTransient (location : ArchiveLocation) : Bool :=
  location.isNameless || location.system == memorySystem

/-- Whether an archive is only read. -/
def isReadOnly (location : ArchiveLocation) : Bool :=
  location.access == .read || (location.isImmutable && !location.isNameless)

/-- Whether the system knows the files that are open. -/
def isTracked (location : ArchiveLocation) : Bool :=
  location.system == usualSystem || location.system == exclusiveSystem

/-- Whether a log may take the changes of an archive. -/
def allowsLog (location : ArchiveLocation) : Bool :=
  !location.isUnlocked && location.isTracked

/-- Whether the system locks an archive by a file beside it. -/
def hasLockFile (location : ArchiveLocation) : Bool :=
  location.system == besideSystem && !location.isImmutable

/-- Whether an archive is locked by a file beside it. -/
def isLockedBeside (location : ArchiveLocation) : Bool :=
  location.hasLockFile && !location.isUnlocked

/-- Whether the index of a log is in a file. -/
def hasIndexFile (location : ArchiveLocation) : Bool :=
  location.system == usualSystem || location.access == .read

/-- Whether an archive in no file may be open more than once. -/
def isCommon (location : ArchiveLocation) : Bool :=
  let isNamedFromTop :=
    location.path.head? == some FilePath.separator && 1 < location.path.length
  !location.path.isEmpty &&
    (location.isShared || (!location.isNameless && isNamedFromTop))

/-- Whether an archive that is opened at a location is the one that is open at another. -/
def joins (location other : ArchiveLocation) : Bool :=
  (if location.isTransient then location.isCommon else location.isShared) &&
    location == other

/-- The bytes of a part of an address. -/
def bytesOf (part : List Char) : List UInt8 :=
  let bytes := Text.Percent.decode (String.ofList part).toUTF8.toList
  bytes.takeWhile (· != 0)

/-- The text of a part of an address. -/
def textOf (part : List Char) : String :=
  Text.Utf8.decodeLossy (bytesOf part)

/-- A parameter of an address, whose value is also told in bytes. -/
structure Parameter where
  name : String
  value : String
  bytes : List UInt8
  deriving Repr, DecidableEq

/-- Read a parameter. -/
def Parameter.ofChars (parameter : List Char) : Parameter :=
  let value := (parameter.dropWhile (· != '=')).drop 1
  ⟨textOf (parameter.takeWhile (· != '=')), textOf value, bytesOf value⟩

/-- The parameters that have a name. -/
def parametersOf (query : List Char) : List Parameter :=
  ((query.splitOn '&').map Parameter.ofChars).filter fun parameter => parameter.name != ""

/-- The greatest number that a switch may tell. -/
def greatestSwitch : Nat :=
  0x7fffffff

/-- The number of digits after zeros, or zero if it is too great. -/
def switchNumber (base digits : Nat) (isDigit : Char → Bool) (text : List Char) : Nat :=
  let told := (text.dropWhile (· == '0')).takeWhile isDigit
  let number := told.foldl (fun number digit => number * base + (Json.hexValue? digit).getD 0) 0
  if digits < told.length || greatestSwitch < number then 0 else number

/-- Whether a character is a hexadecimal digit. -/
def isHexDigit (char : Char) : Bool :=
  (Json.hexValue? char).isSome

/-- Whether the value of a switch says yes. -/
def isYes (value : String) : Bool :=
  match value.toList with
  | '0' :: x :: digit :: rest =>
      if (x == 'x' || x == 'X') && isHexDigit digit then
        switchNumber 16 8 isHexDigit (digit :: rest) % 256 != 0
      else
        switchNumber 10 10 Char.isDigit ('0' :: x :: digit :: rest) % 256 != 0
  | char :: rest =>
      if char.isDigit then
        switchNumber 10 10 Char.isDigit (char :: rest) % 256 != 0
      else
        ["yes", "true", "on"].contains value.toLower
  | [] =>
      false

/-- Open the file with the access of a mode. -/
def withMode (location : ArchiveLocation) (mode : String) :
    Except LocationFault ArchiveLocation :=
  match ArchiveAccess.ofMode? mode with
  | none =>
      .error (.unknownMode "access" mode)
  | some access =>
      if location.access.allowance < access.demand then
        .error (.widerAccess mode)
      else
        .ok { location with access }

/-- Read a parameter. -/
def readParameter (location : ArchiveLocation) (parameter : Parameter) :
    Except LocationFault ArchiveLocation :=
  match parameter.name, parameter.value with
  | "vfs", system =>
      .ok { location with system }
  | "mode", mode =>
      location.withMode mode
  | "cache", mode =>
      if mode == "shared" || mode == "private" then
        .ok { location with isShared := mode == "shared" }
      else
        .error (.unknownMode "cache" mode)
  | _, _ =>
      .ok location

/-- Read the switches among parameters. -/
def withSwitches (location : ArchiveLocation) (parameters : List Parameter) : ArchiveLocation :=
  let first? (name : String) := parameters.find? fun parameter => parameter.name == name
  let isSet (name : String) := (first? name).any fun parameter => isYes parameter.value
  { location with
    isImmutable := isSet "immutable",
    isUnlocked := isSet "nolock" || location.system == openSystem,
    isIndexReadOnly := isSet "readonly_shm",
    modeFile := (first? "modeof").map Parameter.bytes }

/-- Whether an authority is that of this machine. -/
def isOwnAuthority (authority : List Char) : Bool :=
  authority.isEmpty || String.ofList authority == "localhost"

/-- The characters of an address after its authority, if it has one. -/
def afterAuthority : List Char → Except LocationFault (List Char)
  | '/' :: '/' :: rest =>
      let authority := rest.takeWhile (· != '/')
      if isOwnAuthority authority then
        .ok (rest.dropWhile (· != '/'))
      else
        .error (.foreignAuthority (String.ofList authority))
  | address =>
      .ok address

/-- The location of an address without its scheme. -/
def ofAddress (address : List Char) : Except LocationFault ArchiveLocation := do
  let rest := (← afterAuthority address).takeWhile (· != '#')
  let parameters := parametersOf ((rest.dropWhile (· != '?')).drop 1)
  let file := ofFile (bytesOf (rest.takeWhile (· != '?')))
  let location ← parameters.foldlM readParameter file
  if !knownSystems.contains location.system then
    throw (.unknownSystem location.system)
  pure (location.withSwitches parameters)

/-- The number of bytes before the first that is zero. -/
def nulOffset? (text : String) : Option Nat :=
  text.toUTF8.toList.findIdx? (· == 0)

/-- The location that a text tells. -/
def ofText (text : String) : Except LocationFault ArchiveLocation :=
  match nulOffset? text, text.toList with
  | some offset, _ => .error (.containsNul offset)
  | none, 'f' :: 'i' :: 'l' :: 'e' :: ':' :: address => ofAddress address
  | none, _ => .ok (ofFile (FilePath.ofText text))

end ArchiveLocation

end ActivityCatalog
