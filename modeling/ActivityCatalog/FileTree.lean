import ActivityCatalog.FilePath

namespace ActivityCatalog

/-!
# File trees

A file tree says what stands in each place: a folder, or something that is none.
A path is followed piece by piece, and each piece needs a folder to go on from,
also one that stays there or leads back.

An operation on a path fails if the path cannot be followed; no name and no path
may be longer than a bound in bytes.

A file that stands where another one was taken away is not the same file: files of one
place are told apart by how many were taken away there before.  For who has it open, what
was taken away is still there.
-/

/-- Why an operation on files fails. -/
inductive FileFault where
  | notFound
  | exists
  | notFolder
  | isFolder
  | nameTooLong
  | containsNul
  | notText
  deriving Repr, DecidableEq

/-- The text of a fault. -/
def FileFault.message : FileFault → String
  | .notFound => "No such file or directory (os error 2)"
  | .exists => "File exists (os error 17)"
  | .notFolder => "Not a directory (os error 20)"
  | .isFolder => "Is a directory (os error 21)"
  | .nameTooLong => "File name too long (os error 36)"
  | .containsNul => "file name contained an unexpected NUL byte"
  | .notText => "stream did not contain valid UTF-8"

/-- What stands in a place: a folder, or a file of some kind. -/
inductive FileNode (File : Type) where
  | folder
  | file (content : File)
  deriving Repr, DecidableEq

/-- What stands in the places of a tree, and what was taken away from them, the last first. -/
structure FileTree (File : Type) where
  nodes : List (Place × FileNode File)
  vacated : List (Place × FileNode File)
  deriving Repr

namespace FileTree

variable {File : Type}

/-- No name has more bytes. -/
def greatestName : Nat :=
  255

/-- No path has more bytes. -/
def greatestPath : Nat :=
  4095

/-- The tree without files. -/
def empty : FileTree File :=
  ⟨[], []⟩

/-- What stands in a place, if all before it are folders. -/
def node? (tree : FileTree File) (place : Place) : Option (FileNode File) :=
  if place.isGiven then
    some .folder
  else
    (tree.nodes.find? fun node => node.1 == place).map Prod.snd

/-- What was taken away from a place, the last first. -/
def vacatedFrom (tree : FileTree File) (place : Place) : List (FileNode File) :=
  (tree.vacated.filter fun held => held.1 == place).map Prod.snd

/-- How many files were taken away from a place. -/
def generation (tree : FileTree File) (place : Place) : Nat :=
  (tree.vacatedFrom place).length

/-- What stands or stood in a place after so many files were taken away there. -/
def nodeOf? (tree : FileTree File) (place : Place) (generation : Nat) :
    Option (FileNode File) :=
  if generation == tree.generation place then
    tree.node? place
  else
    (tree.vacatedFrom place).reverse[generation]?

/-- Go on by one piece from a place where something stands. -/
def step (tree : FileTree File) (reached : Place × FileNode File) (piece : FileName) :
    Except FileFault (Place × FileNode File) :=
  match reached with
  | (_, .file _) =>
      .error .notFolder
  | (place, .folder) =>
      if greatestName < piece.length then
        .error .nameTooLong
      else
        let next := FilePath.goOn place piece
        match tree.node? next with
        | none => .error .notFound
        | some node => .ok (next, node)

/-- Follow pieces from a folder. -/
def follow (tree : FileTree File) (folder : Place) (pieces : List FileName) :
    Except FileFault (Place × FileNode File) :=
  pieces.foldlM tree.step (folder, .folder)

/-- What stands in a place, or why nothing can. -/
def visit (tree : FileTree File) (place : Place) : Except FileFault (FileNode File) :=
  let (folder, names) := place.origin
  (tree.follow folder names).map Prod.snd

/-- Refuse a path that cannot be followed whatever stands where. -/
def checkPath (path : FilePath) : Except FileFault Unit :=
  if path.contains 0 then
    .error .containsNul
  else if path.isEmpty then
    .error .notFound
  else if greatestPath < path.length then
    .error .nameTooLong
  else
    .ok ()

/-- What stands under a path. -/
def find (tree : FileTree File) (path : FilePath) : Except FileFault (FileNode File) := do
  checkPath path
  let (_, node) ← tree.follow (FilePath.start path) (FilePath.pieces path)
  pure node

/-- Whether anything stands under a path. -/
def contains (tree : FileTree File) (path : FilePath) : Bool :=
  match tree.find path with
  | .ok _ => true
  | .error _ => false

/-- Whether a folder stands under a path. -/
def containsFolder (tree : FileTree File) (path : FilePath) : Bool :=
  match tree.find path with
  | .ok .folder => true
  | _ => false

/-- The file under a path. -/
def read (tree : FileTree File) (path : FilePath) : Except FileFault File := do
  match ← tree.find path with
  | .file content => pure content
  | .folder => throw .isFolder

/-- The place that the last piece of a path names, in a folder that is there. -/
def target (tree : FileTree File) (path : FilePath) : Except FileFault Place := do
  checkPath path
  let pieces := FilePath.pieces path
  match ← tree.follow (FilePath.start path) pieces.dropLast with
  | (_, .file _) =>
      throw .notFolder
  | (folder, .folder) =>
      let name := pieces.getLast?.getD []
      if FilePath.staysPut name || name == Place.above then
        throw .exists
      else if greatestName < name.length then
        throw .nameTooLong
      else
        pure (folder ++ [name])

/-- Put a node in a place, instead of what stood there. -/
def put (tree : FileTree File) (place : Place) (node : FileNode File) : FileTree File :=
  { tree with nodes := (place, node) :: tree.nodes.filter fun held => held.1 != place }

/-- Take away what stands in a place. -/
def vacate (tree : FileTree File) (place : Place) : FileTree File :=
  let taken := tree.nodes.filter fun held => held.1 == place
  ⟨tree.nodes.filter fun held => held.1 != place, taken ++ tree.vacated⟩

/-- Put a node in a place, or instead of what was taken away there after so many files. -/
def putOf (tree : FileTree File) (place : Place) (generation : Nat) (node : FileNode File) :
    FileTree File :=
  if generation == tree.generation place then
    tree.put place node
  else
    let others := tree.vacated.filter fun held => held.1 != place
    let own := (tree.vacatedFrom place).reverse.set generation node
    { tree with vacated := own.reverse.map (fun held => (place, held)) ++ others }

/-- A path without separators at its end. -/
def withoutSlashes (path : FilePath) : FilePath :=
  (path.reverse.dropWhile (· == FilePath.separator)).reverse

/-- Make the folder under a path, where nothing stands yet. -/
def makeFolder (tree : FileTree File) (path : FilePath) : Except FileFault (FileTree File) := do
  let place ← tree.target (withoutSlashes path)
  match tree.node? place with
  | some _ => throw .exists
  | none => pure (tree.put place .folder)

/-- Make the folder under a path, or leave the one that is there. -/
def ensureFolder (tree : FileTree File) (path : FilePath) :
    Except FileFault (FileTree File) :=
  match tree.makeFolder path with
  | .ok made => .ok made
  | .error fault => if tree.containsFolder path then .ok tree else .error fault

/-- Make the folder under the first path; if no folder holds it, that under the next before. -/
def ensureFolders (tree : FileTree File) : List FilePath → Except FileFault Unit × FileTree File
  | [] =>
      (.ok (), tree)
  | path :: parents =>
      match tree.ensureFolder path with
      | .ok made =>
          (.ok (), made)
      | .error .notFound =>
          match tree.ensureFolders parents with
          | (.error fault, made) =>
              (.error fault, made)
          | (.ok _, made) =>
              match made.ensureFolder path with
              | .ok whole => (.ok (), whole)
              | .error fault => (.error fault, made)
      | .error fault =>
          (.error fault, tree)

/-- Make the folder under a path and those that lead there. -/
def makeFolders (tree : FileTree File) (path : FilePath) : Except FileFault Unit × FileTree File :=
  if path.isEmpty then
    (.ok (), tree)
  else
    tree.ensureFolders (path :: FilePath.parents path)

/-- Make the folders that lead to a path. -/
def makeParents (tree : FileTree File) (path : FilePath) : Except FileFault Unit × FileTree File :=
  tree.ensureFolders (FilePath.parents path)

/-- Write a file under a path, instead of one that stood there. -/
def write (tree : FileTree File) (path : FilePath) (content : File) :
    Except FileFault (FileTree File) := do
  let place ← tree.target path
  match tree.node? place with
  | some .folder => throw .isFolder
  | _ => pure (tree.put place (.file content))

/-- Take away the file under a path. -/
def remove (tree : FileTree File) (path : FilePath) : Except FileFault (FileTree File) := do
  let place ← tree.target path
  match tree.node? place with
  | none => throw .notFound
  | some .folder => throw .isFolder
  | some (.file _) => pure (tree.vacate place)

end FileTree

end ActivityCatalog
