import Roster.Statistics.Ascending

/-!
# Trees of files

A `FileTree` is what a program sees of a file system: files and folders by the names that lead to
them from the root, and the folder that paths without a leading slash start in. Folders on the way
to an entry or to the current folder are there without being listed.

`FileTree.find?` follows a path. A step is possible only inside a folder; an empty name and `.`
stay there, and `..` goes back one name. Neither a path nor a name may be too long (`longestPath`,
`longestName`). `readText` reads a file as UTF-8 text.
-/

namespace Roster

/-- What stands at the end of a path. -/
inductive FileEntry
  | file (bytes : ByteArray)
  | folder

/-- Files and folders by their names from the root. -/
structure FileTree where
  entries : List (List String × FileEntry)
  current : List String

/-- Why a file cannot be read. -/
inductive ReadFault
  | notFound
  | notFolder
  | isFolder
  | notText
  /-- The path holds the character NUL. -/
  | badPath
  /-- The path or a name in it has too many bytes. -/
  | tooLong
  deriving Repr, DecidableEq

/-- The wording of a reason. -/
def ReadFault.message : ReadFault → String
  | .notFound => "No such file or directory (os error 2)"
  | .notFolder => "Not a directory (os error 20)"
  | .isFolder => "Is a directory (os error 21)"
  | .notText => "stream did not contain valid UTF-8"
  | .badPath => "file name contained an unexpected NUL byte"
  | .tooLong => "File name too long (os error 36)"

/-- The greatest number of bytes of a path. -/
def longestPath : Nat := 4095

/-- The greatest number of bytes of a name. -/
def longestName : Nat := 255

/-- The names between the slashes of a path. -/
def pathNames (path : String) : List String :=
  (path.toList.splitOn '/').map String.ofList

namespace FileTree

/-- Whether names lead to something in the tree that has further entries, or to the current
folder. -/
def isFolderAt (tree : FileTree) (names : List String) : Bool :=
  names.isPrefixOf tree.current ||
    tree.entries.any fun (other, entry) =>
      match entry with
      | .folder => names.isPrefixOf other
      | .file _ => names.isPrefixOf other && names.length < other.length

/-- What names lead to. -/
def entryAt? (tree : FileTree) (names : List String) : Option FileEntry :=
  if tree.isFolderAt names then some .folder
  else (tree.entries.find? fun (other, _) => other == names).map Prod.snd

/-- Follows the names of a path from a place in the tree. -/
def walk (tree : FileTree) (here : List String) : List String → Except ReadFault (List String)
  | [] => .ok here
  | name :: path =>
    match tree.entryAt? here with
    | none => .error .notFound
    | some (.file _) => .error .notFolder
    | some .folder =>
      if name == "" || name == "." then walk tree here path
      else if name == ".." then walk tree here.dropLast path
      else if longestName < name.utf8ByteSize then .error .tooLong
      else if (tree.entryAt? (here ++ [name])).isSome then walk tree (here ++ [name]) path
      else .error .notFound

/-- The names from the root that a path stands for. -/
def find? (tree : FileTree) (path : String) : Except ReadFault (List String) :=
  if path.toList.contains '\x00' then .error .badPath
  else if longestPath < path.utf8ByteSize then .error .tooLong
  else if path.isEmpty then .error .notFound
  else tree.walk (if "/".toList.isPrefixOf path.toList then [] else tree.current) (pathNames path)

/-- The names from the root that a path stands for, whatever is in the tree. -/
def namesOf (tree : FileTree) (path : String) : List String :=
  (pathNames path).foldl
    (fun here name =>
      if name == "" || name == "." then here
      else if name == ".." then here.dropLast
      else here ++ [name])
    (if "/".toList.isPrefixOf path.toList then [] else tree.current)

/-- The tree with a file at the end of a path. -/
def insertFile (tree : FileTree) (path : String) (bytes : ByteArray) : FileTree :=
  { tree with entries := (tree.namesOf path, .file bytes) :: tree.entries }

/-- Whether a path leads to a file. -/
def isFile (tree : FileTree) (path : String) : Bool :=
  match tree.find? path with
  | .ok names =>
    match tree.entryAt? names with
    | some (.file _) => true
    | _ => false
  | .error _ => false

/-- The text of the file that a path leads to. -/
def readText (tree : FileTree) (path : String) : Except ReadFault String := do
  let names ← tree.find? path
  match tree.entryAt? names with
  | some (.file bytes) =>
    match String.fromUTF8? bytes with
    | some text => .ok text
    | none => .error .notText
  | some .folder => .error .isFolder
  | none => .error .notFound

/-- The names of what a folder holds, ascending and each once. -/
def children (tree : FileTree) (folder : List String) : List String :=
  Ascending.ofTexts ((tree.entries.map Prod.fst ++ [tree.current]).filterMap fun names =>
    if folder.isPrefixOf names then (names.drop folder.length).head? else none)

/-- The names from a folder to everything below it, for trees of a bounded depth. -/
def below (tree : FileTree) : Nat → List String → List (List String)
  | 0, _ => []
  | depth + 1, folder =>
    (tree.children folder).flatMap fun name =>
      [name] :: ((tree.below depth (folder ++ [name])).map (name :: ·))

/-- A bound on the number of names that lead to anything. -/
def depth (tree : FileTree) : Nat :=
  (tree.entries.map fun entry => entry.1.length).foldl max tree.current.length

end FileTree

end Roster
