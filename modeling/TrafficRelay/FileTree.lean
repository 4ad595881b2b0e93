import TrafficRelay.Failure

/-!
# File trees

A file tree holds directories and files by their location, the list of names
that leads there from the root.  Paths are resolved name by name; every name
but the last has to lead to a directory.  Opening a file for appending creates
it if it is absent, and nothing else creates or changes anything when opened.

A `FileSystem` is what a relay opens its files with.  A file tree is one, in
which opening fails for what stands in the tree and for no other cause.
-/

namespace TrafficRelay

/-- The names that lead from the root to a file or directory. -/
abbrev Location := List String

/-- What stands at a location. -/
inductive FileEntry where
  | file (content : Bytes)
  | directory
  deriving DecidableEq, Repr

/-- Files and directories below the root, and the directory that relative
paths start from. -/
structure FileTree where
  entries : List (Location × FileEntry)
  workingDirectory : Location
  deriving DecidableEq, Repr

namespace FileTree

/-- A tree with nothing but an empty working directory. -/
def empty : FileTree := ⟨[(["work"], .directory)], ["work"]⟩

def entry? (tree : FileTree) (location : Location) : Option FileEntry :=
  if location = [] then some .directory else tree.entries.lookup location

/-- Put an entry at a location, in place of what stands there. -/
def set (tree : FileTree) (location : Location) (entry : FileEntry) : FileTree :=
  { tree with
    entries :=
      (location, entry) :: tree.entries.filter fun other => other.1 ≠ location }

/-- The longest name, in bytes. -/
def maxName : Nat := 255

/-- Paths are shorter than this, in bytes. -/
def maxPath : Nat := 4096

/-- Where a name leads from a directory. -/
def descend (directory : Location) (name : String) : Except IoError Location :=
  if name = "." then .ok directory
  else if name = ".." then .ok directory.dropLast
  else if name.utf8ByteSize > maxName then .error .nameTooLong
  else .ok (directory ++ [name])

/-- Where a name leads from a directory, if a directory stands there. -/
def enter (tree : FileTree) (directory : Location) (name : String) :
    Except IoError Location := do
  let location ← descend directory name
  match tree.entry? location with
  | none => .error .notFound
  | some (.file _) => .error .notADirectory
  | some .directory => .ok location

/-- A path resolved up to its last name: the directory it is in, the name, and
whether only a directory will do. -/
structure Target where
  directory : Location
  name : String
  directoryOnly : Bool
  deriving DecidableEq, Repr

/-- Where the last name leads. -/
def Target.location (target : Target) : Except IoError Location :=
  descend target.directory target.name

/-- The pieces between slashes. -/
def pieces : List Char → List (List Char)
  | [] => [[]]
  | char :: chars =>
      if char = '/' then [] :: pieces chars
      else
        match pieces chars with
        | [] => [[char]]
        | piece :: others => (char :: piece) :: others

/-- The names in a path.  Between two slashes in a row there is none. -/
def names (path : String) : List String :=
  ((pieces path.toList).filter (· ≠ [])).map String.ofList

/-- Resolve a path up to its last name.  A path without names is the root, which
stands in itself. -/
def resolve (tree : FileTree) (path : String) : Except IoError Target :=
  if path.toList.contains '\x00' then .error .nulInName
  else if path = "" then .error .notFound
  else if path.utf8ByteSize ≥ maxPath then .error .nameTooLong
  else
    let start := if path.toList.head? = some '/' then [] else tree.workingDirectory
    match (names path).getLast? with
    | none => .ok ⟨start, ".", true⟩
    | some last => do
        let directory ← (names path).dropLast.foldlM tree.enter start
        .ok ⟨directory, last, path.toList.getLast? = some '/'⟩

/-- Open a file or directory that exists. -/
def openExisting (tree : FileTree) (path : String) : Except IoError Location := do
  let target ← tree.resolve path
  let location ← target.location
  match tree.entry? location with
  | none => .error .notFound
  | some (.file _) =>
      if target.directoryOnly then .error .notADirectory else .ok location
  | some .directory => .ok location

/-- The location of a file that is there or can be created.  A path that only
suits a directory is refused before its last name is looked at. -/
def locateFile (tree : FileTree) (path : String) : Except IoError Location := do
  let target ← tree.resolve path
  if target.directoryOnly then .error .isADirectory
  else
    let location ← target.location
    match tree.entry? location with
    | some .directory => .error .isADirectory
    | some (.file _) | none => .ok location

/-- Open a file for appending, creating it if it is absent. -/
def openForAppending (tree : FileTree) (path : String) :
    Except IoError (Location × FileTree) := do
  let location ← tree.locateFile path
  match tree.entry? location with
  | none => .ok (location, tree.set location (.file []))
  | some _ => .ok (location, tree)

/-- The content of an opened file; a directory has none. -/
def contentAt (tree : FileTree) (location : Location) : Except IoError Bytes :=
  match tree.entry? location with
  | some (.file content) => .ok content
  | some .directory => .error .isADirectory
  | none => .error .notFound

def read (tree : FileTree) (path : String) : Except IoError Bytes := do
  tree.contentAt (← tree.openExisting path)

/-- Give a file this content, creating it if it is absent. -/
def write (tree : FileTree) (path : String) (content : Bytes) :
    Except IoError FileTree := do
  let location ← tree.locateFile path
  .ok (tree.set location (.file content))

/-- Append to an opened file. -/
def appendAt (tree : FileTree) (location : Location) (bytes : Bytes) :
    Except IoError FileTree := do
  let content ← tree.contentAt location
  .ok (tree.set location (.file (content ++ bytes)))

/-- Create the directory that a name leads to, unless something stands there. -/
def createDirectory (tree : FileTree) (location : Location) : FileTree :=
  match tree.entry? location with
  | none => tree.set location .directory
  | some _ => tree

/-- Create every directory that leads to a location below the working
directory. -/
def createDirectories (tree : FileTree) (names : List String) : FileTree :=
  (List.range names.length).foldl
    (fun tree count =>
      tree.createDirectory (tree.workingDirectory ++ names.take (count + 1)))
    tree

end FileTree

/-- The ways to open a file under a path, to read it and to append to it.  What
opening comes to, for which causes it fails and what it changes, is up to the
system. -/
structure FileSystem (m : Type → Type) (ρ α : Type) where
  openForReading : String → m (Except IoError ρ)
  openForAppending : String → m (Except IoError α)

/-- The files of a tree. -/
def FileTree.system : FileSystem (StateM FileTree) Location Location where
  openForReading path tree := (tree.openExisting path, tree)
  openForAppending path tree :=
    match tree.openForAppending path with
    | .ok (location, opened) => (.ok location, opened)
    | .error cause => (.error cause, tree)

end TrafficRelay
