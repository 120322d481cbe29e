import HardSector.Bytes
import HardSector.Storage.Error
import HardSector.Storage.Path

/-!
# File trees

A tree of directories and regular files, addressed by paths as an operating system reads them: names
are followed from the root or from the working directory, each through an existing directory. Only
`create` and `write` change a tree, each at a single location.
-/

namespace HardSector

/-- A location: the names that lead to it from the root. -/
abbrev Location := List String

/-- What a location holds. -/
inductive Entry where
  | directory
  | file (bytes : Bytes)
deriving DecidableEq, Repr

/-- Files and directories by location, and the working directory. -/
structure FileTree where
  workingDirectory : Location := []
  entries : List (Location × Entry) := []
deriving Repr

namespace FileTree

/-- What a location holds, if anything. The root is always a directory. -/
def get? (tree : FileTree) : Location → Option Entry
  | [] => some .directory
  | location => tree.entries.lookup location

/-- The bytes of the regular file at a location, if there is one. -/
def file? (tree : FileTree) (location : Location) : Option Bytes :=
  match tree.get? location with
  | some (.file bytes) => some bytes
  | _ => none

/-- Let a location hold an entry. -/
def put (tree : FileTree) (location : Location) (entry : Entry) : FileTree :=
  { tree with
    entries := (location, entry) :: tree.entries.filter fun item => item.1 != location }

/-- A file name may have at most this many bytes. -/
def nameLimit : Nat := 255

/-- A path must be shorter than this many bytes. -/
def pathLimit : Nat := 4096

/-- Follow names from a location. Each step leads out of an existing directory; the last name need
not exist. -/
def walk (tree : FileTree) : Location → List String → Except StorageError Location
  | here, [] => .ok here
  | here, name :: names =>
    match tree.get? here with
    | none => .error .notFound
    | some (.file _) => .error .notDirectory
    | some .directory =>
      if name = "." then tree.walk here names
      else if name = ".." then tree.walk here.dropLast names
      else if nameLimit < name.utf8ByteSize then .error .nameTooLong
      else tree.walk (here ++ [name]) names

/-- Follow names from where a path starts, if the path is well formed. -/
def follow (tree : FileTree) (path : String) (names : List String) :
    Except StorageError Location :=
  if path.toList.contains '\x00' then .error .nulInPath
  else if path.isEmpty then .error .notFound
  else if pathLimit ≤ path.utf8ByteSize then .error .nameTooLong
  else tree.walk (if Path.isAbsolute path then [] else tree.workingDirectory) names

/-- The location that a path leads to. -/
def locate (tree : FileTree) (path : String) : Except StorageError Location :=
  tree.follow path (Path.names path)

/-- Whether a path ends in a slash and so can only name a directory. -/
def demandsDirectory (path : String) : Bool := path.endsWith "/"

/-- The location of a path and what it holds; there must be something. -/
def find (tree : FileTree) (path : String) : Except StorageError (Location × Entry) :=
  match tree.locate path with
  | .error cause => .error cause
  | .ok location =>
    match tree.get? location with
    | none => .error .notFound
    | some .directory => .ok (location, .directory)
    | some (.file bytes) =>
      if demandsDirectory path then .error .notDirectory else .ok (location, .file bytes)

/-- Whether a path names something. -/
def contains (tree : FileTree) (path : String) : Bool :=
  match tree.find path with
  | .ok _ => true
  | .error _ => false

/-- The location and the bytes of the regular file that a path names. -/
def findFile (tree : FileTree) (path : String) : Except StorageError (Location × Bytes) :=
  match tree.find path with
  | .error cause => .error cause
  | .ok (_, .directory) => .error .isDirectory
  | .ok (location, .file bytes) => .ok (location, bytes)

/-- The bytes of the regular file that a path names. -/
def read (tree : FileTree) (path : String) : Except StorageError Bytes :=
  match tree.findFile path with
  | .error cause => .error cause
  | .ok (_, bytes) => .ok bytes

/-- The directory in which the last name of a path stands. -/
def parent (tree : FileTree) (path : String) : Except StorageError Location :=
  tree.follow path ((Path.names path).dropLast ++ ["."])

/-- Where a file can be created at a path: a directory is in the way, and a path that ends in a
slash names no file, whatever its last name. -/
def creatable (tree : FileTree) (path : String) : Except StorageError Location :=
  match if demandsDirectory path then tree.parent path else tree.locate path with
  | .error cause => .error cause
  | .ok location =>
    if demandsDirectory path || tree.get? location = some .directory then .error .isDirectory
    else .ok location

/-- Create a regular file with the given bytes, or replace the bytes of one. -/
def create (tree : FileTree) (path : String) (bytes : Bytes) : Except StorageError FileTree :=
  match tree.creatable path with
  | .error cause => .error cause
  | .ok location => .ok (tree.put location (.file bytes))

/-- Replace the bytes of the regular file at a location; other locations keep what they hold. -/
def write (tree : FileTree) (location : Location) (bytes : Bytes) : FileTree :=
  tree.put location (.file bytes)

/-- Make the directories that lead to a location from one that exists, and put an entry there. The
name of the directory above leads back out of a directory that is made. -/
def plant (tree : FileTree) (here : Location) : List String → Entry → FileTree
  | [], entry => if here.isEmpty then tree else tree.put here entry
  | name :: names, entry =>
    let tree :=
      if (tree.get? here).isNone then tree.put here .directory else tree
    tree.plant (if name = ".." then here.dropLast else here ++ [name]) names entry

/-- Add a file or a directory below the working directory, with the directories that lead to it. -/
def add (tree : FileTree) (path : String) (entry : Entry) : FileTree :=
  let names := (Path.names path).filter (· != ".")
  tree.plant (if Path.isAbsolute path then [] else tree.workingDirectory) names entry

/-- The regular files below the working directory, by relative path, in order of their paths. -/
def files (tree : FileTree) : List (String × Bytes) :=
  let below := tree.entries.filterMap fun (location, entry) =>
    match entry with
    | .directory => none
    | .file bytes =>
      if tree.workingDirectory.isPrefixOf location then
        some ("/".intercalate (location.drop tree.workingDirectory.length), bytes)
      else none
  below.mergeSort fun a b => decide (a.1 ≤ b.1)

/-- A location holds what was put there. -/
@[simp] theorem get?_put_self (tree : FileTree) {location : Location} (entry : Entry)
    (hroot : location ≠ []) : (tree.put location entry).get? location = some entry := by
  cases location with
  | nil => exact absurd rfl hroot
  | cons name names => simp [get?, put]

/-- Putting an entry leaves the other locations as they were. -/
theorem get?_put_of_ne (tree : FileTree) {location other : Location} (entry : Entry)
    (hne : other ≠ location) : (tree.put location entry).get? other = tree.get? other := by
  cases other with
  | nil => rfl
  | cons name names =>
      have hskip : (name :: names == location) = false := beq_eq_false_iff_ne.mpr hne
      have hlookup (items : List (Location × Entry)) :
          (items.filter fun item => item.1 != location).lookup (name :: names) =
            items.lookup (name :: names) := by
        induction items with
        | nil => rfl
        | cons item items ih =>
            obtain ⟨found, held⟩ := item
            by_cases hfound : found = location
            · subst hfound
              simp only [bne_self_eq_false, List.filter_cons_of_neg, List.lookup_cons, hskip, ih,
                Bool.false_eq_true, not_false_eq_true]
            · have hkeep : (found != location) = true := bne_iff_ne.mpr hfound
              simp only [List.filter_cons_of_pos, hkeep, List.lookup_cons, ih]
      simp only [get?, put, List.lookup_cons, hskip, hlookup]

end FileTree

end HardSector
