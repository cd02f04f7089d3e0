import GameBoy.CommandLine.Files

/-!
A store of files in memory that behaves like the directory that a program is started in. Paths may
lead out of it: there is a directory above every directory, and absolute paths begin at the system's
root, which holds the standard directories and the null device. Main statements: `get?_put_same`
and `get?_put_ne` say that storing a file changes that file alone.
-/

namespace GameBoy.CommandLine

/-- Where the names of a location begin: at the system's root, or a number of levels above the
store. -/
inductive Base
  | root
  | above (levels : Nat)
deriving DecidableEq, Inhabited

/-- A place that a path can lead to: a base, and the names that lead down from it. -/
structure Location where
  base : Base
  names : List String
deriving DecidableEq, Inhabited

namespace Location

/-- The location with the given names inside the store. -/
def inStore (names : List String) : Location := { base := .above 0, names }

/-- The device that swallows what is written to it and is empty when it is read. -/
def nullDevice : Location := { base := .root, names := ["dev", "null"] }

/-- The directories of the system's root that a path can count on. -/
def standardDirectories : List String :=
  ["bin", "dev", "etc", "home", "lib", "mnt", "opt", "proc", "root", "run", "sbin", "srv", "sys",
    "tmp", "usr", "var"]

/-- Whether a location is a directory whatever the store holds. -/
def isStandardDirectory (location : Location) : Bool :=
  match location.base, location.names with
  | _, [] => true
  | .root, [name] => standardDirectories.contains name
  | _, _ => false

/-- Whether a location lies strictly below another. -/
def isBelow (location other : Location) : Bool :=
  location.base = other.base && other.names.length < location.names.length &&
    other.names.isPrefixOf location.names

/-- The directory above. The root has none and is its own. -/
def parent (location : Location) : Location :=
  match location with
  | { base := .above levels, names := [] } => { base := .above (levels + 1), names := [] }
  | { base, names } => { base, names := names.dropLast }

/-- What a directory calls by a name. -/
def child (location : Location) (name : String) : Location :=
  { location with names := location.names ++ [name] }

end Location

/-- The most bytes in one name of a path. -/
def maxNameSize : Nat := 255

/-- The most bytes in a path. -/
def maxPathSize : Nat := 4095

/-- Files in memory. A directory is there as long as a file is below it. -/
structure Store where
  entries : List (Location × Memory) := []
deriving DecidableEq, Inhabited

namespace Store

/-- Entries with the contents at one location replaced. -/
def replace (entries : List (Location × Memory)) (location : Location) (contents : Memory) :
    List (Location × Memory) :=
  entries.map fun (l, old) => if l = location then (l, contents) else (l, old)

theorem lookup_replace_same (entries : List (Location × Memory)) (location : Location)
    (contents : Memory) (found : (entries.lookup location).isSome) :
    (replace entries location contents).lookup location = some contents := by
  induction entries with
  | nil => simp at found
  | cons entry rest ih =>
    obtain ⟨l, old⟩ := entry
    by_cases same : l = location
    · simp [replace, same]
    · have miss : (location == l) = false := beq_false_of_ne (Ne.symm same)
      simp only [List.lookup_cons, miss] at found
      simpa [replace, same, List.lookup_cons, miss] using ih found

theorem lookup_replace_ne (entries : List (Location × Memory)) {location other : Location}
    (different : location ≠ other) (contents : Memory) :
    (replace entries location contents).lookup other = entries.lookup other := by
  induction entries with
  | nil => rfl
  | cons entry rest ih =>
    obtain ⟨l, old⟩ := entry
    by_cases same : l = location
    · have miss : (other == l) = false := beq_false_of_ne (same ▸ Ne.symm different)
      simpa [replace, same, List.lookup_cons, miss, beq_false_of_ne (Ne.symm different)] using ih
    · by_cases hit : other = l
      · simp [replace, same, hit]
      · simpa [replace, same, List.lookup_cons, beq_false_of_ne hit] using ih

/-- The contents of a file. -/
def get? (s : Store) (location : Location) : Option Memory :=
  if location = .nullDevice then some (.zeros 0) else s.entries.lookup location

/-- Stores a file, in the place of one at the same location. -/
def put (s : Store) (location : Location) (contents : Memory) : Store :=
  if location = .nullDevice then s
  else if (s.entries.lookup location).isSome then
    { entries := replace s.entries location contents }
  else { entries := s.entries ++ [(location, contents)] }

theorem get?_put_same (s : Store) {location : Location} (real : location ≠ .nullDevice)
    (contents : Memory) : (s.put location contents).get? location = some contents := by
  simp only [get?, put, if_neg real]
  split
  · rename_i found
    exact lookup_replace_same s.entries location contents found
  · rename_i missing
    simp only [Option.not_isSome_iff_eq_none] at missing
    simp [List.lookup_append, missing]

theorem get?_put_ne (s : Store) {location other : Location} (different : location ≠ other)
    (contents : Memory) : (s.put location contents).get? other = s.get? other := by
  simp only [get?, put]
  split
  · rfl
  · split
    · rfl
    · split
      · exact lookup_replace_ne s.entries different contents
      · simp [List.lookup_append, List.lookup_cons, beq_false_of_ne (Ne.symm different)]

/-- Whether a directory is there. -/
def isDirectory (s : Store) (location : Location) : Bool :=
  location.isStandardDirectory || s.entries.any fun (l, _) => l.isBelow location

/-- Follows names from a location. Only a directory can be followed further, even by a name that
stays where it is. -/
def follow (s : Store) (current : Location) : List String → Except FileError Location
  | [] => .ok current
  | name :: rest =>
    if !s.isDirectory current then
      .error (if (s.get? current).isSome then .notDirectory else .notFound)
    else if name = "" ∨ name = "." then follow s current rest
    else if name = ".." then follow s current.parent rest
    else if maxNameSize < name.utf8ByteSize then .error .nameTooLong
    else follow s (current.child name) rest

/-- The location that a path begins at. -/
def start (path : String) : Location :=
  if path.toList.head? = some '/' then { base := .root, names := [] } else .inStore []

/-- The names between the slashes of a path. The empty path leads nowhere. -/
def namesOf (path : String) : Except FileError (List String) :=
  if path = "" then .error .notFound
  else if maxPathSize < path.utf8ByteSize then .error .nameTooLong
  else .ok (path.splitToList (· = '/'))

/-- The location that a path leads to. -/
def resolve (s : Store) (path : String) : Except FileError Location :=
  match namesOf path with
  | .error e => .error e
  | .ok names => s.follow (start path) names

/-- The location that a path leads to when a file may be created there. A slash behind the last name
asks for a directory, and no file is created under that name. -/
def resolveNew (s : Store) (path : String) : Except FileError Location :=
  match namesOf path with
  | .error e => .error e
  | .ok names =>
    let (slashes, upward) := names.reverse.span (· = "")
    match upward with
    | [] => .error .isDirectory
    | last :: before =>
      match s.follow (start path) (before.reverse ++ ["."]) with
      | .error e => .error e
      | .ok directory =>
        if slashes = [] then s.follow directory [last] else .error .isDirectory

/-- Reads a file. -/
def read (s : Store) (path : String) : Except FileError Memory :=
  match s.resolve path with
  | .error e => .error e
  | .ok location =>
    match s.get? location with
    | some contents => .ok contents
    | none => .error (if s.isDirectory location then .isDirectory else .notFound)

/-- Whether a file or directory is there. -/
def contains (s : Store) (path : String) : Bool :=
  match s.resolve path with
  | .error _ => false
  | .ok location => (s.get? location).isSome || s.isDirectory location

/-- Writes a file whose directory is there. -/
def write (s : Store) (path : String) (contents : Memory) : Except FileError Store :=
  match s.resolveNew path with
  | .error e => .error e
  | .ok location =>
    if s.isDirectory location then .error .isDirectory else .ok (s.put location contents)

/-- A store as files. -/
def files : Files (StateM Store) where
  read path := return (← get).read path
  present path := return (← get).contains path
  write path contents := do
    match (← get).write path contents with
    | .error e => return .error e
    | .ok s =>
      set s
      return .ok ()

end Store

end GameBoy.CommandLine
