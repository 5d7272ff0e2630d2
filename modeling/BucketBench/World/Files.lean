import BucketBench.Error
import BucketBench.Text.Utf8

set_option autoImplicit false

/-!
# Files and directories

A file system keeps entries by their location, which is the list of names from the root down. A path is a text
that leads from the working directory, or from the root when it begins with a slash, to a location; `walk`
follows it one name at a time and every name has to be looked up in a directory. Writing one location leaves
every other one as it was (`lookup?_put_of_ne`).
-/

namespace BucketBench

/-- What a file holds. Large files of zeros are kept by their size alone. -/
inductive Contents where
  | bytes (b : Bytes)
  | zeros (count : Nat)
deriving DecidableEq

namespace Contents

def size : Contents → Nat
  | .bytes b => b.length
  | .zeros count => count

def toBytes : Contents → Bytes
  | .bytes b => b
  | .zeros count => List.replicate count 0

@[simp] theorem length_toBytes (c : Contents) : c.toBytes.length = c.size := by
  cases c <;> simp [toBytes, size]

end Contents

inductive FileEntry where
  | directory
  | file (contents : Contents)
deriving DecidableEq

abbrev Location := List String

/-- Entries by location, and the directory that relative paths start from. -/
structure Files where
  entries : List (Location × FileEntry)
  here : Location

namespace Files

def empty (here : Location) : Files := ⟨[(here, .directory)], here⟩

def find? (place : Location) : List (Location × FileEntry) → Option FileEntry
  | [] => none
  | (p, e) :: rest => if p = place then some e else find? place rest

/-- The entry at a location; the root is a directory. -/
def lookup? (fs : Files) (place : Location) : Option FileEntry :=
  if place = [] then some .directory else find? place fs.entries

def replace (place : Location) (e : FileEntry) : List (Location × FileEntry) → List (Location × FileEntry)
  | [] => [(place, e)]
  | (p, old) :: rest => if p = place then (p, e) :: rest else (p, old) :: replace place e rest

def put (fs : Files) (place : Location) (e : FileEntry) : Files :=
  { fs with entries := replace place e fs.entries }

theorem find?_replace (place other : Location) (e : FileEntry) (entries : List (Location × FileEntry)) :
    find? other (replace place e entries) = if place = other then some e else find? other entries := by
  induction entries with
  | nil => simp [replace, find?]
  | cons m rest ih =>
    obtain ⟨p, old⟩ := m
    by_cases h : p = place
    · subst h
      by_cases e : p = other <;> simp [replace, find?, e]
    · by_cases e : p = other
      · subst e
        simp [replace, find?, h, Ne.symm h]
      · simp [replace, find?, h, e, ih]

theorem lookup?_put_self (fs : Files) {place : Location} (e : FileEntry) (h : place ≠ []) :
    (fs.put place e).lookup? place = some e := by
  simp [lookup?, put, find?_replace, h]

theorem lookup?_put_of_ne (fs : Files) {place other : Location} (e : FileEntry) (h : place ≠ other) :
    (fs.put place e).lookup? other = fs.lookup? other := by
  simp [lookup?, put, find?_replace, h]

/-! ## Paths -/

def maxNameBytes : Nat := 255

def maxPathBytes : Nat := 4095

/-- Follows names from a location. An empty name and a dot stay in a directory, two dots go up. -/
def walk (fs : Files) : Location → List String → Except FileFault Location
  | here, [] => .ok here
  | here, name :: rest =>
    match fs.lookup? here with
    | none => .error .notFound
    | some (.file _) => .error .notADirectory
    | some .directory =>
      if name = "" ∨ name = "." then walk fs here rest
      else if name = ".." then walk fs here.dropLast rest
      else if maxNameBytes < name.utf8ByteSize then .error .nameTooLong
      else walk fs (here ++ [name]) rest

/-- Where a path starts, and its names. -/
def start (fs : Files) (path : String) : Location × List String :=
  match Text.split '/' path with
  | "" :: names => ([], names)
  | names => (fs.here, names)

def checkPath (path : String) : Except FileFault Unit :=
  if '\x00' ∈ path.toList then .error .nulInName
  else if path = "" then .error .notFound
  else if maxPathBytes < path.utf8ByteSize then .error .nameTooLong
  else .ok ()

/-- The location that a path leads to, whether there is something or not. -/
def locate (fs : Files) (path : String) : Except FileFault Location := do
  checkPath path
  let (here, names) := fs.start path
  fs.walk here names

def get (fs : Files) (path : String) : Except FileFault FileEntry := do
  match fs.lookup? (← fs.locate path) with
  | some e => return e
  | none => throw .notFound

def exists? (fs : Files) (path : String) : Bool := (fs.get path).isOk

/-! ## Reading -/

def read (fs : Files) (path : String) : Except FileFault Contents := do
  match ← fs.get path with
  | .file contents => return contents
  | .directory => throw .isADirectory

def readText (fs : Files) (path : String) : Except FileFault String := do
  match Bytes.text? (← fs.read path).toBytes with
  | some text => return text
  | none => throw .notText

/-! ## Writing -/

/-- The names of a path without empty ones at the end, and whether there were any. -/
def trimNames (names : List String) : List String × Bool :=
  let trimmed := (names.reverse.dropWhile (· == "")).reverse
  (trimmed, trimmed.length != names.length)

/-- Where a new file would be created: its directory has to be there, and its name has to be a name. -/
def locateNew (fs : Files) (path : String) : Except FileFault Location := do
  checkPath path
  let (here, names) := fs.start path
  let (names, slash) := trimNames names
  let folder ← fs.walk here (names.dropLast ++ ["."])
  match names.getLast? with
  | none => throw .isADirectory
  | some name =>
    if slash || name == "." || name == ".." then throw .isADirectory
    fs.walk folder [name]

/-- Writes a whole file, over an old one if there is one. -/
def write (fs : Files) (path : String) (contents : Contents) : Except FileFault Files := do
  let place ← fs.locateNew path
  match fs.lookup? place with
  | some .directory => throw .isADirectory
  | _ => return fs.put place (.file contents)

/-- Makes one directory; the one it lies in has to be there. -/
def makeDirectory (fs : Files) (here : Location) (names : List String) : Except FileFault Files := do
  let place ← fs.walk here names
  match fs.lookup? place with
  | some _ => throw .alreadyExists
  | none => return fs.put place .directory

def isDirectory (fs : Files) (here : Location) (names : List String) : Bool :=
  match fs.walk here names with
  | .ok place => fs.lookup? place == some .directory
  | .error _ => false

/-- Makes the directories along a path, given with its last name first; what is there already is kept. -/
def makeDirectories (fs : Files) (here : Location) : List String → Except FileFault Files
  | [] => .ok fs
  | last :: before =>
    let names := (last :: before).reverse
    let settle (fs : Files) (fault : FileFault) : Except FileFault Files :=
      if fs.isDirectory here names then .ok fs else .error fault
    match fs.makeDirectory here names with
    | .ok fs => .ok fs
    | .error .notFound => do
      let fs ← makeDirectories fs here before
      match fs.makeDirectory here names with
      | .ok fs => return fs
      | .error fault => settle fs fault
    | .error fault => settle fs fault

/-- The names of a path that say something: no empty ones, and a dot only in front. -/
def plainNames (names : List String) : List String :=
  match names.filter (· != "") with
  | [] => []
  | first :: rest => first :: rest.filter (· != ".")

def makeParents (fs : Files) (path : String) : Except FileFault Files := do
  let (here, names) := fs.start path
  let folders := (plainNames names).dropLast
  if '\x00' ∈ (String.join folders).toList then throw .nulInName
  fs.makeDirectories here folders.reverse

def mebibyte : Nat := 1048576

/-- Creates a file of a number of mebibytes, with the directories it lies in. -/
def createFile (fs : Files) (path : String) (mebibytes : Nat) : Except FileFault Files := do
  let fs ← fs.makeParents path
  fs.write path (.zeros (mebibytes * mebibyte))

end Files

end BucketBench
