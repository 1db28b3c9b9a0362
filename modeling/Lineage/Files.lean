import Lineage.Text.Split

/-!
# Trees of files

Folders and files as a value. A place is the list of names that leads to it from the root; a path is
text, and is followed name by name from a working folder. Whatever goes wrong is one of a few
errors, in the words of the operating system.
-/

namespace Lineage

/-- What a place holds. -/
inductive FileEntry
  | folder
  | file (bytes : ByteArray)

instance : DecidableEq FileEntry
  | .folder, .folder => .isTrue rfl
  | .folder, .file _ => .isFalse nofun
  | .file _, .folder => .isFalse nofun
  | .file a, .file b =>
    @decidable_of_iff _ (a = b) ⟨congrArg FileEntry.file, FileEntry.file.inj⟩
      (ByteArray.instDecidableEq a b)

/-- Why a file cannot be read or written. -/
inductive FileError
  | notFound
  | alreadyExists
  | notFolder
  | isFolder
  | nameTooLong
  | notText
  | nulInName
  deriving DecidableEq, Repr

/-- An error in the words of the operating system. -/
def FileError.message : FileError → String
  | notFound => "No such file or directory (os error 2)"
  | alreadyExists => "File exists (os error 17)"
  | notFolder => "Not a directory (os error 20)"
  | isFolder => "Is a directory (os error 21)"
  | nameTooLong => "File name too long (os error 36)"
  | notText => "stream did not contain valid UTF-8"
  | nulInName => "file name contained an unexpected NUL byte"

/-- The names from the root to a folder or file. -/
abbrev Place := List String

def Place.path (place : Place) : String :=
  "/" ++ "/".intercalate place

abbrev Path := String

namespace Path

/-- Whether a path starts at the root. -/
def isAbsolute (path : Path) : Bool :=
  path.toList.head? = some '/'

def join (folder path : Path) : Path :=
  if isAbsolute path || folder = "" then path
  else if folder.toList.getLast? = some '/' then folder ++ path
  else folder ++ "/" ++ path

/-- The names of a path in order, those that lead nowhere included. -/
def names (path : Path) : List String :=
  (splitAll '/' path).filter (· ≠ "")

/-- Pieces of a path, the last one first, without those at the end that lead nowhere. -/
def trimPieces (pieces : List String) : List String :=
  pieces.dropWhile fun piece => piece = "" || piece = "."

/-- What is left of pieces when the last name is taken away, and the one before it, and so on. The
last piece comes first. -/
def shorterPieces : List String → List (List String)
  | [] => []
  | piece :: rest =>
    if piece = "" || piece = "." then shorterPieces rest
    else trimPieces rest :: shorterPieces rest

/-- The paths of the folders around a path, the nearest one first. The working folder and the root
are empty paths, and a path without names has nothing around it. -/
def around (path : Path) : List Path :=
  match splitAll '/' path with
  | [] => []
  | first :: rest =>
    let (start, pieces) :=
      if first = "" || first = "." then ([first], rest) else ([], first :: rest)
    (shorterPieces pieces.reverse).map fun kept => "/".intercalate (start ++ kept.reverse)

end Path

/-- The folders and files below a root. -/
structure Files where
  entries : List (Place × FileEntry) := []

namespace Files

/-- How many bytes a name may have. -/
def nameLimit : Nat := 255

/-- How many bytes a path has fewer than. -/
def pathLimit : Nat := 4096

/-- Refuses a path that is no path on any disk. -/
def checkPath (path : Path) : Except FileError Unit :=
  if path.toList.contains '\x00' then .error .nulInName
  else if path.utf8ByteSize ≥ pathLimit then .error .nameTooLong
  else .ok ()

/-- What a place holds. The root is a folder. -/
def entry? (files : Files) (place : Place) : Option FileEntry :=
  if place.isEmpty then some .folder else files.entries.lookup place

/-- The tree with something new at a place. -/
def put (files : Files) (place : Place) (entry : FileEntry) : Files :=
  ⟨(place, entry) :: files.entries.filter (·.1 ≠ place)⟩

/-- The place that one more name leads to. -/
def stepTo (place : Place) (name : String) : Place :=
  if name = "" ∨ name = "." then place
  else if name = ".." then place.dropLast
  else place ++ [name]

/-- Follows names from a place. All places passed must be folders. -/
def walk (files : Files) (place : Place) : List String → Except FileError Place
  | [] => .ok place
  | name :: names =>
    match files.entry? place with
    | none => .error .notFound
    | some (.file _) => .error .notFolder
    | some .folder =>
      if name.utf8ByteSize > nameLimit then .error .nameTooLong
      else files.walk (stepTo place name) names

/-- The place where a path starts. -/
def origin (folder : Place) (path : Path) : Except FileError Place := do
  checkPath path
  if path = "" then throw .notFound
  return if Path.isAbsolute path then [] else folder

/-- The place that a path leads to from a working folder, if everything before it is there. -/
def locate (files : Files) (folder : Place) (path : Path) : Except FileError Place := do
  files.walk (← origin folder path) (splitAll '/' path)

/-- The folder that the names of a path before the last one lead to. -/
def locateOuter (files : Files) (folder : Place) (path : Path) : Except FileError Place := do
  files.walk (← origin folder path) ((Path.names path).dropLast ++ [""])

/-- What a path leads to. -/
def look (files : Files) (folder : Place) (path : Path) : Except FileError FileEntry := do
  let place ← files.locate folder path
  match files.entry? place with
  | none => .error .notFound
  | some entry => .ok entry

def exists? (files : Files) (folder : Place) (path : Path) : Bool :=
  match files.look folder path with
  | .ok _ => true
  | .error _ => false

def isFolder (files : Files) (folder : Place) (path : Path) : Bool :=
  match files.look folder path with
  | .ok .folder => true
  | _ => false

def isFile (files : Files) (folder : Place) (path : Path) : Bool :=
  match files.look folder path with
  | .ok (.file _) => true
  | _ => false

def readText (files : Files) (folder : Place) (path : Path) : Except FileError String := do
  match ← files.look folder path with
  | .folder => .error .isFolder
  | .file bytes =>
    match String.fromUTF8? bytes with
    | some text => .ok text
    | none => .error .notText

theorem readText_of_look {files : Files} {folder : Place} {path : Path} {text : String}
    (h : files.look folder path = .ok (.file text.toUTF8)) :
    files.readText folder path = .ok text := by
  have hbytes : String.fromUTF8? text.toUTF8 = some text := dif_pos text.isValidUTF8
  unfold readText
  rw [h]
  show (match String.fromUTF8? text.toUTF8 with
    | some text => Except.ok text
    | none => .error FileError.notText) = _
  rw [hbytes]

/-- The place of what a path names anew in its folder: none if the last name is no name of its own,
as with a path that ends in a point. -/
def newPlace? (files : Files) (folder : Place) (path : Path) : Except FileError (Option Place) := do
  let outer ← files.locateOuter folder path
  match (Path.names path).getLast? with
  | none | some "." | some ".." => return none
  | some name => return some (outer ++ [name])

def checkName (place : Place) : Except FileError Unit :=
  if place.getLast?.any fun name => name.utf8ByteSize > nameLimit then .error .nameTooLong
  else .ok ()

/-- The tree with a file written at a path. A path that ends in a slash means a folder. -/
def write (files : Files) (folder : Place) (path : Path) (bytes : ByteArray) :
    Except FileError Files := do
  match ← files.newPlace? folder path with
  | none => throw .isFolder
  | some place =>
    if path.toList.getLast? = some '/' then throw .isFolder
    checkName place
    match files.entry? place with
    | some .folder => throw .isFolder
    | _ => return files.put place (.file bytes)

/-- The tree with a new folder at a path. -/
def makeFolder (files : Files) (folder : Place) (path : Path) : Except FileError Files := do
  match ← files.newPlace? folder path with
  | none => throw .alreadyExists
  | some place =>
    checkName place
    if (files.entry? place).isSome then throw .alreadyExists
    return files.put place .folder

/-- An attempt to change files. Whatever it has changed before it fails stays. -/
structure Attempt where
  files : Files
  result : Except FileError Unit := .ok ()

/-- An attempt that changes nothing if it fails. -/
def attempt (files : Files) : Except FileError Files → Attempt
  | .ok changed => ⟨changed, .ok ()⟩
  | .error e => ⟨files, .error e⟩

/-- One attempt after another one, if that succeeds. -/
def Attempt.andThen (first : Attempt) (next : Files → Attempt) : Attempt :=
  match first.result with
  | .ok _ => next first.files
  | .error _ => first

/-- The tree with a folder at a path, which may be there already. -/
def ensureFolder (files : Files) (folder : Place) (path : Path) : Except FileError Files :=
  match files.makeFolder folder path with
  | .error .alreadyExists =>
    if files.isFolder folder path then .ok files else .error .alreadyExists
  | made => made

/-- Makes the first of some folders, each of which is around the one before it. Those around it are
made only if it cannot be made without them. -/
def makeAlong (files : Files) (folder : Place) : List Path → Attempt
  | [] => { files }
  | path :: around =>
    match files.ensureFolder folder path with
    | .error .notFound =>
      (files.makeAlong folder around).andThen fun files =>
        files.attempt (files.ensureFolder folder path)
    | made => files.attempt made

/-- Makes a folder, and those around it that are missing. -/
def makeFolders (files : Files) (folder : Place) (path : Path) : Attempt :=
  if path = "" then { files }
  else files.makeAlong folder (path :: (Path.around path).filter (· ≠ ""))

/-- Writes a file, and makes the folders around it that are missing. -/
def writeWithin (files : Files) (folder : Place) (path : Path) (bytes : ByteArray) : Attempt :=
  (files.makeFolders folder ((Path.around path).headD "")).andThen fun files =>
    files.attempt (files.write folder path bytes)

end Files

end Lineage
