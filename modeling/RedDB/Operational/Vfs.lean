import RedDB.Library.FileTree
import RedDB.Operational.Types

namespace RedDB.Operational

open Library

abbrev Bytes := List UInt8

/-- What a file holds. The manifest's head and journal are taken together as the manifest they read back as. -/
inductive Content
  | bytes (data : Bytes)
  | manifest (m : Manifest)
deriving DecidableEq

abbrev Fs := FileTree String Content

structure DirEntry where
  path : FilePath
  fileName : String
  isFile : Bool
  isDir : Bool
deriving DecidableEq

inductive OpenMode
  | createTruncate
  | createKeep
  | createNew
deriving DecidableEq

/-- The calls the manifest makes on its `Vfs`. Reading a whole file, reading or publishing the manifest and
looking for an unused quarantine path are each one call here. -/
inductive VfsOp
  | createDirAll (dir : FilePath)
  | syncDir (dir : FilePath)
  | exists (path : FilePath)
  | isFile (path : FilePath)
  | readDir (dir : FilePath)
  | open (path : FilePath) (mode : OpenMode)
  | writeAll (path : FilePath) (bytes : Bytes)
  | syncAll (path : FilePath)
  | readFile (path : FilePath)
  | removeFile (path : FilePath)
  | removeDirAll (path : FilePath)
  | rename (source target : FilePath)
  | loadCurrent (root : FilePath)
  | publish (root : FilePath) (manifest : Manifest)
  | unusedPath (dir : FilePath) (fileName : String)
deriving DecidableEq

@[reducible] def Reply : VfsOp → Type
  | .exists _ | .isFile _ => Bool
  | .readDir _ => Except IoError (List DirEntry)
  | .readFile _ => Except IoError Bytes
  | .loadCurrent _ => Except IoError (Option Manifest)
  | .unusedPath _ _ => FilePath
  | _ => Except IoError Unit

def osError (kind : ErrorKind) : IoError := ⟨kind, ""⟩

/-- One component further: the empty component and `.` stay, `..` goes up. -/
def enter (here : List String) (component : String) : List String :=
  if component = "" ∨ component = "." then here
  else if component = ".." then here.dropLast
  else here ++ [component]

def walk (fs : Fs) : List String → List String → Except IoError (List String)
  | here, [] => .ok here
  | here, component :: rest =>
    match fs.get? here with
    | some .dir => walk fs (enter here component) rest
    | some (.file _) => .error (osError .notADirectory)
    | none => .error (osError .notFound)

variable (fs : Fs) (p : FilePath)

def FilePath.isEmpty : Bool := !p.absolute && p.parts.isEmpty

def resolve (p : FilePath) : Except IoError (List String) :=
  if p.isEmpty then .error (osError .notFound) else walk fs [] p.parts

def lookup (p : FilePath) : Except IoError (List String × Option (FileNode Content)) :=
  (resolve fs p).map fun place => (place, fs.get? place)

def makeDirs : Fs → List String → List String → Except IoError Unit × Fs
  | fs, _, [] => (.ok (), fs)
  | fs, here, component :: rest =>
    match fs.get? (enter here component) with
    | some .dir => makeDirs fs (enter here component) rest
    | some (.file _) =>
      (.error (osError (if rest.isEmpty then .alreadyExists else .notADirectory)), fs)
    | none =>
      match fs.put? (enter here component) .dir with
      | some fs' => makeDirs fs' (enter here component) rest
      | none => (.error (osError .notFound), fs)

variable (place : List String)

def putFile (content : Content) : Except IoError Unit × Fs :=
  match fs.put? place (.file content) with
  | some fs' => (.ok (), fs')
  | none => (.error (osError .isADirectory), fs)

def openAt : Option (FileNode Content) → OpenMode → Except IoError Unit × Fs
  | some .dir, .createNew | some (.file _), .createNew => (.error (osError .alreadyExists), fs)
  | some .dir, _ => (.error (osError .isADirectory), fs)
  | some (.file _), .createKeep => (.ok (), fs)
  | some (.file _), .createTruncate | none, _ => putFile fs place (.bytes [])

/-- A path that ends in `.` or `..` can be neither end of a rename. -/
def FilePath.endsInDots : Bool := p.fileName == some "." || p.fileName == some ".."

def renameAt (source target : List String) : Except IoError Unit × Fs :=
  let move := match fs.move? source target with
    | some fs' => (.ok (), fs')
    | none => (.error (osError .invalidInput), fs)
  match fs.get? source, fs.get? target with
  | none, _ => (.error (osError .notFound), fs)
  | some _, none => move
  | some (.file _), some (.file _) => if source = target then (.ok (), fs) else move
  | some (.file _), some .dir => (.error (osError .isADirectory), fs)
  | some .dir, some (.file _) => (.error (osError .notADirectory), fs)
  | some .dir, some .dir =>
    if source = target then (.ok (), fs)
    else if (fs.entries target).isEmpty then move else (.error (osError .directoryNotEmpty), fs)

/-- The contents go first; a path that ends in `.` cannot itself be removed, and one that ends in `..` leads
nowhere any more. -/
def removeDirAllAt (last : Option String) : Except IoError Unit × Fs :=
  if last = some "." then (.error (osError .invalidInput), fs.clear place)
  else if last = some ".." then (.ok (), fs.clear place)
  else (.ok (), fs.remove place)

def dirEntry (dir : FilePath) (child : String × FileNode Content) : DirEntry where
  path := dir.join child.1
  fileName := child.1
  isFile := child.2 ≠ .dir
  isDir := child.2 = .dir

/-- `unique_quarantine_path`: the first of `name`, `name.1`, `name.2`, … that is not there; as many are tried as
there are nodes, and one more. -/
def unusedName (fileName : String) : String :=
  ((fileName :: (List.range fs.nodes.length).map fun n => fileName ++ "." ++ toString (n + 1)).find?
    fun candidate => fs.get? (place ++ [candidate]) = none).getD fileName

def act : (o : VfsOp) → Fs → Reply o × Fs
  | .createDirAll dir, fs => if dir.isEmpty then (.ok (), fs) else makeDirs fs [] dir.parts
  | .syncDir dir, fs =>
    match lookup fs dir with
    | .ok (_, some _) => (.ok (), fs)
    | .ok (_, none) => (.error (osError .notFound), fs)
    | .error e => (.error e, fs)
  | .exists path, fs =>
    match lookup fs path with
    | .ok (_, some _) => (true, fs)
    | _ => (false, fs)
  | .isFile path, fs =>
    match lookup fs path with
    | .ok (_, some (.file _)) => (true, fs)
    | _ => (false, fs)
  | .readDir dir, fs =>
    match lookup fs dir with
    | .ok (place, some .dir) => (.ok ((fs.entries place).map (dirEntry dir)), fs)
    | .ok (_, some (.file _)) => (.error (osError .notADirectory), fs)
    | .ok (_, none) => (.error (osError .notFound), fs)
    | .error e => (.error e, fs)
  | .open path mode, fs =>
    match lookup fs path with
    | .ok (place, node) => openAt fs place node mode
    | .error e => (.error e, fs)
  | .writeAll path bytes, fs =>
    match lookup fs path with
    | .ok (place, some (.file _)) => putFile fs place (.bytes bytes)
    | .ok (_, some .dir) => (.error (osError .isADirectory), fs)
    | .ok (_, none) => (.error (osError .notFound), fs)
    | .error e => (.error e, fs)
  | .syncAll _, fs => (.ok (), fs)
  | .readFile path, fs =>
    match lookup fs path with
    | .ok (_, some (.file (.bytes data))) => (.ok data, fs)
    | .ok (_, some (.file (.manifest _))) => (.error (osError .invalidData), fs)
    | .ok (_, some .dir) => (.error (osError .isADirectory), fs)
    | .ok (_, none) => (.error (osError .notFound), fs)
    | .error e => (.error e, fs)
  | .removeFile path, fs =>
    match lookup fs path with
    | .ok (place, some (.file _)) => (.ok (), fs.remove place)
    | .ok (_, some .dir) => (.error (osError .isADirectory), fs)
    | .ok (_, none) => (.error (osError .notFound), fs)
    | .error e => (.error e, fs)
  | .removeDirAll path, fs =>
    match lookup fs path with
    | .ok (place, some .dir) => removeDirAllAt fs place path.fileName
    | .ok (_, some (.file _)) => (.error (osError .notADirectory), fs)
    | .ok (_, none) => (.error (osError .notFound), fs)
    | .error e => (.error e, fs)
  | .rename source target, fs =>
    if source.endsInDots || target.endsInDots then (.error (osError .resourceBusy), fs)
    else
      match resolve fs source with
      | .ok source =>
        match resolve fs target with
        | .ok target => renameAt fs source target
        | .error e => (.error e, fs)
      | .error e => (.error e, fs)
  | .loadCurrent root, fs =>
    match lookup fs (root.join manifestFile) with
    | .ok (_, some (.file (.manifest m))) => (.ok (some m), fs)
    | .ok (_, some (.file (.bytes _))) => (.error (osError .invalidData), fs)
    | .ok (_, some .dir) => (.error (osError .isADirectory), fs)
    | .ok (_, none) => (.ok none, fs)
    | .error e => (if e.kind = .notFound then .ok none else .error e, fs)
  | .publish root m, fs =>
    match lookup fs root with
    | .ok (place, some .dir) => putFile fs (place ++ [manifestFile]) (.manifest m)
    | .ok (_, some (.file _)) => (.error (osError .notADirectory), fs)
    | .ok (_, none) => (.error (osError .notFound), fs)
    | .error e => (.error e, fs)
  | .unusedPath dir fileName, fs =>
    match lookup fs dir with
    | .ok (place, _) => (dir.join (unusedName fs place fileName), fs)
    | .error _ => (dir.join fileName, fs)

end RedDB.Operational
