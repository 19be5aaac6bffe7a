import RedDB.Library.SortedMap

namespace RedDB.Operational

open Library SortedMap Char

instance {κ ν : Type} [LinearOrder κ] [DecidableEq ν] : DecidableEq (SortedMap κ ν) := fun m m' =>
  decidable_of_iff (m.entries = m'.entries)
    ⟨fun same => by cases m; cases m'; congr, fun same => congrArg entries same⟩

inductive ErrorKind
  | notFound
  | alreadyExists
  | invalidData
  | invalidInput
  | notADirectory
  | isADirectory
  | directoryNotEmpty
  | resourceBusy
deriving DecidableEq

structure IoError where
  kind : ErrorKind
  message : String
deriving DecidableEq

def invalidData (message : String) : IoError := ⟨.invalidData, message⟩

def alreadyExists (message : String) : IoError := ⟨.alreadyExists, message⟩

/-- A path as it is written: its components from the file system's root or from the working directory. -/
structure FilePath where
  absolute : Bool
  parts : List String
deriving DecidableEq

namespace FilePath

section

variable (p : FilePath)

def join (component : String) : FilePath := { p with parts := p.parts ++ [component] }

def parent : Option FilePath := if p.parts = [] then none else some { p with parts := p.parts.dropLast }

def fileName : Option String := p.parts.getLast?

def withFileName (name : String) : FilePath := { p with parts := p.parts.dropLast ++ [name] }

def display : String := (if p.absolute then "/" else "") ++ "/".intercalate p.parts

end

end FilePath

def manifestFile : String := "manifest.json"
def collectionsDirName : String := "collections"
def appendOnlySegmentsDirName : String := "segments"
def quarantineDirName : String := "quarantine"
def forksDirName : String := "forks"

def hexDigit (n : Nat) : Char := if n < 10 then ofNat (48 + n) else ofNat (55 + n)

variable (m : Manifest) (name : String) (b : UInt8)

/-- `a`–`z`, `A`–`Z`, `0`–`9`, `_`, `-` and `.` -/
def keptByte : Bool :=
  (97 ≤ b && b ≤ 122) || (65 ≤ b && b ≤ 90) || (48 ≤ b && b ≤ 57) || b == 95 || b == 45 || b == 46

def escapeByte : List Char :=
  if keptByte b then [ofNat b.toNat] else ['%', hexDigit (b.toNat / 16), hexDigit (b.toNat % 16)]

def sanitizeComponent : String := String.ofList (name.toUTF8.data.toList.flatMap escapeByte)

def collectionFileName : String := sanitizeComponent name ++ ".rcol"

def paddedId (id : Nat) : String := String.ofList (List.replicate (12 - (toString id).length) '0') ++ toString id

def appendOnlySegmentFileName (collection : String) (segmentId : Nat) : String :=
  sanitizeComponent collection ++ "-" ++ paddedId segmentId ++ ".raos"

structure ForkOrigin where
  name : String
  parentStore : FilePath
  forkLsn : Nat
deriving DecidableEq

inductive CollectionState
  | active
  | pendingDrop
deriving DecidableEq

structure CollectionEntry where
  state : CollectionState
  path : String
  source : Option FilePath
  named : ∃ name, path = collectionFileName name
deriving DecidableEq

structure AppendOnlySegmentEntry where
  collection : String
  segmentId : Nat
  path : String
  named : ∃ collection segmentId, path = appendOnlySegmentFileName collection segmentId
deriving DecidableEq

structure Manifest where
  generation : Nat
  collections : SortedMap String CollectionEntry
  appendOnlySegments : List AppendOnlySegmentEntry
  forkOrigin : Option ForkOrigin
deriving DecidableEq

def emptyManifest : Manifest where
  generation := 0
  collections := empty
  appendOnlySegments := []
  forkOrigin := none

def activeCollectionPaths : List String :=
  (m.collections.values.filter fun entry => entry.state = .active ∧ entry.source = none).map (·.path)

def Manifest.nextGeneration : Manifest := { m with generation := m.generation + 1 }

structure OperationalManifest where
  root : FilePath
deriving DecidableEq

namespace OperationalManifest

variable (h : OperationalManifest)

/-- `with_vfs`: the root lies beside the database file. -/
def ofDbPath (absolute : Bool) (directory : List String) (fileName : String) : OperationalManifest :=
  ⟨⟨absolute, directory ++ [fileName ++ ".ops"]⟩⟩

def storeIdentity : FilePath := h.root

def collectionsDir : FilePath := h.root.join collectionsDirName
def appendOnlySegmentsDir : FilePath := h.root.join appendOnlySegmentsDirName
def quarantineDir : FilePath := h.root.join quarantineDirName
def forksDir : FilePath := h.root.join forksDirName

variable (name : String)

def forkHandle : OperationalManifest := ⟨h.forksDir.join (sanitizeComponent name)⟩

def rootName : String := h.root.fileName.getD "store.ops"

def archivedParentHandle : OperationalManifest :=
  ⟨h.root.withFileName (h.rootName ++ ".retired-by-promote-" ++ sanitizeComponent name)⟩

def promotingFork : String := h.rootName ++ ".promoting-"

def promotingForkHandle : OperationalManifest :=
  ⟨h.root.withFileName (h.promotingFork ++ sanitizeComponent name)⟩

end OperationalManifest

end RedDB.Operational
