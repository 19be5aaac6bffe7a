import RedDB.Library.CrashLogic
import RedDB.Operational.Vfs

namespace RedDB.Operational

open Library

abbrev Io (α : Type) := Fallible VfsOp Reply IoError α

section

def ask (o : VfsOp) : Resumption VfsOp Reply (Reply o) := Resumption.perform o

def createDirAll (dir : FilePath) : Io Unit := ExceptT.mk (ask (.createDirAll dir))
def syncDir (dir : FilePath) : Io Unit := ExceptT.mk (ask (.syncDir dir))
def existsPath (path : FilePath) : Io Bool := ExceptT.lift (ask (.exists path))
def readDir (dir : FilePath) : Io (List DirEntry) := ExceptT.mk (ask (.readDir dir))
def openFile (path : FilePath) (mode : OpenMode) : Io Unit := ExceptT.mk (ask (.open path mode))
def writeAll (path : FilePath) (bytes : Bytes) : Io Unit := ExceptT.mk (ask (.writeAll path bytes))
def syncAll (path : FilePath) : Io Unit := ExceptT.mk (ask (.syncAll path))
def readFile (path : FilePath) : Io Bytes := ExceptT.mk (ask (.readFile path))
def removeDirAll (path : FilePath) : Io Unit := ExceptT.mk (ask (.removeDirAll path))
def rename (source target : FilePath) : Io Unit := ExceptT.mk (ask (.rename source target))

def writeFile (path : FilePath) (bytes : Bytes) : Io Unit := do
  openFile path .createTruncate
  writeAll path bytes
  syncAll path

/-- `if let Some(parent) = path.parent()` -/
def withParent (path : FilePath) (use : FilePath → Io Unit) : Io Unit :=
  match path.parent with
  | some parent => use parent
  | none => pure ()

def copyFileDurable (source dest : FilePath) : Io Unit := do
  let bytes ← readFile source
  writeFile dest bytes
  withParent dest syncDir

end

namespace OperationalManifest

variable (h : OperationalManifest)

def loadCurrent : Io (Option Manifest) := ExceptT.mk (ask (.loadCurrent h.root))

def ensureDirs : Io Unit := do
  createDirAll h.collectionsDir
  createDirAll h.appendOnlySegmentsDir
  createDirAll h.quarantineDir
  syncDir h.root

def publish (m : Manifest) : Io Unit := do
  h.ensureDirs
  ExceptT.mk (ask (.publish h.root m))

def forkOrigin : Io (Option ForkOrigin) := do
  let m ← h.loadCurrent
  pure (m.bind (·.forkOrigin))

section

variable (m : Manifest) (fileName : String)

def prepareCollectionFileByName : Io Unit := do
  openFile (h.collectionsDir.join fileName) .createKeep
  syncAll (h.collectionsDir.join fileName)
  syncDir h.collectionsDir

def uniqueQuarantinePath : Io FilePath :=
  ExceptT.lift (ask (.unusedPath h.quarantineDir fileName))

def quarantineUnless (activePaths : List String) (entry : DirEntry) : Io Unit :=
  if !entry.isFile || activePaths.contains entry.fileName then pure ()
  else do
    let target ← h.uniqueQuarantinePath entry.fileName
    rename entry.path target

def quarantineUnreferencedFilesIn (dir : FilePath) (activePaths : List String) : Io Unit := do
  let present ← existsPath dir
  if present then do
    let entries ← readDir dir
    entries.forM (h.quarantineUnless activePaths)
    syncDir dir
    syncDir h.quarantineDir
  else pure ()

def forkHandles : Io (List OperationalManifest) := do
  let listed ← Fallible.attempt (readDir h.forksDir)
  match listed with
  | .ok entries => pure ((entries.filter (·.isDir)).map fun entry => ⟨entry.path⟩)
  | .error e => if e.kind = .notFound then pure [] else throw e

def sharedWith : List String :=
  if m.forkOrigin.map (·.parentStore) = some h.storeIdentity then
    (m.collections.values.filter fun entry => entry.source = some (h.collectionsDir.join entry.path)).map (·.path)
  else []

def forkReferencedCollectionPaths : Io (List String) := do
  let forks ← h.forkHandles
  Fallible.gather (fun fork => do
    let m ← fork.loadCurrent
    pure (m.elim [] h.sharedWith)) forks

def protectedCollectionPaths : Io (List String) := do
  let referenced ← h.forkReferencedCollectionPaths
  pure (activeCollectionPaths m ++ referenced)

def quarantineUnreferenced : Io Unit := do
  let protectedPaths ← h.protectedCollectionPaths m
  h.quarantineUnreferencedFilesIn h.collectionsDir protectedPaths
  h.quarantineUnreferencedFilesIn h.appendOnlySegmentsDir (m.appendOnlySegments.map (·.path))

end

end OperationalManifest

end RedDB.Operational
