import RedDB.Operational.Program

namespace RedDB.Operational

open Library

variable (entry : CollectionEntry)

def CollectionEntry.owned : CollectionEntry := { entry with source := none }

def CollectionEntry.sharing (source : FilePath) : CollectionEntry :=
  { entry with state := .active, source := some source }

def Manifest.hydrated (m : Manifest) (name : String) (entry : CollectionEntry) : Manifest :=
  { m with collections := m.collections.insert name entry.owned }

structure PromoteForkOutcome where
  name : String
  forkLsn : Nat
  archivedParent : OperationalManifest
deriving DecidableEq

namespace OperationalManifest

variable (h : OperationalManifest)

variable (name : String) (parent : Manifest)

def sharedCollections : SortedMap String CollectionEntry :=
  ((parent.collections.filterKeys fun name =>
      (parent.collections.get? name).any fun entry => entry.state = .active).mapValues
    fun entry => entry.sharing (h.collectionsDir.join entry.path))

def forkManifest (name : String) (forkLsn : Nat) : Manifest where
  generation := 0
  collections := h.sharedCollections parent
  appendOnlySegments := []
  forkOrigin := some ⟨name, h.storeIdentity, forkLsn⟩

def createFork (forkLsn : Nat) : Io Unit := do
  let current ← h.loadCurrent
  match current with
  | none => throw (invalidData "cannot fork a store with no operational manifest")
  | some parent => do
    let present ← (h.forkHandle name).loadCurrent
    if present.isSome then throw (alreadyExists ("store fork already exists: " ++ name))
    else do
      (h.forkHandle name).ensureDirs
      (h.forkHandle name).publish (h.forkManifest parent name forkLsn)
      syncDir h.forksDir

def hydrateCollection : Io Unit := do
  let current ← h.loadCurrent
  match current with
  | none => pure ()
  | some m =>
    match m.collections.get? name with
    | none => pure ()
    | some entry =>
      match entry.source with
      | none => pure ()
      | some source => do
        h.ensureDirs
        copyFileDurable source (h.collectionsDir.join entry.path)
        h.publish (m.hydrated name entry).nextGeneration

def dropFork : Io Bool := do
  let present ← existsPath (h.forkHandle name).root
  if present then do
    removeDirAll (h.forkHandle name).root
    let _ ← Fallible.attempt (syncDir h.forksDir)
    let current ← h.loadCurrent
    match current with
    | none => pure true
    | some m => do
      h.quarantineUnreferenced m
      pure true
  else pure false

def copyShared (named : String × CollectionEntry) : Io Unit :=
  match named.2.source with
  | none => pure ()
  | some source => copyFileDurable source (h.collectionsDir.join named.2.path)

def hydrateSharedCollections : Io Unit := do
  let current ← h.loadCurrent
  match current with
  | none => pure ()
  | some m => do
    h.ensureDirs
    m.collections.entries.forM h.copyShared
    if m.collections.values.any (·.source.isSome) then
      h.publish { m with collections := m.collections.mapValues (·.owned) }.nextGeneration
    else pure ()

def clearForkOrigin : Io Unit := do
  let current ← h.loadCurrent
  match current with
  | none => pure ()
  | some m =>
    if m.forkOrigin.isNone then pure ()
    else h.publish { m with forkOrigin := none }.nextGeneration

def swapIn : Io Unit := do
  (h.forkHandle name).hydrateSharedCollections
  withParent (h.promotingForkHandle name).root createDirAll
  rename (h.forkHandle name).root (h.promotingForkHandle name).root
  syncDir h.forksDir
  withParent (h.promotingForkHandle name).root syncDir
  rename h.root (h.archivedParentHandle name).root
  withParent h.root syncDir
  rename (h.promotingForkHandle name).root h.root
  withParent h.root syncDir
  h.clearForkOrigin

def promoteFork : Io (Option PromoteForkOutcome) := do
  let present ← existsPath (h.forkHandle name).root
  if !present then pure none
  else do
    let recorded ← (h.forkHandle name).forkOrigin
    match recorded with
    | none => throw (invalidData ("store fork is missing origin: " ++ name))
    | some origin =>
      if origin.parentStore ≠ h.storeIdentity then
        throw (invalidData ("store fork " ++ name ++ " belongs to " ++ origin.parentStore.display ++ ", not " ++
          h.storeIdentity.display))
      else do
        let staged ← existsPath (h.promotingForkHandle name).root
        if staged then throw (alreadyExists ("store fork promotion staging path already exists: " ++ name))
        else do
          let archived ← existsPath (h.archivedParentHandle name).root
          if archived then
            throw (alreadyExists ("retired parent store already exists for promoted fork: " ++ name))
          else do
            h.swapIn name
            pure (some ⟨origin.name, origin.forkLsn, h.archivedParentHandle name⟩)

end OperationalManifest

end RedDB.Operational
