import RedDB.Operational.Fork

namespace RedDB.Operational

open Library

def newCollection (name : String) : CollectionEntry where
  state := .active
  path := collectionFileName name
  source := none
  named := ⟨name, rfl⟩

namespace Manifest

variable (m : Manifest)

def insertCollection (name : String) (entry : CollectionEntry) : Manifest :=
  { m with collections := m.collections.insert name entry }

def isActive (name : String) : Bool := (m.collections.get? name).any fun entry => entry.state = .active

def usesPath (path : String) : Bool := m.collections.values.any fun entry => entry.path = path

end Manifest

namespace OperationalManifest

variable (h : OperationalManifest)

section

variable (name : String)

def artifactTaken : IoError := alreadyExists ("collection artifact already belongs to another collection: " ++ name)

def prepareCollectionCreate : Io Unit := do
  h.ensureDirs
  let current ← h.loadCurrent
  let m := current.getD emptyManifest
  if m.isActive name then pure ()
  else if m.usesPath (collectionFileName name) then throw (artifactTaken name)
  else h.prepareCollectionFileByName (collectionFileName name)

def publishCollectionCreate : Io Unit := do
  let current ← h.loadCurrent
  let m := current.getD emptyManifest
  if m.isActive name then pure ()
  else if m.usesPath (collectionFileName name) then throw (artifactTaken name)
  else h.publish (m.insertCollection name (newCollection name)).nextGeneration

def createCollection : Io Unit := do
  h.prepareCollectionCreate name
  h.publishCollectionCreate name

end

end OperationalManifest

end RedDB.Operational
