import RedDB.Operational.Lifecycle
import RedDB.Operational.Resolve

namespace RedDB.Operational

open List Library Resumption Fallible FileTree

section

theorem String.ne_of_suffix {s : String} {tail : List Char} (ending : tail <:+ s.toList) {t : String}
    (short : t.toList.length < tail.length) : s ≠ t := by
  rintro rfl
  have := ending.length_le
  omega

theorem ordinary_append (s : String) {tail : String} (long : 2 < tail.toList.length) : Ordinary (s ++ tail) := by
  have ending : tail.toList <:+ (s ++ tail).toList := by
    rw [String.toList_append]
    exact suffix_append _ _
  exact ⟨String.ne_of_suffix ending (lt_of_le_of_lt (by decide) long),
    String.ne_of_suffix ending (lt_of_le_of_lt (by decide) long), String.ne_of_suffix ending long⟩

theorem ordinary_collectionFileName (name : String) : Ordinary (collectionFileName name) := ordinary_append _ (by decide)

theorem CollectionEntry.ordinary (entry : CollectionEntry) : Ordinary entry.path := by
  obtain ⟨name, same⟩ := entry.named
  exact same ▸ ordinary_collectionFileName name

end

structure InsideCall (base : List String) (o : VfsOp) (s : Fs) : Prop where
  inside : ∀ q, (act o s).2.get? q ≠ s.get? q → base <+: q
  stays : ∀ source target, o ≠ .rename source target

def Stays {α : Type} (base : List String) (p : Io α) : Prop :=
  ∀ s : Fs, s.get? base = some .dir →
    Fallible.wp act (InsideCall base) (fun _ t => t.get? base = some .dir) (fun _ t => t.get? base = some .dir) p s

namespace Stays

variable {α β : Type} {base : List String}

theorem pure (a : α) : Stays base (Pure.pure a) := fun _ start => start

theorem bind {p : Io α} {f : α → Io β} (first : Stays base p) (second : ∀ a, Stays base (f a)) :
    Stays base (p >>= f) := fun s start =>
  (first s start).bind (fun a t kept => second a t kept) fun _ _ => id

theorem forM {items : List β} {body : β → Io Unit} (round : ∀ b ∈ items, Stays base (body b)) :
    Stays base (items.forM body) := fun _ start =>
  wp_forM (fun b member t kept => round b member t kept) start

end Stays

section

variable {base : List String}

variable {dir : FilePath} {o : VfsOp}

theorem InsideCall.of_still {s : Fs} (still : o.still = true) : InsideCall base o s where
  inside := by
    intro q changed
    rw [act_still still] at changed
    exact absurd rfl changed
  stays := by
    rintro source target rfl
    cases still

theorem InsideCall.of_touches {s : Fs} (plain : o.Plain)
    (stays : ∀ source target, o ≠ .rename source target) (within : ∀ q, o.Touches q → base <+: q) :
    InsideCall base o s where
  inside := by
    intro q changed
    by_contra outside
    exact changed (act_frame plain fun touched => outside (within q touched))
  stays := stays

theorem createDirAll_changed {s : Fs} (plain : dir.Plain) {q : List String}
    (changed : (act (.createDirAll dir) s).2.get? q ≠ s.get? q) : s.get? q = none ∧ q <+: dir.parts := by
  have full : dir.isEmpty = false := by simp [FilePath.isEmpty, plain.named]
  simp only [act, full, Bool.false_eq_true] at changed
  obtain ⟨missing, -, above⟩ := (makeDirs_get? plain.ordinary q).resolve_left changed
  exact ⟨missing, above⟩

theorem below_of_missing {s : Fs} {dir q : List String} (present : s.get? base ≠ none) (under : base <+: dir)
    (missing : s.get? q = none) (above : q <+: dir) : base <+: q := by
  rcases prefix_or_prefix_of_prefix under above with below | ⟨rest, rfl⟩
  · exact below
  · exact absurd (none_below missing) present

theorem Stays.call {α : Type} {p : Io α} (o : VfsOp) (answer : Reply o → Except IoError α)
    (shape : p = Resumption.call o fun reply => ret (answer reply))
    (allowed : ∀ s : Fs, s.get? base = some .dir → InsideCall base o s ∧ (act o s).2.get? base = some .dir) :
    Stays base p := by
  intro s start
  obtain ⟨inside, kept⟩ := allowed s start
  rw [shape]
  refine ⟨inside, ?_⟩
  change outcome _ _ (answer (act o s).1) (act o s).2
  cases answer (act o s).1 <;> exact kept

theorem Stays.still {α : Type} {p : Io α} (o : VfsOp) (answer : Reply o → Except IoError α)
    (shape : p = Resumption.call o fun reply => ret (answer reply)) (still : o.still = true) :
    Stays base p :=
  .call o answer shape fun s start => ⟨.of_still still, by rwa [act_still still]⟩

theorem Stays.touching {α : Type} {p : Io α} (o : VfsOp) (answer : Reply o → Except IoError α)
    (shape : p = Resumption.call o fun reply => ret (answer reply)) (plain : o.Plain)
    (stays : ∀ source target, o ≠ .rename source target) (within : ∀ q, o.Touches q → base <+: q ∧ q ≠ base) :
    Stays base p :=
  .call o answer shape fun s start =>
    ⟨.of_touches plain stays fun q touched => (within q touched).1,
      by rwa [act_frame plain fun touched => (within base touched).2 rfl]⟩

theorem stays_syncDir (dir : FilePath) : Stays base (syncDir dir) := .still (.syncDir dir) id rfl rfl
theorem stays_readFile (path : FilePath) : Stays base (readFile path) := .still (.readFile path) id rfl rfl
theorem stays_syncAll (path : FilePath) : Stays base (syncAll path) := .still (.syncAll path) id rfl rfl
theorem stays_loadCurrent (f : OperationalManifest) : Stays base f.loadCurrent := .still (.loadCurrent f.root) id rfl rfl

theorem stays_createDirAll (plain : dir.Plain) (under : base <+: dir.parts) : Stays base (createDirAll dir) := by
  refine .call (.createDirAll dir) id rfl fun s start => ⟨⟨fun q changed => ?_, nofun⟩, ?_⟩
  · obtain ⟨missing, above⟩ := createDirAll_changed plain changed
    exact below_of_missing (by simp [start]) under missing above
  · by_contra changed
    rw [← start] at changed
    simp [(createDirAll_changed plain changed).1] at start

variable {path : FilePath} (plain : path.Plain) (under : base <+: path.parts) (below : path.parts ≠ base)

include plain under below

theorem stays_openFile (mode : OpenMode) : Stays base (openFile path mode) := by
  refine .touching (.open path mode) id rfl plain nofun ?_
  rintro q rfl
  exact ⟨under, below⟩

theorem stays_writeAll (bytes : Bytes) : Stays base (writeAll path bytes) := by
  refine .touching (.writeAll path bytes) id rfl plain nofun ?_
  rintro q rfl
  exact ⟨under, below⟩

theorem stays_writeFile (bytes : Bytes) : Stays base (writeFile path bytes) :=
  (stays_openFile plain under below .createTruncate).bind fun _ =>
    (stays_writeAll plain under below bytes).bind fun _ => stays_syncAll path

theorem stays_copyFileDurable (source : FilePath) : Stays base (copyFileDurable source path) := by
  refine (stays_readFile source).bind fun bytes => (stays_writeFile plain under below bytes).bind fun _ => ?_
  unfold withParent
  split
  · exact stays_syncDir _
  · exact .pure ()

end

namespace OperationalManifest

section

variable {f : OperationalManifest} (plain : f.root.Plain)

include plain

theorem stays_ensureDirs : Stays f.root.parts f.ensureDirs := by
  have sub (component : String) (ordinary : Ordinary component) :
      Stays f.root.parts (createDirAll (f.root.join component)) :=
    stays_createDirAll (plain.join ordinary) (prefix_append _ _)
  exact (sub _ (by decide)).bind fun _ => (sub _ (by decide)).bind fun _ => (sub _ (by decide)).bind fun _ =>
    stays_syncDir _

theorem stays_publish (m : Manifest) : Stays f.root.parts (f.publish m) := by
  refine (stays_ensureDirs plain).bind fun _ => ?_
  refine .touching (.publish f.root m) id rfl plain nofun ?_
  rintro q rfl
  exact ⟨prefix_append _ _, by simp⟩

theorem stays_copyInto (source : FilePath) (entry : CollectionEntry) :
    Stays f.root.parts (copyFileDurable source (f.collectionsDir.join entry.path)) := by
  refine stays_copyFileDurable ((plain.join (by decide)).join entry.ordinary) ?_ ?_ source
  · simp
  · simp

theorem stays_hydrateCollection (name : String) : Stays f.root.parts (f.hydrateCollection name) := by
  refine (stays_loadCurrent f).bind fun current => ?_
  split
  · exact .pure ()
  split
  · exact .pure ()
  split
  · exact .pure ()
  exact (stays_ensureDirs plain).bind fun _ => (stays_copyInto plain _ _).bind fun _ => stays_publish plain _

theorem stays_hydrateSharedCollections : Stays f.root.parts f.hydrateSharedCollections := by
  refine (stays_loadCurrent f).bind fun current => ?_
  split
  · exact .pure ()
  refine (stays_ensureDirs plain).bind fun _ => Stays.bind (.forM fun named _ => ?_) fun _ => ?_
  · unfold copyShared
    split
    · exact .pure ()
    · exact stays_copyInto plain _ _
  · split_ifs
    · exact stays_publish plain _
    · exact .pure ()

theorem stays_clearForkOrigin : Stays f.root.parts f.clearForkOrigin := by
  refine (stays_loadCurrent f).bind fun current => ?_
  split
  · exact .pure ()
  split_ifs
  · exact .pure ()
  · exact stays_publish plain _

end

end OperationalManifest

def Reads {α : Type} (s : Fs) (p : Io α) (result : α → Prop) : Prop :=
  Fallible.wp act (fun o t => o.still = true ∧ t = s) (fun a t => t = s ∧ result a) (fun _ t => t = s) p s

namespace Reads

variable {α β : Type} {s : Fs}

variable {result : α → Prop} {items : List β} {p : Io α}

theorem pure {a : α} (holds : result a) : Reads s (Pure.pure a) result := ⟨rfl, holds⟩

theorem throw (e : IoError) : Reads s (MonadExcept.throw e : Io α) result := Eq.refl s

theorem bind {f : α → Io β} {first : α → Prop} {second : β → Prop} (reads : Reads s p first)
    (next : ∀ a, first a → Reads s (f a) second) : Reads s (p >>= f) second := by
  refine wp.bind reads ?_ fun _ _ => id
  rintro a t ⟨rfl, holds⟩
  exact next a holds

theorem mono {result other : α → Prop} (reads : Reads s p result) (weaker : ∀ a, result a → other a) :
    Reads s p other :=
  Fallible.wp.mono reads (fun _ _ => id) (fun a _ ⟨same, holds⟩ => ⟨same, weaker a holds⟩) fun _ _ => id

theorem call (o : VfsOp) (answer : Reply o → Except IoError α)
    (shape : p = Resumption.call o fun reply => ret (answer reply)) (still : o.still = true)
    (holds : ∀ a, answer (act o s).1 = .ok a → result a) : Reads s p result := by
  rw [shape]
  refine ⟨⟨still, rfl⟩, ?_⟩
  change outcome _ _ (answer (act o s).1) (act o s).2
  rw [act_still still]
  cases returned : answer (act o s).1 with
  | error e => exact rfl
  | ok a => exact ⟨rfl, holds a returned⟩

theorem forM {body : β → Io Unit} (round : ∀ b ∈ items, Reads s (body b) fun _ => True) :
    Reads s (items.forM body) fun _ => True := by
  induction items with
  | nil => exact .pure trivial
  | cons b items ih =>
    exact (round b mem_cons_self).bind fun _ _ => ih fun b member => round b (mem_cons_of_mem _ member)

theorem gather {f : β → Io (List α)} (part : β → List α → Prop) (round : ∀ b ∈ items, Reads s (f b) (part b)) :
    Reads s (Fallible.gather f items) fun all => ∀ b ∈ items, ∃ found, part b found ∧ ∀ a ∈ found, a ∈ all := by
  induction items with
  | nil => exact .pure nofun
  | cons b items ih =>
    refine (round b mem_cons_self).bind fun found here => ?_
    refine (ih fun b member => round b (mem_cons_of_mem _ member)).bind fun others later => .pure ?_
    intro c member
    rcases mem_cons.mp member with rfl | member
    · exact ⟨found, here, fun a held => mem_append_left _ held⟩
    · obtain ⟨part, holds, within⟩ := later c member
      exact ⟨part, holds, fun a held => mem_append_right _ (within a held)⟩

end Reads

theorem reads_loadCurrent {s : Fs} {f : OperationalManifest} (plain : f.root.Plain) :
    Reads s f.loadCurrent fun found => ∀ m, found = some m ↔
      s.get? (f.root.parts ++ [manifestFile]) = some (.file (.manifest m)) := by
  refine .call (.loadCurrent f.root) id rfl rfl fun found returned m => ⟨?_, fun present => ?_⟩
  · rintro rfl
    exact get?_of_loadCurrent plain returned
  · have loaded := act_loadCurrent_some plain present
    rw [id_eq] at returned
    exact Except.ok.inj (returned.symm.trans loaded)

namespace OperationalManifest

section

variable {h : OperationalManifest} (plain : h.root.Plain) {s : Fs}

include plain

theorem reads_forkHandles : Reads s h.forkHandles fun forks =>
      ∀ name, s.get? (h.forksDir.parts ++ [name]) = some .dir → ⟨h.forksDir.join name⟩ ∈ forks := by
  have listing : Reads s (attempt (readDir h.forksDir)) fun listed =>
      listed = (act (.readDir h.forksDir) s).1 :=
    .call (.readDir h.forksDir) .ok rfl rfl fun listed same => (Except.ok.inj same).symm
  have complete (name : String) (present : s.get? (h.forksDir.parts ++ [name]) = some .dir) :
      (act (.readDir h.forksDir) s).1 = .ok ((s.entries h.forksDir.parts).map (dirEntry h.forksDir)) :=
    act_readDir (plain.join (by decide)) (dir_of_child (k := name) (by simp [present]))
  refine listing.bind fun listed same => ?_
  cases listed with
  | ok entries =>
    refine .pure fun name present => ?_
    rw [complete name present] at same
    cases same
    have listed : dirEntry h.forksDir (name, .dir) ∈ (s.entries h.forksDir.parts).map (dirEntry h.forksDir) :=
      mem_dirEntries.mpr ⟨name, .dir, present, rfl⟩
    exact mem_map.mpr ⟨_, mem_filter.mpr ⟨listed, by simp [dirEntry]⟩, rfl⟩
  | error e =>
    dsimp only
    split_ifs
    · refine .pure fun name present => ?_
      rw [complete name present] at same
      cases same
    · exact .throw e

theorem reads_forkReferencedCollectionPaths :
    Reads s h.forkReferencedCollectionPaths fun paths => ∀ name m, Ordinary name →
      s.get? (h.forksDir.parts ++ [name] ++ [manifestFile]) = some (.file (.manifest m)) →
        ∀ path ∈ h.sharedWith m, path ∈ paths := by
  refine (reads_forkHandles plain).bind fun forks complete => ?_
  refine (Reads.gather (fun fork found => fork.root.Plain → ∀ m,
    s.get? (fork.root.parts ++ [manifestFile]) = some (.file (.manifest m)) → found = h.sharedWith m)
    fun fork _ => ?_).mono fun paths all name m ordinary present path shared => ?_
  · by_cases readable : fork.root.Plain
    · refine (reads_loadCurrent readable).bind fun found loaded => .pure fun _ m present => ?_
      rw [(loaded m).mpr present]
      rfl
    · exact Reads.bind (.call (.loadCurrent fork.root) id rfl rfl fun _ _ => trivial) fun found _ =>
        .pure fun plain => absurd plain readable
  · have there := complete name (dir_of_child (k := manifestFile) (by rw [present]; exact nofun))
    obtain ⟨found, part, within⟩ := all _ there
    have whole := part ((plain.join (by decide)).join ordinary) m present
    exact within path (whole ▸ shared)

theorem reads_protectedCollectionPaths (m : Manifest) :
    Reads s (h.protectedCollectionPaths m) fun paths => (∀ path ∈ activeCollectionPaths m, path ∈ paths) ∧
      ∀ name m', Ordinary name → s.get? (h.forksDir.parts ++ [name] ++ [manifestFile]) = some (.file (.manifest m')) →
          ∀ path ∈ h.sharedWith m', path ∈ paths := by
  refine (reads_forkReferencedCollectionPaths plain).bind fun paths shared => .pure ⟨?_, ?_⟩
  · exact fun path active => mem_append_left _ active
  · exact fun name m' ordinary present path held =>
      mem_append_right _ (shared name m' ordinary present path held)

omit plain in
theorem reads_quarantineUnreferencedFilesIn {dir : FilePath} (readable : dir.Plain) {activePaths : List String}
    (referenced : ∀ k content, s.get? (dir.parts ++ [k]) = some (.file content) → k ∈ activePaths) :
    Reads s (h.quarantineUnreferencedFilesIn dir activePaths) fun _ => True := by
  have asked : Reads s (existsPath dir) fun _ => True := .call (.exists dir) .ok rfl rfl fun _ _ => trivial
  have listing : Reads s (readDir dir) fun entries => .ok entries = (act (.readDir dir) s).1 :=
    .call (.readDir dir) id rfl rfl fun _ same => same.symm
  have synced (dir : FilePath) : Reads s (syncDir dir) fun _ => True :=
    .call (.syncDir dir) id rfl rfl fun _ _ => trivial
  refine asked.bind fun present _ => ?_
  split_ifs
  · refine listing.bind fun entries same => Reads.bind (.forM fun entry member => ?_) fun _ _ =>
      (synced dir).bind fun _ _ => synced _
    have kept : (!entry.isFile || activePaths.contains entry.fileName) = true := by
      rw [(entries_of_readDir readable same.symm).2] at member
      obtain ⟨k, node, found, rfl⟩ := mem_dirEntries.mp member
      cases node with
      | dir => simp [dirEntry]
      | file content => simp [dirEntry, referenced k content found]
    rw [quarantineUnless, if_pos kept]
    exact .pure trivial
  · exact .pure trivial

end

end OperationalManifest

end RedDB.Operational
