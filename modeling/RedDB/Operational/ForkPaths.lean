import RedDB.Operational.Confined

namespace RedDB.Operational

open List Library Fallible OperationalManifest FileTree FilePath

section

theorem hexDigit_injective {a b : Nat} (small : a < 16) (other : b < 16) (same : hexDigit a = hexDigit b) : a = b := by
  have table : ∀ a : Fin 16, ∀ b : Fin 16, hexDigit a = hexDigit b → a = b := by decide
  simpa using congrArg Fin.val (table ⟨a, small⟩ ⟨b, other⟩ same)

theorem keptByte_char {b : UInt8} (kept : keptByte b = true) : (Char.ofNat b.toNat).toNat = b.toNat ∧ b.toNat ≠ 37 := by
  have table : ∀ n : Fin 256, (Char.ofNat n).toNat = n := by decide +kernel
  refine ⟨table ⟨b.toNat, b.toNat_lt⟩, fun percent => ?_⟩
  have same : b = 37 := UInt8.toNat_inj.mp percent
  subst same
  exact absurd kept (by decide)

theorem escapeByte_inj {a b : UInt8} {rest other : List Char}
    (same : escapeByte a ++ rest = escapeByte b ++ other) : a = b ∧ rest = other := by
  unfold escapeByte at same
  split_ifs at same with first second second
  · simp only [cons_append, nil_append, List.cons.injEq] at same
    obtain ⟨char, tails⟩ := same
    refine ⟨UInt8.toNat_inj.mp ?_, tails⟩
    rw [← (keptByte_char first).1, char, (keptByte_char second).1]
  · simp only [cons_append, nil_append, List.cons.injEq] at same
    obtain ⟨value, unlike⟩ := keptByte_char first
    rw [same.1] at value
    exact absurd value.symm unlike
  · simp only [cons_append, nil_append, List.cons.injEq] at same
    obtain ⟨value, unlike⟩ := keptByte_char second
    rw [← same.1] at value
    exact absurd value.symm unlike
  · simp only [cons_append, nil_append, List.cons.injEq, true_and] at same
    obtain ⟨high, low, tails⟩ := same
    refine ⟨UInt8.toNat_inj.mp ?_, tails⟩
    have small := a.toNat_lt
    have bounded := b.toNat_lt
    have upper := hexDigit_injective (by omega) (by omega) high
    have lower := hexDigit_injective (by omega) (by omega) low
    omega

theorem escapeBytes_injective {first second : List UInt8}
    (same : first.flatMap escapeByte = second.flatMap escapeByte) : first = second := by
  have nonempty (b : UInt8) : escapeByte b ≠ [] := by
    unfold escapeByte
    split_ifs <;> simp
  induction first generalizing second with
  | nil =>
    cases second with
    | nil => rfl
    | cons b second =>
      simp only [flatMap_nil, flatMap_cons, nil_eq, append_eq_nil_iff] at same
      exact absurd same.1 (nonempty b)
  | cons a first ih =>
    cases second with
    | nil =>
      simp only [flatMap_nil, flatMap_cons, append_eq_nil_iff] at same
      exact absurd same.1 (nonempty a)
    | cons b second =>
      simp only [flatMap_cons] at same
      obtain ⟨rfl, tails⟩ := escapeByte_inj same
      rw [ih tails]

theorem sanitizeComponent_injective {name other : String} (same : sanitizeComponent name = sanitizeComponent other) :
    name = other := by
  have bytes := escapeBytes_injective (String.ofList_injective same)
  have arrays : name.toByteArray = other.toByteArray := ByteArray.ext (Array.toList_inj.mp bytes)
  exact String.toByteArray_inj.mp arrays

theorem ordinary_sanitizeComponent {name : String} (ordinary : Ordinary name) : Ordinary (sanitizeComponent name) := by
  have fixed : sanitizeComponent "" = "" ∧ sanitizeComponent "." = "." ∧ sanitizeComponent ".." = ".." := by
    decide +kernel
  refine ⟨fun same => ordinary.1 ?_, fun same => ordinary.2.1 ?_, fun same => ordinary.2.2 ?_⟩
  · exact sanitizeComponent_injective (same.trans fixed.1.symm)
  · exact sanitizeComponent_injective (same.trans fixed.2.1.symm)
  · exact sanitizeComponent_injective (same.trans fixed.2.2.symm)

end

inductive ForkCall
  | create (forkLsn : Nat)
  | hydrate (collection : String)
  | drop
  | promote

def ForkCall.program (h : OperationalManifest) (name : String) : ForkCall → Io Unit
  | .create forkLsn => h.createFork name forkLsn
  | .hydrate collection => (h.forkHandle name).hydrateCollection collection
  | .drop => do
    let _ ← h.dropFork name
    pure ()
  | .promote => do
    let _ ← h.promoteFork name
    pure ()

structure Tracked where
  fs : Fs
  home : FilePath

namespace Tracked

def homeAfter (t : Tracked) : VfsOp → FilePath
  | .rename source target =>
    match (act (.rename source target) t.fs).1 with
    | .ok () => if source = t.home then target else t.home
    | .error _ => t.home
  | _ => t.home

def perform (o : VfsOp) (t : Tracked) : Reply o × Tracked := ((act o t.fs).1, ⟨(act o t.fs).2, t.homeAfter o⟩)

end Tracked

/-- A rename takes the fork's directory to its staging name or to the root it is promoted to, or the store to the
fork's archive name; any other call changes nothing but places in the fork's directory and, when it is missing,
the directory of the forks. -/
def OwnCall (h : OperationalManifest) (name : String) : VfsOp → Tracked → Prop
  | .rename source target, t =>
    source = t.home ∧ (target = (h.promotingForkHandle name).root ∨ target = h.root) ∨
      source = h.root ∧ target = (h.archivedParentHandle name).root
  | o, t => ∀ q, (act o t.fs).2.get? q ≠ t.fs.get? q → t.home.parts <+: q ∨ q = h.forksDir.parts ∧ t.fs.get? q = none

section

variable {h : OperationalManifest} {name : String}

theorem InsideCall.own {base : List String} {o : VfsOp} {t : Tracked} (inside : InsideCall base o t.fs)
    (home : t.home.parts = base) : OwnCall h name o t := by
  unfold OwnCall
  split
  · exact absurd rfl (inside.stays _ _)
  · exact fun q changed => .inl (home ▸ inside.inside q changed)

theorem homeAfter_of_stays {o : VfsOp} (t : Tracked) (stays : ∀ source target, o ≠ .rename source target) :
    t.homeAfter o = t.home := by
  unfold Tracked.homeAfter
  split
  · exact absurd rfl (stays _ _)
  · rfl

theorem wp_tracked {α : Type} {guard : VfsOp → Fs → Prop} {onOk : α → Fs → Prop} {onError : IoError → Fs → Prop}
    {p : Io α} {t : Tracked} (holds : wp act guard onOk onError p t.fs)
    (stays : ∀ o s, guard o s → ∀ source target, o ≠ .rename source target) :
    wp Tracked.perform (fun o u => guard o u.fs ∧ u.home = t.home)
      (fun a u => onOk a u.fs ∧ u.home = t.home) (fun e u => onError e u.fs ∧ u.home = t.home) p t := by
  have lift : ∀ (r : Resumption VfsOp Reply (Except IoError α)) (u : Tracked), u.home = t.home →
      r.wp act guard (outcome onOk onError) u.fs →
      r.wp Tracked.perform (fun o v => guard o v.fs ∧ v.home = t.home)
        (outcome (fun a v => onOk a v.fs ∧ v.home = t.home) (fun e v => onError e v.fs ∧ v.home = t.home)) u := by
    intro r
    induction r with
    | ret result =>
      intro u same result'
      cases result <;> exact ⟨result', same⟩
    | call o next ih =>
      rintro u same ⟨allowed, rest⟩
      refine ⟨⟨allowed, same⟩, ih _ _ ?_ rest⟩
      rw [← same]
      exact homeAfter_of_stays u (stays o u.fs allowed)
  exact lift p.run t rfl holds

variable {α : Type} {p : Io α} {t : Tracked} {onOk : α → Tracked → Prop} {onError : IoError → Tracked → Prop}

theorem Stays.own {base : List String} (stays : Stays base p) (home : t.home.parts = base)
    (start : t.fs.get? base = some .dir)
    (returned : ∀ a u, u.home = t.home → u.fs.get? base = some .dir → onOk a u)
    (failed : ∀ e u, u.home = t.home → u.fs.get? base = some .dir → onError e u) :
    wp Tracked.perform (OwnCall h name) onOk onError p t := by
  refine (wp_tracked (stays t.fs start) fun o s inside => inside.stays).mono ?_ ?_ ?_
  · exact fun o u ⟨inside, same⟩ => inside.own (same ▸ home)
  · exact fun a u ⟨present, same⟩ => returned a u same present
  · exact fun e u ⟨present, same⟩ => failed e u same present

theorem Reads.own {result : α → Prop} (reads : Reads t.fs p result) (returned : ∀ a, result a → onOk a t)
    (failed : ∀ e, onError e t) : wp Tracked.perform (OwnCall h name) onOk onError p t := by
  refine (wp_tracked (t := t) reads ?_).mono ?_ ?_ ?_
  · rintro o s ⟨still, -⟩ source target rfl
    cases still
  · exact fun o u ⟨⟨still, _⟩, same⟩ => (InsideCall.of_still still).own (congrArg FilePath.parts same)
  · rintro a ⟨fs, home⟩ ⟨⟨rfl, holds⟩, rfl⟩
    exact returned a holds
  · rintro e ⟨fs, home⟩ ⟨rfl, rfl⟩
    exact failed e

theorem wp_ownCall (o : VfsOp) (answer : Reply o → Except IoError α)
    (shape : p = Resumption.call o fun reply => Resumption.ret (answer reply))
    (stays : ∀ source target, o ≠ .rename source target)
    (own : ∀ q, (act o t.fs).2.get? q ≠ t.fs.get? q → t.home.parts <+: q ∨ q = h.forksDir.parts ∧ t.fs.get? q = none)
    (post : outcome onOk onError (answer (act o t.fs).1) ⟨(act o t.fs).2, t.home⟩) :
    wp Tracked.perform (OwnCall h name) onOk onError p t := by
  rw [shape]
  refine ⟨?_, ?_⟩
  · unfold OwnCall
    split
    · exact absurd rfl (stays _ _)
    · exact own
  · rw [← homeAfter_of_stays t stays] at post
    exact post

end

theorem wp_rename_own {h : OperationalManifest} {name : String} {t : Tracked} {source target : FilePath}
    {onOk : Unit → Tracked → Prop} {onError : IoError → Tracked → Prop}
    (own : OwnCall h name (.rename source target) t)
    (moved : onOk () ⟨(act (.rename source target) t.fs).2, if source = t.home then target else t.home⟩)
    (failed : ∀ e u, onError e u) :
    wp Tracked.perform (OwnCall h name) onOk onError (rename source target) t := by
  refine ⟨own, ?_⟩
  change outcome onOk onError (act (.rename source target) t.fs).1
    ⟨(act (.rename source target) t.fs).2, t.homeAfter (.rename source target)⟩
  rw [Tracked.homeAfter]
  cases (act (.rename source target) t.fs).1 with
  | ok done => exact moved
  | error e => exact failed e _

section

variable {h : OperationalManifest} (plain : h.root.Plain) {name : String} (ordinary : Ordinary name)

include plain ordinary

theorem plain_forkHandle : (h.forkHandle name).root.Plain :=
  (plain.join (by decide)).join (ordinary_sanitizeComponent ordinary)

theorem createFork_own (forkLsn : Nat) (fs : Fs) :
    wp Tracked.perform (OwnCall h name) (fun _ _ => True) (fun _ _ => True) (h.createFork name forkLsn)
      ⟨fs, (h.forkHandle name).root⟩ := by
  have fork := plain_forkHandle plain ordinary
  have inside : (h.forkHandle name).root.parts = h.root.parts ++ [forksDirName, sanitizeComponent name] := by
    simp [forkHandle, forksDir]
  refine (wp_bind _ _).mpr ((reads_loadCurrent plain).own (fun current loaded => ?_) fun _ => trivial)
  cases current with
  | none => exact trivial
  | some parent =>
    have present : fs.get? h.root.parts = some .dir :=
      dir_of_child (k := manifestFile) (by rw [(loaded parent).mp rfl]; exact Option.some_ne_none _)
    refine (wp_bind _ _).mpr ((reads_loadCurrent fork).own (fun existing _ => ?_) fun _ => trivial)
    split_ifs
    · exact trivial
    simp only [ensureDirs, wp_bind]
    refine wp_ownCall (.createDirAll (h.forkHandle name).collectionsDir) id rfl (fun _ _ => VfsOp.noConfusion) ?_ ?_
    · intro q changed
      obtain ⟨missing, above⟩ := createDirAll_changed (fork.join (by decide)) changed
      have under : h.root.parts <+: (h.forkHandle name).collectionsDir.parts := by
        simp [collectionsDir, inside]
      obtain ⟨rest, rfl⟩ := below_of_missing (by simp [present]) under missing above
      have above : rest <+: [forksDirName, sanitizeComponent name, collectionsDirName] := by
        simpa [collectionsDir, inside] using above
      rcases rest with _ | ⟨first, _ | ⟨second, further⟩⟩
      · simp [present] at missing
      · obtain ⟨rfl, -⟩ := cons_prefix_cons.mp above
        exact .inr ⟨rfl, missing⟩
      · obtain ⟨rfl, further⟩ := cons_prefix_cons.mp above
        obtain ⟨rfl, -⟩ := cons_prefix_cons.mp further
        exact .inl (by simp [inside])
    · cases made : (act (.createDirAll (h.forkHandle name).collectionsDir) fs).1 with
      | error e => exact trivial
      | ok done =>
        have made : (act (.createDirAll (h.forkHandle name).collectionsDir) fs).2.get?
            ((h.forkHandle name).root.parts ++ [collectionsDirName]) = some .dir :=
          act_createDirAll_done (fork.join (by decide)) made
        have home := dir_of_child (by rw [made]; exact Option.some_ne_none _)
        have sub (component : String) (ordinary : Ordinary component) :
            Stays (h.forkHandle name).root.parts (createDirAll ((h.forkHandle name).root.join component)) :=
          stays_createDirAll (fork.join ordinary) (prefix_append _ _)
        have others := (sub appendOnlySegmentsDirName (by decide)).bind fun _ =>
          (sub quarantineDirName (by decide)).bind fun _ => stays_syncDir (h.forkHandle name).root
        refine others.own (by rfl) (by exact home) (fun _ t same there => ?_) fun _ _ _ _ => trivial
        exact ((stays_publish fork _).bind fun _ => stays_syncDir h.forksDir).own
          (by rw [same]) there (fun _ _ _ _ => trivial) fun _ _ _ _ => trivial

theorem hydrateCollection_own (collection : String) (fs : Fs) :
    wp Tracked.perform (OwnCall h name) (fun _ _ => True) (fun _ _ => True)
      ((h.forkHandle name).hydrateCollection collection) ⟨fs, (h.forkHandle name).root⟩ := by
  have fork := plain_forkHandle plain ordinary
  by_cases present : fs.get? (h.forkHandle name).root.parts = some .dir
  · exact (stays_hydrateCollection fork collection).own rfl present (fun _ _ _ _ => trivial) fun _ _ _ _ => trivial
  · refine (wp_bind _ _).mpr ((reads_loadCurrent fork).own (fun current loaded => ?_) fun _ => trivial)
    cases current with
    | none => exact trivial
    | some m =>
      refine absurd (dir_of_child (k := manifestFile) ?_) present
      rw [(loaded m).mp rfl]
      exact nofun

/-- No file of the store is without a use: each is an active collection's, or another fork's, or a segment's. -/
structure Tidy (h : OperationalManifest) (name : String) (fs : Fs) (m : Manifest) : Prop where
  collections : ∀ k content, fs.get? (h.collectionsDir.parts ++ [k]) = some (.file content) →
    k ∈ activeCollectionPaths m ∨ ∃ other m', Ordinary other ∧ other ≠ sanitizeComponent name ∧
      fs.get? (h.forksDir.parts ++ [other] ++ [manifestFile]) = some (.file (.manifest m')) ∧ k ∈ h.sharedWith m'
  segments : ∀ k content, fs.get? (h.appendOnlySegmentsDir.parts ++ [k]) = some (.file content) →
    k ∈ m.appendOnlySegments.map (·.path)

omit plain ordinary in
theorem not_fork_prefix {component : String} (other : component ≠ sanitizeComponent name) (rest : List String) :
    ¬ (h.forkHandle name).root.parts <+: h.forksDir.parts ++ component :: rest := by
  intro within
  have place : (h.forkHandle name).root.parts = h.forksDir.parts ++ [sanitizeComponent name] := rfl
  rw [place, prefix_append_right_inj, cons_prefix_cons] at within
  exact other within.1.symm

omit plain ordinary in
theorem not_fork_prefix_root (h : OperationalManifest) (name component : String) (other : component ≠ forksDirName)
    (rest : List String) :
    ¬ (h.forkHandle name).root.parts <+: h.root.parts ++ component :: rest := by
  intro within
  have place : (h.forkHandle name).root.parts = h.root.parts ++ [forksDirName, sanitizeComponent name] := by
    simp [forkHandle, forksDir]
  rw [place, prefix_append_right_inj, cons_prefix_cons] at within
  exact other within.1.symm

omit ordinary in
theorem Tidy.reads_quarantine {fs s : Fs} {m : Manifest} (tidy : Tidy h name fs m)
    (same : ∀ q, ¬ (h.forkHandle name).root.parts <+: q → s.get? q = fs.get? q) :
    Reads s (h.quarantineUnreferenced m) fun _ => True := by
  refine (reads_protectedCollectionPaths plain m).bind fun paths ⟨active, shared⟩ => ?_
  refine (reads_quarantineUnreferencedFilesIn (plain.join (by decide)) ?_).bind fun _ _ =>
    reads_quarantineUnreferencedFilesIn (plain.join (by decide)) ?_
  · intro k content found
    have there : fs.get? (h.collectionsDir.parts ++ [k]) = some (.file content) := by
      rw [← found]
      refine (same _ ?_).symm
      simpa [collectionsDir] using not_fork_prefix_root h name collectionsDirName (by decide) [k]
    rcases tidy.collections k content there with own | ⟨other, m', ordinary, unlike, present, held⟩
    · exact active k own
    · refine shared other m' ordinary ?_ k held
      rw [← present]
      refine same _ ?_
      simpa using not_fork_prefix (h := h) unlike [manifestFile]
  · intro k content found
    refine tidy.segments k content ?_
    rw [← found]
    refine (same _ ?_).symm
    simpa [appendOnlySegmentsDir] using not_fork_prefix_root h name appendOnlySegmentsDirName (by decide) [k]

theorem dropFork_own {fs : Fs}
    (tidy : ∀ m, fs.get? (h.root.parts ++ [manifestFile]) = some (.file (.manifest m)) → Tidy h name fs m) :
    wp Tracked.perform (OwnCall h name)
      (fun _ t => ∀ q, ¬ (h.forkHandle name).root.parts <+: q → t.fs.get? q = fs.get? q)
      (fun _ t => ∀ q, ¬ (h.forkHandle name).root.parts <+: q → t.fs.get? q = fs.get? q)
      (h.dropFork name) ⟨fs, (h.forkHandle name).root⟩ := by
  have fork := plain_forkHandle plain ordinary
  have asked : Reads fs (existsPath (h.forkHandle name).root) fun _ => True :=
    .call (.exists _) .ok rfl rfl fun _ _ => trivial
  refine (wp_bind _ _).mpr (asked.own (fun present _ => ?_) fun _ _ _ => rfl)
  split_ifs
  · have same (q : List String) (outside : ¬ (h.forkHandle name).root.parts <+: q) :
        (act (.removeDirAll (h.forkHandle name).root) fs).2.get? q = fs.get? q :=
      act_frame (o := .removeDirAll (h.forkHandle name).root) fork outside
    refine (wp_bind _ _).mpr (wp_ownCall (.removeDirAll _) id rfl (fun _ _ => VfsOp.noConfusion)
      (fun q changed => ?_) ?_)
    · by_contra outside
      push Not at outside
      exact changed (same q outside.1)
    cases (act (.removeDirAll (h.forkHandle name).root) fs).1 with
    | error e => exact same
    | ok done =>
      have synced : Reads (act (.removeDirAll (h.forkHandle name).root) fs).2
          (attempt (syncDir h.forksDir)) fun _ => True :=
        .call (.syncDir _) .ok rfl rfl fun _ _ => trivial
      refine (wp_bind _ _).mpr (synced.own (fun _ _ => ?_) fun _ => same)
      refine (wp_bind _ _).mpr ((reads_loadCurrent plain).own (fun current loaded => ?_) fun _ => same)
      cases current with
      | none => exact same
      | some m =>
        have there := (loaded m).mp rfl
        rw [same _ (not_fork_prefix_root h name manifestFile (by decide) [])] at there
        exact (wp_bind _ _).mpr (((tidy m there).reads_quarantine plain same).own (fun _ _ => same) fun _ => same)
  · exact fun _ _ => rfl

omit ordinary in
theorem clearForkOrigin_own {t : Tracked} (home : t.home = h.root) :
    wp Tracked.perform (OwnCall h name) (fun _ _ => True) (fun _ _ => True) h.clearForkOrigin t := by
  by_cases present : t.fs.get? h.root.parts = some .dir
  · exact (stays_clearForkOrigin plain).own (by rw [home]) present (fun _ _ _ _ => trivial) fun _ _ _ _ => trivial
  · refine (wp_bind _ _).mpr ((reads_loadCurrent plain).own (fun current loaded => ?_) fun _ => trivial)
    cases current with
    | none => exact trivial
    | some m =>
      refine absurd (dir_of_child (k := manifestFile) ?_) present
      rw [(loaded m).mp rfl]
      exact nofun

omit ordinary in
theorem fileName_root : h.root.fileName = some h.rootName ∧ h.root.parts = h.root.parts.dropLast ++ [h.rootName] := by
  obtain ⟨lead, last, split⟩ := (eq_nil_or_concat h.root.parts).resolve_left plain.named
  simp [rootName, fileName, split]

omit ordinary in
theorem promotingFork_ne_root : (h.promotingForkHandle name).root ≠ h.root := by
  intro same
  have parts := congrArg FilePath.parts same
  rw [(fileName_root plain).2] at parts
  have names : h.promotingFork ++ sanitizeComponent name = h.rootName := by
    simpa [promotingForkHandle, withFileName] using parts
  have lengths := congrArg (fun s : String => s.toList.length) names
  simp only [promotingFork, String.toList_append, length_append] at lengths
  have long : ".promoting-".toList.length = 11 := by decide
  omega

omit ordinary plain in
theorem withParent_beside {component : String} (use : FilePath → Io Unit) :
    withParent (h.root.withFileName component) use = use { h.root with parts := h.root.parts.dropLast } := by
  simp [withParent, FilePath.parent, withFileName]

omit ordinary plain in
theorem reads_syncParent {s : Fs} (p : FilePath) : Reads s (withParent p syncDir) fun _ => True := by
  unfold withParent
  split
  · exact .call (.syncDir _) id rfl rfl fun _ _ => trivial
  · exact .pure trivial

theorem swapIn_own {t : Tracked} (home : t.home = (h.forkHandle name).root)
    (present : t.fs.get? (h.forkHandle name).root.parts = some .dir) :
    wp Tracked.perform (OwnCall h name) (fun _ _ => True) (fun _ _ => True) (h.swapIn name) t := by
  have fork := plain_forkHandle plain ordinary
  refine (wp_bind _ _).mpr ((stays_hydrateSharedCollections fork).own (by rw [home])
    present (fun _ t same there => ?_) fun _ _ _ _ => trivial)
  have atHome : t.home = (h.forkHandle name).root := same.trans home
  have above : t.fs.get? h.root.parts.dropLast = some .dir := by
    have inside : h.root.parts.dropLast ++ [h.rootName, forksDirName, sanitizeComponent name] =
        (h.forkHandle name).root.parts := by
      rw [forkHandle, join_parts, forksDir, join_parts]
      nth_rewrite 2 [(fileName_root plain).2]
      simp
    exact dir_of_below (cons_ne_nil _ _) (by rw [inside, there]; exact nofun)
  have made : act (.createDirAll { h.root with parts := h.root.parts.dropLast }) t.fs = (.ok (), t.fs) :=
    act_createDirAll_present (fun c member => plain.ordinary c (mem_of_mem_dropLast member)) above
  have beside : withParent (h.promotingForkHandle name).root createDirAll =
      createDirAll { h.root with parts := h.root.parts.dropLast } := withParent_beside createDirAll
  refine (wp_bind _ _).mpr ?_
  rw [beside]
  refine wp_ownCall (.createDirAll _) id rfl nofun (fun q changed => ?_) ?_
  · rw [made] at changed
    exact absurd rfl changed
  rw [made]
  -- the fork goes beside the store, the store to the archive, the fork into its place
  refine (wp_bind _ _).mpr (wp_rename_own (.inl ⟨atHome.symm, .inl rfl⟩) ?_ fun _ _ => trivial)
  refine (wp_bind _ _).mpr (Reads.own (.call (.syncDir _) id rfl rfl fun _ _ => trivial) (fun _ _ => ?_)
    fun _ => trivial)
  refine (wp_bind _ _).mpr ((reads_syncParent _).own (fun _ _ => ?_) fun _ => trivial)
  refine (wp_bind _ _).mpr (wp_rename_own (.inr ⟨rfl, rfl⟩) ?_ fun _ _ => trivial)
  refine (wp_bind _ _).mpr ((reads_syncParent _).own (fun _ _ => ?_) fun _ => trivial)
  have staged : (if h.root = (h.promotingForkHandle name).root then (h.archivedParentHandle name).root
      else (h.promotingForkHandle name).root) = (h.promotingForkHandle name).root :=
    if_neg (promotingFork_ne_root plain).symm
  simp only [atHome, if_true, staged]
  refine (wp_bind _ _).mpr (wp_rename_own (.inl ⟨rfl, .inr rfl⟩) ?_ fun _ _ => trivial)
  refine (wp_bind _ _).mpr ((reads_syncParent _).own (fun _ _ => ?_) fun _ => trivial)
  exact clearForkOrigin_own plain (if_pos rfl)

theorem promoteFork_own (fs : Fs) :
    wp Tracked.perform (OwnCall h name) (fun _ _ => True) (fun _ _ => True) (h.promoteFork name)
      ⟨fs, (h.forkHandle name).root⟩ := by
  have fork := plain_forkHandle plain ordinary
  have asked (path : FilePath) : Reads fs (existsPath path) fun _ => True :=
    .call (.exists path) .ok rfl rfl fun _ _ => trivial
  refine (wp_bind _ _).mpr ((asked _).own (fun present _ => ?_) fun _ => trivial)
  split_ifs
  · exact trivial
  refine (wp_bind _ _).mpr ?_
  refine (wp_bind _ _).mpr ((reads_loadCurrent fork).own (fun current loaded => ?_) fun _ => trivial)
  rw [wp_pure]
  cases current with
  | none => exact trivial
  | some m =>
    have there : fs.get? (h.forkHandle name).root.parts = some .dir :=
      dir_of_child (k := manifestFile) (by rw [(loaded m).mp rfl]; exact nofun)
    cases origin : m.forkOrigin with
    | none => simp only [Option.bind_some, origin, wp_throw]
    | some origin =>
      simp only [Option.bind_some, origin]
      split_ifs
      · exact trivial
      refine (wp_bind _ _).mpr ((asked _).own (fun staged _ => ?_) fun _ => trivial)
      split_ifs
      · exact trivial
      refine (wp_bind _ _).mpr ((asked _).own (fun archived _ => ?_) fun _ => trivial)
      split_ifs
      · exact trivial
      exact (wp_bind _ _).mpr ((swapIn_own plain ordinary rfl there).mono (fun _ _ => id)
        (fun _ _ _ => trivial) fun _ _ => id)

end

/-- Whatever the operation creates, removes or renames is the fork's own; a drop leaves the store and the other forks
as they are. -/
def ForkCall.Confined (h : OperationalManifest) (name : String) (call : ForkCall) (fs : Fs) : Prop :=
  (∀ visit ∈ (call.program h name).run.trace Tracked.perform ⟨fs, (h.forkHandle name).root⟩,
    OwnCall h name visit.1 visit.2) ∧
  (call = .drop →
    let after := ((call.program h name).run.execute Tracked.perform ⟨fs, (h.forkHandle name).root⟩).2.fs
    (∀ q, ¬ h.forksDir.parts <+: q → after.get? q = fs.get? q) ∧ ∀ other, other ≠ name → ∀ rest,
        after.get? ((h.forkHandle other).root.parts ++ rest) = fs.get? ((h.forkHandle other).root.parts ++ rest))

/-- A drop quarantines what an untidy store holds. -/
def ForkCall.Leaves (h : OperationalManifest) (name : String) (call : ForkCall) (fs : Fs) : Prop :=
  call = .drop → ∀ m, fs.get? (h.root.parts ++ [manifestFile]) = some (.file (.manifest m)) → Tidy h name fs m

theorem confined_of_ordinary (h : OperationalManifest) (plain : h.root.Plain) (name : String)
    (ordinary : Ordinary name) (call : ForkCall) (fs : Fs) (tidy : call.Leaves h name fs) :
    call.Confined h name fs := by
  cases call with
  | create forkLsn =>
    exact ⟨(Resumption.wp_iff.mp (createFork_own plain ordinary forkLsn fs)).1, nofun⟩
  | hydrate collection =>
    exact ⟨(Resumption.wp_iff.mp (hydrateCollection_own plain ordinary collection fs)).1, nofun⟩
  | promote =>
    have own : wp Tracked.perform (OwnCall h name) (fun _ _ => True) (fun _ _ => True)
        (ForkCall.promote.program h name) ⟨fs, (h.forkHandle name).root⟩ :=
      (wp_bind _ _).mpr ((promoteFork_own plain ordinary fs).mono (fun _ _ => id) (fun _ _ => id) fun _ _ => id)
    exact ⟨(Resumption.wp_iff.mp own).1, nofun⟩
  | drop =>
    have own : wp Tracked.perform (OwnCall h name)
        (fun _ t => ∀ q, ¬ (h.forkHandle name).root.parts <+: q → t.fs.get? q = fs.get? q)
        (fun _ t => ∀ q, ¬ (h.forkHandle name).root.parts <+: q → t.fs.get? q = fs.get? q)
        (ForkCall.drop.program h name) ⟨fs, (h.forkHandle name).root⟩ :=
      (wp_bind _ _).mpr ((dropFork_own plain ordinary (tidy rfl)).mono (fun _ _ => id) (fun _ _ => id) fun _ _ => id)
    obtain ⟨visits, result⟩ := Resumption.wp_iff.mp own
    have same : ∀ q, ¬ (h.forkHandle name).root.parts <+: q →
        ((ForkCall.drop.program h name).run.execute Tracked.perform
          ⟨fs, (h.forkHandle name).root⟩).2.fs.get? q = fs.get? q := by
      revert result
      generalize (ForkCall.drop.program h name).run.execute Tracked.perform ⟨fs, (h.forkHandle name).root⟩ = final
      obtain ⟨_ | _, t⟩ := final <;> exact id
    refine ⟨visits, fun _ => ⟨fun q outside => same q fun within => outside ?_, fun other unlike rest => same _ ?_⟩⟩
    · exact (prefix_append h.forksDir.parts [sanitizeComponent name]).trans within
    · have apart := not_fork_prefix (h := h) (fun equal => unlike (sanitizeComponent_injective equal)) rest
      simpa [forkHandle] using apart

def isTidy (h : OperationalManifest) (fs : Fs) (m : Manifest) : Bool :=
  ((fs.entries h.collectionsDir.parts).all fun child => child.2 = .dir || (activeCollectionPaths m).contains child.1) &&
    (fs.entries h.appendOnlySegmentsDir.parts).all fun child =>
      child.2 = .dir || (m.appendOnlySegments.map (·.path)).contains child.1

theorem tidy_of_isTidy {h : OperationalManifest} {fs : Fs} {m : Manifest} (name : String)
    (checked : isTidy h fs m = true) : Tidy h name fs m := by
  obtain ⟨collections, segments⟩ := Bool.and_eq_true_iff.mp checked
  refine ⟨fun k content found => .inl ?_, fun k content found => ?_⟩
  · simpa using all_eq_true.mp collections _ (mem_entries.mpr found)
  · simpa using all_eq_true.mp segments _ (mem_entries.mpr found)

def storeWithFork : Fs :=
  ((do
    (ofDbPath true ["data"] "db").createCollection "users"
    (ofDbPath true ["data"] "db").createFork "exp" 7 : Io Unit).run.execute act empty).2

def storeIsTidy (h : OperationalManifest) (fs : Fs) : Bool :=
  match fs.get? (h.root.parts ++ [manifestFile]) with
  | some (.file (.manifest m)) => isTidy h fs m
  | _ => false

theorem storeWithFork_tidy (name : String) (call : ForkCall) :
    call.Leaves (ofDbPath true ["data"] "db") name storeWithFork := by
  have checked : storeIsTidy (ofDbPath true ["data"] "db") storeWithFork = true := by
    decide +kernel
  intro _ m found
  rw [storeIsTidy, found] at checked
  exact tidy_of_isTidy name checked

/-- Dropping a fork under one of the names that are no names of their own removes the fork `exp`. -/
theorem drop_removes_exp : storeWithFork.get? ["data", "db.ops", forksDirName, "exp", manifestFile] ≠ none ∧
    ∀ name ∈ ["", ".", ".."], (((ForkCall.drop.program (ofDbPath true ["data"] "db") name).run.execute Tracked.perform
      ⟨storeWithFork, ((ofDbPath true ["data"] "db").forkHandle name).root⟩).2.fs.get?
        ["data", "db.ops", forksDirName, "exp", manifestFile]) = none := by
  decide +kernel

end RedDB.Operational
