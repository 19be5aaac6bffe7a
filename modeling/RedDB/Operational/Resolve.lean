import RedDB.Operational.Vfs

namespace RedDB.Operational

open List Library FileTree

def Ordinary (component : String) : Prop := component ≠ "" ∧ component ≠ "." ∧ component ≠ ".."

instance (component : String) : Decidable (Ordinary component) := inferInstanceAs (Decidable (_ ∧ _ ∧ _))

structure FilePath.Plain (p : FilePath) : Prop where
  ordinary : ∀ component ∈ p.parts, Ordinary component
  named : p.parts ≠ []

theorem enter_ordinary {component : String} (ordinary : Ordinary component) (here : List String) :
    enter here component = here ++ [component] := by
  simp [enter, ordinary.1, ordinary.2.1, ordinary.2.2]

section

variable {fs : Fs} {here parts : List String}

section

variable (ordinary : ∀ component ∈ parts, Ordinary component)
include ordinary

theorem walk_of_parent
    (parent : fs.get? (here ++ parts.dropLast) = some .dir) : walk fs here parts = .ok (here ++ parts) := by
  induction parts generalizing here with
  | nil => simp [walk]
  | cons component rest ih =>
    have start : fs.get? here = some .dir := by
      by_cases last : (component :: rest).dropLast = []
      · rwa [last, append_nil] at parent
      · exact dir_of_below last (by simp [parent])
    rw [walk, start]
    simp only
    rw [enter_ordinary (ordinary component mem_cons_self)]
    cases rest with
    | nil => simp [walk]
    | cons next rest =>
      rw [ih (fun c member => ordinary c (mem_cons_of_mem _ member)) (by simpa using parent)]
      simp

theorem walk_of_present (present : fs.get? (here ++ parts) ≠ none) : walk fs here parts = .ok (here ++ parts) := by
  rcases eq_nil_or_concat parts with rfl | ⟨lead, last, rfl⟩
  · simp [walk]
  · refine walk_of_parent ordinary ?_
    rw [concat_eq_append, ← append_assoc] at present
    simpa using dir_of_child present

end

theorem get?_of_walk_error {e : IoError} (ordinary : ∀ component ∈ parts, Ordinary component)
    (failed : walk fs here parts = .error e) : fs.get? (here ++ parts) = none := by
  by_contra present
  rw [walk_of_present ordinary present] at failed
  cases failed

theorem walk_ok {place : List String} (ordinary : ∀ component ∈ parts, Ordinary component)
    (done : walk fs here parts = .ok place) : place = here ++ parts := by
  induction parts generalizing here with
  | nil => simpa [walk] using done.symm
  | cons component rest ih =>
    rw [walk] at done
    split at done
    · rw [enter_ordinary (ordinary component mem_cons_self)] at done
      rw [ih (fun c member => ordinary c (mem_cons_of_mem _ member)) done]
      simp
    · cases done
    · cases done

end

section

variable {fs : Fs} {p : FilePath}

theorem FilePath.Plain.join (plain : p.Plain) {component : String} (ordinary : Ordinary component) :
    (p.join component).Plain where
  ordinary := by
    intro c member
    rcases mem_append.mp member with member | member
    · exact plain.ordinary c member
    · exact mem_singleton.mp member ▸ ordinary
  named := by simp [FilePath.join]

@[simp] theorem FilePath.join_parts (component : String) : (p.join component).parts = p.parts ++ [component] := rfl

theorem FilePath.Plain.resolve (plain : p.Plain) : resolve fs p = walk fs [] p.parts := by
  rw [Operational.resolve, if_neg]
  simp [FilePath.isEmpty, plain.named]

theorem lookup_of_present (plain : p.Plain) (present : fs.get? p.parts ≠ none) :
    lookup fs p = .ok (p.parts, fs.get? p.parts) := by
  rw [lookup, plain.resolve, walk_of_present plain.ordinary (by simpa using present)]
  rfl

theorem lookup_of_some {node : FileNode Content} (plain : p.Plain) (present : fs.get? p.parts = some node) :
    lookup fs p = .ok (p.parts, some node) := by
  rw [lookup_of_present plain (by simp [present]), present]

theorem lookup_plain (fs : Fs) (plain : p.Plain) :
    lookup fs p = .ok (p.parts, fs.get? p.parts) ∨ ∃ e, lookup fs p = .error e ∧ fs.get? p.parts = none := by
  cases walked : walk fs [] p.parts with
  | ok place =>
    have there := walk_ok plain.ordinary walked
    rw [nil_append] at there
    exact .inl (by rw [lookup, plain.resolve, walked, there]; rfl)
  | error e =>
    refine .inr ⟨e, by rw [lookup, plain.resolve, walked]; rfl, ?_⟩
    simpa using get?_of_walk_error plain.ordinary walked

end

section

def VfsOp.Plain : VfsOp → Prop
  | .createDirAll p | .syncDir p | .exists p | .isFile p | .readDir p | .open p _ | .writeAll p _ | .syncAll p
  | .readFile p | .removeFile p | .removeDirAll p | .loadCurrent p | .publish p _ | .unusedPath p _ => p.Plain
  | .rename source target => source.Plain ∧ target.Plain

def VfsOp.Touches : VfsOp → List String → Prop
  | .createDirAll dir, q => q <+: dir.parts
  | .open path _, q | .writeAll path _, q => q = path.parts
  | .removeFile path, q | .removeDirAll path, q => path.parts <+: q
  | .rename source target, q => source.parts <+: q ∨ target.parts <+: q
  | .publish root _, q => q = root.parts ++ [manifestFile]
  | _, _ => False

def VfsOp.still : VfsOp → Bool
  | .syncDir _ | .exists _ | .isFile _ | .readDir _ | .syncAll _ | .readFile _ | .loadCurrent _ | .unusedPath _ _ => true
  | _ => false

variable {fs : Fs}

theorem act_still {o : VfsOp} (still : o.still = true) : (act o fs).2 = fs := by
  cases o with
  | syncDir | readDir | loadCurrent | «exists» | isFile | readFile | unusedPath =>
    simp only [act]
    split <;> rfl
  | syncAll path => rfl
  | _ => cases still

theorem makeDirs_get? {here parts : List String} (ordinary : ∀ component ∈ parts, Ordinary component)
    (q : List String) :
    (makeDirs fs here parts).2.get? q = fs.get? q ∨
      fs.get? q = none ∧ (makeDirs fs here parts).2.get? q = some .dir ∧ q <+: here ++ parts := by
  induction parts generalizing fs here with
  | nil => exact .inl rfl
  | cons component rest ih =>
    have later := fun c member => ordinary c (mem_cons_of_mem component member)
    have whole : here ++ [component] ++ rest = here ++ component :: rest := by simp
    rw [makeDirs, enter_ordinary (ordinary component mem_cons_self)]
    split
    · rw [← whole]
      exact ih later
    · exact .inl rfl
    · next missing =>
      split
      · next fs' made =>
        have grown := FileTree.get?_of_put? made q
        rw [← whole]
        by_cases here' : q = here ++ [component]
        · rw [if_pos here'] at grown
          refine .inr ⟨here' ▸ missing, ?_, here' ▸ prefix_append _ _⟩
          rcases @ih fs' (here ++ [component]) later with same | ⟨none, -, -⟩
          · rw [same, grown]
          · rw [grown] at none
            cases none
        · rw [if_neg here'] at grown
          rw [← grown]
          exact ih later
      · exact .inl rfl

variable {place q : List String}

theorem putFile_frame {content : Content} (apart : q ≠ place) : (putFile fs place content).2.get? q = fs.get? q := by
  unfold putFile
  split
  · next fs' done => rw [FileTree.get?_of_put? done, if_neg apart]
  · rfl

variable {node : Option (FileNode Content)}

theorem openAt_frame {mode : OpenMode} (apart : q ≠ place) : (openAt fs place node mode).2.get? q = fs.get? q := by
  unfold openAt
  split
  all_goals first | rfl | exact putFile_frame apart

theorem renameAt_cases (fs : Fs) (source target : List String) :
    (renameAt fs source target).2 = fs ∨
      ∃ fs', fs.move? source target = some fs' ∧ renameAt fs source target = (.ok (), fs') := by
  unfold renameAt
  cases moved : fs.move? source target with
  | none => left; dsimp only; split <;> (try split_ifs) <;> rfl
  | some fs' =>
    dsimp only
    split
    · exact .inl rfl
    · exact .inr ⟨fs', rfl, rfl⟩
    · split_ifs
      · exact .inl rfl
      · exact .inr ⟨fs', rfl, rfl⟩
    · exact .inl rfl
    · exact .inl rfl
    · split_ifs
      · exact .inl rfl
      · exact .inr ⟨fs', rfl, rfl⟩
      · exact .inl rfl

theorem renameAt_frame {source target : List String} (first : ¬ source <+: q) (second : ¬ target <+: q) :
    (renameAt fs source target).2.get? q = fs.get? q := by
  rcases renameAt_cases fs source target with same | ⟨fs', moved, result⟩
  · rw [same]
  · obtain ⟨p, k, movable, rfl, rfl⟩ := movable_of_move? moved
    rw [result, FileTree.get?_move_outside movable second, if_neg first]

theorem remove_frame (inside : place ≠ []) (apart : ¬ place <+: q) : (fs.remove place).get? q = fs.get? q := by
  rw [FileTree.get?_remove inside, if_neg apart]

theorem removeDirAllAt_frame (last : Option String) (inside : place ≠ [])
    (apart : ¬ place <+: q) : (removeDirAllAt fs place last).2.get? q = fs.get? q := by
  unfold removeDirAllAt
  split_ifs
  · rw [FileTree.get?_clear, if_neg fun under => apart under.1]
  · rw [FileTree.get?_clear, if_neg fun under => apart under.1]
  · exact remove_frame inside apart

theorem ordinary_manifestFile : Ordinary manifestFile := by decide

theorem lookup_place {p : FilePath} (plain : p.Plain)
    (found : lookup fs p = .ok (place, node)) : place = p.parts ∧ node = fs.get? p.parts := by
  rcases lookup_plain fs plain with there | ⟨e, failed, -⟩
  · rw [there] at found
    cases found
    exact ⟨rfl, rfl⟩
  · rw [failed] at found
    cases found

theorem resolve_plain {p : FilePath} (plain : p.Plain) (found : resolve fs p = .ok place) : place = p.parts := by
  rw [plain.resolve] at found
  simpa using walk_ok plain.ordinary found

theorem act_frame {o : VfsOp} (plain : o.Plain) (apart : ¬ o.Touches q) : (act o fs).2.get? q = fs.get? q := by
  cases o with
  | createDirAll dir =>
    have full : dir.isEmpty = false := by simp [FilePath.isEmpty, plain.named]
    simp only [act, full, Bool.false_eq_true]
    exact (makeDirs_get? plain.ordinary q).resolve_right fun reached => apart reached.2.2
  | «open» path mode =>
    simp only [act]
    split
    · next place node found =>
      obtain ⟨rfl, -⟩ := lookup_place plain found
      exact openAt_frame apart
    · rfl
  | writeAll path bytes =>
    simp only [act]
    split
    · next place _ found =>
      obtain ⟨rfl, -⟩ := lookup_place plain found
      exact putFile_frame apart
    all_goals rfl
  | removeFile path =>
    simp only [act]
    split
    · next place _ found =>
      obtain ⟨rfl, -⟩ := lookup_place plain found
      exact remove_frame plain.named apart
    all_goals rfl
  | removeDirAll path =>
    simp only [act]
    split
    · next place found =>
      obtain ⟨rfl, -⟩ := lookup_place plain found
      exact removeDirAllAt_frame _ plain.named apart
    all_goals rfl
  | rename source target =>
    simp only [act]
    split_ifs
    · rfl
    · split
      · next there found =>
        obtain rfl := resolve_plain plain.1 found
        split
        · next other aimed =>
          obtain rfl := resolve_plain plain.2 aimed
          exact renameAt_frame (fun under => apart (.inl under)) fun under => apart (.inr under)
        · rfl
      · rfl
  | publish root m =>
    simp only [act]
    split
    · next place found =>
      obtain ⟨rfl, -⟩ := lookup_place plain found
      exact putFile_frame apart
    all_goals rfl
  | _ => rw [act_still rfl]

end

section

variable {fs : Fs} {p : FilePath}

section

variable (plain : p.Plain)
include plain

theorem act_readDir (present : fs.get? p.parts = some .dir) :
    (act (.readDir p) fs).1 = .ok ((fs.entries p.parts).map (dirEntry p)) := by
  simp only [act, lookup_of_some plain present]

theorem entries_of_readDir {entries : List DirEntry} (listed : (act (.readDir p) fs).1 = .ok entries) :
    fs.get? p.parts = some .dir ∧ entries = (fs.entries p.parts).map (dirEntry p) := by
  have present : fs.get? p.parts = some .dir := by
    rcases lookup_plain fs plain with there | ⟨e, failed, missing⟩
    · simp only [act, there] at listed
      cases found : fs.get? p.parts with
      | none => simp [found] at listed
      | some node =>
        cases node with
        | dir => rfl
        | file content => simp [found] at listed
    · simp [act, failed] at listed
  rw [act_readDir plain present] at listed
  exact ⟨present, (Except.ok.inj listed).symm⟩

theorem act_loadCurrent_some {m : Manifest}
    (found : fs.get? (p.parts ++ [manifestFile]) = some (.file (.manifest m))) :
    (act (.loadCurrent p) fs).1 = .ok (some m) := by
  simp only [act, lookup_of_some (plain.join ordinary_manifestFile) found]

theorem get?_of_loadCurrent {m : Manifest} (loaded : (act (.loadCurrent p) fs).1 = .ok (some m)) :
    fs.get? (p.parts ++ [manifestFile]) = some (.file (.manifest m)) := by
  rcases lookup_plain fs (plain.join ordinary_manifestFile) with there | ⟨e, failed, missing⟩
  · simp only [act, there, FilePath.join_parts] at loaded
    cases found : fs.get? (p.parts ++ [manifestFile]) with
    | none => simp [found] at loaded
    | some node =>
      rw [found] at loaded
      rcases node with _ | ⟨_ | _⟩
      · cases loaded
      · cases loaded
      · cases loaded
        rfl
  · simp only [act, failed] at loaded
    by_cases missing : e.kind = .notFound
    · rw [if_pos missing] at loaded
      cases loaded
    · rw [if_neg missing] at loaded
      cases loaded

end

theorem mem_dirEntries {entry : DirEntry} : entry ∈ (fs.entries p.parts).map (dirEntry p) ↔
      ∃ k node, fs.get? (p.parts ++ [k]) = some node ∧ entry = dirEntry p (k, node) := by
  rw [mem_map]
  constructor
  · rintro ⟨⟨k, node⟩, member, rfl⟩
    exact ⟨k, node, mem_entries.mp member, rfl⟩
  · rintro ⟨k, node, found, rfl⟩
    exact ⟨(k, node), mem_entries.mpr found, rfl⟩

end

section

variable {fs : Fs} {here parts : List String}

theorem makeDirs_done (ordinary : ∀ component ∈ parts, Ordinary component) (start : fs.get? here = some .dir)
    (done : (makeDirs fs here parts).1 = .ok ()) : (makeDirs fs here parts).2.get? (here ++ parts) = some .dir := by
  induction parts generalizing fs here with
  | nil => simpa [makeDirs] using start
  | cons component rest ih =>
    have later := fun c member => ordinary c (mem_cons_of_mem component member)
    rw [makeDirs, enter_ordinary (ordinary component mem_cons_self)] at done ⊢
    have whole : here ++ component :: rest = here ++ [component] ++ rest := by simp
    rw [whole]
    split at done
    · next present => exact ih later present done
    · cases done
    · next missing =>
      split at done
      · next fs' made =>
        exact ih later (by rw [FileTree.get?_of_put? made, if_pos rfl]) done
      · cases done

theorem act_createDirAll_done {dir : FilePath} (plain : dir.Plain) (done : (act (.createDirAll dir) fs).1 = .ok ()) :
    (act (.createDirAll dir) fs).2.get? dir.parts = some .dir := by
  have full : dir.isEmpty = false := by simp [FilePath.isEmpty, plain.named]
  simp only [act, full, Bool.false_eq_true] at done ⊢
  simpa using makeDirs_done plain.ordinary FileTree.get?_nil done

theorem makeDirs_present (ordinary : ∀ component ∈ parts, Ordinary component)
    (present : fs.get? (here ++ parts) = some .dir) : makeDirs fs here parts = (.ok (), fs) := by
  induction parts generalizing here with
  | nil => rfl
  | cons component rest ih =>
    have whole : here ++ component :: rest = here ++ [component] ++ rest := by simp
    rw [whole] at present
    have there : fs.get? (here ++ [component]) = some .dir := by
      by_cases last : rest = []
      · simpa [last] using present
      · exact dir_of_below last (by rw [present]; exact Option.some_ne_none _)
    rw [makeDirs, enter_ordinary (ordinary component mem_cons_self), there]
    exact ih (fun c member => ordinary c (mem_cons_of_mem _ member)) present

theorem act_createDirAll_present {dir : FilePath} (ordinary : ∀ component ∈ dir.parts, Ordinary component)
    (present : fs.get? dir.parts = some .dir) : act (.createDirAll dir) fs = (.ok (), fs) := by
  simp only [act]
  by_cases empty : dir.isEmpty = true
  · rw [if_pos empty]
  · rw [if_neg empty, makeDirs_present ordinary (by simpa using present)]

end

end RedDB.Operational
