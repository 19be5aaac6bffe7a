import Mathlib

namespace RedDB.Library

open List List.Nodup

inductive FileNode (γ : Type) : Type
  | dir
  | file (content : γ)
deriving DecidableEq

structure FileTree (κ γ : Type) where
  nodes : List (List κ × FileNode γ)
  unique : (nodes.map Prod.fst).Nodup
  rooted : ∀ node, ([], node) ∉ nodes
  closed : ∀ p k node, (p ++ [k], node) ∈ nodes → p = [] ∨ (p, FileNode.dir) ∈ nodes
deriving DecidableEq

namespace FileTree

variable {κ γ : Type} [DecidableEq κ] (t : FileTree κ γ)

def empty : FileTree κ γ where
  nodes := []
  unique := nodup_nil
  rooted := nofun
  closed := nofun

def get? (p : List κ) : Option (FileNode γ) :=
  if p = [] then some .dir else (t.nodes.find? fun entry => entry.1 = p).map Prod.snd

variable {t}

@[simp] theorem get?_nil : t.get? [] = some .dir := if_pos rfl

theorem mem_nodes {p : List κ} {node : FileNode γ} (inside : p ≠ []) :
    (p, node) ∈ t.nodes ↔ t.get? p = some node := by
  rw [get?, if_neg inside, Option.map_eq_some_iff]
  constructor
  · intro member
    cases found : t.nodes.find? fun entry => entry.1 = p with
    | none =>
      have differ := find?_eq_none.mp found (p, node) member
      simp at differ
    | some entry =>
      have same : entry.1 = p := by simpa using find?_some found
      refine ⟨entry, rfl, ?_⟩
      have alike := inj_on_of_nodup_map t.unique (mem_of_find?_eq_some found) member same
      rw [alike]
  · rintro ⟨entry, found, rfl⟩
    have same : entry.1 = p := by simpa using find?_some found
    rw [← same]
    exact mem_of_find?_eq_some found

omit [DecidableEq κ] in
theorem mem_nodes_ne_nil {p : List κ} {node : FileNode γ} (member : (p, node) ∈ t.nodes) : p ≠ [] :=
  fun root => t.rooted node (root ▸ member)

theorem get?_of_mem {p : List κ} {node : FileNode γ} (member : (p, node) ∈ t.nodes) : t.get? p = some node :=
  (mem_nodes (mem_nodes_ne_nil member)).mp member

theorem dir_of_child {p : List κ} {k : κ} (present : t.get? (p ++ [k]) ≠ none) : t.get? p = some .dir := by
  obtain ⟨node, found⟩ := Option.ne_none_iff_exists'.mp present
  rcases t.closed p k node ((mem_nodes (by simp)).mpr found) with rfl | member
  · exact get?_nil
  · exact get?_of_mem member

theorem dir_of_below {p q : List κ} (below : q ≠ []) (present : t.get? (p ++ q) ≠ none) : t.get? p = some .dir := by
  induction q using List.reverseRecOn with
  | nil => exact absurd rfl below
  | append_singleton q k ih =>
    rw [← append_assoc] at present
    have parent := dir_of_child present
    by_cases last : q = []
    · rwa [last, append_nil] at parent
    · exact ih last (by simp [parent])

theorem none_below {p q : List κ} (missing : t.get? p = none) : t.get? (p ++ q) = none := by
  by_cases root : q = []
  · rwa [root, append_nil]
  · by_contra present
    simp [dir_of_below root present] at missing

section

variable (t)

def insert (p : List κ) (k : κ) (node : FileNode γ) (parent : t.get? p = some .dir)
    (leaf : t.get? (p ++ [k]) ≠ some .dir) : FileTree κ γ where
  nodes := (p ++ [k], node) :: t.nodes.filter fun entry => entry.1 ≠ p ++ [k]
  unique := by
    rw [map_cons, nodup_cons]
    refine ⟨?_, (filter_sublist.map _).nodup t.unique⟩
    simp
  rooted := by
    intro other member
    rcases mem_cons.mp member with same | member
    · simp at same
    · exact t.rooted other (mem_of_mem_filter member)
  closed := by
    intro q j other member
    have keeps : ∀ r, (r, FileNode.dir) ∈ t.nodes →
        (r, FileNode.dir) ∈ (p ++ [k], node) :: t.nodes.filter fun entry => entry.1 ≠ p ++ [k] := by
      intro r held
      refine mem_cons_of_mem _ (mem_filter.mpr ⟨held, ?_⟩)
      have apart : r ≠ p ++ [k] := fun same => leaf (same ▸ get?_of_mem held)
      simpa using apart
    have above : q = [] ∨ (q, FileNode.dir) ∈ t.nodes := by
      rcases mem_cons.mp member with same | member
      · obtain ⟨rfl, -⟩ := append_inj' (Prod.mk.inj same).1 rfl
        by_cases root : q = []
        · exact .inl root
        · exact .inr ((mem_nodes root).mpr parent)
      · exact t.closed q j other (mem_of_mem_filter member)
    exact above.imp_right (keeps q)

def remove (p : List κ) : FileTree κ γ where
  nodes := t.nodes.filter fun entry => ¬ p <+: entry.1
  unique := (filter_sublist.map _).nodup t.unique
  rooted := fun node member => t.rooted node (mem_of_mem_filter member)
  closed := by
    intro q k node member
    obtain ⟨held, kept⟩ := mem_filter.mp member
    refine (t.closed q k node held).imp_right fun parent => mem_filter.mpr ⟨parent, ?_⟩
    have outside : ¬ p <+: q ++ [k] := by simpa using kept
    simpa using fun under : p <+: q => outside (under.trans (prefix_append q [k]))

def clear (p : List κ) : FileTree κ γ where
  nodes := t.nodes.filter fun entry => ¬ (p <+: entry.1 ∧ p ≠ entry.1)
  unique := (filter_sublist.map _).nodup t.unique
  rooted := fun node member => t.rooted node (mem_of_mem_filter member)
  closed := by
    intro q k node member
    obtain ⟨held, kept⟩ := mem_filter.mp member
    refine (t.closed q k node held).imp_right fun parent => mem_filter.mpr ⟨parent, ?_⟩
    have outside : p <+: q ++ [k] → p = q ++ [k] := by simpa [imp_iff_not_or] using kept
    have unlike : ¬ p <+: q := by
      intro under
      have whole := outside (under.trans (prefix_append q [k]))
      have short := under.length_le
      rw [whole, length_append, length_singleton] at short
      omega
    simp [unlike]

/-- Where a path lies once `a` has become `b`. -/
def rebase (a b q : List κ) : List κ := if a <+: q then b ++ q.drop a.length else q

/-- What `a` can be moved to: a place in a directory that is not inside `a` and has nothing under it. -/
structure Movable (a p : List κ) (k : κ) : Prop where
  source : a ≠ []
  parent : t.get? p = some .dir
  apart : ¬ a <+: p ++ [k]
  free : ∀ entry ∈ t.nodes, p ++ [k] <+: entry.1 → entry.1 = p ++ [k]

instance (p : List κ) : Decidable (t.get? p = some .dir) :=
  match t.get? p with
  | some .dir => .isTrue rfl
  | some (.file _) => .isFalse nofun
  | none => .isFalse nofun

instance (a p : List κ) (k : κ) : Decidable (t.Movable a p k) :=
  decidable_of_iff (a ≠ [] ∧ t.get? p = some .dir ∧ ¬ a <+: p ++ [k] ∧
      ∀ entry ∈ t.nodes, p ++ [k] <+: entry.1 → entry.1 = p ++ [k])
    ⟨fun ⟨source, parent, apart, free⟩ => ⟨source, parent, apart, free⟩,
      fun ⟨source, parent, apart, free⟩ => ⟨source, parent, apart, free⟩⟩

end

@[simp] theorem rebase_under (a b q : List κ) : rebase a b (a ++ q) = b ++ q := by
  simp [rebase]

theorem rebase_outside {a q : List κ} (b : List κ) (outside : ¬ a <+: q) : rebase a b q = q := if_neg outside

theorem rebase_injective {a b q r : List κ} (first : ¬ b <+: q) (second : ¬ b <+: r)
    (same : rebase a b q = rebase a b r) : q = r := by
  by_cases under : a <+: q <;> by_cases other : a <+: r
  · obtain ⟨s, rfl⟩ := under
    obtain ⟨s', rfl⟩ := other
    simpa using same
  · obtain ⟨s, rfl⟩ := under
    rw [rebase_under, rebase_outside b other] at same
    exact absurd ⟨s, same⟩ second
  · obtain ⟨s, rfl⟩ := other
    rw [rebase_under, rebase_outside b under] at same
    exact absurd ⟨s, same.symm⟩ first
  · rwa [rebase_outside b under, rebase_outside b other] at same

section

variable {a p : List κ} {k : κ}

theorem Movable.not_under (movable : t.Movable a p k) {q : List κ} {node : FileNode γ} (held : (q, node) ∈ t.nodes)
    (apart : q ≠ p ++ [k]) : ¬ p ++ [k] <+: q := fun under => apart (movable.free _ held under)

/-- The whole tree at `a` goes to the place `p ++ [k]`. -/
def move (t : FileTree κ γ) (a p : List κ) (k : κ) (movable : t.Movable a p k) : FileTree κ γ where
  nodes := (t.nodes.filter fun entry => entry.1 ≠ p ++ [k]).map
    fun entry => (rebase a (p ++ [k]) entry.1, entry.2)
  unique := by
    rw [map_map]
    refine map_on ?_ ((of_map _ t.unique).filter _)
    intro x held y other same
    obtain ⟨held, away⟩ := mem_filter.mp held
    obtain ⟨other, far⟩ := mem_filter.mp other
    have keys : x.1 = y.1 := rebase_injective (movable.not_under held (of_decide_eq_true away))
      (movable.not_under other (of_decide_eq_true far)) same
    exact inj_on_of_nodup_map t.unique held other keys
  rooted := by
    intro node member
    obtain ⟨⟨q, other⟩, held, same⟩ := mem_map.mp member
    have root : rebase a (p ++ [k]) q = [] := (Prod.mk.inj same).1
    by_cases under : a <+: q
    · obtain ⟨s, rfl⟩ := under
      simp at root
    · rw [rebase_outside _ under] at root
      exact t.rooted other (root ▸ mem_of_mem_filter held)
  closed := by
    have keeps : ∀ r, (r, FileNode.dir) ∈ t.nodes → r ≠ p ++ [k] → (rebase a (p ++ [k]) r, FileNode.dir) ∈
        (t.nodes.filter fun entry => entry.1 ≠ p ++ [k]).map
          fun entry => (rebase a (p ++ [k]) entry.1, entry.2) := by
      intro r held away
      exact mem_map.mpr ⟨(r, .dir), mem_filter.mpr ⟨held, by simpa using away⟩, rfl⟩
    intro q j node member
    obtain ⟨⟨r, other⟩, held, same⟩ := mem_map.mp member
    obtain ⟨held, away⟩ := mem_filter.mp held
    have place : rebase a (p ++ [k]) r = q ++ [j] := (Prod.mk.inj same).1
    by_cases under : a <+: r
    · obtain ⟨s, rfl⟩ := under
      rw [rebase_under] at place
      rcases eq_nil_or_concat s with rfl | ⟨s, i, rfl⟩
      · rw [append_nil] at place
        obtain ⟨rfl, -⟩ := append_inj' place rfl
        by_cases root : p = []
        · exact .inl root
        · have outside : ¬ a <+: p := fun within => movable.apart (within.trans (prefix_append p [k]))
          have stays := keeps p ((mem_nodes root).mpr movable.parent) (by simp)
          rw [rebase_outside _ outside] at stays
          exact .inr stays
      · rw [concat_eq_append, ← append_assoc] at place held
        obtain ⟨rfl, -⟩ := append_inj' place rfl
        rcases t.closed (a ++ s) i other held with root | parent
        · exact absurd (append_eq_nil_iff.mp root).1 movable.source
        · have moved := keeps (a ++ s) parent fun here => movable.apart (here ▸ prefix_append a s)
          rw [rebase_under] at moved
          exact .inr moved
    · rw [rebase_outside _ under] at place
      subst place
      refine (t.closed q j other held).imp_right fun parent => ?_
      have outside : ¬ a <+: q := fun within => under (within.trans (prefix_append q [j]))
      have stays := keeps q parent fun here => movable.not_under held (of_decide_eq_true away)
        (here ▸ prefix_append q [j])
      rwa [rebase_outside _ outside] at stays

theorem get?_move_outside (movable : t.Movable a p k) {q : List κ} (outside : ¬ p ++ [k] <+: q) :
    (t.move a p k movable).get? q = if a <+: q then none else t.get? q := by
  by_cases root : q = []
  · subst root
    simp [movable.source]
  refine Option.ext fun node => ?_
  rw [← mem_nodes root]
  constructor
  · intro member
    obtain ⟨⟨r, other⟩, held, same⟩ := mem_map.mp member
    obtain ⟨place, rfl⟩ := Prod.mk.inj same
    by_cases under : a <+: r
    · obtain ⟨s, rfl⟩ := under
      rw [rebase_under] at place
      exact absurd ⟨s, place⟩ outside
    · rw [rebase_outside _ under] at place
      subst place
      rw [if_neg under]
      exact get?_of_mem (mem_of_mem_filter held)
  · intro found
    split_ifs at found with under
    refine mem_map.mpr ⟨(q, node), mem_filter.mpr ⟨(mem_nodes root).mpr found, decide_eq_true ?_⟩, ?_⟩
    · exact fun here => outside (here ▸ prefix_refl _)
    · simp [rebase_outside _ under]

end

theorem get?_insert {p : List κ} {k : κ} {node : FileNode γ} (parent : t.get? p = some .dir)
    (leaf : t.get? (p ++ [k]) ≠ some .dir) (q : List κ) :
    (t.insert p k node parent leaf).get? q = if q = p ++ [k] then some node else t.get? q := by
  by_cases root : q = []
  · simp [root]
  refine Option.ext fun other => ?_
  rw [← mem_nodes root]
  by_cases here : q = p ++ [k]
  · simp [insert, here, eq_comm]
  · rw [if_neg here, ← mem_nodes root]
    simp [insert, here]

theorem get?_remove {p : List κ} (inside : p ≠ []) (q : List κ) :
    (t.remove p).get? q = if p <+: q then none else t.get? q := by
  by_cases root : q = []
  · simp [root, inside]
  refine Option.ext fun other => ?_
  rw [← mem_nodes root]
  by_cases under : p <+: q
  · simp [remove, under]
  · rw [if_neg under, ← mem_nodes root]
    simp [remove, under]

theorem get?_clear (p q : List κ) : (t.clear p).get? q = if p <+: q ∧ p ≠ q then none else t.get? q := by
  by_cases root : q = []
  · subst root
    rw [if_neg fun ⟨under, unlike⟩ => unlike (prefix_nil.mp under)]
    simp
  refine Option.ext fun other => ?_
  rw [← mem_nodes root]
  by_cases under : p <+: q ∧ p ≠ q
  · simp [clear, under]
  · rw [if_neg under, ← mem_nodes root]
    simp only [clear, mem_filter, under, not_false_eq_true, decide_true, and_true]

/-- `insert`, where it is possible. -/
def put? (t : FileTree κ γ) (q : List κ) (node : FileNode γ) : Option (FileTree κ γ) :=
  match q.getLast? with
  | none => none
  | some k =>
    if possible : t.get? q.dropLast = some .dir ∧ t.get? (q.dropLast ++ [k]) ≠ some .dir then
      some (t.insert q.dropLast k node possible.1 possible.2)
    else none

/-- `move`, where it is possible. -/
def move? (t : FileTree κ γ) (a b : List κ) : Option (FileTree κ γ) :=
  match b.getLast? with
  | none => none
  | some k => if movable : t.Movable a b.dropLast k then some (t.move a b.dropLast k movable) else none

theorem get?_of_put? {t' : FileTree κ γ} {q : List κ} {node : FileNode γ} (done : t.put? q node = some t')
    (r : List κ) : t'.get? r = if r = q then some node else t.get? r := by
  unfold put? at done
  split at done
  · cases done
  · next k last =>
    have whole : q.dropLast ++ [k] = q := dropLast_append_getLast? k last
    split_ifs at done with possible
    cases done
    rw [get?_insert, whole]

theorem movable_of_move? {t' : FileTree κ γ} {a b : List κ} (done : t.move? a b = some t') :
    ∃ p k, ∃ movable : t.Movable a p k, b = p ++ [k] ∧ t' = t.move a p k movable := by
  unfold move? at done
  split at done
  · cases done
  · next k last =>
    split_ifs at done with movable
    cases done
    exact ⟨b.dropLast, k, movable, (dropLast_append_getLast? k last).symm, rfl⟩

def entries (t : FileTree κ γ) (p : List κ) : List (κ × FileNode γ) :=
  t.nodes.filterMap fun entry =>
    match entry.1.drop p.length with
    | [k] => if p <+: entry.1 then some (k, entry.2) else none
    | _ => none

theorem mem_entries {p : List κ} {k : κ} {node : FileNode γ} :
    (k, node) ∈ t.entries p ↔ t.get? (p ++ [k]) = some node := by
  rw [← mem_nodes (by simp), entries, mem_filterMap]
  constructor
  · rintro ⟨⟨q, other⟩, held, listed⟩
    split at listed
    next j child =>
      split_ifs at listed with under
      obtain ⟨s, rfl⟩ := under
      simp only [drop_left] at child
      simp only [Option.some.injEq, Prod.mk.injEq] at listed
      obtain ⟨rfl, rfl⟩ := listed
      exact child ▸ held
    next => cases listed
  · intro held
    exact ⟨_, held, by simp⟩

end FileTree

end RedDB.Library
