import Mathlib

namespace RedDB.Query

open List

inductive BindingValue
  | node (id : String)
  | edge (id : String)
  | string (s : String)
  | integer (i : BitVec 64)
  | float (bits : BitVec 64)
  | boolean (b : Bool)
  | uri (u : String)
  | null
  deriving DecidableEq

/-- `PartialEq`; `floatEq` is nearness by less than the epsilon, or both not a number. -/
def BindingValue.same (floatEq : BitVec 64 → BitVec 64 → Bool) : BindingValue → BindingValue → Bool
  | .float a, .float b => floatEq a b
  | a, b => a == b

def BindingValue.isFloat : BindingValue → Bool
  | .float _ => true
  | _ => false

structure Scope where
  entries : List (String × BindingValue)
  unique : (entries.map Prod.fst).Nodup

def Scope.keys (scope : Scope) : List String := scope.entries.map Prod.fst

inductive Binding
  | root (own : Scope)
  | child (own : Scope) (parent : Binding)

namespace Binding

def get : Binding → String → Option BindingValue
  | .root own, var => own.entries.lookup var
  | .child own parent, var => own.entries.lookup var <|> parent.get var

def allVars : Binding → List String
  | .root own => own.keys
  | .child own parent => own.keys ++ parent.allVars.filter (· ∉ own.keys)

variable (binding : Binding)

theorem mem_allVars (var : String) : var ∈ binding.allVars ↔ (binding.get var).isSome := by
  have own (scope : Scope) : var ∈ scope.keys ↔ (scope.entries.lookup var).isSome := by
    simp [Scope.keys, lookup_isSome_iff]
  induction binding with
  | root scope => exact own scope
  | child scope parent ih =>
    simp only [allVars, get, mem_append, mem_filter, decide_eq_true_iff, ih, own]
    cases scope.entries.lookup var <;> simp

theorem nodup_allVars : binding.allVars.Nodup := by
  induction binding with
  | root scope => exact scope.unique
  | child scope parent ih =>
    refine nodup_append'.mpr ⟨scope.unique, ih.filter _, fun var own other => ?_⟩
    simp_all

def Same (floatEq : BitVec 64 → BitVec 64 → Bool) (a b : Binding) : Prop :=
  ∀ var, Option.Rel (fun x y => BindingValue.same floatEq x y = true) (a.get var) (b.get var)

def NoFloats : Prop := ∀ var value, binding.get var = some value → ¬ value.isFloat

theorem Same.get_eq {floatEq : BitVec 64 → BitVec 64 → Bool} {a b : Binding} (same : Same floatEq a b)
    (plain : a.NoFloats) (var : String) : a.get var = b.get var := by
  have bound := same var
  cases held : a.get var <;> cases other : b.get var <;> rw [held, other] at bound <;> cases bound
  next value _ _ =>
    have whole := plain var value held
    cases value <;> simp_all [BindingValue.same, BindingValue.isFloat]

end Binding

inductive HashWrite
  | str (s : String)
  | word (w : BitVec 64)
  | bool (b : Bool)

def hashValue : BindingValue → List HashWrite
  | .node id => [.str "node", .str id]
  | .edge id => [.str "edge", .str id]
  | .string s => [.str "string", .str s]
  | .integer i => [.str "int", .word i]
  | .float bits => [.str "float", .word bits]
  | .boolean b => [.str "bool", .bool b]
  | .uri u => [.str "uri", .str u]
  | .null => [.str "null"]

section

variable (finish : List HashWrite → BitVec 64)

def bindingHash (binding : Binding) : BitVec 64 :=
  finish ((binding.allVars.mergeSort (· ≤ ·)).flatMap fun var =>
    .str var :: ((binding.get var).map hashValue).getD [.str "unbound"])

def keepFirst (admits : BitVec 64 → Bool) : List (BitVec 64) → List Binding → List Binding
  | _, [] => []
  | seen, binding :: rest =>
    let hash := bindingHash finish binding
    if admits hash ∧ hash ∉ seen then binding :: keepFirst admits (hash :: seen) rest else keepFirst admits seen rest

section

variable (left right : List Binding)

def setUnion (deduplicate : Bool) : List Binding × Nat :=
  if ¬ deduplicate then (left ++ right, 0)
  else
    let result := keepFirst finish (fun _ => true) [] (left ++ right)
    (result, (left ++ right).length - result.length)

def setIntersect : List Binding := keepFirst finish (· ∈ right.map (bindingHash finish)) [] left

def setExcept : List Binding := keepFirst finish (· ∉ right.map (bindingHash finish)) [] left

end

variable {finish} {admits : BitVec 64 → Bool} {seen : List (BitVec 64)} {list : List Binding} {binding : Binding}

theorem mem_keepFirst (kept : binding ∈ keepFirst finish admits seen list) :
    binding ∈ list ∧ admits (bindingHash finish binding) ∧ bindingHash finish binding ∉ seen := by
  induction list generalizing seen with
  | nil => cases kept
  | cons first rest ih =>
    rw [keepFirst] at kept
    split_ifs at kept with new
    · rcases mem_cons.mp kept with rfl | later
      · exact ⟨mem_cons_self, new⟩
      · obtain ⟨member, admitted, fresh⟩ := ih later
        exact ⟨mem_cons_of_mem _ member, admitted, fun old => fresh (mem_cons_of_mem _ old)⟩
    · obtain ⟨member, admitted, fresh⟩ := ih kept
      exact ⟨mem_cons_of_mem _ member, admitted, fresh⟩

theorem pairwise_keepFirst :
    (keepFirst finish admits seen list).Pairwise (bindingHash finish · ≠ bindingHash finish ·) := by
  induction list generalizing seen with
  | nil => exact .nil
  | cons first rest ih =>
    rw [keepFirst]
    split_ifs
    · refine pairwise_cons.mpr ⟨fun other kept same => ?_, ih⟩
      exact (mem_keepFirst kept).2.2 (same ▸ mem_cons_self)
    · exact ih

theorem exists_keepFirst (member : binding ∈ list) (admitted : admits (bindingHash finish binding))
    (fresh : bindingHash finish binding ∉ seen) :
    ∃ kept ∈ keepFirst finish admits seen list, bindingHash finish kept = bindingHash finish binding := by
  induction list generalizing seen with
  | nil => cases member
  | cons first rest ih =>
    rw [keepFirst]
    by_cases here : bindingHash finish first = bindingHash finish binding
    · rw [if_pos (by rw [here]; exact ⟨admitted, fresh⟩)]
      exact ⟨first, mem_cons_self, here⟩
    · have later : binding ∈ rest := (mem_cons.mp member).resolve_left fun same => here (same ▸ rfl)
      split_ifs
      · obtain ⟨kept, held, same⟩ := ih later (not_mem_cons_of_ne_of_not_mem (Ne.symm here) fresh)
        exact ⟨kept, mem_cons_of_mem _ held, same⟩
      · exact ih later fresh

theorem bindingHash_of_same {floatEq : BitVec 64 → BitVec 64 → Bool} {a b : Binding} (same : a.Same floatEq b)
    (plain : a.NoFloats) : bindingHash finish a = bindingHash finish b := by
  have bound := same.get_eq plain
  have vars : a.allVars.mergeSort (· ≤ ·) = b.allVars.mergeSort (· ≤ ·) := by
    refine List.Perm.eq_of_sortedLE sortedLE_mergeSort sortedLE_mergeSort ?_
    refine (mergeSort_perm _ _).trans (.trans ?_ (mergeSort_perm _ _).symm)
    refine (perm_ext_iff_of_nodup a.nodup_allVars b.nodup_allVars).mpr fun var => ?_
    rw [Binding.mem_allVars, Binding.mem_allVars, bound]
  simp only [bindingHash, vars, bound]

/-- The hash of two of these bindings is the same exactly if they are. -/
def Separates (finish : List HashWrite → BitVec 64) (floatEq : BitVec 64 → BitVec 64 → Bool)
    (among : Binding → Prop) : Prop :=
  ∀ a b, among a → among b → (bindingHash finish a = bindingHash finish b ↔ a.Same floatEq b)

end

structure Distinct (floatEq : BitVec 64 → BitVec 64 → Bool) (list : List Binding) (wanted : Binding → Prop)
    (result : List Binding) : Prop where
  sound : ∀ a ∈ result, a ∈ list ∧ wanted a
  once : result.Pairwise (¬ Binding.Same floatEq · ·)
  complete : ∀ a ∈ list, wanted a → ∃ b ∈ result, b.Same floatEq a

variable {floatEq : BitVec 64 → BitVec 64 → Bool}

section

variable {finish : List HashWrite → BitVec 64} {among : Binding → Prop}

theorem keepFirst_distinct {admits : BitVec 64 → Bool} {list : List Binding} {wanted : Binding → Prop}
    (separates : Separates finish floatEq among) (drawn : ∀ a ∈ list, among a)
    (decides : ∀ a ∈ list, admits (bindingHash finish a) ↔ wanted a) :
    Distinct floatEq list wanted (keepFirst finish admits [] list) where
  sound a kept := by
    obtain ⟨member, admitted, -⟩ := mem_keepFirst kept
    exact ⟨member, (decides a member).mp admitted⟩
  once := pairwise_keepFirst.imp_of_mem fun kept other differ same =>
    differ ((separates _ _ (drawn _ (mem_keepFirst kept).1) (drawn _ (mem_keepFirst other).1)).mpr same)
  complete a member chosen := by
    obtain ⟨b, kept, same⟩ := exists_keepFirst member ((decides a member).mpr chosen) not_mem_nil
    exact ⟨b, kept, (separates b a (drawn b (mem_keepFirst kept).1) (drawn a member)).mp same⟩

theorem Separates.mem_hashes {right : List Binding} (separates : Separates finish floatEq among) {a : Binding}
    (member : among a) (drawn : ∀ b ∈ right, among b) :
    bindingHash finish a ∈ right.map (bindingHash finish) ↔ ∃ b ∈ right, a.Same floatEq b := by
  rw [mem_map]
  refine exists_congr fun b => and_congr_right fun other => ?_
  rw [eq_comm]
  exact separates a b member (drawn b other)

/-- INTERSECT of two single bindings compares their hashes. -/
theorem setIntersect_single (a b : Binding) : setIntersect finish [a] [b] =
    if bindingHash finish a = bindingHash finish b then [a] else [] := by
  simp [setIntersect, keepFirst]

end

def Binding.one (var : String) (value : BindingValue) : Binding := .root ⟨[(var, value)], by simp⟩

theorem Binding.get_one (var other : String) (value : BindingValue) :
    (Binding.one var value).get other = if other = var then some value else none := by
  by_cases own : other = var
  · simp [Binding.one, Binding.get, own]
  · simp [Binding.one, Binding.get, lookup_cons, beq_eq_false_iff_ne.mpr own, own]

theorem Binding.same_one {value value' : BindingValue} (var : String)
    (equal : BindingValue.same floatEq value value' = true) :
    (Binding.one var value).Same floatEq (Binding.one var value') := by
  intro other
  rw [get_one, get_one]
  split_ifs
  · exact .some equal
  · exact .none

end RedDB.Query
