import RedDB.Library.Preorder
import RedDB.Query.Join
import RedDB.Types.CanonicalKey

namespace RedDB.Query

open List Library RedDB.Types

/-- The first `width` bytes read in big-endian, a zero for each byte the text lacks. -/
def abbrevKey : Nat → List UInt8 → Nat
  | 0, _ => 0
  | width + 1, bytes => (bytes.headD 0).toNat * 256 ^ width + abbrevKey width bytes.tail

def compareTexts (left right : List UInt8) : Ordering :=
  (compare (abbrevKey 8 left) (abbrevKey 8 right)).then (compareBytes left right)

def charBytes (s : List Char) : List UInt8 := asBytes (.ofList s)

def compareTimes : Value → Value → Option Ordering
  | .timestamp l, .timestamp r => some (cmpSigned l r)
  | .timestampMs l, .timestampMs r => some (cmpSigned l r)
  | .date l, .date r => some (cmpSigned l r)
  | .time l, .time r => some (cmpUnsigned l r)
  | .duration l, .duration r => some (cmpSigned l r)
  | _, _ => none

section

variable (host : HostOps) (floatCmp : BitVec 64 → BitVec 64 → Option Ordering) (secretInput : Value → Option Value)

def compareOpen (left right : Value) : Option Ordering :=
  runtimeExactIntegerCmp left right <|>
    match runtimeValueNumber host left, runtimeValueNumber host right with
    | some l, some r => floatCmp l r
    | _, _ => compareTimes left right <|>
      match runtimeValueTextStr left, runtimeValueTextStr right with
      | some l, some r => some (compareTexts (charBytes l) (charBytes r))
      | _, _ =>
        match runtimeValueText host left, runtimeValueText host right with
        | some l, some r => some (compareBytes (charBytes l) (charBytes r))
        | _, _ =>
          match left, right with
          | .boolean l, .boolean r => some (compare l r)
          | _, _ => none

/-- Secrets are opened at most `depth` times; the source goes on until neither side is one. -/
def runtimePartialCmp (depth : Nat) (left right : Value) : Option Ordering :=
  if isSecret left || isSecret right then
    match depth with
    | 0 => none
    | depth + 1 => do runtimePartialCmp depth (← secretInput left) (← secretInput right)
  else compareOpen host floatCmp left right

end

variable (width : Nat) (v : Value)

theorem abbrevKey_nil : abbrevKey width [] = 0 := by
  induction width with
  | zero => rfl
  | succ width ih => simp [abbrevKey, ih]

theorem abbrevKey_lt (bytes : List UInt8) : abbrevKey width bytes < 256 ^ width := by
  induction width generalizing bytes with
  | zero => exact Nat.one_pos
  | succ width ih =>
    have head := (bytes.headD 0).toNat_lt
    have rest := ih bytes.tail
    rw [abbrevKey, Nat.pow_succ]
    nlinarith

/-- The key of a text that has ended is the least, so the zeros it is filled with never turn the order. -/
theorem compareBytes_abbrevKey (x y : List UInt8) :
    (compare (abbrevKey width x) (abbrevKey width y)).then (compareBytes x y) = compareBytes x y := by
  induction width generalizing x y with
  | zero => rfl
  | succ width ih =>
    match x, y with
    | [], [] =>
      rw [compare_eq_iff_eq.mpr rfl]
      rfl
    | [], d :: y =>
      cases order : compare (abbrevKey (width + 1) []) (abbrevKey (width + 1) (d :: y)) with
      | lt | eq => rfl
      | gt =>
        rw [abbrevKey_nil, compare_gt_iff_gt] at order
        exact absurd order (Nat.not_lt_zero _)
    | c :: x, [] =>
      cases order : compare (abbrevKey (width + 1) (c :: x)) (abbrevKey (width + 1) []) with
      | gt | eq => rfl
      | lt =>
        rw [abbrevKey_nil, compare_lt_iff_lt] at order
        exact absurd order (Nat.not_lt_zero _)
    | c :: x, d :: y =>
      rw [abbrevKey, abbrevKey, compare_mul_add (abbrevKey_lt _ _) (abbrevKey_lt _ _), headD_cons, headD_cons,
        ← compare_toNat, compareBytes_cons]
      cases compare c d with
      | lt | gt => rfl
      | eq => exact ih x y

def wholeValue : Option Int := (signedValue v).or ((unsignedValue v).map fun n => (n : Int))

def textValue : Option (List UInt8) := (runtimeValueTextStr v).map charBytes

/-- On what `read` reads, the comparison is `order`, is total and answers equal for the values the runtime takes as
    equal and for no others. -/
structure ExactOn (host : HostOps) (cmp : Value → Value → Option Ordering) {α : Type} (read : Value → Option α)
    (order : α → α → Ordering) : Prop where
  compares {l r : Value} {a b : α} : read l = some a → read r = some b →
    cmp l r = some (order a b) ∧ (cmp l r = some .eq ↔ runtimeValuesEqual host l r = true)
  total (values : List Value) : (∀ v ∈ values, (read v).isSome = true) →
    PreorderOn (fun l r => (cmp l r).getD .eq) values

section

variable {host : HostOps} {cmp : Value → Value → Option Ordering} {l r : Value}

theorem ExactOn.of_order {α : Type} [Inhabited α] {read : Value → Option α} {order : α → α → Ordering}
    [Std.TransCmp order] (agrees : ∀ {l r : Value} {a b : α}, read l = some a → read r = some b →
      cmp l r = some (order a b) ∧ (order a b = .eq ↔ runtimeValuesEqual host l r = true)) :
    ExactOn host cmp read order where
  compares held other := by
    rw [(agrees held other).1]
    exact ⟨rfl, Option.some_inj.trans (agrees held other).2⟩
  total values readable := by
    have keyed : ∀ l ∈ values, ∀ r ∈ values,
        (cmp l r).getD .eq = order ((read l).getD default) ((read r).getD default) := by
      intro l member r memberOther
      obtain ⟨a, held⟩ := Option.isSome_iff_exists.mp (readable l member)
      obtain ⟨b, other⟩ := Option.isSome_iff_exists.mp (readable r memberOther)
      rw [(agrees held other).1, held, other]
      rfl
    exact .of_key (fun v => (read v).getD default) keyed

theorem compare_cast (m n : Nat) : compare m n = compare (m : Int) n := (compare_map Nat.strictMono_cast m n).symm

theorem runtimeExactIntegerCmp_whole {m n : Int} (whole : wholeValue l = some m) (other : wholeValue r = some n) :
    runtimeExactIntegerCmp l r = some (compare m n) := by
  have signed (m : Int) (n : Nat) : (if m < 0 then .lt else compare m.toNat n) = compare m n := by
    split_ifs with negative
    · exact (compare_lt_iff_lt.mpr (by omega)).symm
    · rw [compare_cast, Int.toNat_of_nonneg (not_lt.mp negative)]
  have unsigned (n : Nat) (m : Int) : (if m < 0 then .gt else compare n m.toNat) = compare (n : Int) m := by
    split_ifs with negative
    · exact (compare_gt_iff_gt.mpr (by omega)).symm
    · rw [compare_cast, Int.toNat_of_nonneg (not_lt.mp negative)]
  cases l <;> first
    | (cases whole; done)
    | (cases r <;> first | (cases other; done) | skip)
  all_goals
    cases whole
    cases other
  all_goals first
    | rfl
    | exact congrArg some (signed _ _)
    | exact congrArg some (unsigned _ _)
    | exact congrArg some (compare_cast _ _)

variable {floatCmp : BitVec 64 → BitVec 64 → Option Ordering} {secretInput : Value → Option Value} {depth : Nat}

theorem runtimePartialCmp_open (plain : isSecret l = false) (plainOther : isSecret r = false) :
    runtimePartialCmp host floatCmp secretInput depth l r = compareOpen host floatCmp l r := by
  unfold runtimePartialCmp
  simp [plain, plainOther]

theorem runtimePartialCmp_text {s t : List Char} (text : runtimeValueTextStr l = some s)
    (other : runtimeValueTextStr r = some t) :
    runtimePartialCmp host floatCmp secretInput depth l r = some (compareBytes (charBytes s) (charBytes t)) ∧
      runtimeValuesEqual host l r = (s == t) := by
  have plain {v : Value} {s : List Char} (text : runtimeValueTextStr v = some s) : isSecret v = false ∧
      signedValue v = none ∧ unsignedValue v = none ∧ runtimeValueNumber host v = none ∧
        ∀ w, compareTimes v w = none := by
    cases v <;> first | (cases text; done) | exact ⟨rfl, rfl, rfl, rfl, fun _ => rfl⟩
  obtain ⟨opened, signed, unsigned, number, times⟩ := plain text
  have inexact : runtimeExactIntegerCmp l r = none := by
    unfold runtimeExactIntegerCmp
    rw [signed, unsigned]
  constructor
  · rw [runtimePartialCmp_open opened (plain other).1]
    unfold compareOpen
    simp [inexact, number, times, text, other, compareTexts, compareBytes_abbrevKey]
  · unfold runtimeValuesEqual
    simp [inexact, number, text, other]

end

theorem runtimeComparison_exact (host : HostOps) (floatCmp : BitVec 64 → BitVec 64 → Option Ordering)
    (secretInput : Value → Option Value) (depth : Nat) :
    ExactOn host (runtimePartialCmp host floatCmp secretInput depth) textValue compareBytes ∧
      ExactOn host (runtimePartialCmp host floatCmp secretInput depth) wholeValue compare := by
  constructor
  · refine .of_order fun held heldOther => ?_
    obtain ⟨s, text, rfl⟩ := Option.map_eq_some_iff.mp held
    obtain ⟨t, other, rfl⟩ := Option.map_eq_some_iff.mp heldOther
    obtain ⟨compared, equal⟩ := runtimePartialCmp_text text other
    refine ⟨compared, ?_⟩
    rw [equal, beq_iff_eq, Std.LawfulEqCmp.compare_eq_iff_eq]
    exact ⟨fun same => String.ofList_injective (asBytes_injective same), congrArg _⟩
  · refine .of_order fun {l r m n} whole other => ?_
    have ordered := runtimeExactIntegerCmp_whole whole other
    have plain {v : Value} {k : Int} (whole : wholeValue v = some k) : isSecret v = false := by
      cases v <;> first | rfl | cases whole
    rw [runtimePartialCmp_open (plain whole) (plain other)]
    unfold compareOpen runtimeValuesEqual
    rw [ordered]
    exact ⟨rfl, beq_iff_eq.symm⟩

end RedDB.Query
