import RedDB.Query.Prefilter
import RedDB.Query.RuntimeValue

namespace RedDB.Query

open RedDB.Types

/-- `words` of each block by their position; there are `mask + 1` blocks. -/
structure SplitBlockBloom where
  words : Nat → Nat → BitVec 32
  mask : Nat

namespace SplitBlockBloom

def salts : List (BitVec 32) :=
  [0x47b6137b, 0x44974d91, 0x8824ad5b, 0xa2b7289d, 0x705495c7, 0x2df1424b, 0x9efc4947, 0x5c6bfb31]

def withCapacity (n : Nat) : SplitBlockBloom where
  words _ _ := 0
  mask := ((max (n * 10) 256 + 255) / 256).nextPowerOfTwo - 1

def bit (key : BitVec 32) (i : Nat) : Nat := ((key * salts.getD i 0) >>> 27).toNat

def insert (bloom : SplitBlockBloom) (key : BitVec 32) : SplitBlockBloom where
  words block i :=
    if block = key.toNat &&& bloom.mask then bloom.words block i ||| 1#32 <<< bit key i else bloom.words block i
  mask := bloom.mask

def probe (bloom : SplitBlockBloom) (key : BitVec 32) : Bool :=
  (List.range salts.length).all fun i => (bloom.words (key.toNat &&& bloom.mask) i).getLsbD (bit key i)

theorem bit_lt (key : BitVec 32) (i : Nat) : bit key i < 32 := by
  rw [bit, BitVec.toNat_ushiftRight, Nat.shiftRight_eq_div_pow]
  have bound := (key * salts.getD i 0).isLt
  omega

theorem probe_insert (bloom : SplitBlockBloom) {key other : BitVec 32} (known : other = key ∨ bloom.probe other = true) :
    (bloom.insert key).probe other = true := by
  refine List.all_eq_true.mpr fun i listed => ?_
  show (if other.toNat &&& bloom.mask = key.toNat &&& bloom.mask then bloom.words _ i ||| 1#32 <<< bit key i
    else bloom.words _ i).getLsbD (bit other i) = true
  rcases known with rfl | known
  · rw [if_pos rfl]
    simp [bit_lt]
  · have held := List.all_eq_true.mp known i listed
    split_ifs
    · rw [BitVec.getLsbD_or]
      exact Bool.or_eq_true_iff.mpr (.inl held)
    · exact held

theorem probe_foldl (bloom : SplitBlockBloom) {keys : List (BitVec 32)} {key : BitVec 32}
    (known : key ∈ keys ∨ bloom.probe key = true) : (keys.foldl insert bloom).probe key = true := by
  induction keys generalizing bloom with
  | nil => exact known.resolve_left List.not_mem_nil
  | cons first rest ih =>
    refine ih (bloom.insert first) ?_
    rcases known with listed | held
    · exact (List.mem_cons.mp listed).symm.imp_right fun same => probe_insert bloom (.inl same)
    · exact .inr (probe_insert bloom (.inr held))

end SplitBlockBloom

section

variable {Expr ε : Type} (host : FilterHost Expr ε) (ops : HostOps) (hash : Value → BitVec 64)

def hashValueU32 (v : Value) : BitVec 32 := (hash v ^^^ hash v >>> 32).truncate 32

def setContains (set : List Value) (candidate : Value) : Bool :=
  set.any fun v => hash v == hash candidate && valueEq ops candidate v

/-- What `try_evaluate` answers for the operation that an IN list is compiled to. -/
def evaluateIn (candidate : Value) : CompiledEntityOp Expr → Except ε Bool
  | .inList _ values => anyEqual host candidate values
  | .inSet _ set => .ok (setContains ops hash set candidate)
  | .inBloom _ set =>
    let bloom := (set.map (hashValueU32 hash)).foldl SplitBlockBloom.insert (.withCapacity set.length)
    .ok (bloom.probe (hashValueU32 hash candidate) && setContains ops hash set candidate)
  | _ => .ok false

variable {host ops hash} {candidate : Value} {values : List Value}

theorem anyEqual_plain (compares : ∀ l r, host.compareRuntimeValues l r .eq = runtimeValuesEqual ops l r)
    (plain : isSecret candidate = false) (others : ∀ v ∈ values, isSecret v = false) :
    anyEqual host candidate values = .ok (values.any (runtimeValuesEqual ops candidate)) := by
  induction values with
  | nil => rfl
  | cons v values ih =>
    obtain ⟨first, rest⟩ := List.forall_mem_cons.mp others
    have compared : tryCompareRuntimeValues host candidate v .eq = .ok (runtimeValuesEqual ops candidate v) := by
      unfold tryCompareRuntimeValues secretInput
      rw [show jsonMaxNestingDepth = 127 + 1 from rfl, trySecretRuntimeInput, trySecretRuntimeInput]
      simp [plain, first, compares, Bind.bind, Except.bind]
    rw [anyEqual, compared, ih rest, List.any_cons]
    cases runtimeValuesEqual ops candidate v <;> rfl

section

variable (lawful : ∀ v, valueEq ops candidate v = true → hash v = hash candidate)
include lawful

theorem setContains_eq : setContains ops hash values candidate = values.any (valueEq ops candidate) := by
  rw [Bool.eq_iff_iff, setContains, List.any_eq_true, List.any_eq_true]
  refine exists_congr fun v => and_congr_right fun member => ?_
  rw [Bool.and_eq_true, beq_iff_eq]
  exact ⟨And.right, fun same => ⟨lawful v same, same⟩⟩

theorem probe_of_setContains (held : setContains ops hash values candidate = true) :
    ((values.map (hashValueU32 hash)).foldl SplitBlockBloom.insert (.withCapacity values.length)).probe
      (hashValueU32 hash candidate) = true := by
  rw [setContains_eq lawful] at held
  obtain ⟨v, member, found⟩ := List.any_eq_true.mp held
  refine SplitBlockBloom.probe_foldl _ (.inl (List.mem_map.mpr ⟨v, member, ?_⟩))
  rw [hashValueU32, hashValueU32, lawful v found]

theorem evaluateIn_set (kind : EntityFieldKind)
    (looked : ¬ (values.length ≤ inSmallThreshold ∨ values.any isSecret = true)) :
    evaluateIn host ops hash candidate (compileIn kind values) = .ok (values.any (valueEq ops candidate)) := by
  rw [compileIn, if_neg looked, ← setContains_eq lawful]
  split_ifs
  · rfl
  · change Except.ok (_ && setContains ops hash values candidate) = _
    cases held : setContains ops hash values candidate with
    | false => rw [Bool.and_false]
    | true => rw [probe_of_setContains lawful held, Bool.and_true]

end

/-- The list is searched by comparing, or it holds a value that the comparison equates with the candidate exactly if it
    holds the candidate. -/
def ListedAlike (ops : HostOps) (candidate : Value) (values : List Value) : Prop :=
  values.length ≤ inSmallThreshold ∨ values.any isSecret ∨
    ((∃ v ∈ values, runtimeValuesEqual ops candidate v = true) ↔ ∃ v ∈ values, valueEq ops candidate v = true)

theorem evaluateIn_iff (compares : ∀ l r, host.compareRuntimeValues l r .eq = runtimeValuesEqual ops l r)
    (plain : isSecret candidate = false) (lawful : ∀ v, valueEq ops candidate v = true → hash v = hash candidate)
    (kind : EntityFieldKind) :
    evaluateIn host ops hash candidate (compileIn kind values) = anyEqual host candidate values ↔
      ListedAlike ops candidate values := by
  by_cases searched : values.length ≤ inSmallThreshold ∨ values.any isSecret = true
  · rw [compileIn, if_pos searched]
    exact iff_of_true rfl (searched.imp_right .inl)
  · obtain ⟨long, open_⟩ := not_or.mp searched
    have others : ∀ v ∈ values, isSecret v = false := by simpa using open_
    rw [evaluateIn_set lawful kind searched, anyEqual_plain compares plain others, Except.ok.injEq, Bool.eq_iff_iff,
      List.any_eq_true, List.any_eq_true, ListedAlike, or_iff_right long, or_iff_right open_]
    exact iff_comm

theorem anyEqual_append (accepted : anyEqual host candidate values = .ok true) (more : List Value) :
    anyEqual host candidate (values ++ more) = .ok true := by
  induction values with
  | nil => cases accepted
  | cons v values ih =>
    rw [List.cons_append, anyEqual]
    rw [anyEqual] at accepted
    cases compared : tryCompareRuntimeValues host candidate v .eq with
    | error e =>
      rw [compared] at accepted
      cases accepted
    | ok equal =>
      rw [compared] at accepted
      cases equal with
      | true => rfl
      | false => exact ih accepted

/-- The host whose comparison for equality is `runtime_values_equal`. -/
def comparing (host : FilterHost Expr ε) (ops : HostOps) : FilterHost Expr ε :=
  { host with
    compareRuntimeValues := fun l r op =>
      if op = .eq then runtimeValuesEqual ops l r else host.compareRuntimeValues l r op }

end

end RedDB.Query
