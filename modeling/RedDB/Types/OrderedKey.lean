import RedDB.Types.CanonicalKey

namespace RedDB.Types

open List Library Nat Ordering

inductive Shape
  | null | boolean | signed | unsigned | float | text | bytes | textU64 | textText | u32U8 | u32U32 | i32I32
  deriving DecidableEq

def familyEncoding : CanonicalKeyFamily → UInt8 × Shape
  | .null => (0, .null)
  | .boolean => (1, .boolean)
  | .integer => (2, .signed)
  | .bigInt => (3, .signed)
  | .unsignedInteger => (4, .unsigned)
  | .float => (5, .float)
  | .text => (6, .text)
  | .blob => (7, .bytes)
  | .timestamp => (8, .signed)
  | .duration => (9, .signed)
  | .ipAddr => (10, .bytes)
  | .macAddr => (11, .bytes)
  | .json => (12, .bytes)
  | .uuid => (13, .bytes)
  | .nodeRef => (14, .text)
  | .edgeRef => (15, .text)
  | .vectorRef => (16, .textU64)
  | .rowRef => (17, .textU64)
  | .color => (18, .bytes)
  | .email => (19, .text)
  | .url => (20, .text)
  | .phone => (21, .unsigned)
  | .semver => (22, .unsigned)
  | .cidr => (23, .u32U8)
  | .date => (24, .signed)
  | .time => (25, .unsigned)
  | .decimal => (26, .signed)
  | .enumValue => (27, .unsigned)
  | .timestampMs => (28, .signed)
  | .ipv4 => (29, .bytes)
  | .ipv6 => (30, .bytes)
  | .subnet => (31, .u32U32)
  | .port => (32, .unsigned)
  | .latitude => (33, .signed)
  | .longitude => (34, .signed)
  | .geoPoint => (35, .i32I32)
  | .country2 => (36, .bytes)
  | .country3 => (37, .bytes)
  | .lang2 => (38, .bytes)
  | .lang5 => (39, .bytes)
  | .currency => (40, .bytes)
  | .colorAlpha => (41, .bytes)
  | .keyRef => (42, .textText)
  | .docRef => (43, .textU64)
  | .tableRef => (44, .text)
  | .pageRef => (45, .unsigned)
  | .password => (46, .text)

section

variable (bytes : List UInt8) (key : CanonicalKey)

def escapedLength : Nat := bytes.length + (bytes.filter (· = 0)).length + 2

def payloadShapeLength : CanonicalKey → Shape × Nat
  | .null => (.null, 0)
  | .boolean _ => (.boolean, 1)
  | .signed _ _ => (.signed, 8)
  | .unsigned _ _ => (.unsigned, 8)
  | .float _ => (.float, 8)
  | .text _ s => (.text, escapedLength (asBytes s))
  | .bytes _ bytes => (.bytes, escapedLength bytes)
  | .pairTextU64 _ s _ => (.textU64, escapedLength (asBytes s) + 8)
  | .pairTextText _ left right => (.textText, escapedLength (asBytes left) + escapedLength (asBytes right))
  | .pairU32U8 _ _ _ => (.u32U8, 5)
  | .pairU32U32 _ _ _ => (.u32U32, 8)
  | .pairI32I32 _ _ _ => (.i32I32, 8)

def flipSign {w : Nat} (v : BitVec w) : BitVec w := v ^^^ BitVec.twoPow w (w - 1)

def orderedFloat (bits : BitVec 64) : BitVec 64 := if bits.msb then ~~~bits else bits ^^^ BitVec.twoPow 64 63

def payload : CanonicalKey → List UInt8
  | .null => []
  | .boolean b => [if b then 1 else 0]
  | .signed _ v => toBeBytes 8 (flipSign v).toNat
  | .unsigned _ v => toBeBytes 8 v.toNat
  | .float bits => toBeBytes 8 (orderedFloat bits).toNat
  | .text _ s => escaped (asBytes s)
  | .bytes _ bytes => escaped bytes
  | .pairTextU64 _ s n => escaped (asBytes s) ++ toBeBytes 8 n.toNat
  | .pairTextText _ left right => escaped (asBytes left) ++ escaped (asBytes right)
  | .pairU32U8 _ left right => toBeBytes 4 left.toNat ++ toBeBytes 1 right.toNat
  | .pairU32U32 _ left right => toBeBytes 4 left.toNat ++ toBeBytes 4 right.toNat
  | .pairI32I32 _ left right => toBeBytes 4 (flipSign left).toNat ++ toBeBytes 4 (flipSign right).toNat

inductive StoreError
  | serialization (message : String)
  | readLimitExceeded (requiredBytes limitBytes : Nat)
  deriving DecidableEq

def encodeOrderedKey (capacity : Nat) : Except StoreError (List UInt8) :=
  let (tag, expectedShape) := familyEncoding key.family
  let (shape, payloadLength) := payloadShapeLength key
  if shape ≠ expectedShape then .error (.serialization "ordered key family/value mismatch")
  else
    let requiredBytes := payloadLength + 1
    if capacity < requiredBytes then .error (.readLimitExceeded requiredBytes capacity)
    else .ok (tag :: payload key)

theorem length_escaped : (escaped bytes).length = escapedLength bytes := by
  induction bytes with
  | nil => rfl
  | cons b bytes ih =>
    unfold escapedLength at ih ⊢
    rw [escaped_cons, length_append, ih, length_cons, filter_cons]
    split_ifs <;> simp_all <;> omega

theorem length_payload : (payload key).length = (payloadShapeLength key).2 := by
  cases key <;> simp [payload, payloadShapeLength, length_escaped]

end

section

theorem orderCode_unsigned (width : Nat) :
    OrderCode cmpUnsigned fun v : BitVec (8 * width) => toBeBytes width v.toNat := by
  intro a b
  have fits (v : BitVec (8 * width)) : v.toNat < 256 ^ width := by
    have bound := v.isLt
    rwa [Nat.pow_mul] at bound
  exact decides_toBeBytes (fits a) (fits b)

theorem xor_two_pow {n k : Nat} (less : n < 2 ^ k) : n ^^^ 2 ^ k = n + 2 ^ k := by
  apply eq_of_testBit_eq
  intro i
  rw [testBit_xor, testBit_two_pow]
  rcases lt_trichotomy i k with below | rfl | above
  · rw [add_comm, testBit_two_pow_add_gt below]
    simp [below.ne']
  · rw [add_comm, testBit_two_pow_add_eq]
    simp
  · have grown : 2 ^ (k + 1) ≤ 2 ^ i := Nat.pow_le_pow_right (by decide) above
    rw [pow_succ] at grown
    rw [testBit_lt_two_pow (by omega), testBit_lt_two_pow (by omega)]
    simp [above.ne]

theorem toNat_flipSign {w : Nat} (positive : 0 < w) (v : BitVec w) :
    ((flipSign v).toNat : Int) = v.toInt + 2 ^ (w - 1) := by
  have doubled : 2 ^ w = 2 * 2 ^ (w - 1) := by
    rw [← Nat.pow_succ', succ_eq_add_one, Nat.sub_add_cancel positive]
  have nonzero : 0 < 2 ^ (w - 1) := Nat.pow_pos (by decide)
  have bound := v.isLt
  have bit : (BitVec.twoPow w (w - 1)).toNat = 2 ^ (w - 1) := by
    rw [BitVec.toNat_twoPow, mod_eq_of_lt (by omega)]
  have half : (2 : Int) ^ (w - 1) = ((2 ^ (w - 1) : Nat) : Int) := by
    push_cast
    rfl
  unfold flipSign
  rw [BitVec.toNat_xor, bit, BitVec.toInt_eq_toNat_cond, half]
  by_cases low : v.toNat < 2 ^ (w - 1)
  · rw [xor_two_pow low, if_pos (by omega), cast_add]
  · have rest : v.toNat - 2 ^ (w - 1) < 2 ^ (w - 1) := by omega
    have cleared : v.toNat ^^^ 2 ^ (w - 1) = v.toNat - 2 ^ (w - 1) := by
      have split : v.toNat = (v.toNat - 2 ^ (w - 1)) ^^^ 2 ^ (w - 1) := by
        rw [xor_two_pow rest]
        omega
      rw [split, Nat.xor_assoc, Nat.xor_self, xor_zero, ← split]
    rw [if_neg (by omega), cleared, doubled]
    omega

theorem orderCode_signed (width : Nat) (positive : 0 < width) :
    OrderCode cmpSigned fun v : BitVec (8 * width) => toBeBytes width (flipSign v).toNat := by
  have coded := (orderCode_unsigned width).comap (flipSign (w := 8 * width))
  apply coded.of_eq _ fun _ => rfl
  intro a b
  have first := toNat_flipSign (w := 8 * width) (by omega) a
  have second := toNat_flipSign (w := 8 * width) (by omega) b
  unfold cmpSigned cmpUnsigned
  rcases lt_trichotomy a.toInt b.toInt with less | same | greater
  · rw [compare_lt_iff_lt.mpr less, Eq.comm, compare_lt_iff_lt]
    omega
  · rw [compare_eq_iff_eq.mpr same, Eq.comm, compare_eq_iff_eq]
    omega
  · rw [compare_gt_iff_gt.mpr greater, Eq.comm, compare_gt_iff_gt]
    omega

theorem flipSign_totalOrderBits (bits : BitVec 64) : flipSign (totalOrderBits bits) = orderedFloat bits := by
  unfold orderedFloat totalOrderBits
  split_ifs with sign
  · have ones : bits.sshiftRight 63 >>> 1 = ~~~BitVec.twoPow 64 63 := by
      rw [BitVec.sshiftRight_eq_of_msb_true sign]
      have shifted : ~~~bits >>> 63 = 0#64 := by
        apply BitVec.eq_of_toNat_eq
        have high := BitVec.msb_eq_decide bits ▸ sign
        have bound := bits.isLt
        simp [shiftRight_eq_div_pow] at high ⊢
        omega
      rw [shifted]
      decide
    unfold flipSign
    rw [ones]
    ext i
    simp
  · have low : bits.msb = false := Bool.eq_false_of_not_eq_true sign
    have zeros : bits.sshiftRight 63 >>> 1 = 0#64 := by
      rw [BitVec.sshiftRight_eq_of_msb_false low]
      apply BitVec.eq_of_toNat_eq
      have bound := bits.isLt
      rw [BitVec.msb_eq_decide] at low
      simp [shiftRight_eq_div_pow] at low ⊢
      omega
    rw [zeros, BitVec.xor_zero]
    rfl

theorem orderCode_float : OrderCode totalCmp fun bits => toBeBytes 8 (orderedFloat bits).toNat := by
  have coded := (orderCode_signed 8 (by decide)).comap totalOrderBits
  apply coded.of_eq fun _ _ => rfl
  intro bits
  rw [flipSign_totalOrderBits]

theorem orderCode_text : OrderCode cmpText fun s => escaped (asBytes s) := orderCode_escaped.comap asBytes

theorem orderCode_boolean : OrderCode (compare : Bool → Bool → Ordering) fun b => [if b then 1 else 0] := by
  intro a b rest other
  cases a <;> cases b <;> rfl

end

theorem CanonicalKeyFamily.eq_of_cmp {family other : CanonicalKeyFamily} (same : family.cmp other = .eq) :
    family = other := by
  have indices := congrArg CanonicalKeyFamily.ofNat (compare_eq_iff_eq.mp same)
  rwa [CanonicalKeyFamily.ofNat_ctorIdx, CanonicalKeyFamily.ofNat_ctorIdx] at indices

theorem compare_tag (family other : CanonicalKeyFamily) :
    compare (familyEncoding family).1 (familyEncoding other).1 = family.cmp other := by
  have index (f : CanonicalKeyFamily) : (familyEncoding f).1.toNat = f.ctorIdx := by cases f <;> rfl
  rw [compare_toNat, index, index]
  rfl

namespace CanonicalKey

def WellShaped (key : CanonicalKey) : Prop := (payloadShapeLength key).1 = (familyEncoding key.family).2

def encoded (key : CanonicalKey) : List UInt8 := (familyEncoding key.family).1 :: payload key

theorem encode_eq_ok {key : CanonicalKey} (shaped : key.WellShaped) {capacity : Nat}
    (room : key.encoded.length ≤ capacity) : encodeOrderedKey key capacity = .ok key.encoded := by
  rw [encoded, length_cons, length_payload] at room
  have matched : ¬ (payloadShapeLength key).1 ≠ (familyEncoding key.family).2 := not_not.mpr shaped
  have fits : ¬ capacity < (payloadShapeLength key).2 + 1 := not_lt.mpr room
  simp only [encodeOrderedKey, matched, fits, if_false]
  rfl

theorem decides_payload {key other : CanonicalKey}
    (same : (payloadShapeLength key).1 = (payloadShapeLength other).1) :
    Decides (payload key) (payload other) (key.cmpPayload other) := by
  cases key <;> cases other <;> cases same
  case null.null => exact .nil
  case boolean.boolean a b => exact orderCode_boolean a b
  case signed.signed a _ b => exact orderCode_signed 8 (by decide) a b
  case unsigned.unsigned a _ b => exact orderCode_unsigned 8 a b
  case float.float a b => exact orderCode_float a b
  case text.text a _ b => exact orderCode_text a b
  case bytes.bytes a _ b => exact orderCode_escaped a b
  case pairTextU64.pairTextU64 a n _ b m => exact (orderCode_text a b).append (orderCode_unsigned 8 n m)
  case pairTextText.pairTextText a n _ b m => exact (orderCode_text a b).append (orderCode_text n m)
  case pairU32U8.pairU32U8 a n _ b m => exact (orderCode_unsigned 4 a b).append (orderCode_unsigned 1 n m)
  case pairU32U32.pairU32U32 a n _ b m => exact (orderCode_unsigned 4 a b).append (orderCode_unsigned 4 n m)
  case pairI32I32.pairI32I32 a n _ b m =>
    exact (orderCode_signed 4 (by decide) a b).append (orderCode_signed 4 (by decide) n m)

end CanonicalKey

structure IndexedValue where
  value : Value
  key : CanonicalKey
  accepted : valueToCanonicalKey value = some key

theorem IndexedValue.wellShaped (v : IndexedValue) : v.key.WellShaped := by
  obtain ⟨value, key, accepted⟩ := v
  cases value
  case float bits =>
    by_cases finite : isFinite bits = true
    · rw [valueToCanonicalKey, if_pos finite] at accepted
      cases accepted
      rfl
    · rw [valueToCanonicalKey, if_neg finite] at accepted
      cases accepted
  all_goals
    cases accepted
    try rfl

section

theorem eq_of_cmpSigned {w : Nat} {a b : BitVec w} (same : cmpSigned a b = .eq) : a = b :=
  BitVec.eq_of_toInt_eq (compare_eq_iff_eq.mp same)

theorem eq_of_cmpUnsigned {w : Nat} {a b : BitVec w} (same : cmpUnsigned a b = .eq) : a = b :=
  BitVec.eq_of_toNat_eq (compare_eq_iff_eq.mp same)

theorem eq_of_compareBytes {a b : List UInt8} (same : compareBytes a b = .eq) : a = b :=
  Std.LawfulEqCmp.compare_eq_iff_eq.mp same

theorem eq_of_cmpText {s t : String} (same : cmpText s t = .eq) : s = t := asBytes_injective (eq_of_compareBytes same)

theorem orderedFloat_injective : Function.Injective orderedFloat := by
  intro a b same
  have sign (bits : BitVec 64) : (orderedFloat bits).msb = !bits.msb := by
    unfold orderedFloat
    split_ifs with negative
    · simp [negative]
    · simp [negative, BitVec.msb_xor]
  have signs : a.msb = b.msb := by simpa [sign] using congrArg BitVec.msb same
  unfold orderedFloat at same
  rw [signs] at same
  split_ifs at same
  · exact BitVec.not_inj.mp same
  · have cleared := congrArg (· ^^^ BitVec.twoPow 64 63) same
    simpa [BitVec.xor_assoc] using cleared

theorem eq_of_totalCmp {a b : BitVec 64} (same : totalCmp a b = .eq) : a = b := by
  have bits := congrArg flipSign (eq_of_cmpSigned same)
  rw [flipSign_totalOrderBits, flipSign_totalOrderBits] at bits
  exact orderedFloat_injective bits

end

theorem CanonicalKey.eq_of_cmpPayload {key other : CanonicalKey}
    (shapes : (payloadShapeLength key).1 = (payloadShapeLength other).1)
    (families : key.family = other.family) (same : key.cmpPayload other = .eq) : key = other := by
  cases key <;> cases other <;> cases shapes
  case null.null => rfl
  case boolean.boolean a b => rw [compare_eq_iff_eq.mp same]
  case float.float => rw [eq_of_totalCmp same]
  all_goals simp only [CanonicalKey.family] at families
  case signed.signed => rw [families, eq_of_cmpSigned same]
  case unsigned.unsigned => rw [families, eq_of_cmpUnsigned same]
  case text.text => rw [families, eq_of_cmpText same]
  case bytes.bytes => rw [families, eq_of_compareBytes same]
  all_goals
    obtain ⟨first, second⟩ := then_eq_eq.mp same
  case pairTextU64.pairTextU64 => rw [families, eq_of_cmpText first, eq_of_cmpUnsigned second]
  case pairTextText.pairTextText => rw [families, eq_of_cmpText first, eq_of_cmpText second]
  case pairU32U8.pairU32U8 => rw [families, eq_of_cmpUnsigned first, eq_of_cmpUnsigned second]
  case pairU32U32.pairU32U32 => rw [families, eq_of_cmpUnsigned first, eq_of_cmpUnsigned second]
  case pairI32I32.pairI32I32 => rw [families, eq_of_cmpSigned first, eq_of_cmpSigned second]

theorem IndexedValue.key_eq_of_cmp {v w : IndexedValue} (same : v.key.cmp w.key = .eq) : v.key = w.key := by
  obtain ⟨families, payloads⟩ := then_eq_eq.mp same
  have family := CanonicalKeyFamily.eq_of_cmp families
  have shapes : (payloadShapeLength v.key).1 = (payloadShapeLength w.key).1 := by
    rw [v.wellShaped, w.wellShaped, family]
  exact CanonicalKey.eq_of_cmpPayload shapes family payloads

theorem orderCode_indexed : OrderCode (fun v w : IndexedValue => v.key.cmp w.key) fun v => v.key.encoded := by
  intro v w rest more
  change compareBytes (v.key.encoded ++ rest) (w.key.encoded ++ more) =
    (v.key.cmp w.key).then (compareBytes rest more)
  rw [CanonicalKey.encoded, CanonicalKey.encoded, cons_append, cons_append, compareBytes_cons,
    compare_tag, CanonicalKey.cmp]
  cases families : v.key.family.cmp w.key.family with
  | lt => rfl
  | gt => rfl
  | eq =>
    have shapes : (payloadShapeLength v.key).1 = (payloadShapeLength w.key).1 := by
      rw [v.wellShaped, w.wellShaped, CanonicalKeyFamily.eq_of_cmp families]
    rw [eq_then, eq_then]
    exact CanonicalKey.decides_payload shapes rest more

/-- On the given pairs a code sorts like the keys, differs for different keys and begins no other. -/
structure OrderPreserving {α κ : Type} (key : α → κ) (cmp : κ → κ → Ordering) (code : α → List UInt8)
    (comparable : α → α → Prop) : Prop where
  order : ∀ a b, comparable a b → compareBytes (code a) (code b) = cmp (key a) (key b)
  injective : ∀ a b, comparable a b → code a = code b → key a = key b
  prefixFree : ∀ a b, comparable a b → code a <+: code b → code a = code b

def tupleCode (vs : List IndexedValue) : List UInt8 := vs.flatMap fun v => v.key.encoded

def tupleWithId (entry : List IndexedValue × BitVec 64) : List UInt8 := tupleCode entry.1 ++ toBeBytes 8 entry.2.toNat

section

variable {vs ws : List IndexedValue}

theorem compareLex_keys (vs ws : List IndexedValue) :
    List.compareLex CanonicalKey.cmp (vs.map IndexedValue.key) (ws.map IndexedValue.key) =
      List.compareLex (fun v w : IndexedValue => v.key.cmp w.key) vs ws := by
  induction vs generalizing ws with
  | nil => cases ws <;> rfl
  | cons v vs ih =>
    cases ws with
    | nil => rfl
    | cons w ws =>
      rw [map_cons, map_cons, List.compareLex_cons_cons, List.compareLex_cons_cons, ih]

theorem decides_tupleCode (arity : vs.length = ws.length) : Decides (tupleCode vs) (tupleCode ws)
      (List.compareLex CanonicalKey.cmp (vs.map IndexedValue.key) (ws.map IndexedValue.key)) := by
  rw [compareLex_keys]
  exact orderCode_indexed.decides_tuple arity

theorem keys_eq_of_compareLex
    (same : List.compareLex CanonicalKey.cmp (vs.map IndexedValue.key) (ws.map IndexedValue.key) = .eq) :
    vs.map IndexedValue.key = ws.map IndexedValue.key := by
  induction vs generalizing ws with
  | nil =>
    cases ws with
    | nil => rfl
    | cons w ws => cases same
  | cons v vs ih =>
    cases ws with
    | nil => cases same
    | cons w ws =>
      rw [map_cons, map_cons, List.compareLex_cons_cons, then_eq_eq] at same
      rw [map_cons, map_cons, IndexedValue.key_eq_of_cmp same.1, ih same.2]

end

theorem ordered_keys_preserve_order : (∀ (v : IndexedValue) (capacity : Nat), v.key.encoded.length ≤ capacity →
      encodeOrderedKey v.key capacity = .ok v.key.encoded) ∧
    OrderPreserving IndexedValue.key CanonicalKey.cmp (fun v => v.key.encoded) (fun _ _ => True) ∧
    OrderPreserving (fun vs : List IndexedValue => vs.map IndexedValue.key)
      (List.compareLex CanonicalKey.cmp) tupleCode (fun vs ws => vs.length = ws.length) ∧
    OrderPreserving (fun entry : List IndexedValue × BitVec 64 => (entry.1.map IndexedValue.key, entry.2))
      (fun key other => (List.compareLex CanonicalKey.cmp key.1 other.1).then (cmpUnsigned key.2 other.2))
      tupleWithId (fun entry other => entry.1.length = other.1.length) := by
  refine ⟨fun v capacity room => CanonicalKey.encode_eq_ok v.wellShaped room, ?_, ?_, ?_⟩
  · refine ⟨fun v w _ => (orderCode_indexed v w).compare_eq, fun v w _ same => ?_,
      fun v w _ begins => (orderCode_indexed v w).eq_of_isPrefix begins⟩
    exact IndexedValue.key_eq_of_cmp ((orderCode_indexed v w).eq_iff.mp same)
  · refine ⟨fun vs ws arity => (decides_tupleCode arity).compare_eq, fun vs ws arity same => ?_,
      fun vs ws arity begins => (decides_tupleCode arity).eq_of_isPrefix begins⟩
    exact keys_eq_of_compareLex ((decides_tupleCode arity).eq_iff.mp same)
  · have decides (entry other : List IndexedValue × BitVec 64) (arity : entry.1.length = other.1.length) :=
      (decides_tupleCode arity).append (orderCode_unsigned 8 entry.2 other.2)
    refine ⟨fun entry other arity => (decides entry other arity).compare_eq, fun entry other arity same => ?_,
      fun entry other arity begins => (decides entry other arity).eq_of_isPrefix begins⟩
    obtain ⟨keys, ids⟩ := then_eq_eq.mp ((decides entry other arity).eq_iff.mp same)
    exact Prod.ext (keys_eq_of_compareLex keys) (eq_of_cmpUnsigned ids)

end RedDB.Types
