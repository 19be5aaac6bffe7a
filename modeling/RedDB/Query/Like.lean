import RedDB.Library.Wildcard
import RedDB.Types.Value

namespace RedDB.Query

open List Library.Wildcard RedDB.Types Prod.Lex Nat WellFounded UInt8
open String (utf8EncodeChar)

def percentByte : UInt8 := 0x25

def underscoreByte : UInt8 := 0x5f

/-- Where the matcher stands: `value[vi..]`, `pattern[pi..]`, and for the last `%` seen `value[star_vi..]` with
`pattern[star_pi + 1..]`. The positions never fall behind those of the `%`. -/
structure LikeScan where
  value : List UInt8
  pattern : List UInt8
  star : Option (List UInt8 × List UInt8)
  behind : ∀ s ∈ star, value.length ≤ s.1.length ∧ pattern.length ≤ s.2.length

namespace LikeScan

def afterStar (value pattern : List UInt8) : LikeScan where
  value := value
  pattern := pattern
  star := some (value, pattern)
  behind s held := by
    cases held
    exact ⟨le_rfl, le_rfl⟩

def backtrack (star : Option (List UInt8 × List UInt8)) : Bool ⊕ LikeScan :=
  match star with
  | some (value, pattern) => .inr (afterStar value.tail pattern)
  | none => .inl false

def step (s : LikeScan) : Bool ⊕ LikeScan :=
  match s with
  | ⟨[], pattern, _, _⟩ => .inl (pattern.all (· == percentByte))
  | ⟨_ :: _, [], star, _⟩ => backtrack star
  | ⟨c :: value, p :: pattern, star, behind⟩ =>
    if p = underscoreByte ∨ p = c then
      .inr ⟨value, pattern, star, fun s held =>
        ⟨le_of_succ_le (behind s held).1, le_of_succ_le (behind s held).2⟩⟩
    else if p = percentByte then .inr (afterStar (c :: value) pattern)
    else backtrack star

def starPattern (s : LikeScan) : Nat := s.star.elim (s.pattern.length + 1) (·.2.length)

def starValue (s : LikeScan) : Nat := s.star.elim 0 (·.1.length)

def Sooner : LikeScan → LikeScan → Prop :=
  InvImage (Prod.Lex (· < ·) (Prod.Lex (· < ·) (· < ·))) fun s => (s.starPattern, s.starValue, s.value.length)

theorem backtrack_sooner {s next : LikeScan} (left : s.value ≠ []) (again : backtrack s.star = .inr next) :
    Sooner next s := by
  obtain ⟨value, pattern, star, behind⟩ := s
  cases star with
  | none => cases again
  | some saved =>
    obtain ⟨savedValue, savedPattern⟩ := saved
    cases again
    have ahead : value.length ≤ savedValue.length := (behind _ rfl).1
    have nonempty : 0 < value.length := length_pos_iff.mpr left
    refine right _ (Prod.Lex.left _ _ ?_)
    show savedValue.tail.length < savedValue.length
    rw [length_tail]
    omega

theorem step_sooner {s next : LikeScan} (taken : s.step = .inr next) : Sooner next s := by
  obtain ⟨value, pattern, star, behind⟩ := s
  cases value with
  | nil => cases taken
  | cons c value =>
    cases pattern with
    | nil => exact backtrack_sooner (cons_ne_nil _ _) taken
    | cons p pattern =>
      simp only [step] at taken
      split_ifs at taken with equal wild
      · cases taken
        cases star with
        | none => exact Prod.Lex.left _ _ (lt_succ_self _)
        | some saved => exact right _ (right _ (lt_succ_self _))
      · cases taken
        cases star with
        | none => exact Prod.Lex.left _ _ (lt_succ_of_lt (lt_succ_self _))
        | some saved => exact Prod.Lex.left _ _ (behind saved rfl).2
      · exact backtrack_sooner (cons_ne_nil _ _) taken

instance : WellFoundedRelation LikeScan where
  rel := Sooner
  wf := InvImage.wf _ (prod_lex lt_wfRel.wf (prod_lex lt_wfRel.wf lt_wfRel.wf))

def loop (s : LikeScan) : Bool :=
  match _taken : s.step with
  | .inl verdict => verdict
  | .inr next => loop next
  termination_by s
  decreasing_by exact step_sooner _taken

theorem loop_next {s next : LikeScan} (taken : s.step = .inr next) : s.loop = next.loop := by
  rw [loop]
  split <;> simp_all

end LikeScan

def likeMatchesBytes (value pattern : List UInt8) : Bool :=
  LikeScan.loop ⟨value, pattern, none, fun _ held => by cases held⟩

def likeMatches (value pattern : String) : Bool := likeMatchesBytes (asBytes value) (asBytes pattern)

namespace LikeScan

/-- The percent signs of the value are not taken for wildcards, and none is between the last wildcard and here. -/
structure Fair (s : LikeScan) : Prop where
  value : percentByte ∉ s.value
  star : ∀ saved ∈ s.star, percentByte ∉ saved.1 ∧ ∃ used run, saved.1 = used ++ s.value ∧
    saved.2 = run ++ s.pattern ∧ used.length = run.length ∧ percentByte ∉ run

def Accepts (s : LikeScan) : Prop :=
  Matches percentByte underscoreByte s.pattern s.value ∨
    ∃ saved ∈ s.star, MatchesLater percentByte underscoreByte saved.2 saved.1

def Resolves (s : LikeScan) : Bool ⊕ LikeScan → Prop
  | .inl verdict => verdict = true ↔ Accepts s
  | .inr next => Fair next ∧ (Accepts next ↔ Accepts s)

theorem fair_afterStar {value : List UInt8} (pattern : List UInt8) (clean : percentByte ∉ value) :
    Fair (afterStar value pattern) := by
  refine ⟨clean, fun saved held => ?_⟩
  cases held
  exact ⟨clean, [], [], rfl, rfl, rfl, not_mem_nil⟩

theorem accepts_afterStar (value pattern : List UInt8) :
    Accepts (afterStar value pattern) ↔ Matches percentByte underscoreByte (percentByte :: pattern) value := by
  rw [matches_any_iff_now_or_later]
  simp [Accepts, afterStar]

variable {s : LikeScan}

theorem backtrack_resolves (fair : Fair s) (left : s.value ≠ [])
    (mismatch : ¬ Matches percentByte underscoreByte s.pattern s.value) : Resolves s (backtrack s.star) := by
  cases seen : s.star with
  | none => simp [backtrack, Resolves, Accepts, mismatch, seen]
  | some saved =>
    obtain ⟨value, pattern⟩ := saved
    obtain ⟨clean, used, -, split, -⟩ := fair.star _ seen
    obtain ⟨c, rest, whole⟩ : ∃ c rest, value = c :: rest := exists_cons_of_ne_nil (by simp_all)
    subst whole
    refine ⟨fair_afterStar _ fun wild => clean (mem_cons_of_mem _ wild), ?_⟩
    rw [accepts_afterStar]
    simp [Accepts, mismatch, seen, matchesLater_cons]

variable {saved : List UInt8 × List UInt8}

theorem matches_of_earlier (fair : Fair s) {pattern : List UInt8}
    (wild : s.pattern = percentByte :: pattern) (held : saved ∈ s.star)
    (later : MatchesLater percentByte underscoreByte saved.2 saved.1) :
    Matches percentByte underscoreByte s.pattern s.value := by
  obtain ⟨-, used, run, whole, rest, even, plain⟩ := fair.star saved held
  obtain ⟨skipped, left, split, nonempty, matched⟩ := later
  rw [rest] at matched
  obtain ⟨taken, last, rfl, length, matched⟩ := matches_append plain matched
  rw [wild] at matched ⊢
  obtain ⟨gap, final, rfl, ends⟩ := matches_any.mp matched
  refine matches_any.mpr ⟨(skipped ++ taken ++ gap).drop used.length, final, ?_, ends⟩
  have enough : used.length ≤ (skipped ++ taken ++ gap).length := by
    simp only [length_append]
    omega
  have cut : (used ++ s.value).drop used.length = (skipped ++ taken ++ gap ++ final).drop used.length := by
    rw [← whole, split]
    simp
  rwa [drop_left, drop_append_of_le_length enough] at cut

theorem not_later_at_end (fair : Fair s) (ended : s.value = [])
    (held : saved ∈ s.star) : ¬ MatchesLater percentByte underscoreByte saved.2 saved.1 := by
  intro later
  obtain ⟨-, used, run, whole, rest, even, plain⟩ := fair.star saved held
  obtain ⟨skipped, left, split, nonempty, matched⟩ := later
  rw [rest] at matched
  obtain ⟨taken, last, rfl, length, -⟩ := matches_append plain matched
  have lengths := congrArg List.length (whole.symm.trans split)
  have some_ := length_pos_iff.mpr nonempty
  simp only [ended, length_append, length_nil] at lengths
  omega

theorem Fair.advance {next : LikeScan} {c p : UInt8} (fair : Fair s) (value : s.value = c :: next.value)
    (pattern : s.pattern = p :: next.pattern) (star : s.star = next.star) (plain : p ≠ percentByte) : Fair next := by
  refine ⟨fun wild => fair.value (value ▸ mem_cons_of_mem _ wild), fun saved held => ?_⟩
  obtain ⟨clean, used, run, whole, rest, even, free⟩ := fair.star saved (star ▸ held)
  refine ⟨clean, used ++ [c], run ++ [p], by simp [whole, value], by simp [rest, pattern], by simp [even], ?_⟩
  simp [free, plain.symm]

theorem step_resolves (fair : Fair s) : Resolves s s.step := by
  obtain ⟨value, pattern, star, behind⟩ := s
  cases value with
  | nil =>
    have ended : Accepts ⟨[], pattern, star, behind⟩ ↔ Matches percentByte underscoreByte pattern [] :=
      or_iff_left fun ⟨saved, held, later⟩ => not_later_at_end fair rfl held later
    show pattern.all (· == percentByte) = true ↔ _
    rw [ended, matches_empty_text]
    simp
  | cons c value =>
    obtain ⟨notWild, clean⟩ := ne_and_not_mem_of_not_mem_cons fair.value
    cases pattern with
    | nil => exact backtrack_resolves fair (cons_ne_nil _ _) (by simp)
    | cons p pattern =>
      simp only [step]
      split_ifs with equal wild
      · have plain : p ≠ percentByte := by
          rcases equal with rfl | rfl
          · decide
          · exact Ne.symm notWild
        refine ⟨fair.advance rfl rfl rfl plain, or_congr_left ?_⟩
        simp [matches_symbol plain, equal]
      · subst wild
        refine ⟨fair_afterStar _ fair.value, ?_⟩
        rw [accepts_afterStar]
        refine ⟨.inl, fun accepts => accepts.elim id fun earlier => ?_⟩
        obtain ⟨saved, held, later⟩ := earlier
        exact matches_of_earlier fair rfl held later
      · refine backtrack_resolves fair (cons_ne_nil _ _) fun matched => equal ?_
        obtain ⟨d, rest, split, same, -⟩ := (matches_symbol wild).mp matched
        obtain ⟨rfl, -⟩ := cons_eq_cons.mp split
        exact same

theorem loop_iff (fair : Fair s) : loop s = true ↔ Accepts s := by
  fun_induction loop s with
  | case1 s verdict taken =>
    have resolved := step_resolves fair
    rwa [taken] at resolved
  | case2 s next taken ih =>
    have resolved := step_resolves fair
    rw [taken] at resolved
    exact (ih resolved.1).trans resolved.2

end LikeScan

theorem likeMatchesBytes_iff {value : List UInt8} (pattern : List UInt8) (clean : percentByte ∉ value) :
    likeMatchesBytes value pattern = true ↔ Matches percentByte underscoreByte pattern value := by
  unfold likeMatchesBytes
  rw [LikeScan.loop_iff ⟨clean, fun _ held => by cases held⟩]
  simp [LikeScan.Accepts]

section

theorem asBytes_eq (s : String) : asBytes s = s.toList.flatMap utf8EncodeChar := by
  rw [asBytes, String.toUTF8, ← String.utf8Encode_toList]
  simp [List.utf8Encode]

def IsAscii (c : Char) : Prop := c.toNat < 128

def asciiByte (c : Char) : UInt8 := ofNat c.toNat

variable {c : Char}

theorem encode_ascii (ascii : IsAscii c) : utf8EncodeChar c = [asciiByte c] := if_pos (le_of_lt_succ ascii)

theorem encode_all {value : List Char} (ascii : ∀ c ∈ value, IsAscii c) :
    value.flatMap utf8EncodeChar = value.map asciiByte := by
  rw [map_eq_flatMap]
  exact flatMap_congr fun c member => encode_ascii (ascii c member)

theorem toNat_asciiByte (ascii : IsAscii c) : (asciiByte c).toNat = c.toNat := by
  rw [asciiByte, toNat_ofNat']
  unfold IsAscii at ascii
  omega

theorem asciiByte_inj {d : Char} (ascii : IsAscii c) (other : IsAscii d) : asciiByte c = asciiByte d ↔ c = d := by
  refine ⟨fun same => ?_, congrArg _⟩
  have codes := congrArg UInt8.toNat same
  rw [toNat_asciiByte ascii, toNat_asciiByte other] at codes
  exact Char.toNat_inj.mp codes

theorem encode_other (other : ¬ IsAscii c) : ∃ first rest, utf8EncodeChar c = first :: rest ∧ 128 ≤ first.toNat := by
  have large : ¬ c.val.toNat ≤ 127 := fun small => other (lt_succ_of_le small)
  unfold utf8EncodeChar
  rw [if_neg large]
  split_ifs
  all_goals
    refine ⟨_, _, rfl, ?_⟩
    rw [toNat_ofNat']
    omega

theorem percent_ascii : IsAscii '%' := by unfold IsAscii; decide

theorem underscore_ascii : IsAscii '_' := by unfold IsAscii; decide

theorem encode_plain (plain : c ≠ '%') : ∃ first rest, utf8EncodeChar c = first :: rest ∧ first ≠ percentByte := by
  by_cases small : IsAscii c
  · exact ⟨_, [], encode_ascii small, (asciiByte_inj small percent_ascii).not.mpr plain⟩
  · obtain ⟨first, rest, encoded, large⟩ := encode_other small
    refine ⟨first, rest, encoded, ?_⟩
    rintro rfl
    exact absurd large (by decide)

theorem bytes_matches {value : List Char} (ascii : ∀ c ∈ value, IsAscii c) (pattern : List Char) :
    Matches percentByte underscoreByte (pattern.flatMap utf8EncodeChar) (value.map asciiByte) ↔
      Matches '%' '_' pattern value := by
  induction pattern generalizing value with
  | nil => simp
  | cons p pattern ih =>
    rw [flatMap_cons]
    by_cases wild : p = '%'
    · subst wild
      show Matches percentByte underscoreByte (percentByte :: _) _ ↔ _
      rw [matches_any, matches_any]
      constructor
      · rintro ⟨run, rest, split, matched⟩
        obtain ⟨before, after, rfl, rfl, rfl⟩ := map_eq_append_iff.mp split
        exact ⟨before, after, rfl, (ih fun c member => ascii c (mem_append_right _ member)).mp matched⟩
      · rintro ⟨run, rest, rfl, matched⟩
        exact ⟨_, _, map_append, (ih fun c member => ascii c (mem_append_right _ member)).mpr matched⟩
    · cases value with
      | nil =>
        obtain ⟨first, rest, encoded, plain⟩ := encode_plain wild
        simp [encoded, matches_symbol plain, matches_symbol wild]
      | cons d value =>
        obtain ⟨here, later⟩ := forall_mem_cons.mp ascii
        by_cases small : IsAscii p
        · have plain : asciiByte p ≠ percentByte := (asciiByte_inj small percent_ascii).not.mpr wild
          have same : (asciiByte p = underscoreByte ∨ asciiByte p = asciiByte d) ↔ (p = '_' ∨ p = d) :=
            or_congr (asciiByte_inj small underscore_ascii) (asciiByte_inj small here)
          simp [encode_ascii small, matches_symbol plain, matches_symbol wild, same, ih later]
        · obtain ⟨first, rest, encoded, large⟩ := encode_other small
          have plain : first ≠ percentByte := by rintro rfl; exact absurd large (by decide)
          have never : ¬ (first = underscoreByte ∨ first = asciiByte d) := by
            rintro (rfl | rfl)
            · exact absurd large (by decide)
            · rw [toNat_asciiByte here] at large
              exact absurd here (not_lt.mpr large)
          have neither : ¬ (p = '_' ∨ p = d) := by
            rintro (rfl | rfl)
            · exact small underscore_ascii
            · exact small here
          simp [encoded, matches_symbol plain, matches_symbol wild, never, neither]

theorem likeMatches_plain {value : String} (ascii : ∀ c ∈ value.toList, c.toNat < 128) (clean : '%' ∉ value.toList)
    (pattern : String) : likeMatches value pattern = true ↔ Matches '%' '_' pattern.toList value.toList := by
  have absent : percentByte ∉ value.toList.map asciiByte := by
    intro wild
    obtain ⟨c, member, same⟩ := mem_map.mp wild
    exact clean ((asciiByte_inj (d := '%') (ascii c member) percent_ascii).mp same ▸ member)
  rw [likeMatches, asBytes_eq, encode_all ascii, likeMatchesBytes_iff _ absent, asBytes_eq, bytes_matches ascii]

/-- Up to the first wildcard of the pattern an underscore takes one byte, and nothing can be given back. -/
theorem loop_underscores {value : List UInt8} {n : Nat} (other : value.length ≠ n) :
    likeMatchesBytes value (replicate n underscoreByte) = false := by
  unfold likeMatchesBytes
  induction n generalizing value with
  | zero =>
    obtain ⟨c, value, rfl⟩ := exists_cons_of_ne_nil (ne_nil_of_length_pos (Nat.pos_of_ne_zero other))
    simp [LikeScan.loop, LikeScan.step, LikeScan.backtrack]
  | succ n ih =>
    rw [LikeScan.loop]
    cases value with
    | nil => simp [LikeScan.step, replicate_succ, underscoreByte, percentByte]
    | cons c value => simpa [LikeScan.step, replicate_succ] using ih (by simpa using other)

theorem loop_literals (literals value pattern : List UInt8) :
    likeMatchesBytes (literals ++ value) (literals ++ pattern) = likeMatchesBytes value pattern := by
  unfold likeMatchesBytes
  induction literals with
  | nil => rfl
  | cons c literals ih =>
    rw [← ih]
    exact LikeScan.loop_next (if_pos (.inr rfl))

theorem matches_underscores {n : Nat} {text : List Char} (length : text.length = n) :
    Matches '%' '_' (replicate n '_') text := by
  induction n generalizing text with
  | zero => simpa using length
  | succ n ih =>
    obtain ⟨c, text, rfl⟩ := exists_cons_of_ne_nil (ne_nil_of_length_eq_add_one length)
    rw [replicate_succ, matches_symbol (by decide)]
    exact ⟨c, text, rfl, .inl rfl, ih (by simpa using length)⟩

theorem matches_literals {literals text pattern : List Char} (plain : '%' ∉ literals)
    (matched : Matches '%' '_' pattern text) : Matches '%' '_' (literals ++ pattern) (literals ++ text) := by
  induction literals with
  | nil => exact matched
  | cons c literals ih =>
    obtain ⟨other, plain⟩ := ne_and_not_mem_of_not_mem_cons plain
    exact (matches_symbol other.symm).mpr ⟨c, _, rfl, .inr rfl, ih plain⟩

theorem encode_length_ne {value : List Char} {c : Char} (member : c ∈ value) (other : ¬ IsAscii c) :
    (value.flatMap utf8EncodeChar).length ≠ value.length := by
  obtain ⟨before, after, rfl⟩ := append_of_mem member
  have longer : 2 ≤ (utf8EncodeChar c).length := by
    have large : ¬ c.val.toNat ≤ 127 := fun small => other (lt_succ_of_le small)
    unfold utf8EncodeChar
    rw [if_neg large]
    split_ifs <;> simp
  have least (part : List Char) : part.length ≤ (part.flatMap utf8EncodeChar).length := by
    induction part with
    | nil => exact le_rfl
    | cons d part ih =>
      have pos := Char.utf8Size_pos d
      rw [← String.length_utf8EncodeChar] at pos
      rw [flatMap_cons, length_append, length_cons]
      omega
  have first := least before
  have last := least after
  simp only [flatMap_append, flatMap_cons, length_append, length_cons]
  omega

/-- The texts on which every pattern is matched as declared: with a letter of more than one byte as many underscores
    as the text has characters fail, and with a percent sign the pattern that puts it before one underscore for each
    character left. -/
theorem likeMatches_iff (value : String) :
    (∀ pattern : String, likeMatches value pattern = true ↔ Matches '%' '_' pattern.toList value.toList) ↔
      (∀ c ∈ value.toList, c.toNat < 128) ∧ '%' ∉ value.toList := by
  refine ⟨fun declared => ?_, fun plain => likeMatches_plain plain.1 plain.2⟩
  have encoded (pattern : List Char) : likeMatches value (.ofList pattern) =
      likeMatchesBytes (value.toList.flatMap utf8EncodeChar) (pattern.flatMap utf8EncodeChar) := by
    rw [likeMatches, asBytes_eq, asBytes_eq, String.toList_ofList]
  have underscores (n : Nat) : (replicate n '_').flatMap utf8EncodeChar = replicate n underscoreByte := by
    rw [encode_all fun c member => eq_of_mem_replicate member ▸ underscore_ascii, map_replicate]
    rfl
  have ascii : ∀ c ∈ value.toList, IsAscii c := by
    by_contra large
    obtain ⟨c, member, other⟩ : ∃ c ∈ value.toList, ¬ IsAscii c := by simpa using large
    have accepted := (declared (.ofList (replicate value.toList.length '_'))).mpr
      (by rw [String.toList_ofList]; exact matches_underscores rfl)
    rw [encoded, underscores, loop_underscores (encode_length_ne member other)] at accepted
    cases accepted
  refine ⟨ascii, fun wild => ?_⟩
  obtain ⟨before, after, split, clear⟩ := eq_append_cons_of_mem wild
  rw [split] at encoded ascii
  have accepted := (declared (.ofList (before ++ '%' :: replicate (after.length + 1) '_'))).mpr (by
    rw [String.toList_ofList, split]
    exact matches_literals clear (matches_any.mpr ⟨[], _, rfl, matches_underscores rfl⟩))
  rw [encoded, flatMap_append, flatMap_append, loop_literals] at accepted
  have literal := loop_literals (utf8EncodeChar '%') (after.flatMap utf8EncodeChar)
    (replicate (after.length + 1) underscoreByte)
  rw [flatMap_cons, flatMap_cons, underscores, literal, loop_underscores] at accepted
  · cases accepted
  · rw [encode_all fun c member => ascii c (by simp [member]), length_map]
    omega

/-- A percent sign of the text is taken for the one of the pattern, and a letter of two bytes for two. -/
theorem likeMatches_misses : (likeMatches "%a" "%" = false ∧ Matches '%' '_' "%".toList "%a".toList) ∧
      likeMatches "é" "_" = false ∧ Matches '%' '_' "_".toList "é".toList := by
  have percent : asBytes "%a" = [0x25, 0x61] ∧ asBytes "%" = [0x25] := by decide
  have letter : asBytes "é" = [0xc3, 0xa9] ∧ asBytes "_" = [0x5f] := by decide
  refine ⟨⟨?_, matches_any.mpr ⟨"%a".toList, [], rfl, rfl⟩⟩, ?_, ?_⟩
  · simp [likeMatches, likeMatchesBytes, percent, LikeScan.loop, LikeScan.step, LikeScan.backtrack]
  · simp [likeMatches, likeMatchesBytes, letter, LikeScan.loop, LikeScan.step, LikeScan.backtrack, underscoreByte]
  · exact (matches_symbol (by decide)).mpr ⟨'é', [], rfl, .inl rfl, rfl⟩

end

end RedDB.Query
