import RedDB.Library.LittleEndian
import RedDB.Library.Program

namespace RedDB.Library

open List

structure ByteReader where
  rest : List UInt8
  tracked : List UInt8
  deriving DecidableEq

namespace ByteReader

variable {ε α β : Type}

/-- Read `n` bytes or fail with `eof`, which leaves nothing to read. -/
def readExact (eof : ε) (n : Nat) : Program ByteReader ε (List UInt8) := fun s =>
  if n ≤ s.rest.length then (.ok (s.rest.take n), { s with rest := s.rest.drop n })
  else (.error eof, { s with rest := [] })

def track (bytes : List UInt8) : Program ByteReader ε Unit :=
  Program.modify fun s => { s with tracked := s.tracked ++ bytes }

def trackedBytes : Program ByteReader ε (List UInt8) := fun s => (.ok s.tracked, s)

def readTracked (eof : ε) (n : Nat) : Program ByteReader ε (List UInt8) := do
  let bytes ← readExact eof n
  track bytes
  pure bytes

def readLe (eof : ε) (width : Nat) : Program ByteReader ε Nat := do
  pure (fromLeBytes (← readTracked eof width))

def repeatRead (m : Program ByteReader ε α) : Nat → Program ByteReader ε (List α)
  | 0 => pure []
  | n + 1 => do
    let a ← m
    let as ← repeatRead m n
    pure (a :: as)

/-- On an input that starts with `bytes` the program returns `value` and leaves what follows; on an
input that ends inside `bytes` it fails with `eof`. -/
structure Consumes (eof : ε) (m : Program ByteReader ε α) (tracked bytes : List UInt8) (value : α)
    (tracked' : List UInt8) : Prop where
  whole : ∀ rest, m ⟨bytes ++ rest, tracked⟩ = (.ok value, ⟨rest, tracked'⟩)
  cut : ∀ part, part <+: bytes → part ≠ bytes → ∃ s, m ⟨part, tracked⟩ = (.error eof, s)

section

variable {eof : ε} {tracked middle tracked' : List UInt8}

theorem consumes_pure (a : α) : Consumes eof (pure a) tracked [] a tracked where
  whole _ := rfl
  cut _ inside proper := absurd (prefix_nil.mp inside) proper

theorem consumes_trackedBytes : Consumes eof trackedBytes tracked [] tracked tracked where
  whole _ := rfl
  cut _ inside proper := absurd (prefix_nil.mp inside) proper

variable {bytes : List UInt8}

theorem Consumes.bind {m : Program ByteReader ε α} {f : α → Program ByteReader ε β}
    {first second : List UInt8} {a : α} {b : β} (left : Consumes eof m tracked first a middle)
    (right : Consumes eof (f a) middle second b tracked') (split : first ++ second = bytes) :
    Consumes eof (m >>= f) tracked bytes b tracked' where
  whole rest := by
    simp only [← split, Bind.bind, append_assoc, left.whole, right.whole]
  cut part inside proper := by
    subst split
    rcases prefix_or_prefix_of_prefix inside (prefix_append first second) with
      short | ⟨tail, rfl⟩
    · by_cases same : part = first
      · subst same
        have missing : ([] : List UInt8) ≠ second := by
          rintro rfl
          exact proper (append_nil _).symm
        obtain ⟨s, failed⟩ := right.cut [] nil_prefix missing
        refine ⟨s, ?_⟩
        have returned := left.whole []
        rw [append_nil] at returned
        simp only [Bind.bind, returned, failed]
      · obtain ⟨s, failed⟩ := left.cut part short same
        exact ⟨s, by simp only [Bind.bind, failed]⟩
    · have missing : tail ≠ second := by
        rintro rfl
        exact proper rfl
      obtain ⟨s, failed⟩ := right.cut tail ((prefix_append_right_inj first).mp inside) missing
      exact ⟨s, by simp only [Bind.bind, left.whole, failed]⟩

theorem Consumes.mapError {m : Program ByteReader ε α} {a : α} {f : ε → ε}
    (consumes : Consumes eof m tracked bytes a tracked') :
    Consumes (f eof) (Program.mapError f m) tracked bytes a tracked' where
  whole rest := by simp only [Program.mapError, consumes.whole]
  cut part inside proper := by
    obtain ⟨s, failed⟩ := consumes.cut part inside proper
    exact ⟨s, by simp only [Program.mapError, failed]⟩

variable {n : Nat}

theorem consumes_readExact (length : bytes.length = n) :
    Consumes eof (readExact eof n) tracked bytes bytes tracked where
  whole rest := by
    simp [readExact, ← length]
  cut part inside proper := by
    have short : ¬ n ≤ part.length := fun enough =>
      proper (inside.eq_of_length_le (length ▸ enough))
    exact ⟨_, if_neg short⟩

/-- As `Consumes`, where every byte read is tracked. -/
def Reads (eof : ε) (m : Program ByteReader ε α) (bytes : List UInt8) (value : α) : Prop :=
  ∀ tracked, Consumes eof m tracked bytes value (tracked ++ bytes)

theorem reads_pure (a : α) : Reads eof (pure a) [] a := fun tracked => by
  rw [append_nil]
  exact consumes_pure a

theorem reads_lift {result : Except ε α} {a : α} (returned : result = .ok a) :
    Reads eof (Program.lift result) [] a := by
  subst returned
  exact reads_pure a

theorem Reads.bind {m : Program ByteReader ε α} {f : α → Program ByteReader ε β}
    {first second : List UInt8} {a : α} {b : β} (left : Reads eof m first a)
    (right : Reads eof (f a) second b) (split : first ++ second = bytes) :
    Reads eof (m >>= f) bytes b := fun tracked => by
  rw [← split, ← append_assoc]
  exact (left tracked).bind (right (tracked ++ first)) rfl

theorem reads_readTracked (length : bytes.length = n) : Reads eof (readTracked eof n) bytes bytes := fun tracked => by
  have recorded : Consumes eof (track bytes >>= fun _ => pure bytes) tracked [] bytes
      (tracked ++ bytes) := {
    whole := fun _ => rfl
    cut := fun _ inside proper => absurd (prefix_nil.mp inside) proper }
  exact (consumes_readExact length).bind recorded (append_nil bytes)

theorem Reads.map {m : Program ByteReader ε α} {a : α} {b : β} {f : α → β}
    (reads : Reads eof m bytes a) (value : f a = b) :
    Reads eof (do pure (f (← m))) bytes b :=
  reads.bind (value ▸ reads_pure (f a)) (append_nil bytes)

theorem reads_readLe {width : Nat} (fits : n < 256 ^ width) : Reads eof (readLe eof width) (toLeBytes width n) n :=
  (reads_readTracked (length_toLeBytes width n)).map (fromLeBytes_toLeBytes fits)

theorem Reads.mapError {m : Program ByteReader ε α} {a : α} {f : ε → ε}
    (reads : Reads eof m bytes a) : Reads (f eof) (Program.mapError f m) bytes a :=
  fun tracked => (reads tracked).mapError

theorem reads_repeatRead {m : Program ByteReader ε α} {write : α → List UInt8} {items : List α}
    (reads : ∀ a ∈ items, Reads eof m (write a) a) :
    Reads eof (repeatRead m items.length) (items.flatMap write) items := by
  induction items with
  | nil => exact reads_pure []
  | cons a items ih =>
    have others := ih fun b listed => reads b (mem_cons_of_mem a listed)
    exact (reads a mem_cons_self).bind (others.map rfl) rfl

end

end ByteReader

end RedDB.Library
