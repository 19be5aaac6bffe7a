import RedDB.Queue.Commands
import RedDB.Queue.StoreSpec

namespace RedDB.Queue

open List Library RedDB.Types Fallible LifecycleConfig

section

variable {α β : Type} {onOk : α → QueueData → Prop} {onError : QueueStoreError → QueueData → Prop} {s : QueueData}

abbrev Runs (onOk : α → QueueData → Prop) (onError : QueueStoreError → QueueData → Prop) (p : QueueIo α)
    (s : QueueData) : Prop :=
  Fallible.wp act (fun _ _ => True) onOk onError p s

variable {p : QueueIo α} {o : StoreOp}

theorem runs_perform {onOk : Reply o → QueueData → Prop} (holds : onOk (act o s).1 (act o s).2) :
    Runs onOk onError (perform o) s := ⟨trivial, holds⟩

theorem runs_bind {f : α → QueueIo β} {onOk : β → QueueData → Prop}
    (first : Runs (fun a => Runs onOk onError (f a)) onError p s) : Runs onOk onError (p >>= f) s :=
  (wp_bind p f).mpr first

theorem runs_then {f : Reply o → QueueIo β} {onOk : β → QueueData → Prop}
    (next : Runs onOk onError (f (act o s).1) (act o s).2) : Runs onOk onError (perform o >>= f) s :=
  runs_bind (runs_perform next)

theorem runs_map {f : α → β} {onOk : β → QueueData → Prop}
    (first : Runs (fun a => onOk (f a)) onError p s) : Runs onOk onError (f <$> p) s :=
  runs_bind first

theorem Runs.mono {onOk' : α → QueueData → Prop} {onError' : QueueStoreError → QueueData → Prop}
    (holds : Runs onOk onError p s) (ok : ∀ a t, onOk a t → onOk' a t) (error : ∀ e t, onError e t → onError' e t) :
    Runs onOk' onError' p s :=
  wp.mono holds (fun _ _ => id) ok error

end

variable {deliveryId messageId : Nat} {onDone : Unit → QueueData → Prop}

namespace Message

def core (message : Message) : String × Nat × Value × Nat :=
  (message.queue, message.id, message.payload, message.maxAttempts)

end Message

namespace QueueData

variable {s : QueueData}

def cores (s : QueueData) : List (String × Nat × Value × Nat) := s.messages.map Message.core

theorem cores_update (queue : String) (id : Nat) {f : Message → Message}
    (same : ∀ message, (f message).core = message.core) : (s.updateMessage queue id f).cores = s.cores := by
  simp only [cores, updateMessage, map_map]
  refine map_congr_left fun message _ => ?_
  simp only [Function.comp]
  split
  · exact same message
  · rfl

theorem cores_setAttempts (queue : String) (id attempts : Nat) (s : QueueData) :
    (act (.setAttempts queue id attempts) s).2.cores = s.cores := cores_update queue id fun _ => rfl

theorem cores_setMetadata (queue : String) (id : Nat) (due : Option Nat) (key : Option String) (s : QueueData) :
    (act (.setMetadata queue id due key) s).2.cores = s.cores := cores_update queue id fun _ => rfl

theorem mem_cores_remove {queue : String} {id : Nat} {core : String × Nat × Value × Nat} :
    core ∈ (s.removeMessage queue id).cores ↔ core ∈ s.cores ∧ ¬ (core.1 = queue ∧ core.2.1 = id) := by
  simp only [cores, removeMessage, mem_map, mem_filter]
  constructor
  · rintro ⟨message, ⟨held, other⟩, rfl⟩
    refine ⟨⟨message, held, rfl⟩, fun same => ?_⟩
    have queueSame : message.queue = queue := same.1
    have idSame : message.id = id := same.2
    simp [queueSame, idSame] at other
  · rintro ⟨⟨message, held, rfl⟩, other⟩
    refine ⟨message, ⟨held, ?_⟩, rfl⟩
    by_contra same
    simp only [Bool.not_eq_true', Bool.not_eq_false, Bool.and_eq_true, beq_iff_eq] at same
    exact other same

theorem cores_add (queue : String) (position : Nat) (payload : Value) (maxAttempts : Nat) :
    (s.addMessage queue position payload maxAttempts).cores = s.cores ++ [(queue, s.nextId, payload, maxAttempts)] := by
  simp [cores, addMessage, Message.core]

theorem find_some {queue : String} {id : Nat} {message : Message} (found : s.find queue id = some message) :
    message ∈ s.messages ∧ message.queue = queue ∧ message.id = id := by
  have held := mem_of_find?_eq_some found
  have matched := find?_some found
  simp only [Bool.and_eq_true, beq_iff_eq] at matched
  exact ⟨held, matched⟩

end QueueData

section

variable {s : QueueData} {α : Type} {onError : QueueStoreError → QueueData → Prop}

theorem runs_dropRow {entry : Nat × MetaRow}
    (holds : onDone () (s.removeRow entry.1 entry.2)) : Runs onDone onError (dropRow entry) s := by
  obtain ⟨id, row⟩ := entry
  cases row <;> exact runs_perform holds

theorem runs_dropRows {entries : List (Nat × MetaRow)}
    (holds : onDone () { s with rows := s.rows.filter (· ∉ entries) }) :
    Runs onDone onError (entries.forM dropRow) s := by
  induction entries generalizing s with
  | nil =>
    have all : s.rows.filter (· ∉ ([] : List (Nat × MetaRow))) = s.rows := by simp
    rw [all] at holds
    exact holds
  | cons entry entries ih =>
    refine runs_bind (runs_dropRow (ih ?_))
    have both : (s.removeRow entry.1 entry.2).rows.filter (· ∉ entries) = s.rows.filter (· ∉ entry :: entries) := by
      simp only [QueueData.removeRow, filter_filter]
      refine filter_congr fun e _ => ?_
      simp [Bool.and_comm]
    rw [both]
    exact holds

def QueueData.NoDelivery (s : QueueData) (deliveryId : Nat) : Prop :=
  ∀ id row, (id, .pending row) ∈ s.rows → row.deliveryId ≠ deliveryId

theorem runs_findPendingByDelivery {onOk : Option (Nat × PendingRow) → QueueData → Prop}
    (found : ∀ id row, (id, .pending row) ∈ s.rows → row.deliveryId = deliveryId → onOk (some (id, row)) s)
    (absent : s.NoDelivery deliveryId → onOk none s) :
    Runs onOk onError (findPendingByDelivery deliveryId) s := by
  unfold findPendingByDelivery
  refine runs_then ?_
  change onOk ((s.delivery deliveryId).findSome? _) s
  cases first : (s.delivery deliveryId).findSome? fun entry => entry.2.pending?.map (entry.1, ·) with
  | none =>
    refine absent fun id row held same => ?_
    have listed := QueueData.mem_delivery.mpr ⟨held, row, rfl, same⟩
    have missing := findSome?_eq_none_iff.mp first _ listed
    simp [MetaRow.pending?] at missing
  | some pair =>
    obtain ⟨entry, listed, read⟩ := exists_of_findSome?_eq_some first
    obtain ⟨held, row, pending, same⟩ := QueueData.mem_delivery.mp listed
    obtain ⟨id, stored⟩ := entry
    obtain rfl : stored = .pending row := pending
    simp only [MetaRow.pending?, Option.map_some, Option.some.injEq] at read
    subst read
    exact found id row held same

theorem runs_requirePending {onOk : Nat × PendingRow → QueueData → Prop}
    (found : ∀ id row, (id, .pending row) ∈ s.rows → row.deliveryId = deliveryId → onOk (id, row) s)
    (absent : s.NoDelivery deliveryId → onError (.unknownDelivery deliveryId) s) :
    Runs onOk onError (requirePending deliveryId) s :=
  runs_bind (runs_findPendingByDelivery found absent)

variable {queue group : String}

theorem runs_findPendingEntryByKey {onOk : Option (Nat × PendingRow) → QueueData → Prop}
    (found : ∀ id row, (id, .pending row) ∈ s.rows → row.queue = queue → row.group = group →
      row.messageId = messageId → onOk (some (id, row)) s)
    (absent : onOk none s) : Runs onOk onError (findPendingEntryByKey queue messageId group) s := by
  unfold findPendingEntryByKey
  refine runs_then ?_
  change onOk ((s.subject .pending queue (some group) (some messageId)).head?.bind _) s
  cases first : s.subject .pending queue (some group) (some messageId) with
  | nil => exact absent
  | cons entry rest =>
    have member : entry ∈ s.subject .pending queue (some group) (some messageId) := first ▸ mem_cons_self
    obtain ⟨held, kind, ownQueue, ownGroup, ownMessage⟩ := QueueData.mem_subject.mp member
    obtain ⟨id, row⟩ := entry
    cases row with
    | pending row => exact found id row held ownQueue (ownGroup group rfl) (ownMessage messageId rfl)
    | acked => cases kind
    | attempts => cases kind

theorem runs_readAttempts {onOk : Nat → QueueData → Prop}
    (holds : ∀ k, (k = 0 ∨ ∃ id, (id, .attempts queue group messageId k) ∈ s.rows) → onOk k s) :
    Runs onOk onError (readAttempts queue messageId group) s := by
  unfold readAttempts
  refine runs_then ?_
  change onOk (((s.subject .attempts queue (some group) (some messageId)).head?.bind _).getD 0) s
  apply holds
  cases first : s.subject .attempts queue (some group) (some messageId) with
  | nil => exact .inl rfl
  | cons entry rest =>
    have member : entry ∈ s.subject .attempts queue (some group) (some messageId) := first ▸ mem_cons_self
    obtain ⟨held, kind, ownQueue, ownGroup, ownMessage⟩ := QueueData.mem_subject.mp member
    obtain ⟨id, row⟩ := entry
    cases row with
    | attempts q g m k =>
      obtain rfl : q = queue := ownQueue
      obtain rfl : g = group := ownGroup group rfl
      obtain rfl : m = messageId := ownMessage messageId rfl
      exact .inr ⟨id, held⟩
    | pending => cases kind
    | acked => cases kind

end

section

def PendingRow.SameKey (row other : PendingRow) : Prop :=
  row.queue = other.queue ∧ row.group = other.group ∧ row.messageId = other.messageId

/-- The rows of the store are about messages that `known` allows, and delivery ids identify deliveries. -/
structure Backed (known : String → Nat → Prop) (s : QueueData) : Prop where
  rows : ∀ entry ∈ s.rows, known entry.2.queue entry.2.messageId
  same : ∀ id row id' row', (id, .pending row) ∈ s.rows → (id', .pending row') ∈ s.rows →
    row.deliveryId = row'.deliveryId → row.SameKey row'
  issued : ∀ id row, (id, .pending row) ∈ s.rows → row.deliveryId < s.nextDelivery
  numbered : s.Numbered
  homes : ∀ message ∈ s.messages, message.queue ∈ s.queues

variable {known : String → Nat → Prop} {s t : QueueData}

structure Thinner (s t : QueueData) : Prop where
  rows : ∀ entry ∈ t.rows, entry ∈ s.rows
  delivery : t.nextDelivery = s.nextDelivery
  numbered : t.Numbered
  homes : ∀ message ∈ t.messages, message.queue ∈ t.queues

theorem Backed.thinner (backed : Backed known s) (thinner : Thinner s t) : Backed known t where
  rows entry held := backed.rows entry (thinner.rows entry held)
  same id row id' row' held held' := backed.same id row id' row' (thinner.rows _ held) (thinner.rows _ held')
  issued id row held := thinner.delivery ▸ backed.issued id row (thinner.rows _ held)
  numbered := thinner.numbered
  homes := thinner.homes

theorem Backed.mono {wider : String → Nat → Prop} (backed : Backed known s)
    (weaker : ∀ q m, known q m → wider q m) : Backed wider s :=
  ⟨fun entry held => weaker _ _ (backed.rows entry held), backed.same, backed.issued, backed.numbered, backed.homes⟩

theorem numbered_of_cores (numbered : s.Numbered) (same : t.cores = s.cores) (later : s.nextId ≤ t.nextId) :
    t.Numbered := by
  have ids : t.messages.map (·.id) = s.messages.map (·.id) := by
    have second := congrArg (List.map (·.2.1)) same
    simp only [QueueData.cores, map_map] at second
    exact second
  refine ⟨ids ▸ numbered.distinct, fun message held => ?_⟩
  have listed : message.id ∈ s.messages.map (·.id) := ids ▸ mem_map_of_mem held
  obtain ⟨old, member, sameId⟩ := mem_map.mp listed
  exact (sameId ▸ numbered.below old member).trans_le later

theorem homes_of_cores (homes : ∀ message ∈ s.messages, message.queue ∈ s.queues) (same : t.cores = s.cores)
    (wider : s.queues ⊆ t.queues) : ∀ message ∈ t.messages, message.queue ∈ t.queues := by
  intro message held
  have listed : message.core ∈ s.cores := same ▸ mem_map_of_mem held
  obtain ⟨old, member, sameCore⟩ := mem_map.mp listed
  have queueSame : old.queue = message.queue := congrArg Prod.fst sameCore
  exact queueSame ▸ wider (homes old member)

end

section

variable {s : QueueData} {onError : QueueStoreError → QueueData → Prop}

structure Counted (s t : QueueData) (queue group : String) (messageId attempts : Nat) : Prop where
  cores : t.cores = s.cores
  queues : t.queues = s.queues
  nextId : s.nextId ≤ t.nextId
  delivery : t.nextDelivery = s.nextDelivery
  rows : ∀ entry ∈ t.rows, entry ∈ s.rows ∨ entry.2 = .attempts queue group messageId attempts
  pending : ∀ id row, (id, .pending row) ∈ s.rows → (id, .pending row) ∈ t.rows

theorem runs_writeAttempts {queue group : String} {messageId attempts : Nat}
    (holds : ∀ t, Counted s t queue group messageId attempts → onDone () t) :
    Runs onDone onError (writeAttempts queue messageId group attempts) s := by
  unfold writeAttempts clearAttempts
  refine runs_bind (runs_then (runs_dropRows (runs_then (runs_then ?_))))
  have counted : Counted s
      ({ s with rows := s.rows.filter (· ∉ s.subject .attempts queue (some group) (some messageId)) }.addRow
        (.attempts queue group messageId attempts)) queue group messageId attempts := by
    refine ⟨rfl, rfl, Nat.le_succ _, rfl, fun entry held => ?_, fun id row held => ?_⟩
    · rcases QueueData.mem_addRow.mp held with old | new
      · exact .inl (mem_of_mem_filter old)
      · exact .inr (congrArg Prod.snd new)
    · refine QueueData.mem_addRow.mpr (.inl (mem_filter.mpr ⟨held, decide_eq_true ?_⟩))
      intro listed
      have kind := (QueueData.mem_subject.mp listed).2.1
      cases kind
  split
  · refine runs_perform (holds _ ?_)
    exact ⟨(QueueData.cores_setAttempts _ _ _ _).trans counted.cores, counted.queues, counted.nextId,
      counted.delivery, counted.rows, counted.pending⟩
  · exact holds _ counted

theorem runs_bumpAttempt {onOk : BumpedAttempt → QueueData → Prop}
    (found : ∀ id row, (id, .pending row) ∈ s.rows → row.deliveryId = deliveryId → ∀ attempts t,
      Counted s t row.queue row.group row.messageId attempts →
      1 ≤ attempts ∧ (2 ≤ attempts → ∃ id k, (id, .attempts row.queue row.group row.messageId k) ∈ s.rows) →
        onOk ⟨attempts, row.queue, row.messageId, row.group, row.consumer⟩ t)
    (absent : s.NoDelivery deliveryId → onError (.unknownDelivery deliveryId) s) :
    Runs onOk onError (bumpAttempt deliveryId) s := by
  unfold bumpAttempt
  refine runs_bind (runs_requirePending (fun id row held same => ?_) absent)
  refine runs_bind (runs_readAttempts fun k origin => runs_bind (runs_writeAttempts fun t counted => ?_))
  refine found id row held same _ t counted ⟨le_min (Nat.le_add_left 1 k) (by decide), fun twice => ?_⟩
  rcases origin with rfl | ⟨id, stored⟩
  · exact absurd twice (by decide)
  · exact ⟨id, k, stored⟩

end

section

variable {s : QueueData} {onError : QueueStoreError → QueueData → Prop}

structure Retired (s t : QueueData) (queue : String) (messageId : Nat) : Prop where
  messages : t.messages = (s.removeMessage queue messageId).messages
  queues : t.queues = s.queues
  nextId : t.nextId = s.nextId
  delivery : t.nextDelivery = s.nextDelivery
  rows : ∀ entry ∈ t.rows, entry ∈ s.rows ∧ ¬ (entry.2.queue = queue ∧ entry.2.messageId = messageId)

variable {queue : String}

theorem runs_retireMessage (holds : ∀ t, Retired s t queue messageId → onDone () t) :
    Runs onDone onError (retireMessage queue messageId) s := by
  unfold retireMessage removeMessageState
  refine runs_bind (runs_then (runs_then (runs_then (runs_dropRows (runs_perform (holds _ ?_))))))
  refine ⟨rfl, rfl, rfl, rfl, fun entry held => ?_⟩
  obtain ⟨stored, dropped⟩ := mem_filter.mp held
  refine ⟨stored, fun about => of_decide_eq_true dropped ?_⟩
  -- every kind of row about the message is in one of the three lists
  have listed : ∀ kind, entry.2.kind = kind → entry ∈ s.subject kind queue none (some messageId) := by
    intro kind same
    refine QueueData.mem_subject.mpr ⟨stored, same, about.1, nofun, ?_⟩
    rintro m ⟨⟩
    exact about.2
  cases kind : entry.2.kind with
  | pending => exact mem_append_left _ (mem_append_left _ (listed _ kind))
  | acked => exact mem_append_left _ (mem_append_right _ (listed _ kind))
  | attempts => exact mem_append_right _ (listed _ kind)

theorem runs_clearAttempts {group : String}
    (holds : ∀ rows, (∀ entry ∈ rows, entry ∈ s.rows) → onDone () { s with rows }) :
    Runs onDone onError (clearAttempts queue messageId group) s := by
  unfold clearAttempts
  exact runs_then (runs_dropRows (holds _ fun entry held => mem_of_mem_filter held))

theorem runs_ackPending (found : ∀ id row, (id, .pending row) ∈ s.rows → row.deliveryId = deliveryId →
      ∀ t, Retired s t row.queue row.messageId → onDone () t)
    (absent : s.NoDelivery deliveryId → onError (.unknownDelivery deliveryId) s) :
    Runs onDone onError (ackPending deliveryId) s := by
  unfold ackPending
  refine runs_bind (runs_requirePending (fun id row held same => ?_) absent)
  refine runs_then (runs_bind (runs_clearAttempts fun rows fewer => runs_retireMessage fun t retired => ?_))
  refine found id row held same t ⟨retired.messages, retired.queues, retired.nextId, retired.delivery, ?_⟩
  intro entry stored
  obtain ⟨kept, other⟩ := retired.rows entry stored
  exact ⟨(QueueData.mem_removeRow.mp (fewer entry kept)).1, other⟩

structure Enqueued (s t : QueueData) (target : String) (payload : Value) (budget : Nat) : Prop where
  cores : t.cores = s.cores ++ [(target, s.nextId, payload, budget)]
  queues : s.queues ⊆ t.queues ∧ target ∈ t.queues
  nextId : t.nextId = s.nextId + 1
  delivery : t.nextDelivery = s.nextDelivery
  rows : t.rows = s.rows

theorem runs_ensureCollection (holds : ∀ queues, s.queues ⊆ queues → queue ∈ queues → onDone () { s with queues }) :
    Runs onDone onError (ensureCollection queue) s := by
  unfold ensureCollection
  refine runs_then ?_
  split
  · rename_i present
    exact holds s.queues (List.Subset.refl _) (of_decide_eq_true present)
  · exact runs_perform (holds _ (subset_append_left _ _) (mem_append_right _ mem_cons_self))

theorem runs_enqueueDlq {target : String} {payload : Value} {orderingKey : Option String}
    (holds : ∀ t, Enqueued s t target payload 0 → onDone () t) :
    Runs onDone onError (enqueueDlq target payload orderingKey) s := by
  unfold enqueueDlq
  refine runs_bind (runs_ensureCollection fun queues wider present => runs_then (runs_then ?_))
  have enqueued : ∀ position, Enqueued s ({ s with queues }.addMessage target position payload 0) target payload 0 :=
    fun position => ⟨QueueData.cores_add _ _ _ _, ⟨wider, present⟩, rfl, rfl, rfl⟩
  split
  · refine runs_perform (holds _ ?_)
    have enqueued := enqueued (((act (.positionBoundary target .right) { s with queues }).1.map (· + 1)).getD
      positionCenter)
    exact ⟨(QueueData.cores_setMetadata _ _ _ _ _).trans enqueued.cores, enqueued.queues, enqueued.nextId,
      enqueued.delivery, enqueued.rows⟩
  · exact holds _ (enqueued _)

end

section

variable {s : QueueData} {onError : QueueStoreError → QueueData → Prop}

structure Noted (s t : QueueData) (row : PendingRow) : Prop where
  messages : t.messages = s.messages
  queues : t.queues = s.queues
  nextId : s.nextId ≤ t.nextId
  here : ∃ id, (id, .pending row) ∈ t.rows
  rows : ∀ entry ∈ t.rows, entry ∈ s.rows ∨ entry.2 = .pending row
  origin : (t.nextDelivery = s.nextDelivery ∧
      ∃ id old, (id, .pending old) ∈ s.rows ∧ old.SameKey row ∧ old.deliveryId = row.deliveryId) ∨
    (t.nextDelivery = s.nextDelivery + 1 ∧ row.deliveryId = s.nextDelivery)

variable {queue : String} {messageId : Nat}

theorem runs_markPending {group consumer : String} {deadlineNs : Nat}
    {onOk : Nat → QueueData → Prop} (missing : queue ∉ s.queues → onError (.unknownQueue queue) s)
    (holds : ∀ deliveryId t, Noted s t ⟨queue, group, messageId, deliveryId, consumer, deadlineNs⟩ →
      onOk deliveryId t) :
    Runs onOk onError (markPending queue messageId group consumer deadlineNs) s := by
  unfold markPending
  refine runs_then ?_
  by_cases present : queue ∈ s.queues
  case neg =>
    have unfound : (act (.queueExists queue) s).1 ≠ true := fun found => present (of_decide_eq_true found)
    rw [if_neg unfound]
    exact missing present
  have found : (act (.queueExists queue) s).1 = true := decide_eq_true present
  rw [if_pos found]
  refine runs_bind (runs_findPendingEntryByKey (fun id row held ownQueue ownGroup ownMessage => ?_) ?_)
  · refine runs_then (runs_then (holds row.deliveryId _ ?_))
    refine ⟨rfl, rfl, Nat.le_succ _, ⟨_, QueueData.mem_addRow.mpr (.inr rfl)⟩, fun entry stored => ?_,
      .inl ⟨rfl, id, row, held, ⟨ownQueue, ownGroup, ownMessage⟩, rfl⟩⟩
    rcases QueueData.mem_addRow.mp stored with old | new
    · exact .inl (QueueData.mem_removeRow.mp old).1
    · exact .inr (congrArg Prod.snd new)
  · refine runs_then (runs_then (holds s.nextDelivery _ ?_))
    refine ⟨rfl, rfl, Nat.le_succ _, ⟨_, QueueData.mem_addRow.mpr (.inr rfl)⟩, fun entry stored => ?_,
      .inr ⟨rfl, rfl⟩⟩
    rcases QueueData.mem_addRow.mp stored with old | new
    · exact .inl old
    · exact .inr (congrArg Prod.snd new)

theorem QueueData.find_none (read : s.find queue messageId = none) :
    ∀ message ∈ s.messages, ¬ (message.queue = queue ∧ message.id = messageId) := by
  intro message held same
  have missing := find?_eq_none.mp read message held
  simp [same.1, same.2] at missing

theorem runs_readMaxAttempts {onOk : Nat → QueueData → Prop}
    (found : ∀ message ∈ s.messages, message.queue = queue → message.id = messageId → onOk message.maxAttempts s)
    (absent : (∀ message ∈ s.messages, ¬ (message.queue = queue ∧ message.id = messageId)) →
      onOk defaultReadMaxAttempts s) : Runs onOk onError (readMaxAttempts queue messageId) s := by
  unfold readMaxAttempts
  refine runs_then ?_
  change onOk (((s.find queue messageId).map (·.maxAttempts)).getD defaultReadMaxAttempts) s
  cases read : s.find queue messageId with
  | none => exact absent (QueueData.find_none read)
  | some message =>
    obtain ⟨held, own, same⟩ := QueueData.find_some read
    exact found message held own same

theorem runs_anyMaxAttempts {onOk : Nat → QueueData → Prop}
    (every : ∀ limit, onOk limit s) : Runs onOk onError (readMaxAttempts queue messageId) s :=
  runs_readMaxAttempts (fun message _ _ _ => every message.maxAttempts) fun _ => every _

theorem runs_readMessage {onOk : Option Value → QueueData → Prop}
    (found : ∀ message ∈ s.messages, message.queue = queue → message.id = messageId → onOk (some message.payload) s)
    (absent : (∀ message ∈ s.messages, ¬ (message.queue = queue ∧ message.id = messageId)) → onOk none s) :
    Runs onOk onError (readMessage queue messageId) s := by
  unfold readMessage
  refine runs_then ?_
  change onOk ((s.find queue messageId).map (·.payload)) s
  cases read : s.find queue messageId with
  | none => exact absent (QueueData.find_none read)
  | some message =>
    obtain ⟨held, own, same⟩ := QueueData.find_some read
    exact found message held own same

theorem runs_requirePayload {onOk : Value → QueueData → Prop}
    (found : ∀ id row, (id, .pending row) ∈ s.rows → row.deliveryId = deliveryId →
      ∀ message ∈ s.messages, message.queue = row.queue → message.id = row.messageId → onOk message.payload s)
    (absent : s.NoDelivery deliveryId → onError (.unknownDelivery deliveryId) s)
    (gone : ∀ id row, (id, .pending row) ∈ s.rows → row.deliveryId = deliveryId →
      (∀ message ∈ s.messages, ¬ (message.queue = row.queue ∧ message.id = row.messageId)) →
        onError (.unknownDelivery deliveryId) s) :
    Runs onOk onError (requirePayload deliveryId) s := by
  unfold requirePayload
  refine runs_bind (runs_findPendingByDelivery (fun id row held same => ?_) absent)
  exact runs_bind (runs_readMessage (found id row held same) (gone id row held same))

theorem runs_readOrderingKey {onOk : Option String → QueueData → Prop}
    (holds : ∀ key, onOk key s) : Runs onOk onError (readOrderingKey queue messageId) s := by
  unfold readOrderingKey
  exact runs_then (holds _)

theorem runs_anyWithKey {key : String} (ids : List Nat) {onOk : Bool → QueueData → Prop}
    (holds : ∀ b, onOk b s) : Runs onOk onError (anyWithKey queue key ids) s := by
  induction ids with
  | nil => exact holds false
  | cons id ids ih =>
    refine runs_bind (runs_readOrderingKey fun found => ?_)
    split
    · exact holds true
    · exact ih

theorem runs_orderingKeyBlocked {group : String} {onOk : Bool → QueueData → Prop}
    (holds : ∀ b, onOk b s) : Runs onOk onError (orderingKeyBlocked queue group messageId) s := by
  unfold orderingKeyBlocked
  refine runs_bind (runs_readOrderingKey fun found => ?_)
  cases found with
  | none => exact holds false
  | some key =>
    unfold orderingKeyInFlight pendingMessageIds
    exact runs_bind (runs_then (runs_anyWithKey _ holds))

theorem runs_dueMessages {taken ids : List Nat} {nowNs : Nat}
    {onOk : List Nat → QueueData → Prop} (holds : ∀ due, due.Sublist ids → onOk due s) :
    Runs onOk onError (dueMessages queue taken nowNs ids) s := by
  have each : ∀ id, Runs (fun due t => t = s ∧ due.Sublist [id]) onError (dueMessage queue taken nowNs id) s := by
    intro id
    unfold dueMessage
    split
    · exact ⟨rfl, nil_sublist _⟩
    · refine runs_then ?_
      split
      · exact ⟨rfl, List.Sublist.refl _⟩
      · exact ⟨rfl, nil_sublist _⟩
  unfold dueMessages
  induction ids generalizing onOk with
  | nil => exact holds [] (List.Sublist.refl _)
  | cons id ids ih =>
    refine runs_bind ((each id).mono ?_ fun _ _ => fun failed => failed)
    rintro first t ⟨rfl, part⟩
    exact runs_bind (ih fun due rest => holds _ (part.append rest))

theorem runs_availableMessages {onOk : List Nat → QueueData → Prop}
    (holds : ∀ ids, ids.Sublist (s.ordered queue) → onOk ids s) :
    Runs onOk onError (availableMessages queue) s := by
  unfold availableMessages pendingMessageIds
  exact runs_bind (runs_then (runs_then (runs_then (runs_dueMessages holds))))

theorem runs_reclaimExpired {nowNs : Nat}
    (holds : ∀ rows, (∀ entry ∈ rows, entry ∈ s.rows) → onDone () { s with rows }) :
    Runs onDone onError (reclaimExpired queue nowNs) s := by
  unfold reclaimExpired
  refine runs_then ?_
  generalize (act (.deadlineRows queue nowNs) s).1 = entries
  change Runs onDone onError (entries.forM fun entry => perform (.deleteMeta entry.1 entry.2)) s
  induction entries generalizing s with
  | nil => exact holds s.rows fun _ => id
  | cons entry entries ih =>
    refine runs_bind ?_
    refine @runs_perform onError s (.deleteMeta entry.1 entry.2) _ (ih fun rows fewer => holds rows fun e held => ?_)
    exact (QueueData.mem_removeRow.mp (fewer e held)).1

theorem runs_releasePending (holds : ∀ rows, (∀ entry ∈ rows, entry ∈ s.rows) → onDone () { s with rows }) :
    Runs onDone onError (releasePending deliveryId) s := by
  unfold releasePending
  refine runs_bind (runs_findPendingByDelivery (fun id row _ _ => ?_) fun _ => ?_)
  · exact runs_perform (holds _ fun e held => (QueueData.mem_removeRow.mp held).1)
  · exact holds s.rows fun _ => id

end

end RedDB.Queue
