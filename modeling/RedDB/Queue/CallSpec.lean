import RedDB.Queue.Accounting

namespace RedDB.Queue

open List Library RedDB.Types LifecycleConfig QueueData

variable {config : LifecycleConfig} {queue : String} {returned : List (String × Nat)} {start s : QueueData}
  {known : String → Nat → Prop} {placed : List (Nat × Nat)} {onError : QueueStoreError → QueueData → Prop}

section

def Denotes (s : QueueData) (deliveryId : Nat) (queue : String) (messageId : Nat) : Prop :=
  ∀ id row, (id, .pending row) ∈ s.rows → row.deliveryId = deliveryId → row.queue = queue ∧ row.messageId = messageId

variable {deliveryId messageId : Nat}

theorem runs_retire (work : config.mode = .work) (denotes : Denotes s deliveryId queue messageId)
    {onOk : Unit → QueueData → Prop} (holds : ∀ t, Retired s t queue messageId → onOk () t)
    (absent : s.NoDelivery deliveryId → onError (.unknownDelivery deliveryId) s) :
    Runs onOk onError (config.retire deliveryId) s := by
  simp only [retire, work]
  refine runs_ackPending (fun id row held same t retired => holds t ?_) absent
  obtain ⟨ownQueue, ownMessage⟩ := denotes id row held same
  exact ownQueue ▸ ownMessage ▸ retired

theorem runs_retireExhausted (work : config.mode = .work) (denotes : Denotes s deliveryId queue messageId)
    {onOk : Unit → QueueData → Prop} (holds : ∀ t, Settled config s t queue messageId → onOk () t)
    (absent : s.NoDelivery deliveryId → onError (.unknownDelivery deliveryId) s)
    (gone : (∀ message ∈ s.messages, ¬ (message.queue = queue ∧ message.id = messageId)) →
      onError (.unknownDelivery deliveryId) s) :
    Runs onOk onError (config.retireExhausted deliveryId) s := by
  unfold retireExhausted
  cases target : config.dlqTarget with
  | none => exact runs_retire work denotes (fun t retired => holds t (.dropped target retired)) absent
  | some name =>
    refine runs_bind ?_
    unfold readPendingAttempt
    refine runs_bind (runs_requirePending (fun _ _ _ _ => runs_bind (runs_readAttempts fun _ _ => ?_)) absent)
    refine runs_bind (runs_requirePayload (fun id row held same message stored own ownId => ?_) absent
      fun id row held same missing => ?_)
    · obtain ⟨ownQueue, ownMessage⟩ := denotes id row held same
      refine runs_bind (runs_readOrderingKey fun key => runs_bind (runs_retire work denotes (fun u retired => ?_) absent))
      exact runs_enqueueDlq fun t enqueued =>
        holds t (.moved target stored (own.trans ownQueue) (ownId.trans ownMessage) retired enqueued)
    · obtain ⟨ownQueue, ownMessage⟩ := denotes id row held same
      exact gone fun message stored both => missing message stored ⟨both.1.trans ownQueue.symm, both.2.trans ownMessage.symm⟩

end

section

structure Waiting (queue : String) (returned : List (String × Nat)) (start : QueueData)
    (known : String → Nat → Prop) (s : QueueData) (ids : List Nat) : Prop where
  distinct : ids.Nodup
  unseen : ∀ id ∈ ids, known queue id → (queue, id) ∈ returned
  there : ∀ id ∈ ids, ∃ core ∈ start.cores, core ∈ s.cores ∧ core.1 = queue ∧ core.2.1 = id

theorem message_of_core {core : String × Nat × Value × Nat} (held : core ∈ s.cores) :
    ∃ message ∈ s.messages, message.queue = core.1 ∧ message.id = core.2.1 ∧ message.maxAttempts = core.2.2.2 := by
  obtain ⟨message, stored, rfl⟩ := mem_map.mp held
  exact ⟨message, stored, rfl, rfl, rfl⟩

variable {messageId : Nat}

theorem runs_requireMessage {core : String × Nat × Value × Nat} (held : core ∈ s.cores)
    (own : core.1 = queue) (same : core.2.1 = messageId) {onOk : Value → QueueData → Prop}
    (holds : ∀ payload, onOk payload s) :
    Runs onOk onError (requireMessage queue messageId) s := by
  unfold requireMessage
  refine runs_bind (runs_readMessage (fun message _ _ _ => holds message.payload) fun missing => ?_)
  obtain ⟨message, stored, ownQueue, ownId, -⟩ := message_of_core held
  exact absurd ⟨ownQueue.trans own, ownId.trans same⟩ (missing message stored)

def Joins (known : String → Nat → Prop) (queue : String) (messageId : Nat) : String → Nat → Prop :=
  fun q m => known q m ∨ q = queue ∧ m = messageId

variable {consumer group : String}

theorem runs_readOne (work : config.mode = .work) {nowNs : Nat}
    (progress : Progress config queue returned start known placed s)
    {core : String × Nat × Value × Nat} (held : core ∈ s.cores) (own : core.1 = queue) (same : core.2.1 = messageId)
    (old : messageId < start.nextId)
    (budget : config.dlqTarget = none → 0 < core.2.2.2) (unseen : known queue messageId → (queue, messageId) ∈ returned)
    {onOk : Option DeliveredMessage → QueueData → Prop}
    (delivered : ∀ message t, message.messageId = messageId → t.cores = s.cores →
      Progress config queue returned start (Joins known queue messageId) placed t → onOk (some message) t)
    (retired : ∀ more t, (∀ core ∈ s.cores, core.2.1 ≠ messageId → core ∈ t.cores) →
      Progress config queue returned start known more t → onOk none t) :
    Runs onOk onError (config.readOne queue group consumer nowNs messageId) s := by
  unfold readOne
  have present : queue ∈ s.queues := by
    obtain ⟨message, stored, ownQueue, -⟩ := message_of_core held
    exact own ▸ ownQueue ▸ progress.backed.homes message stored
  refine runs_bind (runs_markPending (fun missing => absurd present missing) fun deliveryId t noted => ?_)
  have joined : Progress config queue returned start (Joins known queue messageId) placed t :=
    (progress.mono fun _ _ => .inl).noted noted (.inr ⟨rfl, rfl⟩)
  have sameCores : t.cores = s.cores := by simp [QueueData.cores, noted.messages]
  obtain ⟨rowId, marked⟩ := noted.here
  have key := fun id row stored sameId => joined.backed.same id row rowId _ stored marked sameId
  simp only [countDelivery, work]
  refine runs_bind (runs_map (runs_bumpAttempt (fun id row stored sameId attempts u counted bumped => ?_)
    fun missing => absurd rfl (missing rowId _ marked)))
  obtain ⟨ownQueue, ownGroup, ownMessage⟩ := key id row stored sameId
  simp only at ownQueue ownGroup ownMessage
  rw [ownQueue, ownGroup, ownMessage] at counted bumped
  have counting := joined.counted counted (.inr ⟨rfl, rfl⟩)
  have heldNow : core ∈ u.cores := counted.cores ▸ sameCores ▸ held
  have budgetSeen : ∀ limit, limit < attempts → 1 ≤ limit → (queue, messageId) ∈ returned := by
    intro limit exceeded positive
    obtain ⟨id, k, counter⟩ := bumped.2 (by omega)
    rcases noted.rows _ counter with before | new
    · exact unseen (progress.backed.rows _ before)
    · cases new
  have denotes : Denotes u deliveryId queue messageId := by
    intro id row stored sameId
    rcases counted.rows _ stored with before | new
    · obtain ⟨ownQueue, -, ownMessage⟩ := key id row before sameId
      exact ⟨ownQueue, ownMessage⟩
    · cases new
  have decision : ∀ limit, (config.dlqTarget = none → 1 ≤ limit) → Runs onOk onError (if attempts > limit then do
          config.retireExhausted deliveryId
          pure none
        else do
          let payload ← requireMessage queue messageId
          pure (some ⟨deliveryId, messageId, payload, consumer, attempts⟩)) u := by
    intro limit positive
    split
    · rename_i exceeded
      refine runs_bind (runs_retireExhausted work denotes (fun v settled => ?_)
        (fun missing => absurd rfl (missing rowId _ (counted.pending _ _ marked))) fun missing => ?_)
      · obtain ⟨stays, more, final⟩ := counting.settled settled old
          (fun untargeted => budgetSeen limit exceeded (positive untargeted))
          (fun q m join other => join.resolve_right other)
        exact retired more v (fun c stored other => stays c (counted.cores ▸ sameCores ▸ stored) other) final
      · obtain ⟨message, stored, ownQueue, ownId, -⟩ := message_of_core heldNow
        exact absurd ⟨ownQueue.trans own, ownId.trans same⟩ (missing message stored)
    · refine runs_bind (runs_requireMessage heldNow own same fun payload => ?_)
      exact delivered _ u rfl (counted.cores.trans sameCores) counting
  refine runs_bind (runs_readMaxAttempts (fun message stored _ ownId => decision _ fun untargeted => ?_)
    fun _ => decision _ fun _ => by decide)
  have whole : message.core = core := core_unique counting.backed.numbered (mem_map_of_mem stored) heldNow
    (ownId.trans same.symm)
  have sameBudget : message.maxAttempts = core.2.2.2 := congrArg (·.2.2.2) whole
  exact sameBudget ▸ budget untargeted

theorem Waiting.next {id : Nat} {ids : List Nat} {t : QueueData} {joined : String → Nat → Prop}
    (waiting : Waiting queue returned start known s (id :: ids))
    (stays : ∀ core ∈ s.cores, core.2.1 ≠ id → core ∈ t.cores)
    (others : ∀ m, m ≠ id → joined queue m → known queue m) : Waiting queue returned start joined t ids := by
  obtain ⟨absent, distinct⟩ := nodup_cons.mp waiting.distinct
  have apart : ∀ m ∈ ids, m ≠ id := fun m listed same => absent (same ▸ listed)
  refine ⟨distinct, fun m listed seen => ?_, fun m listed => ?_⟩
  · exact waiting.unseen m (mem_cons_of_mem _ listed) (others m (apart m listed) seen)
  · obtain ⟨core, first, held, own, same⟩ := waiting.there m (mem_cons_of_mem _ listed)
    exact ⟨core, first, stays core held (same ▸ apart m listed), own, same⟩

def Returns (start : QueueData) (returned answered : List (String × Nat)) (q : String) (m : Nat) : Prop :=
  (q, m) ∈ returned ++ answered ∧ m < start.nextId

theorem returns_joins {answered : List (String × Nat)} (old : messageId < start.nextId) (q : String)
    (m : Nat) (joins : Joins (Returns start returned answered) queue messageId q m) :
    Returns start returned (answered ++ [(queue, messageId)]) q m := by
  rcases joins with ⟨known, below⟩ | ⟨rfl, rfl⟩
  · refine ⟨?_, below⟩
    rw [← append_assoc]
    exact mem_append_left _ known
  · exact ⟨mem_append_right _ (mem_append_right _ mem_cons_self), old⟩

theorem returns_others {answered : List (String × Nat)} (m : Nat) (other : m ≠ messageId)
    (returns : Returns start returned (answered ++ [(queue, messageId)]) queue m) :
    Returns start returned answered queue m := by
  refine ⟨?_, returns.2⟩
  have listed := returns.1
  rw [← append_assoc] at listed
  rcases mem_append.mp listed with known | last
  · exact known
  · cases mem_singleton.mp last
    exact absurd rfl other

theorem returns_before (answered : List (String × Nat)) (q : String) (m : Nat) (returns : Returns start returned [] q m) :
    Returns start returned answered q m :=
  ⟨mem_append_left _ (append_nil returned ▸ returns.1), returns.2⟩

theorem runs_readLoop (work : config.mode = .work) {count nowNs : Nat} (numbered : start.Numbered)
    (budgets : config.dlqTarget = none → ∀ core ∈ start.cores, core.1 = queue → 0 < core.2.2.2)
    (ids : List Nat) (out : List DeliveredMessage)
    (progress : Progress config queue returned start
      (Returns start returned (out.map fun d => (queue, d.messageId))) placed s)
    (waiting : Waiting queue returned start (Returns start returned (out.map fun d => (queue, d.messageId))) s ids) :
    Runs (fun out t => ∃ placed, Progress config queue returned start
      (Returns start returned (out.map fun d => (queue, d.messageId))) placed t) onError
      (config.readLoop queue group consumer count nowNs ids out) s := by
  induction ids generalizing s out placed with
  | nil => exact ⟨placed, progress⟩
  | cons id ids ih =>
    unfold readLoop
    split
    · exact ⟨placed, progress⟩
    · refine runs_bind (runs_orderingKeyBlocked fun blocked => ?_)
      split
      · exact ih out progress (waiting.next (fun _ held _ => held) fun _ _ known => known)
      · obtain ⟨core, first, held, own, same⟩ := waiting.there id mem_cons_self
        have old : id < start.nextId := by
          obtain ⟨message, stored, -, ownId, -⟩ := message_of_core first
          exact same ▸ ownId ▸ numbered.below message stored
        refine runs_bind (runs_readOne work progress held own same old (fun untargeted => budgets untargeted core first own)
          (waiting.unseen id mem_cons_self) (fun message t ownId cores joined => ?_) fun more t stays joined => ?_)
        · have answered : ((out ++ [message]).map fun d => (queue, d.messageId)) =
              (out.map fun d => (queue, d.messageId)) ++ [(queue, id)] := by simp [ownId]
          refine @ih t placed (out ++ [message]) ?_ ?_
          · rw [answered]
            exact joined.mono (returns_joins old)
          · rw [answered]
            exact waiting.next (fun _ stored _ => cores ▸ stored) returns_others
        · simp only [Option.toList_none, append_nil]
          exact ih out joined (waiting.next stays fun _ _ known => known)

theorem Progress.begin (config : LifecycleConfig) (backed : Backed (Returns start returned []) start) :
    Progress config queue returned start (Returns start returned []) [] start :=
  ⟨backed, le_rfl, fun _ tracked => tracked, nodup_nil, nofun, fun _ held => .inl held⟩

theorem Waiting.begin (backed : Backed (Returns start returned []) start) {rows : List (Nat × MetaRow)}
    {ids : List Nat} (part : ids.Sublist ({ start with rows }.ordered queue)) :
    Waiting queue returned start (Returns start returned []) { start with rows } ids := by
  refine ⟨?_, fun id _ seen => by simpa using seen.1, fun id listed => ?_⟩
  · have numbered : ({ start with rows } : QueueData).Numbered := ⟨backed.numbered.distinct, backed.numbered.below⟩
    exact (numbered.ordered_nodup queue).sublist part
  · obtain ⟨message, stored, own, same⟩ := mem_ordered.mp (part.subset listed)
    exact ⟨message.core, mem_map_of_mem stored, mem_map_of_mem stored, own, same⟩

theorem runs_groupRead (work : config.mode = .work) {count : Nat} (backed : Backed (Returns start returned []) start)
    (budgets : config.dlqTarget = none → ∀ core ∈ start.cores, core.1 = queue → 0 < core.2.2.2) :
    Runs (fun out t => ∃ placed, Progress config queue returned start
      (Returns start returned (out.map fun d => (queue, d.messageId))) placed t) onError
      (config.groupRead queue group consumer count) start := by
  have begun : Progress config queue returned start (Returns start returned []) [] start := .begin config backed
  unfold groupRead
  split
  · exact ⟨[], begun⟩
  · refine runs_then (runs_bind (runs_reclaimExpired fun rows fewer => ?_))
    simp only [available, work]
    refine runs_bind (runs_availableMessages fun ids part => ?_)
    exact runs_readLoop work backed.numbered budgets ids [] (begun.fewer fewer) (.begin backed part)

end

section

variable {group : String}

theorem runs_deliverOne {nowNs messageId : Nat}
    (progress : Progress config queue returned start known placed s) {core : String × Nat × Value × Nat}
    (held : core ∈ s.cores) (own : core.1 = queue) (same : core.2.1 = messageId)
    {onOk : Nat × Nat × Value → QueueData → Prop}
    (delivered : ∀ deliveryId payload t, t.cores = s.cores →
      Progress config queue returned start (Joins known queue messageId) placed t →
        onOk (deliveryId, messageId, payload) t) :
    Runs onOk onError (config.deliverOne queue group nowNs messageId) s := by
  unfold deliverOne
  have present : queue ∈ s.queues := by
    obtain ⟨message, stored, ownQueue, -⟩ := message_of_core held
    exact own ▸ ownQueue ▸ progress.backed.homes message stored
  refine runs_bind (runs_markPending (fun missing => absurd present missing) fun deliveryId t noted => ?_)
  have sameCores : t.cores = s.cores := by simp [QueueData.cores, noted.messages]
  refine runs_bind (runs_requireMessage (sameCores ▸ held) own same fun payload => ?_)
  exact delivered deliveryId payload t sameCores ((progress.mono fun _ _ => .inl).noted noted (.inr ⟨rfl, rfl⟩))

theorem runs_deliverLoop {count nowNs : Nat} (numbered : start.Numbered) (ids : List Nat)
    (out : List (Nat × Nat × Value))
    (progress : Progress config queue returned start (Returns start returned (out.map fun d => (queue, d.2.1))) placed s)
    (waiting : Waiting queue returned start (Returns start returned (out.map fun d => (queue, d.2.1))) s ids) :
    Runs (fun out t => ∃ placed, Progress config queue returned start
      (Returns start returned (out.map fun d => (queue, d.2.1))) placed t) onError
      (config.deliverLoop queue group count nowNs ids out) s := by
  induction ids generalizing s out placed with
  | nil => exact ⟨placed, progress⟩
  | cons id ids ih =>
    unfold deliverLoop
    split
    · exact ⟨placed, progress⟩
    · refine runs_bind (runs_orderingKeyBlocked fun blocked => ?_)
      split
      · exact ih out progress (waiting.next (fun _ held _ => held) fun _ _ known => known)
      · obtain ⟨core, first, held, own, same⟩ := waiting.there id mem_cons_self
        have old : id < start.nextId := by
          obtain ⟨message, stored, -, ownId, -⟩ := message_of_core first
          exact same ▸ ownId ▸ numbered.below message stored
        refine runs_bind (runs_deliverOne progress held own same fun deliveryId payload t cores joined => ?_)
        have answered : ((out ++ [(deliveryId, id, payload)]).map fun d => (queue, d.2.1)) =
            (out.map fun d => (queue, d.2.1)) ++ [(queue, id)] := by simp
        refine @ih t placed (out ++ [(deliveryId, id, payload)]) ?_ ?_
        · rw [answered]
          exact joined.mono (returns_joins old)
        · rw [answered]
          exact waiting.next (fun _ stored _ => cores ▸ stored) returns_others

theorem runs_deliver (work : config.mode = .work) {count : Nat} (backed : Backed (Returns start returned []) start) :
    Runs (fun out t => ∃ placed, Progress config queue returned start
      (Returns start returned (out.map fun d => (queue, d.2.1))) placed t) onError
      (config.deliver queue group count) start := by
  have begun : Progress config queue returned start (Returns start returned []) [] start := .begin config backed
  unfold deliver
  split
  · exact ⟨[], begun⟩
  · refine runs_then (runs_bind (runs_reclaimExpired fun rows fewer => ?_))
    simp only [available, work]
    refine runs_bind (runs_availableMessages fun ids part => ?_)
    exact runs_deliverLoop backed.numbered ids [] (begun.fewer fewer) (.begin backed part)

end

section

variable (work : config.mode = .work)

abbrev Advances (config : LifecycleConfig) (queue : String) (returned : List (String × Nat)) (start s : QueueData) :
    Prop :=
  ∃ placed, Progress config queue returned start (Returns start returned []) placed s

include work

theorem runs_claimOne {consumer : String} {nowNs : Nat} {entry : PendingRow} (own : entry.queue = queue)
    (tracked : Tracks start entry) (advances : Advances config queue returned start s) :
    Runs (fun _ t => Advances config queue returned start t) (fun _ t => Advances config queue returned start t)
      (config.claimOne consumer nowNs entry) s := by
  unfold claimOne
  obtain ⟨placed, progress⟩ := advances
  refine runs_bind (runs_bumpAttempt (fun id row stored sameId attempts t counted _ => ?_) fun _ => ⟨placed, progress⟩)
  have seen : Returns start returned [] row.queue row.messageId := progress.backed.rows _ stored
  have key := (progress.tracks entry tracked).2 id row stored sameId
  have counting := progress.counted counted seen
  rw [key.1, key.2.2, own] at seen
  refine runs_bind (runs_anyMaxAttempts fun limit => ?_)
  split
  · have denotes : Denotes t entry.deliveryId queue entry.messageId := by
      intro id row stored sameId
      have key := (counting.tracks entry tracked).2 id row stored sameId
      exact ⟨key.1.trans own, key.2.2⟩
    refine runs_bind (runs_retireExhausted work denotes (fun u settled => ?_) (fun _ => ⟨placed, counting⟩)
      fun _ => ⟨placed, counting⟩)
    exact (counting.settled settled seen.2 (fun _ => append_nil returned ▸ seen.1) fun q m known _ => known).2
  · refine runs_bind (runs_requirePayload (fun id row stored sameId message held ownQueue _ => ?_)
      (fun _ => ⟨placed, counting⟩) fun _ _ _ _ _ => ⟨placed, counting⟩)
    have present : entry.queue ∈ t.queues := by
      have key := (counting.tracks entry tracked).2 id row stored sameId
      exact key.1 ▸ ownQueue ▸ counting.backed.homes message held
    exact runs_bind (runs_markPending (fun missing => absurd present missing) fun _ u noted =>
      ⟨placed, counting.noted noted (own ▸ seen)⟩)

theorem runs_claimDelivering {consumer : String} {minIdleMs : Nat} (backed : Backed (Returns start returned []) start) :
    Runs (fun _ t => Advances config queue returned start t) (fun _ t => Advances config queue returned start t)
      (config.claimDelivering queue consumer minIdleMs) start := by
  unfold claimDelivering
  refine runs_then (runs_then (Fallible.wp_gather (fun entry listed t advances => ?_) ⟨[], .begin config backed⟩))
  rw [mem_insertionSort, mem_filter, mem_filterMap] at listed
  obtain ⟨⟨⟨id, row⟩, subject, pending⟩, -⟩ := listed
  obtain ⟨held, -, own, -⟩ := mem_subject.mp subject
  cases row with
  | pending row =>
    obtain rfl : row = entry := by simpa [MetaRow.pending?] using pending
    exact runs_claimOne work own (backed.tracks held) advances
  | acked => cases pending
  | attempts => cases pending

end

section

variable {deliveryId messageId : Nat} {onOk : RetirementOutcome → QueueData → Prop}

theorem Denotes.counted {t : QueueData} {q group : String} {m attempts : Nat}
    (denotes : Denotes s deliveryId queue messageId) (counted : Counted s t q group m attempts) :
    Denotes t deliveryId queue messageId := by
  intro id row stored sameId
  rcases counted.rows _ stored with before | new
  · exact denotes id row before sameId
  · cases new

theorem runs_exhausted (work : config.mode = .work) (denotes : Denotes s deliveryId queue messageId)
    (holds : ∀ outcome t, outcome ≠ .requeued → Settled config s t queue messageId → onOk outcome t)
    (failed : ∀ e, onError e s) {q : String} {m : Nat} :
    Runs onOk onError (match config.dlqTarget with
      | some target => do
        let payload ← requirePayload deliveryId
        let orderingKey ← readOrderingKey q m
        config.retire deliveryId
        enqueueDlq target payload orderingKey
        pure (.movedToDlq target)
      | none => do
        config.retire deliveryId
        pure .dropped) s := by
  cases target : config.dlqTarget with
  | none =>
    exact runs_bind (runs_retire work denotes (fun t retired => holds _ t nofun (.dropped target retired))
      fun _ => failed _)
  | some name =>
    refine runs_bind (runs_requirePayload (fun id row stored sameId message held own ownId => ?_)
      (fun _ => failed _) fun _ _ _ _ _ => failed _)
    obtain ⟨rowQueue, rowMessage⟩ := denotes id row stored sameId
    refine runs_bind (runs_readOrderingKey fun key => runs_bind (runs_retire work denotes
      (fun t retired => ?_) fun _ => failed _))
    exact runs_bind (runs_enqueueDlq fun u enqueued =>
      holds _ u nofun (.moved target held (own.trans rowQueue) (ownId.trans rowMessage) retired enqueued))

theorem runs_nackWithRetryDeadline (work : config.mode = .work) {deadlineNs : Option Nat}
    (denotes : Denotes s deliveryId queue messageId) (advances : Advances config queue returned start s) :
    Runs (fun _ t => Advances config queue returned start t) (fun _ t => Advances config queue returned start t)
      (config.nackWithRetryDeadline deliveryId deadlineNs) s := by
  unfold nackWithRetryDeadline
  obtain ⟨placed, progress⟩ := advances
  refine runs_bind (runs_bumpAttempt (fun id row stored sameId attempts t counted _ => ?_) fun _ => ⟨placed, progress⟩)
  have seen : Returns start returned [] row.queue row.messageId := progress.backed.rows _ stored
  have counting := progress.counted counted seen
  obtain ⟨ownQueue, ownMessage⟩ := denotes id row stored sameId
  refine runs_bind (runs_anyMaxAttempts fun limit => ?_)
  have settles : ∀ u, Settled config t u queue messageId → Advances config queue returned start u := by
    intro u settled
    rw [ownQueue, ownMessage] at seen
    exact (counting.settled settled seen.2 (fun _ => append_nil returned ▸ seen.1) fun q m known _ => known).2
  split
  · exact runs_exhausted work (denotes.counted counted) (fun _ u _ settled => settles u settled) fun _ => ⟨placed, counting⟩
  · cases deadlineNs with
    | some deadline =>
      exact runs_bind (runs_markPending (fun _ => ⟨placed, counting⟩) fun _ u noted =>
        ⟨placed, counting.noted noted seen⟩)
    | none => exact runs_bind (runs_releasePending fun rows fewer => ⟨placed, counting.fewer fewer⟩)

theorem runs_resolveHandle {handle : DeliveryHandle} {known : String → Nat → Prop} (backed : Backed known s)
    {onOk : Nat × Nat → QueueData → Prop}
    (found : ∀ id row, (id, .pending row) ∈ s.rows → row.queue = queue → handle.Names row →
      Denotes s row.deliveryId queue row.messageId → onOk (row.deliveryId, row.messageId) s)
    (failed : ∀ e, onError e s) : Runs onOk onError (resolveHandle queue handle) s := by
  have denoted : ∀ id row, (id, .pending row) ∈ s.rows → row.queue = queue →
      Denotes s row.deliveryId queue row.messageId := by
    intro id row held own id' other held' same
    obtain ⟨sameQueue, -, sameMessage⟩ := backed.same id' other id row held' held same
    exact ⟨sameQueue.trans own, sameMessage⟩
  cases handle with
  | delivery deliveryId =>
    refine runs_bind (runs_requirePending (fun id row held same => ?_) fun _ => failed _)
    dsimp only
    split
    · rename_i own
      exact same ▸ found id row held own same (denoted id row held own)
    · exact failed _
  | message group messageId =>
    refine runs_bind (runs_findPendingEntryByKey (fun id row held own ownGroup same => ?_) (failed _))
    exact same ▸ found id row held own ⟨ownGroup, same⟩ (denoted id row held own)

theorem Progress.redated {due : Option Nat} {key : Option String}
    (progress : Progress config queue returned start known placed s) (q : String) (messageId : Nat) :
    Progress config queue returned start known placed (act (.setMetadata q messageId due key) s).2 := by
  have cores := cores_setMetadata q messageId due key s
  refine progress.kept ?_ le_rfl cores fun entry tracked => tracked
  exact progress.backed.thinner ⟨fun _ held => held, rfl, numbered_of_cores progress.backed.numbered cores le_rfl,
    homes_of_cores progress.backed.homes cores (List.Subset.refl _)⟩

theorem runs_nackCommand (work : config.mode = .work) {handle : DeliveryHandle} {delayNs : Nat}
    (backed : Backed (Returns start returned []) start) :
    Runs (fun _ t => Advances config queue returned start t) (fun _ t => Advances config queue returned start t)
      (nackCommand config queue handle delayNs) start := by
  have begun : Advances config queue returned start start := ⟨[], .begin config backed⟩
  unfold nackCommand
  refine runs_bind (runs_resolveHandle backed (fun id row held own _ denotes => ?_) fun _ => begun)
  refine runs_then (runs_bind ((runs_nackWithRetryDeadline work denotes begun).mono (fun outcome t advances => ?_)
    fun _ _ advances => advances))
  refine runs_bind ?_
  unfold delayRetry
  split
  · obtain ⟨placed, progress⟩ := advances
    rename_i due _
    refine runs_bind (runs_readOrderingKey fun key =>
      @runs_perform _ t (.setMetadata queue row.messageId (some due) key) _ ?_)
    exact ⟨placed, progress.redated _ _⟩
  · exact advances

end

end RedDB.Queue
