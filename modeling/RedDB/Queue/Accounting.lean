import RedDB.Queue.SequentialSpec

namespace RedDB.Queue

open List Library RedDB.Types Nat

def Tracks (s : QueueData) (entry : PendingRow) : Prop :=
  entry.deliveryId < s.nextDelivery ∧
    ∀ id row, (id, .pending row) ∈ s.rows → row.deliveryId = entry.deliveryId → row.SameKey entry

def Accounted (config : LifecycleConfig) (returned : List (String × Nat)) (placed : List (Nat × Nat))
    (s : QueueData) (core : String × Nat × Value × Nat) : Prop :=
  match config.dlqTarget with
  | some target => ∃ place, (core.2.1, place) ∈ placed ∧ (target, place, core.2.2.1, 0) ∈ s.cores
  | none => (core.1, core.2.1) ∈ returned

/-- What holds all along a call on one queue that found the store as `start`. -/
structure Progress (config : LifecycleConfig) (queue : String) (returned : List (String × Nat)) (start : QueueData)
    (known : String → Nat → Prop) (placed : List (Nat × Nat)) (s : QueueData) : Prop where
  backed : Backed known s
  later : start.nextId ≤ s.nextId
  tracks : ∀ entry, Tracks start entry → Tracks s entry
  distinct : (placed.map Prod.snd).Nodup
  fresh : ∀ pair ∈ placed, start.nextId ≤ pair.2 ∧ pair.2 < s.nextId
  fates : ∀ core ∈ start.cores, core ∈ s.cores ∨ core.1 = queue ∧ Accounted config returned placed s core

theorem PendingRow.SameKey.symm {row other : PendingRow} (same : row.SameKey other) : other.SameKey row :=
  ⟨same.1.symm, same.2.1.symm, same.2.2.symm⟩

theorem PendingRow.SameKey.trans {a b c : PendingRow} (first : a.SameKey b) (second : b.SameKey c) : a.SameKey c :=
  ⟨first.1.trans second.1, first.2.1.trans second.2.1, first.2.2.trans second.2.2⟩

section

variable {s t : QueueData} {entry : PendingRow}

theorem Tracks.of_rows (tracked : Tracks s entry) (delivery : t.nextDelivery = s.nextDelivery)
    (rows : ∀ id row, (id, .pending row) ∈ t.rows → (id, .pending row) ∈ s.rows) : Tracks t entry :=
  ⟨delivery ▸ tracked.1, fun id row held => tracked.2 id row (rows id row held)⟩

theorem Tracks.noted {row : PendingRow} (tracked : Tracks s entry) (noted : Noted s t row) : Tracks t entry := by
  refine ⟨?_, fun id other held same => ?_⟩
  · rcases noted.origin with ⟨delivery, -⟩ | ⟨delivery, -⟩
    · exact delivery ▸ tracked.1
    · exact delivery ▸ tracked.1.trans (lt_succ_self _)
  · rcases noted.rows _ held with old | new
    · exact tracked.2 id other old same
    · obtain rfl : other = row := by injection new
      rcases noted.origin with ⟨-, id, old, stored, key, sameId⟩ | ⟨-, fresh⟩
      · exact key.symm.trans (tracked.2 id old stored (sameId.trans same))
      · exact absurd tracked.1 (by omega)

theorem Backed.tracks {known : String → Nat → Prop} {id : Nat} (backed : Backed known s)
    (held : (id, .pending entry) ∈ s.rows) : Tracks s entry :=
  ⟨backed.issued id entry held, fun id' row held' same => backed.same id' row id entry held' held same⟩

theorem Backed.noted {known : String → Nat → Prop} {row : PendingRow} (backed : Backed known s)
    (noted : Noted s t row) (allowed : known row.queue row.messageId) : Backed known t where
  rows e held := by
    rcases noted.rows e held with old | new
    · exact backed.rows e old
    · rw [new]
      exact allowed
  same id a id' b heldA heldB same := by
    rcases noted.rows _ heldA with oldA | newA
    · exact (((backed.tracks oldA).noted noted).2 id' b heldB same.symm).symm
    · rcases noted.rows _ heldB with oldB | newB
      · exact ((backed.tracks oldB).noted noted).2 id a heldA same
      · obtain rfl : a = row := by injection newA
        obtain rfl : b = a := by injection newB
        exact ⟨rfl, rfl, rfl⟩
  issued id a held := by
    rcases noted.rows _ held with old | new
    · exact ((backed.tracks old).noted noted).1
    · obtain rfl : a = row := by injection new
      rcases noted.origin with ⟨delivery, id, old, stored, -, sameId⟩ | ⟨delivery, fresh⟩
      · exact delivery ▸ sameId ▸ backed.issued id old stored
      · omega
  numbered := numbered_of_cores backed.numbered (by simp [QueueData.cores, noted.messages]) noted.nextId
  homes := by
    rw [noted.messages, noted.queues]
    exact backed.homes

theorem Backed.counted {known : String → Nat → Prop} {queue group : String} {messageId attempts : Nat}
    (backed : Backed known s) (counted : Counted s t queue group messageId attempts)
    (allowed : known queue messageId) : Backed known t := by
  have pending : ∀ id row, (id, .pending row) ∈ t.rows → (id, .pending row) ∈ s.rows := by
    intro id row held
    rcases counted.rows _ held with old | new
    · exact old
    · cases new
  refine ⟨fun e held => ?_, fun id a id' b heldA heldB => ?_, fun id a held => ?_,
    numbered_of_cores backed.numbered counted.cores counted.nextId,
    homes_of_cores backed.homes counted.cores (counted.queues ▸ List.Subset.refl _)⟩
  · rcases counted.rows e held with old | new
    · exact backed.rows e old
    · rw [new]
      exact allowed
  · exact backed.same id a id' b (pending id a heldA) (pending id' b heldB)
  · exact counted.delivery ▸ backed.issued id a (pending id a held)

end

section

variable {s t u : QueueData} {known : String → Nat → Prop}

theorem Backed.retired {kept : String → Nat → Prop} {queue : String} {messageId : Nat} (backed : Backed known s)
    (retired : Retired s t queue messageId)
    (others : ∀ q m, known q m → ¬ (q = queue ∧ m = messageId) → kept q m) : Backed kept t where
  rows e held := others _ _ (backed.rows e (retired.rows e held).1) (retired.rows e held).2
  same id a id' b heldA heldB := backed.same id a id' b (retired.rows _ heldA).1 (retired.rows _ heldB).1
  issued id a held := retired.delivery ▸ backed.issued id a (retired.rows _ held).1
  numbered := by
    have part : t.messages.Sublist s.messages := retired.messages ▸ filter_sublist
    exact ⟨backed.numbered.distinct.sublist (part.map _),
      fun message held => retired.nextId ▸ backed.numbered.below message (part.subset held)⟩
  homes message held := by
    have part : t.messages.Sublist s.messages := retired.messages ▸ filter_sublist
    exact retired.queues ▸ backed.homes message (part.subset held)

theorem Backed.enqueued {target : String} {payload : Value} {budget : Nat} (backed : Backed known s)
    (enqueued : Enqueued s t target payload budget) : Backed known t where
  rows e held := backed.rows e (enqueued.rows ▸ held)
  same id a id' b heldA heldB := backed.same id a id' b (enqueued.rows ▸ heldA) (enqueued.rows ▸ heldB)
  issued id a held := enqueued.delivery ▸ backed.issued id a (enqueued.rows ▸ held)
  numbered := by
    have ids : t.messages.map (·.id) = s.messages.map (·.id) ++ [s.nextId] := by
      have second := congrArg (List.map (·.2.1)) enqueued.cores
      simp only [QueueData.cores, map_map, map_append] at second
      exact second
    have below : ∀ id ∈ s.messages.map (·.id), id < s.nextId := by
      intro id listed
      obtain ⟨message, held, rfl⟩ := mem_map.mp listed
      exact backed.numbered.below message held
    refine ⟨?_, fun message held => ?_⟩
    · rw [ids, nodup_append]
      refine ⟨backed.numbered.distinct, nodup_singleton _, fun a held b last => ?_⟩
      exact (mem_singleton.mp last ▸ below a held).ne
    · have listed : message.id ∈ s.messages.map (·.id) ++ [s.nextId] := ids ▸ mem_map_of_mem held
      rw [enqueued.nextId]
      rcases mem_append.mp listed with old | new
      · exact (below _ old).trans (lt_succ_self _)
      · exact mem_singleton.mp new ▸ lt_succ_self _
  homes message held := by
    have listed : message.core ∈ s.cores ++ [(target, s.nextId, payload, budget)] :=
      enqueued.cores ▸ mem_map_of_mem held
    rcases mem_append.mp listed with old | new
    · obtain ⟨first, member, same⟩ := mem_map.mp old
      have queueSame : first.queue = message.queue := congrArg Prod.fst same
      exact queueSame ▸ enqueued.queues.1 (backed.homes first member)
    · have queueSame : message.queue = target := congrArg Prod.fst (mem_singleton.mp new)
      exact queueSame ▸ enqueued.queues.2

theorem mem_cores_retired {queue : String} {messageId : Nat} (retired : Retired s t queue messageId)
    {core : String × Nat × Value × Nat} :
    core ∈ t.cores ↔ core ∈ s.cores ∧ ¬ (core.1 = queue ∧ core.2.1 = messageId) := by
  have same : t.cores = (s.removeMessage queue messageId).cores := congrArg (List.map Message.core) retired.messages
  rw [same]
  exact QueueData.mem_cores_remove

/-- The message has been taken off the queue for good, and put on the dead-letter queue if there is one. -/
inductive Settled (config : LifecycleConfig) (s t : QueueData) (queue : String) (messageId : Nat) : Prop
  | dropped (target : config.dlqTarget = none) (retired : Retired s t queue messageId)
  | moved {target : String} (named : config.dlqTarget = some target) {message : Message} (held : message ∈ s.messages)
      (own : message.queue = queue) (same : message.id = messageId) {u : QueueData}
      (retired : Retired s u queue messageId) (enqueued : Enqueued u t target message.payload 0)

end

section

variable {config : LifecycleConfig} {queue : String} {returned : List (String × Nat)} {start s t : QueueData}
  {known : String → Nat → Prop} {placed : List (Nat × Nat)}

theorem Accounted.mono {core : String × Nat × Value × Nat} (accounted : Accounted config returned placed s core)
    {more : List (Nat × Nat)} (wider : placed ⊆ more)
    (kept : ∀ pair ∈ placed, ∀ other ∈ s.cores, other.2.1 = pair.2 → other ∈ t.cores) :
    Accounted config returned more t core := by
  unfold Accounted at accounted ⊢
  cases target : config.dlqTarget with
  | none =>
    rw [target] at accounted
    exact accounted
  | some name =>
    rw [target] at accounted
    obtain ⟨place, listed, stored⟩ := accounted
    exact ⟨place, wider listed, kept _ listed _ stored rfl⟩

section

variable {wider : String → Nat → Prop} (progress : Progress config queue returned start known placed s)
include wider progress

theorem Progress.kept (backed : Backed wider t)
    (later : s.nextId ≤ t.nextId) (cores : t.cores = s.cores) (tracks : ∀ entry, Tracks s entry → Tracks t entry) :
    Progress config queue returned start wider placed t where
  backed := backed
  later := progress.later.trans later
  tracks entry tracked := tracks entry (progress.tracks entry tracked)
  distinct := progress.distinct
  fresh pair listed := ⟨(progress.fresh pair listed).1, (progress.fresh pair listed).2.trans_le later⟩
  fates core held := by
    rcases progress.fates core held with here | ⟨own, accounted⟩
    · exact .inl (cores ▸ here)
    · exact .inr ⟨own, accounted.mono (List.Subset.refl _) fun _ _ other stored _ => cores ▸ stored⟩

theorem Progress.mono (weaker : ∀ q m, known q m → wider q m) :
    Progress config queue returned start wider placed s :=
  progress.kept (progress.backed.mono weaker) le_rfl rfl fun _ tracked => tracked

end

theorem Progress.fewer (progress : Progress config queue returned start known placed s)
    {rows : List (Nat × MetaRow)} (part : ∀ entry ∈ rows, entry ∈ s.rows) :
    Progress config queue returned start known placed { s with rows } := by
  refine progress.kept ?_ le_rfl rfl fun entry tracked => tracked.of_rows rfl fun id row held => part _ held
  have numbered := progress.backed.numbered
  exact progress.backed.thinner ⟨part, rfl, ⟨numbered.distinct, numbered.below⟩, progress.backed.homes⟩

theorem Progress.noted {row : PendingRow} (progress : Progress config queue returned start known placed s)
    (noted : Noted s t row) (allowed : known row.queue row.messageId) :
    Progress config queue returned start known placed t :=
  progress.kept (progress.backed.noted noted allowed) noted.nextId (by simp [QueueData.cores, noted.messages])
    fun _ tracked => tracked.noted noted

theorem Progress.counted {q group : String} {messageId attempts : Nat}
    (progress : Progress config queue returned start known placed s)
    (counted : Counted s t q group messageId attempts) (allowed : known q messageId) :
    Progress config queue returned start known placed t := by
  refine progress.kept (progress.backed.counted counted allowed) counted.nextId counted.cores
    fun entry tracked => tracked.of_rows counted.delivery fun id row held => ?_
  rcases counted.rows _ held with old | new
  · exact old
  · cases new

theorem core_unique (numbered : s.Numbered) {core other : String × Nat × Value × Nat} (held : core ∈ s.cores)
    (stored : other ∈ s.cores) (same : core.2.1 = other.2.1) : core = other := by
  obtain ⟨a, memberA, rfl⟩ := mem_map.mp held
  obtain ⟨b, memberB, rfl⟩ := mem_map.mp stored
  rw [inj_on_of_nodup_map numbered.distinct memberA memberB same]

theorem Progress.settled {kept : String → Nat → Prop} {messageId : Nat}
    (progress : Progress config queue returned start known placed s) (settled : Settled config s t queue messageId)
    (old : messageId < start.nextId) (seen : config.dlqTarget = none → (queue, messageId) ∈ returned)
    (others : ∀ q m, known q m → ¬ (q = queue ∧ m = messageId) → kept q m) :
    (∀ core ∈ s.cores, core.2.1 ≠ messageId → core ∈ t.cores) ∧
      ∃ more, Progress config queue returned start kept more t := by
  have notPlaced : ∀ pair ∈ placed, ∀ other : String × Nat × Value × Nat, other.2.1 = pair.2 →
      other.2.1 ≠ messageId := by
    intro pair listed other same
    have fresh := (progress.fresh pair listed).1
    omega
  cases settled with
  | dropped target retired =>
    have stays : ∀ core ∈ s.cores, core.2.1 ≠ messageId → core ∈ t.cores := fun core held other =>
      (mem_cores_retired retired).mpr ⟨held, fun both => other both.2⟩
    refine ⟨stays, placed, progress.backed.retired retired others, retired.nextId ▸ progress.later,
      fun entry tracked => ?_, progress.distinct, retired.nextId ▸ progress.fresh, fun core held => ?_⟩
    · exact (progress.tracks entry tracked).of_rows retired.delivery fun id row stored => (retired.rows _ stored).1
    · rcases progress.fates core held with here | ⟨own, accounted⟩
      · by_cases leaving : core.1 = queue ∧ core.2.1 = messageId
        · refine .inr ⟨leaving.1, ?_⟩
          have found := seen target
          rw [← leaving.1, ← leaving.2] at found
          simpa only [Accounted, target] using found
        · exact .inl ((mem_cores_retired retired).mpr ⟨here, leaving⟩)
      · exact .inr ⟨own, accounted.mono (List.Subset.refl _) fun pair listed other stored same =>
          stays other stored (notPlaced pair listed other same)⟩
  | @moved target named message held own same u retired enqueued =>
    have appended : ∀ {core : String × Nat × Value × Nat}, core ∈ u.cores → core ∈ t.cores := fun stored =>
      enqueued.cores ▸ mem_append_left _ stored
    have stays : ∀ core ∈ s.cores, core.2.1 ≠ messageId → core ∈ t.cores := fun core stored other =>
      appended ((mem_cores_retired retired).mpr ⟨stored, fun both => other both.2⟩)
    have wider : ∀ {core : String × Nat × Value × Nat}, Accounted config returned placed s core →
        Accounted config returned (placed ++ [(messageId, u.nextId)]) t core := fun accounted =>
      accounted.mono (subset_append_left _ _) fun pair listed other stored same =>
        stays other stored (notPlaced pair listed other same)
    refine ⟨stays, placed ++ [(messageId, u.nextId)],
      (progress.backed.retired retired others).enqueued enqueued, ?_, fun entry tracked => ?_, ?_,
      fun pair listed => ?_, fun core first => ?_⟩
    · rw [enqueued.nextId, retired.nextId]
      exact progress.later.trans (le_succ _)
    · refine (progress.tracks entry tracked).of_rows (enqueued.delivery.trans retired.delivery) fun id row stored => ?_
      exact (retired.rows _ (enqueued.rows ▸ stored)).1
    · rw [map_append, nodup_append]
      refine ⟨progress.distinct, nodup_singleton _, fun a listed b last => ?_⟩
      obtain ⟨pair, member, rfl⟩ := mem_map.mp listed
      rw [mem_singleton.mp last, retired.nextId]
      exact (progress.fresh pair member).2.ne
    · rw [enqueued.nextId, retired.nextId]
      rcases mem_append.mp listed with earlier | last
      · exact ⟨(progress.fresh pair earlier).1, (progress.fresh pair earlier).2.trans (lt_succ_self _)⟩
      · rw [mem_singleton.mp last, retired.nextId]
        exact ⟨progress.later, lt_succ_self _⟩
    · rcases progress.fates core first with here | ⟨mine, accounted⟩
      · by_cases leaving : core.1 = queue ∧ core.2.1 = messageId
        · refine .inr ⟨leaving.1, ?_⟩
          have whole : core = message.core := core_unique progress.backed.numbered here
            (mem_map_of_mem held) (leaving.2.trans same.symm)
          have place : (target, u.nextId, core.2.2.1, 0) ∈ t.cores := by
            rw [enqueued.cores, whole]
            exact mem_append_right _ (mem_singleton.mpr rfl)
          simp only [Accounted, named]
          exact ⟨u.nextId, mem_append_right _ (mem_singleton.mpr (by rw [leaving.2])), place⟩
        · exact .inl (appended ((mem_cores_retired retired).mpr ⟨here, leaving⟩))
      · exact .inr ⟨mine, wider accounted⟩

end

end RedDB.Queue
