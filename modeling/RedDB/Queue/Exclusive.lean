import RedDB.Queue.QuietCalls

namespace RedDB.Queue

open List Library Resource QueueData LifecycleConfig

section

open Fallible

variable {queue : String} {call : Nat} {s : ReadSpace} {α β : Type}

abbrev ReadSpec (queue : String) (call : Nat) (onOk : α → ReadSpace → Prop) (onError : QueueStoreError → ReadSpace → Prop)
    (p : QueueIo α) (s : ReadSpace) : Prop :=
  (readers queue).Spec (Orderly queue) (Rely queue) Admits call (outcome onOk onError) p.run s

variable {onError : QueueStoreError → ReadSpace → Prop} {p : QueueIo α}

theorem readSpec_bind {onOk : β → ReadSpace → Prop} {f : α → QueueIo β}
    (first : ReadSpec queue call (fun a => ReadSpec queue call onOk onError (f a)) onError p s) :
    ReadSpec queue call onOk onError (p >>= f) s := (spec_bind p f).mpr first

theorem readSpec_perform {o : StoreOp} {onOk : Reply o → ReadSpace → Prop}
    (effect : ∀ t, Rely queue call s t → Orderly queue t → Admits call o t →
      Orderly queue (t.perform queue call o).2 ∧ (∀ j, j ≠ call → Rely queue j t (t.perform queue call o).2) ∧
          onOk (t.perform queue call o).1 (t.perform queue call o).2) :
    ReadSpec queue call onOk onError (perform o) s := effect

variable {knows : ReadSpace → Prop}

theorem readSpec_quiet
    (stable : ∀ s t, Rely queue call s t → knows s → knows t) (quiet : Within Quiet p) (start : knows s) :
    ReadSpec queue call (fun _ => knows) (fun _ => knows) p s := by
  have whatever : outcome (fun (_ : α) => knows) (fun (_ : QueueStoreError) => knows) = fun _ t => knows t := by
    funext result t
    cases result <;> rfl
  unfold ReadSpec
  rw [whatever]
  refine Spec.within stable (fun o t kind orderly known => ?_) quiet start
  exact ⟨quiet_orderly orderly kind, fun j _ => quiet_rely kind j, stable _ _ (quiet_rely kind call) known⟩

theorem readSpec_call {o : StoreOp} {onOk : Reply o → ReadSpace → Prop}
    (stable : ∀ s t, Rely queue call s t → knows s → knows t) (quiet : Quiet o) (start : knows s)
    (next : ∀ t u, knows t → Orderly queue t → Rely queue call t u → knows u → onOk (act o t.data).1 u) :
    ReadSpec queue call onOk onError (perform o) s := by
  refine readSpec_perform fun t later orderly _ => ⟨quiet_orderly orderly quiet, fun j _ => quiet_rely quiet j, ?_⟩
  have known := stable s t later start
  exact next t _ known orderly (quiet_rely quiet call) (stable _ _ (quiet_rely quiet call) known)

theorem readSpec_after {onOk : β → ReadSpace → Prop} {f : α → QueueIo β}
    (stable : ∀ s t, Rely queue call s t → knows s → knows t) (quiet : Within Quiet p) (start : knows s)
    (next : ∀ a t, knows t → ReadSpec queue call onOk onError (f a) t) (failed : ∀ e t, knows t → onError e t) :
    ReadSpec queue call onOk onError (p >>= f) s := by
  refine readSpec_bind (Spec.mono (readSpec_quiet stable quiet start) ?_)
  rintro (e | a) t known
  · exact failed e t known
  · exact next a t known

section

variable (queue call)

structure Clear (ids : List Nat) (s : ReadSpace) : Prop where
  lock : s.lock = some call
  free : ∀ id row, (id, .pending row) ∈ s.data.rows → row.queue = queue → row.messageId ∉ ids

def Taken (out : List DeliveredMessage) (s : ReadSpace) : Prop :=
  ∀ d ∈ out, ∃ mark, .marked mark ∈ s.log ∧ mark.call = call ∧ mark.message = d.messageId

def HasLock (s : ReadSpace) : Prop := s.lock = some call

variable {queue call} {ids : List Nat} {out : List DeliveredMessage} {t : ReadSpace}

theorem Clear.stable (later : Rely queue call s t) (clear : Clear queue call ids s) : Clear queue call ids t :=
  ⟨later.lock clear.lock, fun id row held own => clear.free id row (later.rows clear.lock id row held own) own⟩

theorem Taken.stable (later : Rely queue call s t) (taken : Taken call out s) : Taken call out t := by
  intro d member
  obtain ⟨mark, listed, rest⟩ := taken d member
  exact ⟨mark, later.log.subset listed, rest⟩

theorem Clear.mono {fewer : List Nat} (clear : Clear queue call ids s) (part : fewer ⊆ ids) :
    Clear queue call fewer s := ⟨clear.lock, fun id row held own member => clear.free id row held own (part member)⟩

end

theorem deliver_orderly {row : PendingRow} (orderly : Orderly queue s) (mine : s.lock = some call)
    (own : row.queue = queue)
    (free : ∀ id other, (id, .pending other) ∈ s.data.rows → other.queue = queue → other.messageId ≠ row.messageId) :
    Orderly queue (s.perform queue call (.insertMeta (.pending row))).2 ∧
      ∀ j, j ≠ call → Rely queue j s (s.perform queue call (.insertMeta (.pending row))).2 := by
  have log : (s.perform queue call (.insertMeta (.pending row))).2.log =
      s.log ++ [.marked ⟨call, row.messageId, row.lockDeadlineNs, s.data.nowNs⟩] := by
    simp only [ReadSpace.perform, noted, if_pos own]
  refine ⟨⟨?_, ?_, ?_, numbered_act _ orderly.numbered⟩, ?_⟩
  · intro mark live later
    rw [log] at live
    rcases live_append live with new | ⟨before, -⟩
    · cases new
      exact ⟨s.data.nextId, row, mem_addRow.mpr (.inr rfl), own, rfl, rfl⟩
    · obtain ⟨id, old, held, rest⟩ := orderly.covered mark before later
      exact ⟨id, old, mem_addRow.mpr (.inl held), rest⟩
  · rw [log]
    refine orderly.apart.append fun second new first live same => ?_
    cases new
    by_contra unexpired
    obtain ⟨id, old, held, ours, message, -⟩ := orderly.covered first live (Nat.lt_of_not_le unexpired)
    exact free id old held ours (message.trans same)
  · intro entry member d given
    obtain ⟨mark, listed, rest⟩ := orderly.marked entry member d given
    exact ⟨mark, log ▸ mem_append_left _ listed, rest⟩
  · intro j other
    have notTheirs : s.lock ≠ some j := by
      rw [mine]
      exact fun same => other (Option.some.inj same).symm
    exact ⟨le_rfl, log ▸ prefix_append _ _, fun theirs => absurd theirs notTheirs,
      fun theirs => absurd theirs notTheirs⟩

section

variable {config : LifecycleConfig} {group consumer : String} {messageId : Nat} {rest : List Nat}
  {out : List DeliveredMessage}

structure Midway (queue : String) (call : Nat) (ids : List Nat) (out : List DeliveredMessage) (s : ReadSpace) :
    Prop where
  clear : Clear queue call ids s
  taken : Taken call out s

theorem Midway.stable (s t : ReadSpace) (later : Rely queue call s t) (midway : Midway queue call rest out s) :
    Midway queue call rest out t := ⟨midway.clear.stable later, midway.taken.stable later⟩

def Delivered (call messageId : Nat) (s : ReadSpace) : Prop :=
  ∃ mark, .marked mark ∈ s.log ∧ mark.call = call ∧ mark.message = messageId

theorem Delivered.stable {t : ReadSpace} (later : Rely queue call s t) (delivered : Delivered call messageId s) :
    Delivered call messageId t := by
  obtain ⟨mark, listed, own⟩ := delivered
  exact ⟨mark, later.log.subset listed, own⟩

theorem readSpec_insert {row : PendingRow} {onError : QueueStoreError → ReadSpace → Prop} (own : row.queue = queue)
    (apart : row.messageId ∉ rest) (start : Midway queue call (row.messageId :: rest) out s) :
    ReadSpec queue call (fun _ t => Midway queue call rest out t ∧ Delivered call row.messageId t) onError
      (perform (.insertMeta (.pending row))) s := by
  refine readSpec_perform fun t later orderly _ => ?_
  have midway := Midway.stable s t later start
  obtain ⟨kept, guarantee⟩ := deliver_orderly orderly midway.clear.lock own fun id other held ours same =>
    midway.clear.free id other held ours (same ▸ mem_cons_self)
  have log : (t.perform queue call (.insertMeta (.pending row))).2.log =
      t.log ++ [.marked ⟨call, row.messageId, row.lockDeadlineNs, t.data.nowNs⟩] := by
    simp only [ReadSpace.perform, noted, if_pos own]
  refine ⟨kept, guarantee, ⟨⟨midway.clear.lock, ?_⟩, ?_⟩, ?_⟩
  · intro id other held ours
    rcases mem_addRow.mp held with old | new
    · exact fun member => midway.clear.free id other old ours (mem_cons_of_mem _ member)
    · cases new
      exact apart
  · intro d member
    obtain ⟨mark, listed, same⟩ := midway.taken d member
    exact ⟨mark, log ▸ mem_append_left _ listed, same⟩
  · exact ⟨_, log ▸ mem_append_right _ mem_cons_self, rfl, rfl⟩

theorem readSpec_markPending {deadlineNs : Nat} (apart : messageId ∉ rest)
    (start : Midway queue call (messageId :: rest) out s) :
    ReadSpec queue call (fun _ t => Midway queue call rest out t ∧ Delivered call messageId t)
      (fun _ => HasLock call) (markPending queue messageId group consumer deadlineNs) s := by
  unfold markPending
  refine readSpec_after Midway.stable (within_perform (by exact trivial)) start (fun present t midway => ?_)
    fun _ _ midway => midway.clear.lock
  split
  · -- the message is not pending, so there is no row to refresh
    refine readSpec_bind (readSpec_bind ?_)
    refine readSpec_call Midway.stable (by exact trivial) midway fun u v before _ _ after => ?_
    have absent : u.data.subject .pending queue (some group) (some messageId) = [] := by
      refine eq_nil_iff_forall_not_mem.mpr fun entry member => ?_
      obtain ⟨held, kind, own, -, same⟩ := mem_subject.mp member
      obtain ⟨id, row⟩ := entry
      cases row with
      | pending row => exact before.clear.free id row held own (same messageId rfl ▸ mem_cons_self)
      | acked => cases kind
      | attempts => cases kind
    have answer : (act (.subjectRows .pending queue (some group) (some messageId)) u.data).1 = [] := absent
    rw [answer]
    refine readSpec_after Midway.stable (within_perform (by exact trivial)) after (fun deliveryId w midway => ?_)
      fun _ _ midway => midway.clear.lock
    exact readSpec_bind (readSpec_insert rfl apart midway)
  · exact midway.clear.lock

variable {nowNs : Nat}

theorem readSpec_readOne (apart : messageId ∉ rest) (start : Midway queue call (messageId :: rest) out s) :
    ReadSpec queue call (fun delivered => Midway queue call rest (out ++ delivered.toList))
      (fun _ => HasLock call) (config.readOne queue group consumer nowNs messageId) s := by
  have stable : ∀ s t, Rely queue call s t → Midway queue call rest out s ∧ Delivered call messageId s →
      Midway queue call rest out t ∧ Delivered call messageId t :=
    fun s t later done => ⟨Midway.stable s t later done.1, done.2.stable later⟩
  unfold readOne
  refine readSpec_bind (Spec.mono (readSpec_markPending apart start) ?_)
  rintro (e | deliveryId) t done
  · exact done
  refine readSpec_after stable quiet_countDelivery done (fun deliveryCount t done => ?_)
    fun _ _ done => done.1.clear.lock
  refine readSpec_after stable quiet_readMaxAttempts done (fun maxAttempts t done => ?_)
    fun _ _ done => done.1.clear.lock
  split
  · refine readSpec_after stable quiet_retireExhausted done (fun _ t done => ?_) fun _ _ done => done.1.clear.lock
    change Midway queue call rest (out ++ []) t
    rw [append_nil]
    exact done.1
  · refine readSpec_after stable quiet_requireMessage done (fun payload t done => ?_)
      fun _ _ done => done.1.clear.lock
    refine ⟨done.1.clear, fun d member => ?_⟩
    rcases mem_append.mp member with old | new
    · exact done.1.taken d old
    · rw [mem_singleton.mp new]
      exact done.2

structure Handed (call : Nat) (delivered : List DeliveredMessage) (s : ReadSpace) : Prop where
  lock : HasLock call s
  taken : Taken call delivered s

theorem readSpec_readLoop {count : Nat} {ids : List Nat} (distinct : ids.Nodup)
    (start : Midway queue call ids out s) :
    ReadSpec queue call (Handed call) (fun _ => HasLock call)
      (config.readLoop queue group consumer count nowNs ids out) s := by
  induction ids generalizing out s with
  | nil => exact ⟨start.clear.lock, start.taken⟩
  | cons messageId rest ih =>
    obtain ⟨apart, later⟩ := nodup_cons.mp distinct
    unfold readLoop
    split
    · exact ⟨start.clear.lock, start.taken⟩
    · refine readSpec_after Midway.stable quiet_orderingKeyBlocked start (fun blocked t midway => ?_)
        fun _ _ midway => midway.clear.lock
      split
      · exact ih later ⟨midway.clear.mono (subset_cons_self _ _), midway.taken⟩
      · refine readSpec_bind (Spec.mono (readSpec_readOne apart midway) ?_)
        rintro (e | delivered) u done
        · exact done
        · exact ih later done

def SoFar (call nowNs : Nat) (s : ReadSpace) : Prop := HasLock call s ∧ nowNs ≤ s.data.nowNs

theorem SoFar.stable (s t : ReadSpace) (later : Rely queue call s t) (known : SoFar call nowNs s) :
    SoFar call nowNs t := ⟨later.lock known.1, known.2.trans later.clock⟩

theorem readSpec_expire {id : Nat} {row : PendingRow} (onError : QueueStoreError → ReadSpace → Prop)
    (expired : row.lockDeadlineNs ≤ nowNs) (start : SoFar call nowNs s) :
    ReadSpec queue call (fun _ => SoFar call nowNs) onError (perform (.deleteMeta id (.pending row))) s := by
  refine readSpec_perform fun t later orderly _ => ?_
  have known := SoFar.stable s t later start
  have log : (t.perform queue call (.deleteMeta id (.pending row))).2.log = t.log := append_nil _
  refine ⟨⟨?_, log ▸ orderly.apart, log ▸ orderly.marked, numbered_act _ orderly.numbered⟩, ?_, known⟩
  · intro mark live unexpired
    rw [log] at live
    obtain ⟨other, old, held, own, message, deadline⟩ := orderly.covered mark live unexpired
    refine ⟨other, old, mem_removeRow.mpr ⟨held, ?_⟩, own, message, deadline⟩
    rintro ⟨⟩
    have now : t.data.nowNs < row.lockDeadlineNs := deadline ▸ unexpired
    have past := expired.trans known.2
    omega
  · intro j _
    exact ⟨le_rfl, log ▸ prefix_refl _, fun mine => mine, fun _ _ _ held _ => (mem_removeRow.mp held).1⟩

theorem readSpec_reclaim (start : SoFar call nowNs s) :
    ReadSpec queue call (fun _ => HasLock call) (fun _ => HasLock call) (reclaimExpired queue nowNs) s := by
  unfold reclaimExpired
  refine readSpec_bind (readSpec_call SoFar.stable (by exact trivial) start ?_)
  rintro t u - - - known
  have rows : ∀ entry ∈ (act (.deadlineRows queue nowNs) t.data).1,
      ∃ row, entry.2 = .pending row ∧ row.lockDeadlineNs ≤ nowNs := by
    intro entry member
    obtain ⟨-, row, pending, -, expired⟩ := mem_expired.mp member
    exact ⟨row, pending, expired⟩
  generalize (act (.deadlineRows queue nowNs) t.data).1 = entries at rows
  induction entries generalizing u with
  | nil => exact known.1
  | cons entry entries ih =>
    obtain ⟨row, pending, expired⟩ := rows entry mem_cons_self
    obtain ⟨id, stored⟩ := entry
    subst pending
    refine readSpec_bind (Spec.mono (readSpec_expire (fun _ => HasLock call) expired known) ?_)
    rintro (e | _) v after
    · exact after
    · exact ih v after fun entry member => rows entry (mem_cons_of_mem _ member)

variable {taken : List Nat}

structure Due (knows : ReadSpace → Prop) (taken ids due : List Nat) (s : ReadSpace) : Prop where
  known : knows s
  part : due.Sublist ids
  free : ∀ m ∈ due, m ∉ taken

theorem readSpec_dueMessage {id : Nat} {knows : ReadSpace → Prop}
    (stable : ∀ s t, Rely queue call s t → knows s → knows t) (start : knows s) :
    ReadSpec queue call (Due knows taken [id]) (fun _ => knows)
      (dueMessage queue taken nowNs id) s := by
  unfold dueMessage
  split
  · exact ⟨start, nil_sublist _, nofun⟩
  · rename_i free
    refine readSpec_after stable (within_perform (by exact trivial)) start (fun message t known => ?_)
      fun _ _ known => known
    split
    · exact ⟨known, List.Sublist.refl _, fun m member => mem_singleton.mp member ▸ free⟩
    · exact ⟨known, nil_sublist _, nofun⟩

theorem readSpec_dueMessages {ids : List Nat} {knows : ReadSpace → Prop}
    (stable : ∀ s t, Rely queue call s t → knows s → knows t) (start : knows s) :
    ReadSpec queue call (Due knows taken ids) (fun _ => knows)
      (dueMessages queue taken nowNs ids) s := by
  unfold dueMessages
  induction ids generalizing s with
  | nil => exact ⟨start, List.Sublist.refl _, nofun⟩
  | cons id ids ih =>
    refine readSpec_bind (Spec.mono (readSpec_dueMessage stable start) ?_)
    rintro (e | first) t done
    · exact done
    refine readSpec_bind (Spec.mono (ih done.known) ?_)
    rintro (e | rest) u later
    · exact later
    refine ⟨later.known, done.part.append later.part, fun m member => ?_⟩
    exact (mem_append.mp member).elim (done.free m) (later.free m)

def Listed (queue : String) (call : Nat) (taken : List Nat) (s : ReadSpace) : Prop :=
  HasLock call s ∧ ∀ id row, (id, .pending row) ∈ s.data.rows → row.queue = queue → row.messageId ∈ taken

theorem Listed.stable (s t : ReadSpace) (later : Rely queue call s t)
    (listed : Listed queue call taken s) : Listed queue call taken t :=
  ⟨later.lock listed.1, fun id row held own => listed.2 id row (later.rows listed.1 id row held own) own⟩

theorem readSpec_availableMessages (start : HasLock call s) :
    ReadSpec queue call (fun ids t => Clear queue call ids t ∧ ids.Nodup) (fun _ => HasLock call)
      (availableMessages queue) s := by
  unfold availableMessages pendingMessageIds
  refine readSpec_bind (readSpec_bind ?_)
  refine readSpec_call (fun s t later mine => later.lock mine) (by exact trivial) start fun t u mine _ later _ => ?_
  have listed : Listed queue call ((t.data.subject .pending queue none none).map (·.2.messageId)) u := by
    refine Listed.stable t u later ⟨mine, fun id row held own => ?_⟩
    exact mem_map.mpr ⟨(id, .pending row), mem_subject.mpr ⟨held, rfl, own, nofun, nofun⟩, rfl⟩
  refine readSpec_after Listed.stable (within_perform (by exact trivial)) listed (fun nowNs v listed => ?_)
    fun _ _ listed => listed.1
  refine readSpec_bind (readSpec_call Listed.stable (by exact trivial) listed fun w x _ orderly _ listed => ?_)
  refine Spec.mono (readSpec_dueMessages Listed.stable listed) ?_
  rintro (e | due) y done
  · exact done.1
  · obtain ⟨known, part, free⟩ := done
    refine ⟨⟨known.1, fun id row held own member => free _ member (known.2 id row held own)⟩, ?_⟩
    exact (orderly.numbered.ordered_nodup queue).sublist part

theorem readSpec_groupRead {count : Nat} (work : config.mode = .work) (start : HasLock call s) :
    ReadSpec queue call (Handed call) (fun _ => HasLock call)
      (config.groupRead queue group consumer count) s := by
  unfold groupRead
  split
  · exact ⟨start, nofun⟩
  refine readSpec_bind (readSpec_call (fun s t later mine => later.lock mine) (by exact trivial) start
    fun t u mine _ later _ => ?_)
  have known : SoFar call t.data.nowNs u := ⟨later.lock mine, later.clock⟩
  refine readSpec_bind (Spec.mono (readSpec_reclaim known) ?_)
  rintro (e | _) v mine
  · exact mine
  have available : config.available queue group = availableMessages queue := by
    simp only [LifecycleConfig.available, work]
  rw [available]
  refine readSpec_bind (Spec.mono (readSpec_availableMessages mine) ?_)
  rintro (e | ids) w found
  · exact found
  exact readSpec_readLoop found.2 ⟨found.1, nofun⟩

end

section

variable {config : LifecycleConfig} {request : ReadRequest}

abbrev CallSpec (queue : String) (call : Nat) (post : α → ReadSpace → Prop) (p : ReadCall α) (s : ReadSpace) :
    Prop :=
  (readers queue).Spec (Orderly queue) (Rely queue) Admits call post p s

def Answered (queue : String) (call : Nat) (answer : ReadAnswer) (s : ReadSpace) : Prop :=
  Orderly queue s ∧ ∀ delivered, answer = .ok delivered → Taken call delivered s

variable {post : Unit → ReadSpace → Prop}

theorem callSpec_lock
    (holds : ∀ t, HasLock call t → post () t) : CallSpec queue call post (Resumption.perform StoreOp.lockReads) s := by
  intro t _ orderly admitted
  have free : t.lock = none := admitted rfl
  have log : (t.perform queue call .lockReads).2.log = t.log := append_nil _
  refine ⟨⟨?_, log ▸ orderly.apart, log ▸ orderly.marked, orderly.numbered⟩, ?_, holds _ rfl⟩
  · intro mark live later
    exact orderly.covered mark (log ▸ live) later
  · intro j _
    have notTheirs : t.lock ≠ some j := free ▸ nofun
    exact ⟨le_rfl, log ▸ prefix_refl _, fun theirs => absurd theirs notTheirs, fun theirs => absurd theirs notTheirs⟩

theorem callSpec_unlock (mine : HasLock call s)
    (holds : ∀ t, Rely queue call s t → Orderly queue t → ∀ u, u.log = t.log → Orderly queue u → post () u) :
    CallSpec queue call post (Resumption.perform StoreOp.unlockReads) s := by
  intro t later orderly _
  have log : (t.perform queue call .unlockReads).2.log = t.log := append_nil _
  have kept : Orderly queue (t.perform queue call .unlockReads).2 :=
    ⟨fun mark live later => orderly.covered mark (log ▸ live) later, log ▸ orderly.apart, log ▸ orderly.marked,
      orderly.numbered⟩
  refine ⟨kept, ?_, holds t later orderly _ log kept⟩
  intro j other
  have notTheirs : t.lock ≠ some j := by
    rw [later.lock mine]
    exact fun same => other (Option.some.inj same).symm
  exact ⟨le_rfl, log ▸ prefix_refl _, fun theirs => absurd theirs notTheirs, fun theirs => absurd theirs notTheirs⟩

theorem callSpec_lockedRead (work : config.mode = .work) :
    CallSpec queue call (Answered queue call) (lockedRead config queue request) s := by
  unfold lockedRead
  refine (Resource.spec_bind ..).mpr (callSpec_lock fun t mine => ?_)
  refine (Resource.spec_bind ..).mpr (Spec.mono (readSpec_groupRead work mine) ?_)
  intro answer u done
  have stillMine : HasLock call u := by
    cases answer with
    | error e => exact done
    | ok delivered => exact done.lock
  refine (Resource.spec_bind ..).mpr (callSpec_unlock stillMine fun v later _ w log orderly => ?_)
  refine ⟨orderly, ?_⟩
  rintro delivered rfl d member
  obtain ⟨mark, listed, own⟩ := done.taken d member
  exact ⟨mark, log ▸ later.log.subset listed, own⟩

theorem callSpec_probes {read : ReadCall ReadAnswer} (probe : ∀ s, CallSpec queue call (Answered queue call) read s)
    (wakes : Nat) : CallSpec queue call (Answered queue call) (probes read wakes) s := by
  induction wakes generalizing s with
  | zero => exact probe s
  | succ wakes ih =>
    refine (Resource.spec_bind ..).mpr (Spec.mono (probe s) fun answer t done => ?_)
    split
    · exact ih
    · exact done

theorem completes_of_answered {answer : ReadAnswer} (answered : Answered queue call answer s) :
    (readers queue).Completes (Orderly queue) (Rely queue) call answer s := by
  obtain ⟨orderly, taken⟩ := answered
  cases answer with
  | error e => exact ⟨orderly, fun j _ => Rely.refl j s⟩
  | ok delivered =>
    refine ⟨⟨orderly.covered, orderly.apart, ?_, orderly.numbered⟩, fun j _ =>
      ⟨le_rfl, prefix_refl _, id, fun _ _ _ held _ => held⟩⟩
    intro entry member
    rcases mem_append.mp member with old | new
    · exact orderly.marked entry old
    · rw [mem_singleton.mp new]
      exact taken delivered rfl

def ReadRequest.locks (request : ReadRequest) : Bool :=
  match request.path with
  | .redwire _ => false
  | _ => true

theorem callSpec_readProgram (work : config.mode = .work) (locks : request.locks = true) :
    CallSpec queue call ((readers queue).Completes (Orderly queue) (Rely queue) call)
      (readProgram config queue request) s := by
  refine Spec.mono ?_ fun _ _ => completes_of_answered
  unfold readProgram
  unfold ReadRequest.locks at locks
  cases path : request.path with
  | immediate => exact callSpec_lockedRead work
  | waiting wakes => exact callSpec_probes (fun _ => callSpec_lockedRead work) wakes
  | redwire wakes => simp [path] at locks

end

end

section

variable {config : LifecycleConfig} {queue : String}

abbrev SafeReads (queue : String) : ReadPool → Prop :=
  PoolSafe (readers queue) (Orderly queue) (Rely queue) Admits fun _ _ => True

def Locked (_ : ReadPool) : ReadEvent → Prop
  | .start request => request.locks = true
  | _ => True

instance (pool : ReadPool) (event : ReadEvent) : Decidable (Locked pool event) :=
  match event with
  | .start request => inferInstanceAs (Decidable (request.locks = true))
  | .tick _ | .push .. | .release .. | .retire _ | .resume _ => isTrue trivial

theorem safeReads_idle (nowNs : Nat) : SafeReads queue (idle queue nowNs) where
  invariant := ⟨fun _ ⟨before, _, empty, _⟩ => absurd empty (by simp [idle]),
    fun before _ _ empty => absurd empty (by simp [idle]), nofun, .nil, nofun⟩
  running := nofun
  unstarted := fun _ _ => trivial

theorem environment_orderly {s : ReadSpace} (orderly : Orderly queue s) (event : ReadEvent) :
    Orderly queue (s.environment queue event) ∧ ∀ call, Rely queue call s (s.environment queue event) := by
  cases event with
  | tick ns =>
    refine ⟨⟨fun mark live later => ?_, orderly.apart, orderly.marked, orderly.numbered.distinct,
      orderly.numbered.below⟩, fun call => ⟨Nat.le_add_right _ _, prefix_refl _, id, fun _ _ _ held _ => held⟩⟩
    exact orderly.covered mark live (lt_of_le_of_lt (Nat.le_add_right _ _) later)
  | push position payload maxAttempts =>
    exact ⟨⟨orderly.covered, orderly.apart, orderly.marked, orderly.numbered.add _ _ _ _⟩,
      fun call => ⟨le_rfl, prefix_refl _, id, fun _ _ _ held _ => held⟩⟩
  | release id row =>
    -- the environment's release is the write that a call would make
    exact ⟨@quiet_orderly queue s 0 (.releaseMeta id (.pending row)) orderly trivial,
      fun call => @quiet_rely queue s 0 (.releaseMeta id (.pending row)) trivial call⟩
  | retire id =>
    exact ⟨⟨orderly.covered, orderly.apart, orderly.marked, orderly.numbered.remove _ _⟩,
      fun call => ⟨le_rfl, prefix_refl _, fun mine => mine, fun _ _ _ held _ => held⟩⟩
  | start request | resume call => exact ⟨orderly, fun call => Rely.refl call s⟩

theorem safeReads_step (work : config.mode = .work) {pool after : ReadPool} {event : ReadEvent}
    (safe : SafeReads queue pool) (locked : Locked pool event) (taken : readStep config queue pool event = some after) :
    SafeReads queue after := by
  have environment : ∀ event, SafeReads queue ⟨pool.shared.environment queue event, pool.threads⟩ := fun event =>
    safe.environment Rely.trans (fun _ _ _ _ _ => trivial) (environment_orderly safe.invariant event).1
      (environment_orderly safe.invariant event).2
  cases event with
  | start request =>
    cases taken
    exact safe.spawn Rely.refl Rely.trans (fun _ _ _ _ _ => trivial) (callSpec_readProgram work locked)
  | resume call =>
    simp only [readStep] at taken
    split at taken
    · cases taken
    · rename_i unblocked
      refine safe.resume Rely.refl Rely.trans (fun _ _ _ _ _ => trivial) ?_ taken
      rintro o next found rfl
      simpa [blocked, found] using unblocked
  | tick ns => cases taken; exact environment (.tick ns)
  | push position payload maxAttempts => cases taken; exact environment (.push position payload maxAttempts)
  | release id row => cases taken; exact environment (.release id row)
  | retire id => cases taken; exact environment (.retire id)

theorem split_pair {log : List LogEntry} {a b : LogEntry} (first : a ∈ log) (second : b ∈ log) (different : a ≠ b) :
    (∃ before between after, log = before ++ a :: between ++ b :: after) ∨
      ∃ before between after, log = before ++ b :: between ++ a :: after := by
  obtain ⟨before, after, rfl⟩ := append_of_mem first
  rcases mem_append.mp second with left | right
  · obtain ⟨start, between, rfl⟩ := append_of_mem left
    exact .inr ⟨start, between, after, rfl⟩
  · have later : b ∈ after := (mem_cons.mp right).resolve_left different.symm
    obtain ⟨between, rest, rfl⟩ := append_of_mem later
    exact .inl ⟨before, between, rest, by simp⟩

theorem Orderly.exclusive {s : ReadSpace} (orderly : Orderly queue s) : s.Exclusive := by
  intro call other message different given givenOther
  obtain ⟨delivered, answered, d, member, same⟩ := given
  obtain ⟨deliveredOther, answeredOther, d', memberOther, sameOther⟩ := givenOther
  obtain ⟨mark, listed, mine, about⟩ := orderly.marked _ answered d member
  obtain ⟨mark', listed', theirs, about'⟩ := orderly.marked _ answeredOther d' memberOther
  have apart : LogEntry.marked mark ≠ .marked mark' := by
    rintro ⟨⟩
    exact different (mine.symm.trans theirs)
  have ordered (before : List LogEntry) (first : Mark) (between : List LogEntry) (second : Mark) (after : List LogEntry) :
      s.log = before ++ .marked first :: between ++ .marked second :: after → first.message = message →
        second.message = message → .released message ∈ between ∨ first.deadlineNs ≤ second.atNs := by
    intro split aboutFirst aboutSecond
    by_cases released : LogEntry.released message ∈ between
    · exact .inl released
    · exact .inr (orderly.apart _ second after split first ⟨before, between, rfl, aboutFirst ▸ released⟩
        (aboutFirst.trans aboutSecond.symm))
  have messageOf : mark.message = message := about.trans same
  have messageOf' : mark'.message = message := about'.trans sameOther
  rcases split_pair listed listed' apart with ⟨before, between, after, split⟩ | ⟨before, between, after, split⟩
  · exact ⟨before, mark, between, mark', after, split, messageOf, messageOf', .inl ⟨mine, theirs⟩,
      ordered _ _ _ _ _ split messageOf messageOf'⟩
  · exact ⟨before, mark', between, mark, after, split, messageOf', messageOf, .inr ⟨theirs, mine⟩,
      ordered _ _ _ _ _ split messageOf' messageOf⟩

/-- However the operations of reads that go through the lock interleave, no message of a work queue is given to
    two of them without its lock having expired or been released in between. -/
theorem locked_reads_exclusive (config : LifecycleConfig) (work : config.mode = .work) (queue : String) (nowNs : Nat)
    (events : List ReadEvent) (pool : ReadPool)
    (run : Run (Guarded (Steps (readStep config queue)) Locked) (idle queue nowNs) events pool) :
    pool.shared.Exclusive := by
  have safe : SafeReads queue pool := run.invariant
    (fun _ _ _ kept ⟨locked, taken⟩ => safeReads_step work kept locked taken) (safeReads_idle nowNs)
  exact safe.invariant.exclusive

end

section

def plainWork : LifecycleConfig := ⟨30000, none, .work⟩

def request (consumer : String) (path : ReadPath) : ReadRequest := ⟨"workers", consumer, 1, path⟩

def operations (call count : Nat) : List ReadEvent := List.replicate count (.resume call)

def takenOver : List ReadEvent :=
  ([.push 5 (.integer 7) 3, .start (request "a" .immediate), .start (request "b" (.waiting 1))] : List ReadEvent) ++
    operations 0 21 ++ [.tick 30000] ++ operations 1 23

theorem locked_reads_exclusive_takenOver : ∃ pool,
    Run (Guarded (Steps (readStep plainWork "jobs")) Locked) (idle "jobs" 0) takenOver pool ∧
      pool.shared.returned.map (fun e => (e.1, e.2.map (·.messageId))) = [(0, [1]), (1, [1])] ∧
      pool.shared.Exclusive := by
  obtain ⟨pool, run, answers⟩ := execute_reaches (readStep plainWork "jobs") Locked (idle "jobs" 0) takenOver
    (fun pool => pool.shared.returned.map (fun e => (e.1, e.2.map (·.messageId))) == [(0, [1]), (1, [1])])
    (by decide +kernel)
  exact ⟨pool, run, beq_iff_eq.mp answers, locked_reads_exclusive plainWork rfl "jobs" 0 takenOver pool run⟩

def bothWaiting : List ReadEvent :=
  ([.push 5 (.integer 7) 3, .start (request "a" (.redwire 1)), .start (request "b" (.redwire 1))] : List ReadEvent) ++
    operations 0 6 ++ operations 1 19 ++ operations 0 14

/-- Both waits answer with the message, and its first lock is neither released nor expired. -/
theorem redwire_waits_share_message : ∃ pool,
    Run (Guarded (Steps (readStep plainWork "jobs")) fun _ _ => True) (idle "jobs" 0) bothWaiting pool ∧
      pool.shared.returned.map (fun e => (e.1, e.2.map (·.messageId))) = [(1, [1]), (0, [1])] ∧
      pool.shared.log = [.marked ⟨1, 1, 30000, 0⟩, .marked ⟨0, 1, 30000, 0⟩] ∧
      ¬ pool.shared.Exclusive := by
  obtain ⟨pool, run, reached⟩ := execute_reaches (readStep plainWork "jobs") (fun _ _ => True) (idle "jobs" 0)
    bothWaiting
    (fun pool =>
      pool.shared.returned.map (fun e => (e.1, e.2.map (·.messageId))) == [(1, [1]), (0, [1])] &&
        pool.shared.log == [.marked ⟨1, 1, 30000, 0⟩, .marked ⟨0, 1, 30000, 0⟩])
    (by decide +kernel)
  rw [Bool.and_eq_true, beq_iff_eq, beq_iff_eq] at reached
  obtain ⟨answers, log⟩ := reached
  refine ⟨pool, run, answers, log, fun exclusive => ?_⟩
  have given : ∀ call ∈ [1, 0], pool.shared.Given call 1 := by
    intro call member
    have listed : (call, [1]) ∈ pool.shared.returned.map (fun e => (e.1, e.2.map (·.messageId))) := by
      rw [answers]
      simpa using member
    obtain ⟨⟨_, delivered⟩, answered, same⟩ := mem_map.mp listed
    obtain ⟨rfl, ids⟩ := Prod.mk.inj same
    obtain ⟨d, held, about⟩ := mem_map.mp (ids.symm ▸ mem_singleton_self 1)
    exact ⟨delivered, answered, d, held, about⟩
  obtain ⟨before, first, between, second, after, split, -, -, -, apart⟩ :=
    exclusive 1 0 1 (by decide) (given 1 (by decide)) (given 0 (by decide))
  rw [log] at split
  have lengths := congrArg List.length split
  simp only [length_append, length_cons, length_nil] at lengths
  obtain rfl : before = [] := length_eq_zero_iff.mp (by omega)
  obtain rfl : between = [] := length_eq_zero_iff.mp (by omega)
  obtain rfl : after = [] := length_eq_zero_iff.mp (by omega)
  simp only [nil_append, cons_append, List.cons.injEq, LogEntry.marked.injEq, and_true] at split
  obtain ⟨rfl, rfl⟩ := split
  simp at apart

end

end RedDB.Queue
