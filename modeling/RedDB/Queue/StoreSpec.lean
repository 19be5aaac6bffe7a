import RedDB.Queue.Store

namespace RedDB.Queue

open List

namespace QueueData

structure Numbered (s : QueueData) : Prop where
  distinct : (s.messages.map (·.id)).Nodup
  below : ∀ message ∈ s.messages, message.id < s.nextId

variable {s : QueueData}

theorem numbered_empty (nowNs : Nat) : Numbered (empty nowNs) := ⟨.nil, nofun⟩

section

variable (numbered : s.Numbered) (queue : String)
include numbered queue

theorem Numbered.update (id : Nat) {f : Message → Message}
    (same : ∀ message, (f message).id = message.id) : (s.updateMessage queue id f).Numbered := by
  have ids : (s.updateMessage queue id f).messages.map (·.id) = s.messages.map (·.id) := by
    rw [updateMessage, map_map]
    refine map_congr_left fun message _ => ?_
    simp only [Function.comp]
    split
    · exact same message
    · rfl
  refine ⟨ids ▸ numbered.distinct, fun message member => ?_⟩
  have listed : message.id ∈ s.messages.map (·.id) := ids ▸ mem_map_of_mem member
  obtain ⟨old, held, sameId⟩ := mem_map.mp listed
  exact sameId ▸ numbered.below old held

theorem Numbered.remove (id : Nat) : (s.removeMessage queue id).Numbered where
  distinct := numbered.distinct.sublist (filter_sublist.map _)
  below message member := numbered.below message (mem_of_mem_filter member)

theorem Numbered.add (position : Nat) (payload : Types.Value)
    (maxAttempts : Nat) : (s.addMessage queue position payload maxAttempts).Numbered where
  distinct := by
    simp only [addMessage, map_append, map_cons, map_nil]
    refine List.Nodup.append numbered.distinct (nodup_singleton _) ?_
    rw [disjoint_singleton]
    intro member
    obtain ⟨message, held, same⟩ := mem_map.mp member
    exact absurd (numbered.below message held) (by omega)
  below message member := by
    rcases mem_append.mp member with old | new
    · exact Nat.lt_succ_of_lt (numbered.below message old)
    · rw [mem_singleton.mp new]
      exact Nat.lt_succ_self _

end

theorem numbered_act (o : StoreOp) (numbered : s.Numbered) : (act o s).2.Numbered := by
  cases o with
  | setAttempts queue id attempts | setMetadata queue id due key => exact numbered.update queue id fun _ => rfl
  | deleteMessage queue id => exact numbered.remove queue id
  | insertMessage queue position payload maxAttempts => exact numbered.add queue position payload maxAttempts
  | insertMeta row => exact ⟨numbered.distinct, fun message member => Nat.lt_succ_of_lt (numbered.below message member)⟩
  | _ => exact ⟨numbered.distinct, numbered.below⟩

variable {entry : Nat × MetaRow} {row : MetaRow} {id : Nat}

theorem mem_ordered {queue : String} :
    id ∈ s.ordered queue ↔ ∃ message ∈ s.messages, message.queue = queue ∧ message.id = id := by
  simp [ordered, on, mem_insertionSort, and_assoc]

theorem Numbered.ordered_nodup (numbered : s.Numbered) (queue : String) : (s.ordered queue).Nodup := by
  have part : ((s.on queue).map (·.id)).Nodup := numbered.distinct.sublist (filter_sublist.map _)
  exact ((perm_insertionSort _ _).map _).nodup_iff.mpr part

theorem mem_subject {kind : MetaKind} {queue : String} {group : Option String} {messageId : Option Nat} :
    entry ∈ s.subject kind queue group messageId ↔
      entry ∈ s.rows ∧ entry.2.kind = kind ∧ entry.2.queue = queue ∧ (∀ g, group = some g → entry.2.group = g) ∧
        ∀ m, messageId = some m → entry.2.messageId = m := by
  simp only [subject, mem_filter, Bool.and_eq_true, beq_iff_eq, Option.all_eq_true, and_assoc]
  refine and_congr_right fun _ => and_congr_right fun _ => and_congr_right fun _ => and_congr ?_ ?_
  · exact forall_congr' fun g => imp_congr_right fun _ => eq_comm
  · exact forall_congr' fun m => imp_congr_right fun _ => eq_comm

theorem mem_expired {queue : String} {nowNs : Nat} : entry ∈ s.expired queue nowNs ↔
      entry ∈ s.rows ∧ ∃ row, entry.2 = .pending row ∧ row.queue = queue ∧ row.lockDeadlineNs ≤ nowNs := by
  obtain ⟨id, row⟩ := entry
  cases row <;> simp [expired, mem_subject, MetaRow.pending?, MetaRow.kind, MetaRow.queue, and_assoc]

theorem mem_delivery {deliveryId : Nat} : entry ∈ s.delivery deliveryId ↔
      entry ∈ s.rows ∧ ∃ row, entry.2 = .pending row ∧ row.deliveryId = deliveryId := by
  obtain ⟨id, row⟩ := entry
  cases row <;> simp [delivery, MetaRow.pending?]

theorem mem_removeRow : entry ∈ (s.removeRow id row).rows ↔ entry ∈ s.rows ∧ entry ≠ (id, row) := by
  simp [removeRow]

theorem mem_addRow : entry ∈ (s.addRow row).rows ↔ entry ∈ s.rows ∨ entry = (s.nextId, row) := by
  simp [addRow]

end QueueData

end RedDB.Queue
