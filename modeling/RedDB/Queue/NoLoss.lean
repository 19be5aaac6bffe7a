import RedDB.Queue.CallSpec

namespace RedDB.Queue

open List Library RedDB.Types QueueRun QueueData

inductive Departure (configs : String → LifecycleConfig) (s : QueueRun) (e : QueueEvent) (t : QueueRun)
    (placed : List (Nat × Nat)) (message : Message) : Prop
  | acknowledged {handle : DeliveryHandle} {id : Nat} {row : PendingRow} (event : e = .ack message.queue handle)
      (held : (id, .pending row) ∈ s.data.rows) (own : row.queue = message.queue) (same : row.messageId = message.id)
      (named : handle.Names row)
  | deadLettered {target : String} {place : Nat} (named : (configs message.queue).dlqTarget = some target)
      (listed : (message.id, place) ∈ placed) (stored : (target, place, message.payload, 0) ∈ t.data.cores)
  | returned (untargeted : (configs message.queue).dlqTarget = none)
      (seen : (message.queue, message.id) ∈ s.returned)

section

variable (configs : String → LifecycleConfig)

def Conserves (s : QueueRun) (e : QueueEvent) (t : QueueRun) : Prop :=
  ∃ placed : List (Nat × Nat), (placed.map Prod.snd).Nodup ∧ (∀ pair ∈ placed, s.data.nextId ≤ pair.2) ∧
    ∀ message ∈ s.data.messages, message.core ∈ t.data.cores ∨ Departure configs s e t placed message

def Budgeted (s : QueueRun) : QueueEvent → Prop
  | .read queue _ _ _ => (configs queue).dlqTarget = none →
      ∀ message ∈ s.data.messages, message.queue = queue → 0 < message.maxAttempts
  | _ => True

end

def Sound (s : QueueRun) : Prop := Backed (Returns s.data s.returned []) s.data

section

variable {configs : String → LifecycleConfig} {s t : QueueRun}

theorem QueueRun.call_spec {α : Type} {p : QueueIo α} {answer : α → List (String × Nat)} (property : QueueRun → Prop)
    (runs : Runs (fun a data => property ⟨data, s.returned ++ answer a⟩) (fun _ data => property ⟨data, s.returned⟩) p
      s.data) : property (s.call p answer) := by
  have ended := (Resumption.wp_iff.mp runs).2
  unfold call
  generalize Resumption.execute act p.run s.data = final at ended
  obtain ⟨result, data⟩ := final
  cases result with
  | ok a => exact ended
  | error e => exact ended

variable {queue : String} {placed : List (Nat × Nat)}

theorem Progress.conserves {known : String → Nat → Prop} (e : QueueEvent)
    (progress : Progress (configs queue) queue s.returned s.data known placed t.data) : Conserves configs s e t := by
  refine ⟨placed, progress.distinct, fun pair listed => (progress.fresh pair listed).1, fun message held => ?_⟩
  rcases progress.fates message.core (mem_map_of_mem held) with here | ⟨own, accounted⟩
  · exact .inl here
  · obtain rfl : message.queue = queue := own
    unfold Accounted at accounted
    cases target : (configs message.queue).dlqTarget with
    | none =>
      rw [target] at accounted
      exact .inr (.returned target accounted)
    | some name =>
      rw [target] at accounted
      obtain ⟨place, listed, stored⟩ := accounted
      exact .inr (.deadLettered target listed stored)

variable {data : QueueData}

variable {answered : List (String × Nat)}

theorem Progress.sound
    (progress : Progress (configs queue) queue s.returned s.data (Returns s.data s.returned answered) placed data) :
    Sound ⟨data, s.returned ++ answered⟩ := by
  refine progress.backed.mono fun q m returns => ⟨?_, returns.2.trans_le progress.later⟩
  rw [append_nil]
  exact returns.1

structure Keeps (configs : String → LifecycleConfig) (s : QueueRun) (e : QueueEvent) (t : QueueRun) : Prop where
  sound : Sound t
  conserves : Conserves configs s e t

theorem Progress.keeps (e : QueueEvent)
    (progress : Progress (configs queue) queue s.returned s.data (Returns s.data s.returned answered) placed data) :
    Keeps configs s e ⟨data, s.returned ++ answered⟩ := ⟨progress.sound, progress.conserves e⟩

theorem keeps_of_cores (e : QueueEvent) (later : s.data.nextId ≤ data.nextId)
    (backed : Backed (Returns s.data s.returned []) data) (kept : ∀ core ∈ s.data.cores, core ∈ data.cores) :
    Keeps configs s e ⟨data, s.returned⟩ where
  sound := backed.mono fun _ _ returns => ⟨returns.1, returns.2.trans_le later⟩
  conserves := ⟨[], nodup_nil, nofun, fun _ held => .inl (kept _ (mem_map_of_mem held))⟩

theorem Advances.keeps (e : QueueEvent)
    (advances : Advances (configs queue) queue s.returned s.data data) : Keeps configs s e ⟨data, s.returned⟩ := by
  obtain ⟨placed, progress⟩ := advances
  simpa using progress.keeps e

variable (work : ∀ queue, (configs queue).mode = .work) (sound : Sound s)

include sound

theorem keeps_create (queue : String) : Keeps configs s (.create queue) (commandStep configs s (.create queue)) := by
  simp only [commandStep]
  refine call_spec (Keeps configs s (.create queue)) (runs_ensureCollection fun queues wider _ => ?_)
  rw [append_nil]
  refine keeps_of_cores _ le_rfl ?_ fun _ held => held
  exact sound.thinner ⟨fun _ held => held, rfl, ⟨sound.numbered.distinct, sound.numbered.below⟩,
    fun message held => wider (sound.homes message held)⟩

theorem keeps_push (queue : String) (request : PushRequest) :
    Keeps configs s (.push queue request) (commandStep configs s (.push queue request)) := by
  simp only [commandStep]
  refine call_spec (Keeps configs s (.push queue request)) ?_
  unfold pushCommand
  refine runs_then ?_
  split
  · rename_i found
    refine runs_then (runs_then (runs_perform (o := .setMetadata queue _ _ _) ?_))
    rw [append_nil]
    have enqueued : ∀ position id due key, Enqueued s.data
        (act (.setMetadata queue id due key) (s.data.addMessage queue position request.payload request.maxAttempts)).2
        queue request.payload request.maxAttempts := fun position id due key =>
      ⟨(cores_setMetadata _ _ _ _ _).trans (cores_add _ _ _ _),
        ⟨List.Subset.refl _, of_decide_eq_true found⟩, rfl, rfl, rfl⟩
    refine keeps_of_cores _ (Nat.le_succ _) (sound.enqueued (enqueued _ _ _ _)) fun core held => ?_
    exact (enqueued _ _ _ _).cores ▸ mem_append_left _ held
  · exact keeps_of_cores _ le_rfl sound fun _ held => held

theorem keeps_tick (ns : Nat) : Keeps configs s (.tick ns) (commandStep configs s (.tick ns)) := by
  refine keeps_of_cores _ le_rfl ?_ fun _ held => held
  exact sound.thinner ⟨fun _ held => held, rfl, ⟨sound.numbered.distinct, sound.numbered.below⟩, sound.homes⟩

include work

theorem keeps_ack (queue : String) (handle : DeliveryHandle) :
    Keeps configs s (.ack queue handle) (commandStep configs s (.ack queue handle)) := by
  have unchanged : Keeps configs s (.ack queue handle) s := keeps_of_cores _ le_rfl sound fun _ held => held
  simp only [commandStep]
  refine call_spec (Keeps configs s (.ack queue handle)) ?_
  unfold ackCommand LifecycleConfig.ack
  refine runs_bind (runs_resolveHandle sound (fun id row held own named denotes => ?_) fun _ => unchanged)
  refine runs_retire (work queue) denotes (fun data retired => ?_) fun _ => unchanged
  rw [append_nil]
  refine ⟨(sound.retired retired fun _ _ known _ => known).mono fun _ _ returns =>
    ⟨returns.1, retired.nextId ▸ returns.2⟩, [], nodup_nil, nofun, fun message stored => ?_⟩
  by_cases leaving : message.queue = queue ∧ message.id = row.messageId
  · obtain ⟨rfl, same⟩ := leaving
    exact .inr (.acknowledged rfl held own same.symm named)
  · exact .inl ((mem_cores_retired retired).mpr ⟨mem_map_of_mem stored, leaving⟩)

theorem keeps_step (e : QueueEvent) (budgeted : Budgeted configs s e) :
    Keeps configs s e (commandStep configs s e) := by
  cases e with
  | create queue => exact keeps_create sound queue
  | push queue request => exact keeps_push sound queue request
  | read queue group consumer count =>
    simp only [commandStep]
    refine call_spec (Keeps configs s _) ((runs_groupRead (work queue) sound fun untargeted core held own => ?_).mono
      (fun out data progress => ?_) fun _ _ failed => failed)
    · obtain ⟨message, stored, ownQueue, -, limit⟩ := message_of_core held
      exact limit ▸ budgeted untargeted message stored (ownQueue.trans own)
    · obtain ⟨placed, progress⟩ := progress
      exact progress.keeps _
  | deliver queue group count =>
    simp only [commandStep]
    refine call_spec (Keeps configs s _) ((runs_deliver (work queue) sound).mono
      (fun out data progress => ?_) fun _ _ failed => failed)
    obtain ⟨placed, progress⟩ := progress
    exact progress.keeps _
  | claim queue consumer minIdleMs =>
    simp only [commandStep]
    refine call_spec (Keeps configs s _) ((runs_claimDelivering (work queue) sound).mono
      (fun out data advances => ?_) fun _ _ advances => advances.keeps _)
    obtain ⟨placed, progress⟩ := advances
    exact (progress.mono (returns_before _)).keeps _
  | ack queue handle => exact keeps_ack work sound queue handle
  | nack queue handle delayNs =>
    simp only [commandStep]
    refine call_spec (Keeps configs s _) ((runs_nackCommand (work queue) sound).mono
      (fun outcome data advances => ?_) fun _ _ advances => advances.keeps _)
    rw [append_nil]
    exact advances.keeps _
  | tick ns => exact keeps_tick sound ns

end

section

variable {configs : String → LifecycleConfig}

theorem sound_initial (nowNs : Nat) : Sound (.initial nowNs) := ⟨nofun, nofun, nofun, numbered_empty nowNs, nofun⟩

theorem sound_of_run (work : ∀ queue, (configs queue).mode = .work) {nowNs : Nat} {events : List QueueEvent}
    {s : QueueRun} (run : Run (Guarded (Steps fun s e => some (commandStep configs s e)) (Budgeted configs))
      (.initial nowNs) events s) : Sound s := by
  refine run.invariant (fun s e t kept taken => ?_) (sound_initial nowNs)
  obtain ⟨admitted, stepped⟩ := taken
  cases stepped
  exact (keeps_step work kept e admitted).sound

theorem messages_never_lost (work : ∀ queue, (configs queue).mode = .work) (nowNs : Nat) (events : List QueueEvent)
    (s : QueueRun) (run : Run (Guarded (Steps fun s e => some (commandStep configs s e)) (Budgeted configs))
      (.initial nowNs) events s) (e : QueueEvent) (budgeted : Budgeted configs s e) :
    Conserves configs s e (commandStep configs s e) :=
  (keeps_step work (sound_of_run work run) e budgeted).conserves

instance (configs : String → LifecycleConfig) (s : QueueRun) : DecidablePred (Budgeted configs s)
  | .read _ _ _ _ => inferInstanceAs (Decidable (_ → ∀ _ ∈ _, _))
  | .create _ | .push _ _ | .deliver _ _ _ | .claim _ _ _ | .ack _ _ | .nack _ _ _ | .tick _ =>
    inferInstanceAs (Decidable True)

def jobsAndDead (queue : String) : LifecycleConfig := ⟨30000, if queue = "jobs" then some "dead" else none, .work⟩

def onlyOnce : PushRequest := ⟨.right, .integer 7, 1, none, none⟩

def deliveredOnce : List QueueEvent := [.create "jobs", .push "jobs" onlyOnce, .read "jobs" "workers" "a" 1]

def refuse : QueueEvent := .nack "jobs" (.message "workers" 1) 0

theorem messages_never_lost_refuse : ∃ s,
    Run (Guarded (Steps fun s e => some (commandStep jobsAndDead s e)) (Budgeted jobsAndDead)) (.initial 0)
      deliveredOnce s ∧
      (s.data.messages.map (·.queue) = ["jobs"] ∧
        (commandStep jobsAndDead s refuse).data.messages.map (·.queue) = ["dead"]) ∧
      Conserves jobsAndDead s refuse (commandStep jobsAndDead s refuse) := by
  obtain ⟨s, run, reached⟩ := execute_reaches (fun s e => some (commandStep jobsAndDead s e)) (Budgeted jobsAndDead)
    (.initial 0) deliveredOnce
    (fun s => s.data.messages.map (·.queue) == ["jobs"] &&
      (commandStep jobsAndDead s refuse).data.messages.map (·.queue) == ["dead"])
    (by decide +kernel)
  rw [Bool.and_eq_true, beq_iff_eq, beq_iff_eq] at reached
  exact ⟨s, run, reached, messages_never_lost (fun _ => rfl) 0 deliveredOnce s run refuse trivial⟩

def Produced : QueueEvent → Prop
  | .push _ request => 1 ≤ request.maxAttempts
  | _ => True

instance : DecidablePred Produced
  | .push _ request => inferInstanceAs (Decidable (1 ≤ request.maxAttempts))
  | .create _ | .read _ _ _ _ | .deliver _ _ _ | .claim _ _ _ | .ack _ _ | .nack _ _ _ | .tick _ =>
    inferInstanceAs (Decidable True)

def firstReadOfDead : QueueEvent := .read "dead" "workers" "b" 1

/-- The refused message is on the dead-letter queue without budget, where the first read drops it. -/
theorem dead_letter_dropped_unread : ∃ s,
    Run (Guarded (Steps fun s e => some (commandStep jobsAndDead s e)) fun _ => Produced) (.initial 0)
      (deliveredOnce ++ [refuse]) s ∧
      (s.data.messages.map (·.queue) = ["dead"] ∧ s.returned = [("jobs", 1)]) ∧
      (commandStep jobsAndDead s firstReadOfDead).data.messages = [] ∧
      (commandStep jobsAndDead s firstReadOfDead).returned = [("jobs", 1)] ∧
      ¬ Conserves jobsAndDead s firstReadOfDead (commandStep jobsAndDead s firstReadOfDead) := by
  obtain ⟨s, run, reached⟩ := execute_reaches (fun s e => some (commandStep jobsAndDead s e)) (fun _ => Produced)
    (.initial 0) (deliveredOnce ++ [refuse])
    (fun s => s.data.messages.map (·.queue) == ["dead"] && s.returned == [("jobs", 1)] &&
      ((commandStep jobsAndDead s firstReadOfDead).data.messages.isEmpty &&
        (commandStep jobsAndDead s firstReadOfDead).returned == [("jobs", 1)]))
    (by decide +kernel)
  simp only [Bool.and_eq_true, beq_iff_eq, List.isEmpty_iff] at reached
  obtain ⟨⟨dead, before⟩, gone, after⟩ := reached
  refine ⟨s, run, ⟨dead, before⟩, gone, after, ?_⟩
  rintro ⟨placed, -, -, fates⟩
  obtain ⟨message, held, own⟩ := mem_map.mp (dead ▸ mem_singleton_self "dead")
  rcases fates message held with here | departure
  · simp [cores, gone] at here
  · cases departure with
    | acknowledged event => cases event
    | deadLettered named =>
      rw [own] at named
      cases named
    | returned _ seen =>
      rw [own, before] at seen
      simp at seen

end

end RedDB.Queue
