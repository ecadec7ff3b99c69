import WifiIot.Machine.Run

/-!
# The lifetime of the client mutex

`MqttTask` takes the mutex twice a round and sleeps without it.
`MqttTaskDeinit` takes it once, to set `running`, and then deletes it: it does
not wait for the task to see the flag.

Source: `mqtt_demo/mqtt_task.c`, and the mutex functions of
`paho_mqtt/MQTTClient-C/src/ohos/mqtt_ohos_cmsis.c`.
-/

namespace WifiIot.Mqtt.Mutex

inductive Party where
  | MqttTask
  | MqttTaskDeinit
  deriving DecidableEq

inductive Action where
  | mqttMutexLock (party : Party)
  | mqttMutexUnlock (party : Party)
  | osMutexDelete
  deriving DecidableEq

structure osMutex where
  holder : Option Party
  deleted : Bool
  deriving DecidableEq

/-- A held mutex is waited for.  Nobody looks at the error of a deleted one. -/
def mqttMutexLock (mutex : osMutex) (party : Party) : Option osMutex :=
  if mutex.deleted then some mutex
  else
    match mutex.holder with
    | none => some { mutex with holder := some party }
    | some _ => none

def mqttMutexUnlock (mutex : osMutex) (party : Party) : osMutex :=
  if mutex.deleted = false ∧ mutex.holder = some party then { mutex with holder := none }
  else mutex

def mqttMutexDeinit (mutex : osMutex) : osMutex := { mutex with deleted := true }

inductive TaskPc where
  | lock
  /-- `if (!running)`. -/
  | running
  /-- The unlock before the `break`. -/
  | unlockExit
  | unlock
  | lockYield
  /-- `if (c->isconnected)`. -/
  | isconnected
  | MQTTYield
  | unlockYield
  | Sleep
  | exited
  deriving DecidableEq

inductive DeinitPc where
  | lock
  /-- `running = 0`. -/
  | running
  | unlock
  | mqttMutexDeinit
  | returned
  deriving DecidableEq

structure Client where
  task : TaskPc
  deinit : DeinitPc
  running : Bool
  mutex : osMutex
  deriving DecidableEq

def Client.lock (client : Client) (party : Party) : Option (Client × List Action) :=
  (mqttMutexLock client.mutex party).map fun mutex =>
    ({ client with mutex := mutex }, [.mqttMutexLock party])

def Client.unlock (client : Client) (party : Party) : Client × List Action :=
  ({ client with mutex := mqttMutexUnlock client.mutex party }, [.mqttMutexUnlock party])

/-- The steps of `MqttTask`.  The choice says whether the client is connected,
and whether `MQTTYield` goes on waiting. -/
def MqttTask (client : Client) (choice : Bool) : Option (Client × List Action) :=
  match client.task with
  | .lock => { client with task := .running }.lock .MqttTask
  | .running =>
      some ({ client with task := if client.running then .unlock else .unlockExit }, [])
  | .unlockExit => some ({ client with task := .exited }.unlock .MqttTask)
  | .unlock => some ({ client with task := .lockYield }.unlock .MqttTask)
  | .lockYield => { client with task := .isconnected }.lock .MqttTask
  | .isconnected | .MQTTYield =>
      some ({ client with task := if choice then .MQTTYield else .unlockYield }, [])
  | .unlockYield => some ({ client with task := .Sleep }.unlock .MqttTask)
  | .Sleep => some ({ client with task := .lock }, [])
  | .exited => none

/-- The steps of `MqttTaskDeinit`. -/
def MqttTaskDeinit (client : Client) : Option (Client × List Action) :=
  match client.deinit with
  | .lock => { client with deinit := .running }.lock .MqttTaskDeinit
  | .running => some ({ client with running := false, deinit := .unlock }, [])
  | .unlock => some ({ client with deinit := .mqttMutexDeinit }.unlock .MqttTaskDeinit)
  | .mqttMutexDeinit =>
      some ({ client with mutex := mqttMutexDeinit client.mutex, deinit := .returned },
        [.osMutexDelete])
  | .returned => none

/-- The task, with its choice, and a call of `MqttTaskDeinit` that may begin at any time. -/
def machine : Machine Client (Bool ⊕ Unit) Action :=
  Machine.interleave ⟨MqttTask⟩ ⟨fun client _ => MqttTaskDeinit client⟩

/-- The state that `MqttTaskInit` leaves to the task. -/
def MqttTaskInit : Client where
  task := .lock
  deinit := .lock
  running := true
  mutex := { holder := none, deleted := false }

/-! ## The law -/

def holder (log : List Action) : Option Party :=
  log.foldl
    (fun held action =>
      match action with
      | .mqttMutexLock party => some party
      | .mqttMutexUnlock _ => none
      | .osMutexDelete => held) none

@[simp]
theorem holder_nil : holder [] = none := rfl

theorem holder_snoc (log : List Action) (action : Action) :
    holder (log ++ [action]) =
      match action with
      | .mqttMutexLock party => some party
      | .mqttMutexUnlock _ => none
      | .osMutexDelete => holder log := by
  unfold holder
  rw [List.foldl_append]
  cases action <;> rfl

def Action.ofTask : Action → Bool
  | .mqttMutexLock party | .mqttMutexUnlock party => party = .MqttTask
  | .osMutexDelete => false

def lastOfTask (log : List Action) : Option Action := (log.filter Action.ofTask).getLast?

theorem lastOfTask_snoc (log : List Action) (action : Action) :
    lastOfTask (log ++ [action]) = if action.ofTask then some action else lastOfTask log := by
  unfold lastOfTask
  cases own : action.ofTask <;> simp [List.filter_append, own]

/-- The mutex is not used after its deletion, it is free when it is deleted,
and a task that has left its loop has unlocked it last. -/
structure Disciplined (client : Client) (log : List Action) : Prop where
  unused : ∀ before after, log = before ++ .osMutexDelete :: after →
    ∀ party, .mqttMutexLock party ∉ after ∧ .mqttMutexUnlock party ∉ after
  free : ∀ before after, log = before ++ .osMutexDelete :: after → holder before = none
  unlocked : client.task = .exited → lastOfTask log = some (.mqttMutexUnlock .MqttTask)

/-! ## Before and after the deletion -/

def TaskPc.Holds : TaskPc → Prop
  | .running | .unlockExit | .unlock | .isconnected | .MQTTYield | .unlockYield => True
  | .lock | .lockYield | .Sleep | .exited => False

def DeinitPc.Holds : DeinitPc → Prop
  | .running | .unlock => True
  | .lock | .mqttMutexDeinit | .returned => False

def Client.Holds (client : Client) : Party → Prop
  | .MqttTask => client.task.Holds
  | .MqttTaskDeinit => client.deinit.Holds

inductive TaskStep (client : Client) : Client → List Action → Prop where
  | quiet {pc} : (pc.Holds ↔ client.task.Holds) → pc ≠ .exited →
      TaskStep client { client with task := pc } []
  | lock {pc mutex} : ¬client.task.Holds → pc.Holds →
      mqttMutexLock client.mutex .MqttTask = some mutex →
      TaskStep client { client with task := pc, mutex := mutex } [.mqttMutexLock .MqttTask]
  | unlock {pc} : client.task.Holds → ¬pc.Holds →
      TaskStep client
        { client with task := pc, mutex := mqttMutexUnlock client.mutex .MqttTask }
        [.mqttMutexUnlock .MqttTask]

/-- What a step of `MqttTaskDeinit` can do. -/
inductive DeinitStep (client : Client) : Client → List Action → Prop where
  | lock {mutex} : client.deinit = .lock →
      mqttMutexLock client.mutex .MqttTaskDeinit = some mutex →
      DeinitStep client { client with deinit := .running, mutex := mutex }
        [.mqttMutexLock .MqttTaskDeinit]
  | running : client.deinit = .running →
      DeinitStep client { client with running := false, deinit := .unlock } []
  | unlock : client.deinit = .unlock →
      DeinitStep client
        { client with
          deinit := .mqttMutexDeinit
          mutex := mqttMutexUnlock client.mutex .MqttTaskDeinit }
        [.mqttMutexUnlock .MqttTaskDeinit]
  | delete : client.deinit = .mqttMutexDeinit →
      DeinitStep client
        { client with mutex := mqttMutexDeinit client.mutex, deinit := .returned }
        [.osMutexDelete]

theorem MqttTask_step {client next : Client} {actions : List Action} {choice : Bool}
    (stepped : MqttTask client choice = some (next, actions)) : TaskStep client next actions := by
  unfold MqttTask at stepped
  cases at_ : client.task with
  | lock | lockYield =>
      simp only [at_, Client.lock, Option.map_eq_some_iff, Prod.mk.injEq] at stepped
      obtain ⟨mutex, locked, rfl, rfl⟩ := stepped
      exact .lock (by simp [at_, TaskPc.Holds]) trivial locked
  | unlock | unlockYield | unlockExit =>
      simp only [at_, Client.unlock, Option.some.injEq, Prod.mk.injEq] at stepped
      obtain ⟨rfl, rfl⟩ := stepped
      exact .unlock (by simp [at_, TaskPc.Holds]) id
  | running | isconnected | MQTTYield =>
      simp only [at_, Option.some.injEq, Prod.mk.injEq] at stepped
      obtain ⟨rfl, rfl⟩ := stepped
      refine .quiet ?_ ?_
      · rw [at_]
        split <;> exact Iff.rfl
      · split <;> decide
  | Sleep =>
      simp only [at_, Option.some.injEq, Prod.mk.injEq] at stepped
      obtain ⟨rfl, rfl⟩ := stepped
      exact .quiet (by simp [at_, TaskPc.Holds]) (by decide)
  | exited => simp [at_] at stepped

theorem MqttTaskDeinit_step {client next : Client} {actions : List Action}
    (stepped : MqttTaskDeinit client = some (next, actions)) : DeinitStep client next actions := by
  unfold MqttTaskDeinit at stepped
  cases at_ : client.deinit with
  | lock =>
      simp only [at_, Client.lock, Option.map_eq_some_iff, Prod.mk.injEq] at stepped
      obtain ⟨mutex, locked, rfl, rfl⟩ := stepped
      exact .lock at_ locked
  | running =>
      simp only [at_, Option.some.injEq, Prod.mk.injEq] at stepped
      obtain ⟨rfl, rfl⟩ := stepped
      exact .running at_
  | unlock =>
      simp only [at_, Client.unlock, Option.some.injEq, Prod.mk.injEq] at stepped
      obtain ⟨rfl, rfl⟩ := stepped
      exact .unlock at_
  | mqttMutexDeinit =>
      simp only [at_, Option.some.injEq, Prod.mk.injEq] at stepped
      obtain ⟨rfl, rfl⟩ := stepped
      exact .delete at_
  | returned => simp [at_] at stepped

/-- The mutex exists, and its holder is the party that stands between a lock
and an unlock. -/
structure Live (client : Client) (log : List Action) : Prop where
  unreturned : client.deinit ≠ .returned
  undeleted : client.mutex.deleted = false
  undeletedLog : .osMutexDelete ∉ log
  held : client.mutex.holder = holder log
  holds : ∀ party, client.mutex.holder = some party ↔ client.Holds party

structure Dead (client : Client) (log : List Action) : Prop where
  returned : client.deinit = .returned
  deleted : client.mutex.deleted = true
  deletedLog : .osMutexDelete ∈ log

theorem live_start : Live MqttTaskInit [] where
  unreturned := by decide
  undeleted := rfl
  undeletedLog := List.not_mem_nil
  held := rfl
  holds party := by cases party <;> simp [MqttTaskInit, Client.Holds, TaskPc.Holds, DeinitPc.Holds]

namespace Live

variable {client next : Client} {log : List Action} {party : Party} {mutex : osMutex}

theorem quiet (live : Live client log) (same : next.mutex = client.mutex)
    (unreturned : next.deinit ≠ .returned)
    (holds : ∀ party, next.Holds party ↔ client.Holds party) : Live next (log ++ []) where
  unreturned := unreturned
  undeleted := by rw [same, live.undeleted]
  undeletedLog := by simpa using live.undeletedLog
  held := by rw [same, List.append_nil, live.held]
  holds party := by rw [same, live.holds, holds]

theorem lock (live : Live client log) (locked : mqttMutexLock client.mutex party = some mutex)
    (same : next.mutex = mutex) (unreturned : next.deinit ≠ .returned)
    (holds : ∀ other, next.Holds other ↔ other = party ∨ client.Holds other) :
    Live next (log ++ [.mqttMutexLock party]) := by
  rw [mqttMutexLock, live.undeleted] at locked
  cases free : client.mutex.holder with
  | some other => simp [free] at locked
  | none =>
      simp only [free, Bool.false_eq_true, if_false, Option.some.injEq] at locked
      subst locked
      constructor
      · exact unreturned
      · rw [same]
      · simpa using live.undeletedLog
      · rw [same, holder_snoc]
      · intro other
        have outside : ¬client.Holds other := by
          rw [← live.holds, free]
          nofun
        rw [same, holds, or_iff_left outside, Option.some.injEq, eq_comm]

theorem unlock (live : Live client log) (holding : client.Holds party)
    (same : next.mutex = mqttMutexUnlock client.mutex party)
    (unreturned : next.deinit ≠ .returned)
    (holds : ∀ other, next.Holds other → client.Holds other ∧ other ≠ party) :
    Live next (log ++ [.mqttMutexUnlock party]) := by
  have mine : client.mutex.holder = some party := (live.holds party).mpr holding
  rw [mqttMutexUnlock, if_pos ⟨live.undeleted, mine⟩] at same
  constructor
  · exact unreturned
  · rw [same, live.undeleted]
  · simpa using live.undeletedLog
  · rw [same, holder_snoc]
  · intro other
    refine iff_of_false (by simp [same]) fun still => ?_
    obtain ⟨before, different⟩ := holds other still
    rw [← live.holds, mine] at before
    exact different (Option.some.inj before).symm

end Live

theorem MqttTask_live {client next : Client} {log actions : List Action}
    (live : Live client log) (stepped : TaskStep client next actions) :
    Live next (log ++ actions) := by
  have unreturned := live.unreturned
  cases stepped with
  | quiet holds outside =>
      refine live.quiet rfl unreturned fun other => ?_
      cases other with
      | MqttTask => exact holds
      | MqttTaskDeinit => exact Iff.rfl
  | lock free holds locked =>
      refine live.lock locked rfl unreturned fun other => ?_
      cases other with
      | MqttTask => exact iff_of_true holds (.inl rfl)
      | MqttTaskDeinit => simp [Client.Holds]
  | unlock holding released =>
      refine live.unlock holding rfl unreturned fun other still => ?_
      cases other with
      | MqttTask => exact absurd still released
      | MqttTaskDeinit => exact ⟨still, by decide⟩

theorem MqttTaskDeinit_live {client next : Client} {log actions : List Action}
    (live : Live client log) (stepped : DeinitStep client next actions) :
    Live next (log ++ actions) ∨
      client.deinit = .mqttMutexDeinit ∧ actions = [.osMutexDelete] ∧
        next = { client with mutex := mqttMutexDeinit client.mutex, deinit := .returned } := by
  cases stepped with
  | lock at_ locked =>
      refine .inl (live.lock locked rfl (by simp) fun other => ?_)
      cases other <;> simp [Client.Holds, DeinitPc.Holds]
  | running at_ =>
      refine .inl (live.quiet rfl (by simp) fun other => ?_)
      cases other <;> simp [Client.Holds, DeinitPc.Holds, at_]
  | unlock at_ =>
      refine .inl (live.unlock (by simp [Client.Holds, DeinitPc.Holds, at_]) rfl (by simp)
        fun other => ?_)
      cases other <;> simp [Client.Holds, DeinitPc.Holds]
  | delete at_ => exact .inr ⟨at_, rfl, rfl⟩

/-! ## The law before and after the deletion -/

theorem Live.disciplined {client : Client} {log : List Action} (live : Live client log)
    (unlocked : client.task = .exited → lastOfTask log = some (.mqttMutexUnlock .MqttTask)) :
    Disciplined client log := by
  refine ⟨fun before after equality => ?_, fun before after equality => ?_, unlocked⟩
  · exact absurd (by simp [equality]) live.undeletedLog
  · exact absurd (by simp [equality]) live.undeletedLog

/-- The deletion keeps the law if the mutex is free. -/
theorem Live.disciplined_delete_iff {client : Client} {log : List Action}
    (live : Live client log)
    (unlocked : client.task = .exited → lastOfTask log = some (.mqttMutexUnlock .MqttTask)) :
    Disciplined { client with mutex := mqttMutexDeinit client.mutex, deinit := .returned }
      (log ++ [.osMutexDelete]) ↔ holder log = none := by
  constructor
  · intro disciplined
    exact disciplined.free log [] rfl
  · intro free
    have split {before after : List Action}
        (equality : log ++ [.osMutexDelete] = before ++ .osMutexDelete :: after) :
        before = log ∧ after = [] := by
      obtain ⟨rfl, -, rfl⟩ :=
        (List.append_cons_inj_of_notMem live.undeletedLog List.not_mem_nil).mp equality
      exact ⟨rfl, rfl⟩
    refine ⟨fun before after equality => ?_, fun before after equality => ?_, fun exited => ?_⟩
    · simp [(split equality).2]
    · rw [(split equality).1]
      exact free
    · rw [lastOfTask_snoc]
      exact unlocked exited

theorem unlocked_of_step {client next : Client} {log actions : List Action} {input : Bool ⊕ Unit}
    (unlocked : client.task = .exited → lastOfTask log = some (.mqttMutexUnlock .MqttTask))
    (stepped : machine.step client input = some (next, actions)) :
    next.task = .exited → lastOfTask (log ++ actions) = some (.mqttMutexUnlock .MqttTask) := by
  intro exited
  cases input with
  | inl choice =>
      cases MqttTask_step stepped with
      | quiet holds outside => exact absurd exited outside
      | @lock pc mutex free holds locked =>
          have inside : pc = .exited := exited
          subst pc
          exact absurd holds id
      | unlock holding released => exact lastOfTask_snoc ..
  | inr call =>
      cases MqttTaskDeinit_step stepped with
      | running at_ =>
          rw [List.append_nil]
          exact unlocked exited
      | _ =>
          rw [lastOfTask_snoc]
          exact unlocked exited

/-- After the deletion every lock and every unlock breaks the law. -/
theorem Dead.not_disciplined {client next : Client} {log : List Action} (dead : Dead client log)
    {action : Action} (use : ∃ party, action = .mqttMutexLock party ∨ action = .mqttMutexUnlock party) :
    ¬Disciplined next (log ++ [action]) := by
  intro disciplined
  obtain ⟨before, after, rfl⟩ := List.append_of_mem dead.deletedLog
  obtain ⟨party, locks | unlocks⟩ := use
  · exact (disciplined.unused before (after ++ [action]) (by simp) party).1 (by simp [locks])
  · exact (disciplined.unused before (after ++ [action]) (by simp) party).2 (by simp [unlocks])

theorem mqttMutexLock_deleted {mutex : osMutex} (deleted : mutex.deleted = true) (party : Party) :
    mqttMutexLock mutex party = some mutex :=
  if_pos deleted

theorem Dead.task {client next : Client} {log actions : List Action} (dead : Dead client log)
    (stepped : TaskStep client next actions) : Dead next (log ++ actions) := by
  have deletedLog : .osMutexDelete ∈ log ++ actions := List.mem_append_left _ dead.deletedLog
  cases stepped with
  | quiet holds outside => exact ⟨dead.returned, dead.deleted, deletedLog⟩
  | lock free holds locked =>
      rw [mqttMutexLock_deleted dead.deleted] at locked
      obtain rfl := Option.some.inj locked
      exact ⟨dead.returned, dead.deleted, deletedLog⟩
  | unlock holding released =>
      refine ⟨dead.returned, ?_, deletedLog⟩
      simp [mqttMutexUnlock, dead.deleted]

theorem Dead.returned_step {client next : Client} {log actions : List Action}
    (dead : Dead client log) : ¬DeinitStep client next actions := by
  intro stepped
  have returned := dead.returned
  cases stepped <;> simp_all

theorem Live.free_of_exited {client : Client} {log : List Action} (live : Live client log)
    (at_ : client.deinit = .mqttMutexDeinit) (exited : client.task = .exited) :
    holder log = none := by
  rw [← live.held]
  apply Option.eq_none_iff_forall_ne_some.mpr
  intro party held
  rw [live.holds] at held
  cases party with
  | MqttTask => simp [Client.Holds, exited, TaskPc.Holds] at held
  | MqttTaskDeinit => simp [Client.Holds, at_, DeinitPc.Holds] at held

/-! ## The runs that keep the law -/

/-- The mutex is deleted after the task has left its loop. -/
def DeletesAfterExit (client : Client) (_log : List Action) (input : Bool ⊕ Unit) : Prop :=
  input = .inr () → client.deinit = .mqttMutexDeinit → client.task = .exited

instance (client : Client) (log : List Action) (input : Bool ⊕ Unit) :
    Decidable (DeletesAfterExit client log input) := by
  unfold DeletesAfterExit
  infer_instance

section

variable {inputs : List (Bool ⊕ Unit)} {client : Client} {log : List Action}

theorem unlocked_of_run (run : machine.Run MqttTaskInit inputs client log) :
    client.task = .exited → lastOfTask log = some (.mqttMutexUnlock .MqttTask) :=
  run.invariant
    (fun client log => client.task = .exited → lastOfTask log = some (.mqttMutexUnlock .MqttTask))
    (fun exited => by cases exited)
    fun _ _ _ _ _ unlocked stepped => unlocked_of_step unlocked stepped

theorem disciplined_of_meets (run : machine.Run MqttTaskInit inputs client log)
    (met : machine.Meets DeletesAfterExit MqttTaskInit inputs) :
    Live client log ∨ Dead client log ∧ client.task = .exited ∧ Disciplined client log := by
  induction run with
  | refl => exact .inl live_start
  | @snoc inputs client log input next actions before stepped inductionHypothesis =>
      obtain ⟨earlier, now⟩ := (Machine.meets_snoc_iff before input).mp met
      have unlocked := unlocked_of_run before
      cases inductionHypothesis earlier with
      | inl live =>
          cases input with
          | inl choice => exact .inl (MqttTask_live live (MqttTask_step stepped))
          | inr call =>
              obtain kept | ⟨at_, rfl, rfl⟩ :=
                MqttTaskDeinit_live live (MqttTaskDeinit_step stepped)
              · exact .inl kept
              · have exited := now rfl at_
                refine .inr ⟨⟨rfl, rfl, by simp⟩, exited, ?_⟩
                exact (live.disciplined_delete_iff unlocked).mpr
                  (live.free_of_exited at_ exited)
      | inr closed =>
          obtain ⟨dead, exited, -⟩ := closed
          cases input with
          | inl choice => simp [machine, MqttTask, exited] at stepped
          | inr call => exact absurd (MqttTaskDeinit_step stepped) dead.returned_step

/-- If the mutex is deleted too early, the law is broken or the task is yet to
take the mutex. -/
theorem disciplined_cases (run : machine.Run MqttTaskInit inputs client log) :
    Live client log ∧ machine.Meets DeletesAfterExit MqttTaskInit inputs ∨
      Dead client log ∧ (Disciplined client log →
        machine.Meets DeletesAfterExit MqttTaskInit inputs ∨
          ¬client.task.Holds ∧ client.task ≠ .exited) := by
  induction run with
  | refl => exact .inl ⟨live_start, Machine.meets_nil MqttTaskInit⟩
  | @snoc inputs client log input next actions before stepped inductionHypothesis =>
      have unlocked := unlocked_of_run before
      rw [Machine.meets_snoc_iff before]
      cases input with
      | inl choice =>
          have moved := MqttTask_step stepped
          have harmless : DeletesAfterExit client log (.inl choice) := nofun
          obtain ⟨live, met⟩ | ⟨dead, lawful⟩ := inductionHypothesis
          · exact .inl ⟨MqttTask_live live moved, met, harmless⟩
          · refine .inr ⟨dead.task moved, fun disciplined => ?_⟩
            cases moved with
            | quiet holds outside =>
                rw [List.append_nil] at disciplined
                have earlier : Disciplined client log :=
                  ⟨disciplined.unused, disciplined.free, unlocked⟩
                obtain met | ⟨free, inLoop⟩ := lawful earlier
                · exact .inl ⟨met, harmless⟩
                · exact .inr ⟨fun held => free (holds.mp held), outside⟩
            | lock free holds locked =>
                exact absurd disciplined (dead.not_disciplined ⟨_, .inl rfl⟩)
            | unlock holding released =>
                exact absurd disciplined (dead.not_disciplined ⟨_, .inr rfl⟩)
      | inr call =>
          obtain ⟨live, met⟩ | ⟨dead, -⟩ := inductionHypothesis
          · obtain kept | ⟨at_, rfl, rfl⟩ := MqttTaskDeinit_live live (MqttTaskDeinit_step stepped)
            · refine .inl ⟨kept, met, fun _ at_ => ?_⟩
              have moved := MqttTaskDeinit_step stepped
              have unreturned := kept.unreturned
              cases moved <;> simp_all
            · refine .inr ⟨⟨rfl, rfl, by simp⟩, fun disciplined => ?_⟩
              have free : holder log = none :=
                (live.disciplined_delete_iff unlocked).mp disciplined
              have outside : ¬client.task.Holds := by
                intro held
                have mine := (live.holds .MqttTask).mpr held
                rw [live.held, free] at mine
                cases mine
              by_cases exited : client.task = .exited
              · exact .inl ⟨met, fun _ _ => exited⟩
              · exact .inr ⟨outside, exited⟩
          · exact absurd (MqttTaskDeinit_step stepped) dead.returned_step

theorem Dead.locks (dead : Dead client log)
    (before : client.task = .lock ∨ client.task = .lockYield) :
    ∃ next, machine.Run client [.inl false] next [.mqttMutexLock .MqttTask] ∧
      ¬Disciplined next (log ++ [.mqttMutexLock .MqttTask]) := by
  have locked := mqttMutexLock_deleted dead.deleted .MqttTask
  have stepped : ∃ next, MqttTask client false = some (next, [.mqttMutexLock .MqttTask]) := by
    rcases before with at_ | at_
    · exact ⟨{ client with task := .running }, by simp [MqttTask, at_, Client.lock, locked]⟩
    · exact ⟨{ client with task := .isconnected }, by simp [MqttTask, at_, Client.lock, locked]⟩
  obtain ⟨next, stepped⟩ := stepped
  exact ⟨next, .single stepped, dead.not_disciplined ⟨.MqttTask, .inl rfl⟩⟩

theorem Dead.broken_later (dead : Dead client log) (free : ¬client.task.Holds)
    (inLoop : client.task ≠ .exited) :
    ∃ inputs last actions, machine.Run client inputs last actions ∧
      ¬Disciplined last (log ++ actions) := by
  cases at_ : client.task with
  | lock =>
      obtain ⟨next, run, broken⟩ := dead.locks (.inl at_)
      exact ⟨_, next, _, run, broken⟩
  | lockYield =>
      obtain ⟨next, run, broken⟩ := dead.locks (.inr at_)
      exact ⟨_, next, _, run, broken⟩
  | Sleep =>
      have wakes : machine.step client (.inl false) = some ({ client with task := .lock }, []) := by
        simp [machine, MqttTask, at_]
      have awake : Dead { client with task := .lock } log :=
        ⟨dead.returned, dead.deleted, dead.deletedLog⟩
      obtain ⟨next, run, broken⟩ := awake.locks (.inl rfl)
      exact ⟨_, next, _, (Machine.Run.single wakes).append run, broken⟩
  | exited => exact absurd at_ inLoop
  | _ => exact absurd (by simp [at_, TaskPc.Holds]) free

/-- Where every deletion comes after the exit of the task, the law holds in
every state; once `MqttTaskDeinit` has returned, it holds whatever the task
does from then on exactly if the deletion came after the exit. -/
theorem mutex_lifetime_iff (run : machine.Run MqttTaskInit inputs client log) :
    (machine.Meets DeletesAfterExit MqttTaskInit inputs → Disciplined client log) ∧
      (client.deinit = .returned →
        ((∀ later last actions, machine.Run client later last actions →
          Disciplined last (log ++ actions)) ↔
            machine.Meets DeletesAfterExit MqttTaskInit inputs)) := by
  have lawful (met : machine.Meets DeletesAfterExit MqttTaskInit inputs) :
      Disciplined client log := by
    obtain live | ⟨-, -, disciplined⟩ := disciplined_of_meets run met
    · exact live.disciplined (unlocked_of_run run)
    · exact disciplined
  refine ⟨lawful, fun returned => ⟨fun always => ?_, fun met => ?_⟩⟩
  · obtain ⟨live, -⟩ | ⟨dead, cases⟩ := disciplined_cases run
    · exact absurd returned live.unreturned
    · have now : Disciplined client log := by simpa using always [] client [] .refl
      obtain met | ⟨free, inLoop⟩ := cases now
      · exact met
      · obtain ⟨later, last, actions, rest, broken⟩ := dead.broken_later free inLoop
        exact absurd (always later last actions rest) broken
  · intro later last actions rest
    obtain live | ⟨dead, exited, disciplined⟩ := disciplined_of_meets run met
    · exact absurd returned live.unreturned
    · -- Neither party can move.
      cases later with
      | nil =>
          obtain ⟨rfl, rfl⟩ := Machine.run_nil_iff.mp rest
          simpa using disciplined
      | cons input inputs =>
          obtain ⟨next, emitted, _, stepped, -⟩ := Machine.run_cons_iff.mp rest
          cases input with
          | inl choice => simp [machine, MqttTask, exited] at stepped
          | inr call => exact absurd (MqttTaskDeinit_step stepped) dead.returned_step

end

/-- The task sees the flag before the mutex is deleted. -/
def orderlyExit : List (Bool ⊕ Unit) :=
  [.inr (), .inr (), .inr (), .inl false, .inl false, .inl false, .inr ()]

theorem mutex_lifetime_orderly :
    ∃ client log, machine.Run MqttTaskInit orderlyExit client log ∧
      client.deinit = .returned ∧ Disciplined client log := by
  obtain ⟨client, log, run, seen⟩ := machine.exists_run_of_exec
    (fun result => result.1.deinit) MqttTaskInit orderlyExit .returned (by decide +kernel)
  refine ⟨client, log, run, seen, (mutex_lifetime_iff run).1 ?_⟩
  exact Machine.meets_of_meetsFrom
    (fun client log input => decide (DeletesAfterExit client log input))
    (fun _ _ _ passed => of_decide_eq_true passed) (by decide +kernel)

/-- A task that sleeps through the call takes the deleted mutex when it wakes. -/
theorem deleted_mutex_locked :
    ∃ client log, machine.Run MqttTaskInit (List.replicate 6 (.inl false) ++
        List.replicate 4 (.inr ()) ++ List.replicate 2 (.inl false)) client log ∧
      log = [.mqttMutexLock .MqttTask, .mqttMutexUnlock .MqttTask,
        .mqttMutexLock .MqttTask, .mqttMutexUnlock .MqttTask,
        .mqttMutexLock .MqttTaskDeinit, .mqttMutexUnlock .MqttTaskDeinit, .osMutexDelete,
        .mqttMutexLock .MqttTask] ∧
      ¬Disciplined client log := by
  obtain ⟨client, log, run, rfl⟩ := machine.exists_run_of_exec (fun result => result.2)
    MqttTaskInit
    (List.replicate 6 (.inl false) ++ List.replicate 4 (.inr ()) ++ List.replicate 2 (.inl false))
    [.mqttMutexLock .MqttTask, .mqttMutexUnlock .MqttTask,
      .mqttMutexLock .MqttTask, .mqttMutexUnlock .MqttTask,
      .mqttMutexLock .MqttTaskDeinit, .mqttMutexUnlock .MqttTaskDeinit, .osMutexDelete,
      .mqttMutexLock .MqttTask] (by decide +kernel)
  refine ⟨client, _, run, rfl, fun disciplined => ?_⟩
  have unused := disciplined.unused
    [.mqttMutexLock .MqttTask, .mqttMutexUnlock .MqttTask,
      .mqttMutexLock .MqttTask, .mqttMutexUnlock .MqttTask,
      .mqttMutexLock .MqttTaskDeinit, .mqttMutexUnlock .MqttTaskDeinit]
    [.mqttMutexLock .MqttTask] rfl .MqttTask
  exact unused.1 (by simp)

end WifiIot.Mqtt.Mutex
