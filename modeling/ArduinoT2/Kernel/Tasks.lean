import ArduinoT2.Kernel.ListRuns

/-
  The scheduler of the kernel: the tasks, their lists and the tick of tasks.c.

  Every list operation goes through `Sched.list`, which does it on the lists and notes the call, so
  that Kernel.ListRuns has the memory behind any run. A task has two list items: the list of its
  state item is the state of the task, its event item is in the list of the event it waits for.

  `uxSchedulerSuspended`, `uxPendedTicks` and `xNumOfOverflows` are natural numbers; the runs of
  Kernel.TaskRuns are those in which they stay in the 32 bits of the source (`Sched.Roomy`). A loop
  returns `none` where the source would not end, and `vTaskSwitchContext` where it would look for a
  ready task below priority 0.

  `yield` stands for a context switch that the port has been asked for: by `portYIELD`, or by a tick
  or a call from an interrupt that returned `pdTRUE`. Nothing else reads it.
-/

namespace ArduinoT2.Kernel

variable {T E : Type} [DecidableEq T] [DecidableEq E]

/-! ## Tasks and lists -/

/-- `configMAX_PRIORITIES`. -/
def configMaxPriorities : Nat := 10

/-- `taskEVENT_LIST_ITEM_VALUE_IN_USE`. -/
def taskEventListItemValueInUse : UInt32 := 0x80000000

/-- The list items of a task. -/
inductive TaskItem (T : Type) where
  | state (t : T)
  | event (t : T)
deriving DecidableEq

/-- `pvOwner`. -/
def TaskItem.owner : TaskItem T → T
  | .state t => t
  | .event t => t

/-- The lists of tasks.c and the event lists that others keep. `delayed false` is
    `xDelayedTaskList1`. -/
inductive TaskList (E : Type) where
  | ready (priority : Nat)
  | delayed (second : Bool)
  | pendingReady
  | waitingTermination
  | suspended
  | event (e : E)
deriving DecidableEq

/-- The variables of tasks.c. `second` says which list `pxDelayedTaskList` points to, and `calls`
    are the calls of list.c so far. -/
structure Sched (T E : Type) where
  lists : Lists (TaskList E) (TaskItem T)
  calls : List (ListCall (TaskList E) (TaskItem T))
  second : Bool
  pxCurrentTCB : Option T
  uxPriority : T → Nat
  ucDelayAborted : T → Bool
  uxTopReadyPriority : Nat
  xSchedulerRunning : Bool
  uxSchedulerSuspended : Nat
  xTickCount : UInt32
  xNumOfOverflows : Nat
  uxPendedTicks : Nat
  xNextTaskUnblockTime : UInt32
  xYieldPending : Bool
  uxDeletedTasksWaitingCleanUp : Nat
  yield : Bool

namespace Sched

variable (k : Sched T E)

def list (c : ListCall (TaskList E) (TaskItem T)) : Sched T E :=
  { k with lists := (k.lists.call c).1, calls := k.calls ++ [c] }

def pxDelayedTaskList : TaskList E := .delayed k.second

def pxOverflowDelayedTaskList : TaskList E := .delayed (!k.second)

/-- `listGET_OWNER_OF_HEAD_ENTRY`. -/
def headOwner (l : TaskList E) : Option T := (k.lists.items l).head?.map TaskItem.owner

/-- `pxCurrentTCB->uxPriority`. -/
def currentPriority : Nat := (k.pxCurrentTCB.map k.uxPriority).getD 0

/-- `listLIST_ITEM_CONTAINER` of the event item is not NULL. -/
def inEventList (t : T) : Bool := (k.lists.container (.event t)).isSome

/-- The event item is taken out of the list it is in, if any. -/
def leaveEventList (t : T) : Sched T E :=
  if k.inEventList t then k.list (.remove (.event t)) else k

/-! ## Ready tasks -/

def taskRecordReadyPriority (uxPriority : Nat) : Sched T E :=
  if uxPriority > k.uxTopReadyPriority then { k with uxTopReadyPriority := uxPriority } else k

def prvAddTaskToReadyList (t : T) : Sched T E :=
  (k.taskRecordReadyPriority (k.uxPriority t)).list
    (.insertEnd (.ready (k.uxPriority t)) (.state t))

/-- The loop of `taskSELECT_HIGHEST_PRIORITY_TASK` from `uxTopPriority` down. -/
def findPriority : Nat → Option Nat
  | 0 => if (k.lists.items (.ready 0)).isEmpty then none else some 0
  | uxTopPriority + 1 =>
    if (k.lists.items (.ready (uxTopPriority + 1))).isEmpty then findPriority uxTopPriority
    else some (uxTopPriority + 1)

def taskSelectHighestPriorityTask : Option (Sched T E) :=
  (k.findPriority k.uxTopReadyPriority).map fun uxTopPriority =>
    let k := k.list (.nextEntry (.ready uxTopPriority))
    { k with
      pxCurrentTCB := (k.lists.index (.ready uxTopPriority)).map TaskItem.owner
      uxTopReadyPriority := uxTopPriority }

def vTaskSwitchContext : Option (Sched T E) :=
  let k := { k with yield := false }
  if k.uxSchedulerSuspended ≠ 0 then some { k with xYieldPending := true }
  else { k with xYieldPending := false }.taskSelectHighestPriorityTask

/-- `portYIELD_WITHIN_API`. -/
def portYield : Sched T E := { k with yield := true }

/-! ## The tick -/

def prvResetNextTaskUnblockTime : Sched T E :=
  { k with
    xNextTaskUnblockTime :=
      match k.headOwner k.pxDelayedTaskList with
      | none => portMaxDelay
      | some pxTCB => k.lists.value (.state pxTCB) }

def taskSwitchDelayedLists : Sched T E :=
  { k with
    second := !k.second
    xNumOfOverflows := k.xNumOfOverflows + 1 }.prvResetNextTaskUnblockTime

/-- A task of a delayed list whose time has come, as `xTaskIncrementTick` makes it ready. -/
def wakeTask (t : T) : Sched T E :=
  ((k.list (.remove (.state t))).leaveEventList t).prvAddTaskToReadyList t

/-- The loop of `xTaskIncrementTick`, and whether a task of at least the priority of the current
    one was unblocked. -/
def unblockTasks (xConstTickCount : UInt32) : Nat → Sched T E → Option (Sched T E × Bool)
  | 0, _ => none
  | rounds + 1, k =>
    match k.headOwner k.pxDelayedTaskList with
    | none => some ({ k with xNextTaskUnblockTime := portMaxDelay }, false)
    | some pxTCB =>
      let xItemValue := k.lists.value (.state pxTCB)
      if xConstTickCount < xItemValue then
        some ({ k with xNextTaskUnblockTime := xItemValue }, false)
      else
        let k := k.wakeTask pxTCB
        (unblockTasks xConstTickCount rounds k).map fun r =>
          (r.1, decide (k.currentPriority ≤ k.uxPriority pxTCB) || r.2)

/-- The next tick, with the delayed lists switched when the count is 0 again. -/
def advanceTick : Sched T E :=
  let xConstTickCount := k.xTickCount + 1
  let k := { k with xTickCount := xConstTickCount }
  if xConstTickCount = 0 then k.taskSwitchDelayedLists else k

/-- `xTaskIncrementTick` when the scheduler is not suspended, up to `xYieldPending`. -/
def countTick : Option (Sched T E × Bool) :=
  let k := k.advanceTick
  let r :=
    if k.xNextTaskUnblockTime ≤ k.xTickCount then
      unblockTasks k.xTickCount ((k.lists.items k.pxDelayedTaskList).length + 1) k
    else some (k, false)
  r.map fun r =>
    (r.1, r.2 || decide (1 < (r.1.lists.items (.ready r.1.currentPriority)).length))

def xTaskIncrementTick : Option (Sched T E × Bool) :=
  let r :=
    if k.uxSchedulerSuspended = 0 then k.countTick
    else some ({ k with uxPendedTicks := k.uxPendedTicks + 1 }, false)
  r.map fun r => (r.1, r.2 || r.1.xYieldPending)

/-- `vTaskStepTick`, whose assertion is in `Sched.MayJump`. -/
def vTaskStepTick (xTicksToJump : UInt32) : Sched T E :=
  { k with xTickCount := k.xTickCount + xTicksToJump }

/-! ## Suspending the scheduler -/

def vTaskSuspendAll : Sched T E := { k with uxSchedulerSuspended := k.uxSchedulerSuspended + 1 }

/-- The loop of `xTaskResumeAll` over `xPendingReadyList`, and whether a task was moved. -/
def movePending : Nat → Sched T E → Option (Sched T E × Bool)
  | 0, _ => none
  | rounds + 1, k =>
    match k.headOwner .pendingReady with
    | none => some (k, false)
    | some pxTCB =>
      let k := k.list (.remove (.event pxTCB))
      let k := k.list (.remove (.state pxTCB))
      let k := k.prvAddTaskToReadyList pxTCB
      let k :=
        if k.currentPriority ≤ k.uxPriority pxTCB then { k with xYieldPending := true } else k
      (movePending rounds k).map fun r => (r.1, true)

/-- The loop of `xTaskResumeAll` over the pended ticks. -/
def unwindTicks : Nat → Sched T E → Option (Sched T E)
  | 0, k => some k
  | uxPendedCounts + 1, k => do
    let r ← k.xTaskIncrementTick
    unwindTicks uxPendedCounts (if r.2 then { r.1 with xYieldPending := true } else r.1)

/-- `xTaskResumeAll`, and whether it has yielded. -/
def xTaskResumeAll : Option (Sched T E × Bool) := do
  let k := { k with uxSchedulerSuspended := k.uxSchedulerSuspended - 1 }
  if k.uxSchedulerSuspended = 0 then
    let r ← movePending ((k.lists.items .pendingReady).length + 1) k
    let k := if r.2 then r.1.prvResetNextTaskUnblockTime else r.1
    let k ← unwindTicks k.uxPendedTicks k
    let k := { k with uxPendedTicks := 0 }
    if k.xYieldPending then return (k.portYield, true) else return (k, false)
  else return (k, false)

/-! ## Blocking -/

/-- `prvAddCurrentTaskToDelayedList` of the current task `t`. -/
def prvAddCurrentTaskToDelayedList (t : T) (xTicksToWait : UInt32) (xCanBlockIndefinitely : Bool) :
    Sched T E :=
  let k := { k with ucDelayAborted := Function.update k.ucDelayAborted t false }
  let k := k.list (.remove (.state t))
  if xTicksToWait = portMaxDelay ∧ xCanBlockIndefinitely = true then
    k.list (.insertEnd .suspended (.state t))
  else
    let xTimeToWake := k.xTickCount + xTicksToWait
    let k := k.list (.setValue (.state t) xTimeToWake)
    if xTimeToWake < k.xTickCount then k.list (.insert k.pxOverflowDelayedTaskList (.state t))
    else
      let k := k.list (.insert k.pxDelayedTaskList (.state t))
      if xTimeToWake < k.xNextTaskUnblockTime then { k with xNextTaskUnblockTime := xTimeToWake }
      else k

def vTaskPlaceOnEventList (t : T) (pxEventList : E) (xTicksToWait : UInt32) : Sched T E :=
  (k.list (.insert (.event pxEventList) (.event t))).prvAddCurrentTaskToDelayedList t xTicksToWait
    true

def vTaskPlaceOnUnorderedEventList (t : T) (pxEventList : E) (xItemValue xTicksToWait : UInt32) :
    Sched T E :=
  let k := k.list (.setValue (.event t) (xItemValue ||| taskEventListItemValueInUse))
  (k.list (.insertEnd (.event pxEventList) (.event t))).prvAddCurrentTaskToDelayedList t
    xTicksToWait true

def vTaskPlaceOnEventListRestricted (t : T) (pxEventList : E) (xTicksToWait : UInt32)
    (xWaitIndefinitely : Bool) : Sched T E :=
  let k := k.list (.insertEnd (.event pxEventList) (.event t))
  let xTicksToWait := if xWaitIndefinitely then portMaxDelay else xTicksToWait
  k.prvAddCurrentTaskToDelayedList t xTicksToWait xWaitIndefinitely

/-! ## Unblocking -/

/-- A task of a higher priority than the current one was unblocked: a yield is pending, and the call
    returns `pdTRUE`. -/
def pendYield (pxUnblockedTCB : T) : Sched T E × Bool :=
  if k.currentPriority < k.uxPriority pxUnblockedTCB then ({ k with xYieldPending := true }, true)
  else (k, false)

/-- `xTaskRemoveFromEventList` of the first task of an event list that is not empty. -/
def xTaskRemoveFromEventList (pxEventList : E) : Option (Sched T E × Bool) :=
  (k.headOwner (.event pxEventList)).map fun pxUnblockedTCB =>
    let k := k.list (.remove (.event pxUnblockedTCB))
    let k :=
      if k.uxSchedulerSuspended = 0 then
        (k.list (.remove (.state pxUnblockedTCB))).prvAddTaskToReadyList pxUnblockedTCB
      else k.list (.insertEnd .pendingReady (.event pxUnblockedTCB))
    let r := k.pendYield pxUnblockedTCB
    (r.1.prvResetNextTaskUnblockTime, r.2)

/-- `xTaskRemoveFromUnorderedEventList` of the event item of `t`. -/
def xTaskRemoveFromUnorderedEventList (t : T) (xItemValue : UInt32) : Sched T E × Bool :=
  let k := k.list (.setValue (.event t) (xItemValue ||| taskEventListItemValueInUse))
  let k := k.list (.remove (.event t))
  ((k.list (.remove (.state t))).prvAddTaskToReadyList t).pendYield t

/-- `eTaskState`. -/
inductive ETaskState where
  | eRunning | eReady | eBlocked | eSuspended | eDeleted
deriving DecidableEq

def eTaskGetState (t : T) : ETaskState :=
  if k.pxCurrentTCB = some t then .eRunning
  else
    let pxStateList := k.lists.container (.state t)
    if pxStateList = some k.pxDelayedTaskList ∨ pxStateList = some k.pxOverflowDelayedTaskList then
      .eBlocked
    else if pxStateList = some .suspended then
      if k.lists.container (.event t) = none then .eSuspended else .eBlocked
    else if pxStateList = some .waitingTermination ∨ pxStateList = none then .eDeleted
    else .eReady

/-- A task whose delay is aborted leaves the event list it waits in. -/
def abortEvent (t : T) : Sched T E :=
  if k.inEventList t then
    { k.list (.remove (.event t)) with
      ucDelayAborted := Function.update k.ucDelayAborted t true }
  else k

/-- `xTaskAbortDelay` between `vTaskSuspendAll` and `xTaskResumeAll`. -/
def abortDelay (t : T) : Sched T E :=
  if k.eTaskGetState t = .eBlocked then
    ((((k.list (.remove (.state t))).abortEvent t).prvAddTaskToReadyList t).pendYield t).1
  else k

/-! ## Suspending and resuming tasks -/

def vTaskSuspend (t : T) : Sched T E :=
  let k := k.list (.remove (.state t))
  let k := k.leaveEventList t
  let k := k.list (.insertEnd .suspended (.state t))
  let k := k.prvResetNextTaskUnblockTime
  if k.pxCurrentTCB = some t then k.portYield else k

def prvTaskIsTaskSuspended (t : T) : Bool :=
  k.lists.container (.state t) = some .suspended ∧
    k.lists.container (.event t) ≠ some .pendingReady ∧ k.lists.container (.event t) = none

def vTaskResume (t : T) : Sched T E :=
  if k.pxCurrentTCB ≠ some t then
    if k.prvTaskIsTaskSuspended t then
      let k := (k.list (.remove (.state t))).prvAddTaskToReadyList t
      if k.currentPriority ≤ k.uxPriority t then k.portYield else k
    else k
  else k

def xTaskResumeFromISR (t : T) : Sched T E × Bool :=
  if k.prvTaskIsTaskSuspended t then
    if k.uxSchedulerSuspended = 0 then
      ((k.list (.remove (.state t))).prvAddTaskToReadyList t,
        decide (k.currentPriority ≤ k.uxPriority t))
    else (k.list (.insertEnd .pendingReady (.event t)), false)
  else (k, false)

/-! ## Creating and deleting tasks -/

/-- The lists of `prvInitialiseTaskLists`. -/
def prvInitialiseTaskLists : Sched T E :=
  let k := (List.range configMaxPriorities).foldl (fun k p => k.list (.initialise (.ready p))) k
  let k := k.list (.initialise (.delayed false))
  let k := k.list (.initialise (.delayed true))
  let k := k.list (.initialise .pendingReady)
  let k := k.list (.initialise .waitingTermination)
  let k := k.list (.initialise .suspended)
  { k with second := false }

/-- The list items and the priority of a new task, as `prvInitialiseNewTask` leaves them. -/
def prvInitialiseNewTask (t : T) (uxPriority : Nat) : Sched T E :=
  let uxPriority := if configMaxPriorities ≤ uxPriority then configMaxPriorities - 1 else uxPriority
  let k := { k with
    uxPriority := Function.update k.uxPriority t uxPriority
    ucDelayAborted := Function.update k.ucDelayAborted t false }
  let k := k.list (.initialiseItem (.state t))
  let k := k.list (.initialiseItem (.event t))
  k.list (.setValue (.event t) (configMaxPriorities - uxPriority).toUInt32)

/-- `prvAddNewTaskToReadyList` behind the first task. -/
def prvAddNewTaskToReadyList (t : T) : Sched T E :=
  let k :=
    if k.pxCurrentTCB = none ∨ k.xSchedulerRunning = false ∧ k.currentPriority ≤ k.uxPriority t then
      { k with pxCurrentTCB := some t }
    else k
  let k := k.prvAddTaskToReadyList t
  if k.xSchedulerRunning = true ∧ k.currentPriority < k.uxPriority t then k.portYield else k

def xTaskCreate (t : T) (uxPriority : Nat) : Sched T E :=
  (k.prvInitialiseNewTask t uxPriority).prvAddNewTaskToReadyList t

/-- `vTaskStartScheduler` with the idle task `t`. -/
def vTaskStartScheduler (t : T) : Sched T E :=
  { k.xTaskCreate t 0 with
    xNextTaskUnblockTime := portMaxDelay
    xSchedulerRunning := true
    xTickCount := 0 }

def vTaskDelete (t : T) : Sched T E :=
  let k := k.list (.remove (.state t))
  let k := k.leaveEventList t
  if k.pxCurrentTCB = some t then
    { k.list (.insertEnd .waitingTermination (.state t)) with
      uxDeletedTasksWaitingCleanUp := k.uxDeletedTasksWaitingCleanUp + 1 }.portYield
  else k.prvResetNextTaskUnblockTime

/-- `prvCheckTasksWaitingTermination`, one task. -/
def cleanUp : Sched T E :=
  match k.headOwner .waitingTermination with
  | none => k
  | some pxTCB =>
    { k.list (.remove (.state pxTCB)) with
      uxDeletedTasksWaitingCleanUp := k.uxDeletedTasksWaitingCleanUp - 1 }

end Sched

end ArduinoT2.Kernel
