import ArduinoT2.Adapter.ErrorCode
import ArduinoT2.System.Ticks

/-
  The semaphores of the adapter (tkl_semaphore.c) over the queues of FreeRTOS.

  A handle is the address of a queue object. `tkl_semaphore_post` takes it for the address of a
  `TKL_SEM_MANAGE`, whose only member is a handle: it reads the first word of the queue object.
  A call is `none` if it accesses an object that does not exist.
-/

namespace ArduinoT2.System

open ArduinoT2.Adapter ArduinoT2.Vendor

/-- `TKL_SEM_WAIT_FOREVER`. -/
abbrev tklSemWaitForever : UInt32 := waitForever

/-- `tkl_semaphore_create_init`, with what `pvPortMalloc` returns: the return value, the handle
    and the kernel. -/
def tklSemaphoreCreateInit (k : Kernel) (malloc : Nat) (semCnt semMax : UInt32) :
    OperateRet × Nat × Kernel :=
  let (handle, k) := xQueueCreateCountingSemaphore k malloc semMax semCnt
  if handle = 0 then (oprtOsAdapterSemCreatFailed, handle, k) else (oprtOk, handle, k)

/-- `tkl_semaphore_wait`, as far as it gets now: without a return value it goes on waiting. -/
def tklSemaphoreWait (k : Kernel) (handle : Nat) (timeout : UInt32) (expired : Bool) :
    Option (Option OperateRet × Kernel) :=
  if handle = 0 then some (some oprtInvalidParm, k)
  else
    match xQueueGenericReceive k handle (waitTicks timeout) expired with
    | none => none
    | some (ret, _, k) =>
      some (ret.map fun ret => if ret ≠ pdPASS then oprtOsAdapterSemWaitFailed else oprtOk, k)

/-- `sem_manage->sem`: the first word of the object at the handle. -/
def semManageSem (k : Kernel) (handle : Nat) : Option Nat := (k.queues handle).map QueueT.pcHead

/-- `tkl_semaphore_post`, from a task or from an interrupt. -/
def tklSemaphorePost (k : Kernel) (handle : Nat) (isr : Bool) :
    Option (Option OperateRet × Kernel) :=
  if handle = 0 then some (some oprtInvalidParm, k)
  else
    match semManageSem k handle with
    | none => none
    | some sem =>
      let r :=
        if isr then (xQueueGiveFromISR k sem).map fun r => (some r.1, r.2)
        else xQueueGenericSend k sem [] 0 false
      r.map fun r =>
        (r.1.map fun ret => if ret ≠ pdPASS then oprtOsAdapterSemPostFailed else oprtOk, r.2)

/-- `tkl_semaphore_release`. -/
def tklSemaphoreRelease (k : Kernel) (handle : Nat) : Option (OperateRet × Kernel) :=
  if handle = 0 then some (oprtInvalidParm, k)
  else (vQueueDelete k handle).map fun k => (oprtOk, k)

/-- The calls of a program, each with what the system below answers. -/
inductive SemCall
  | createInit (malloc : Nat) (semCnt semMax : UInt32)
  | wait (handle : Nat) (timeout : UInt32) (expired : Bool)
  | post (handle : Nat) (isr : Bool)
  | release (handle : Nat)

/-- One call. -/
def semCall (k : Kernel) : SemCall → Option (Option OperateRet × Kernel)
  | .createInit malloc semCnt semMax =>
    let (ret, _, k) := tklSemaphoreCreateInit k malloc semCnt semMax
    some (some ret, k)
  | .wait handle timeout expired => tklSemaphoreWait k handle timeout expired
  | .post handle isr => tklSemaphorePost k handle isr
  | .release handle => (tklSemaphoreRelease k handle).map fun r => (some r.1, r.2)

end ArduinoT2.System
