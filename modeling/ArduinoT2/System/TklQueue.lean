import ArduinoT2.Adapter.ErrorCode
import ArduinoT2.System.Ticks

/-
  The queues of the adapter (tkl_queue.c) over a queue of the kernel that is a bounded FIFO.

  What the queue of FreeRTOS has to do for this is in `KernelQueue`. A call is modelled from one
  turn of its wait to the next: without a return value it goes on waiting.
-/

namespace ArduinoT2.System

open ArduinoT2.Adapter ArduinoT2.Vendor

/-! ## The queue of the kernel -/

/-- A queue of at most `length` messages of `itemSize` bytes, oldest first. -/
structure KernelQueue where
  length : Nat
  itemSize : Nat
  items : List (List UInt8)

/-- `xQueueCreate`. -/
def xQueueCreate (uxQueueLength uxItemSize : Nat) : KernelQueue := ⟨uxQueueLength, uxItemSize, []⟩

/-- The message at `data`. -/
def KernelQueue.itemAt (q : KernelQueue) (data : Nat → UInt8) : List UInt8 :=
  bytesAt data 0 q.itemSize

/-- A turn of `xQueueSend`. -/
def xQueueSend (q : KernelQueue) (data : Nat → UInt8) (xTicksToWait : UInt32) (expired : Bool) :
    Option BaseType × KernelQueue :=
  if q.items.length < q.length then (some pdPASS, { q with items := q.items ++ [q.itemAt data] })
  else (giveUp expired xTicksToWait errQueueFull, q)

/-- `xQueueSendFromISR`. -/
def xQueueSendFromISR (q : KernelQueue) (data : Nat → UInt8) : BaseType × KernelQueue :=
  if q.items.length < q.length then (pdPASS, { q with items := q.items ++ [q.itemAt data] })
  else (errQueueFull, q)

/-- A turn of `xQueueReceive`: with the return value, the bytes that it writes to the buffer. -/
def xQueueReceive (q : KernelQueue) (xTicksToWait : UInt32) (expired : Bool) :
    Option BaseType × List UInt8 × KernelQueue :=
  match q.items with
  | item :: items => (some pdPASS, item, { q with items })
  | [] => (giveUp expired xTicksToWait errQueueEmpty, [], q)

/-! ## The calls -/

/-- `sizeof(void *)`. -/
def sizeofVoidPtr : Nat := 4

/-- `tkl_queue_create_init`, where `created` is whether the kernel has memory for the queue: the
    return value and the queue behind the handle. -/
def tklQueueCreateInit (created : Bool) (msgsize msgcount : Nat) :
    OperateRet × Option KernelQueue :=
  if created then (oprtOk, some (xQueueCreate msgcount msgsize))
  else (oprtOsAdapterQueueCreatFailed, none)

/-- The return value of a call that has come to its end in the kernel. -/
def queueRet (ret : BaseType) : OperateRet :=
  if pdPASS ≠ ret then oprtOsAdapterQueueSendFail else oprtOk

/-- `tkl_queue_post`, from a task or from an interrupt. A queue is NULL, or the queue behind the
    handle. -/
def tklQueuePost (queue : Option KernelQueue) (data : Nat → UInt8) (timeout : UInt32)
    (isr expired : Bool) : Option OperateRet × Option KernelQueue :=
  match queue with
  | none => (some oprtOsAdapterInvalidParm, none)
  | some q =>
    let (ret, q) :=
      if isr then
        let (ret, q) := xQueueSendFromISR q data
        (some ret, q)
      else xQueueSend q data (waitTicks timeout) expired
    (ret.map queueRet, some q)

/-- What a fetch writes, and the size of the memory that it may write there: a buffer of the
    caller is for one message, and `dummyptr` is a pointer. -/
structure Written where
  bytes : List UInt8
  owned : Nat

/-- `tkl_queue_fetch`. `msg` is whether it gets a buffer. -/
def tklQueueFetch (queue : Option KernelQueue) (msg : Bool) (timeout : UInt32) (expired : Bool) :
    Option OperateRet × Written × Option KernelQueue :=
  match queue with
  | none => (some oprtOsAdapterInvalidParm, ⟨[], 0⟩, none)
  | some q =>
    let owned := if msg then q.itemSize else sizeofVoidPtr
    let (ret, bytes, q) := xQueueReceive q (waitTicks timeout) expired
    (ret.map queueRet, ⟨bytes, owned⟩, some q)

/-- The calls of a program, each with what the system below answers. -/
inductive QueueCall
  | post (data : Nat → UInt8) (timeout : UInt32) (isr expired : Bool)
  | fetch (msg : Bool) (timeout : UInt32) (expired : Bool)

/-- One call: the return value, what it has written, and the queue. -/
def queueCall (queue : Option KernelQueue) :
    QueueCall → Option OperateRet × Written × Option KernelQueue
  | .post data timeout isr expired =>
    let (ret, queue) := tklQueuePost queue data timeout isr expired
    (ret, ⟨[], 0⟩, queue)
  | .fetch msg timeout expired => tklQueueFetch queue msg timeout expired

end ArduinoT2.System
