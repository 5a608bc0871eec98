import ArduinoT2.Vendor.Queue

/-
  The time-outs of the adapter: milliseconds as ticks of the kernel, in the same way for the
  semaphores (tkl_semaphore.c) and the queues (tkl_queue.c).
-/

namespace ArduinoT2.System

open ArduinoT2.Vendor

/-- `TKL_SEM_WAIT_FOREVER` and `TKL_QUEUE_WAIT_FROEVER`. -/
def waitForever : UInt32 := 0xffffffff

/-- The ticks of a wait: `portMAX_DELAY`, or those of the time-out, at least one. -/
def waitTicks (timeout : UInt32) : UInt32 :=
  if timeout = waitForever then portMaxDelay
  else
    let ticks := timeout / portTickRateMs
    if ticks = 0 then 1 else ticks

theorem waitTicks_forever : waitTicks waitForever = portMaxDelay := rfl

theorem waitTicks_ne_zero (timeout : UInt32) : waitTicks timeout ≠ 0 := by
  unfold waitTicks
  simp only
  split
  · decide
  · split
    · decide
    · assumption

/-- A time-out in ticks is less than `portMAX_DELAY`. -/
theorem waitTicks_ne_max {timeout : UInt32} (h : timeout ≠ waitForever) :
    waitTicks timeout ≠ portMaxDelay := by
  intro heq
  have hdiv : (timeout / portTickRateMs).toNat = timeout.toNat / 2 := UInt32.toNat_div _ _
  have hlt := timeout.toNat_lt
  have hle : (waitTicks timeout).toNat ≤ 2 ^ 31 := by
    unfold waitTicks
    rw [if_neg h]
    simp only
    split
    · decide
    · omega
  rw [heq] at hle
  exact absurd hle (by decide)

/-- A call that finds nothing gives up if its time is over, unless it waits for ever. -/
theorem giveUp_waitTicks (timeout : UInt32) (expired : Bool) (err : BaseType) :
    giveUp expired (waitTicks timeout) err =
      if expired = true ∧ timeout ≠ waitForever then some err else none := by
  unfold giveUp xTaskCheckForTimeOut
  rw [if_neg (waitTicks_ne_zero timeout)]
  by_cases hforever : timeout = waitForever
  · rw [hforever, waitTicks_forever, if_neg (by simp), if_neg fun h => h.2 rfl]
  · have hmax : (waitTicks timeout != portMaxDelay) = true := by
      simp [waitTicks_ne_max hforever]
    rw [hmax, Bool.and_true]
    exact if_congr (iff_self_and.mpr fun _ => hforever) rfl rfl

end ArduinoT2.System
