import ArduinoT2.Adapter.ErrorCode
import ArduinoT2.Lib.Semaphore

/-
  `tkl_wifi_scan_ap` (tkl_wifi.c) and the completions of its scans, step by step, over the
  semaphores of tkl_semaphore.c.

  One task calls; each scan that it starts runs `scan_cb` once, in the context of the driver, at
  any time. A step is one access to `scanHandle` or to a semaphore. Semaphores are known by their
  addresses, which are used again once a semaphore is deleted; a post tells, for the proofs only,
  which scan it is of. The calls of tkl_semaphore.c are here what `TklSemaphore.lean` makes of them
  over the queues of FreeRTOS: see `scan_semaphores`.
-/

namespace ArduinoT2.Adapter

open Semaphore

/-! ## Semaphores -/

/-- The scans, in the order of their starts. -/
abbrev ScanId := Nat

/-- The semaphores of FreeRTOS. A post is tagged with the scan that it is of. -/
abbrev ScanSems := Sems ScanId

/-- `tkl_semaphore_create_init` with a count of 0, where the memory of the semaphore is at `addr`,
    or there is none and `addr` is 0: the return value, the handle and the semaphores. -/
def tklSemaphoreCreateInit (sems : ScanSems) (addr semMax : Nat) : OperateRet × Nat × ScanSems :=
  if addr = 0 then (oprtOsAdapterSemCreatFailed, 0, sems)
  else (oprtOk, addr, create sems addr semMax)

/-- `tkl_semaphore_wait`, as far as it gets now: `none` is that it goes on waiting, which it does
    not if its time is over. With the return value, whose post it has taken. -/
def tklSemaphoreWait (sems : ScanSems) (handle : Nat) (expired : Bool) :
    Option (OperateRet × Option ScanId × ScanSems) :=
  if handle = 0 then some (oprtInvalidParm, none, sems)
  else
    match take sems handle with
    | some (scan, sems) => some (oprtOk, some scan, sems)
    | none => if expired then some (oprtOsAdapterSemWaitFailed, none, sems) else none

/-- `tkl_semaphore_post`. The first word of a semaphore is its own address, so `sem_manage->sem`
    is the handle. What a post to a deleted semaphore writes, nothing reads. -/
def tklSemaphorePost (sems : ScanSems) (handle : Nat) (scan : ScanId) : OperateRet × ScanSems :=
  if handle = 0 then (oprtInvalidParm, sems)
  else
    match give sems handle scan with
    | some sems => (oprtOk, sems)
    | none => (oprtOsAdapterSemPostFailed, sems)

/-- `tkl_semaphore_release`. -/
def tklSemaphoreRelease (sems : ScanSems) (handle : Nat) : OperateRet × ScanSems :=
  if handle = 0 then (oprtInvalidParm, sems) else (oprtOk, delete sems handle)

/-! ## State -/

/-- How far the call has come: it has created the semaphore, waits for the scan that it has
    started, is behind the wait (or the start has failed), has released the semaphore, reads the
    results. -/
inductive CallPc
  | idle
  | created
  | waiting (scan : ScanId)
  | waited (ret : OperateRet)
  | released (ret : OperateRet)
  | reading
  deriving DecidableEq

/-- How far `scan_cb` of a scan has come: its test of `scanHandle` has been passed, its argument
    has been loaded. -/
inductive CbPc
  | unstarted
  | pending
  | tested
  | loaded (handle : Nat)
  | done
  deriving DecidableEq

/-- The static `scanHandle`, the semaphores, the call and the completions. -/
structure ScanState where
  scanHandle : Nat
  sems : ScanSems
  call : CallPc
  cb : ScanId → CbPc
  started : Nat

/-- Before the first call. -/
def ScanState.static : ScanState where
  scanHandle := 0
  sems := fun _ => none
  call := .idle
  cb := fun _ => .unstarted
  started := 0

/-! ## Steps -/

/-- What can happen. A call has its parameters (whether they are not NULL) and the memory of the
    semaphore; `start` has what `bk_wlan_start_scan` or `bk_wlan_start_assign_scan` returns,
    `results` whether the results can be read. -/
inductive ScanEvent
  | call (ssid apAry num : Bool) (addr : Nat)
  | start (status : Int)
  | wait (expired : Bool)
  | release
  | clear
  | results (ok : Bool)
  | callback (scan : ScanId)

/-- The check of the parameters: that of `tkl_wifi_all_ap_scan` if there is no `ssid`. -/
def scanRefused (s : ScanState) (ssid apAry num : Bool) : Prop :=
  if ssid then apAry = false ∨ s.scanHandle ≠ 0
  else apAry = false ∨ num = false ∨ s.scanHandle ≠ 0

instance (s : ScanState) (ssid apAry num : Bool) : Decidable (scanRefused s ssid apAry num) :=
  inferInstanceAs (Decidable (if ssid then _ else _))

/-- One step of `scan_cb` of a scan. -/
def scanCb (s : ScanState) (scan : ScanId) : ScanState :=
  match s.cb scan with
  | .unstarted => s
  | .pending =>
    { s with cb := Function.update s.cb scan (if s.scanHandle ≠ 0 then .tested else .done) }
  | .tested => { s with cb := Function.update s.cb scan (.loaded s.scanHandle) }
  | .loaded handle =>
    { s with cb := Function.update s.cb scan .done
             sems := (tklSemaphorePost s.sems handle scan).2 }
  | .done => s

/-- One step, with the return value if a call returns. What cannot happen changes nothing. -/
def scanStep (s : ScanState) (e : ScanEvent) : ScanState × Option OperateRet :=
  match e, s.call with
  | .call ssid apAry num addr, .idle =>
    if scanRefused s ssid apAry num then (s, some oprtOsAdapterInvalidParm)
    else if (s.sems addr).isSome then (s, none)
    else
      let (ret, scanHandle, sems) := tklSemaphoreCreateInit s.sems addr 1
      let s := { s with scanHandle, sems }
      if ret ≠ oprtOk then (s, some ret) else ({ s with call := .created }, none)
  | .start status, .created =>
    if status = 0 then
      ({ s with call := .waiting s.started, cb := Function.update s.cb s.started .pending
                started := s.started + 1 }, none)
    else ({ s with call := .waited oprtComError }, none)
  | .wait expired, .waiting _ =>
    match tklSemaphoreWait s.sems s.scanHandle expired with
    | none => (s, none)
    | some (ret, _, sems) => ({ s with call := .waited ret, sems }, none)
  | .release, .waited ret =>
    ({ s with call := .released ret, sems := (tklSemaphoreRelease s.sems s.scanHandle).2 }, none)
  | .clear, .released ret =>
    if ret ≠ oprtOk then ({ s with scanHandle := 0, call := .idle }, some ret)
    else ({ s with scanHandle := 0, call := .reading }, none)
  | .results ok, .reading =>
    ({ s with call := .idle }, some (if ok then oprtOk else oprtOsAdapterComError))
  | .callback scan, _ => (scanCb s scan, none)
  | _, _ => (s, none)

end ArduinoT2.Adapter
