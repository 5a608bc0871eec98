import ArduinoT2.System.SemaphoreCount
import ArduinoT2.Wifi.Scan

/-
  The semaphores of the scans (`TklWifiScan.lean`) are those of the kernel (`TklSemaphore.lean`).

  The scans have abstract semaphores, whose posts tell which scan they are of. `scan_semaphores`:
  what a run of the scans calls is a legal run over the queues of FreeRTOS, and the semaphores
  that this leaves are those of the scans but for the tags, as long as no `scan_cb` posts a
  semaphore that is deleted (there the kernel would access a queue object that is no more).
-/

namespace ArduinoT2.Wifi

open StepSys Semaphore ArduinoT2.Adapter ArduinoT2.Vendor
open ArduinoT2.System (SemCall Semaphores semsOf semStep countStep semStep_refines)

/-! ## The calls -/

/-- The timeout of the wait, in ms. -/
def scanTimeout : UInt32 := 5000

/-- The calls of tkl_semaphore.c that a step makes, one at most. -/
def semCalls (s : ScanState) (e : ScanEvent) : List SemCall :=
  match e, s.call with
  | .call ssid apAry num addr, .idle =>
    if scanRefused s ssid apAry num ∨ (s.sems addr).isSome then [] else [.createInit addr 0 1]
  | .wait expired, .waiting _ => [.wait s.scanHandle scanTimeout expired]
  | .release, .waited _ => [.release s.scanHandle]
  | .callback scan, _ =>
    match s.cb scan with
    | .loaded handle => if handle = 0 then [] else [.post handle false]
    | _ => []
  | _, _ => []

/-- A `scan_cb` posts a semaphore that exists. -/
def PostsLive (s : ScanState) : ScanEvent → Prop
  | .callback scan => ∀ handle, s.cb scan = .loaded handle → handle ≠ 0 →
      (s.sems handle).isSome = true
  | _ => True

/-- The queue objects of the kernel are the semaphores of the scans. -/
structure Stands (k : Kernel) (sems : ScanSems) : Prop where
  semaphores : Semaphores k
  sems : semsOf k = retag (fun _ => ()) sems

/-! ## One call -/

/-- A call is legal in the kernel, returns `ret`, and leaves the semaphores `sems`. -/
structure Follows (k : Kernel) (c : SemCall) (ret : Option OperateRet) (sems : ScanSems) :
    Prop where
  legal : System.Legal k c
  ret : (semStep k c).2 = some ret
  stands : Stands (semStep k c).1 sems

section Calls

variable {k : Kernel} {sems : ScanSems} {handle : Nat}

theorem Stands.isSome (h : Stands k sems) (a : Nat) : (k.queues a).isSome = (sems a).isSome := by
  rw [← isSome_retag (fun _ => ()) sems a, ← h.sems]
  exact Option.isSome_map.symm

/-- The kernel refines the counting semaphores, so these tell what it does. -/
theorem Stands.follows (h : Stands k sems) {c : SemCall} (hlegal : System.Legal k c)
    {ret : Option OperateRet} {sems' : ScanSems}
    (hcount : countStep (retag (fun _ => ()) sems) c = (retag (fun _ => ()) sems', ret)) :
    Follows k c ret sems' := by
  obtain ⟨hsemaphores, hsems, hret⟩ := semStep_refines h.semaphores hlegal
  rw [h.sems, hcount] at hsems hret
  exact ⟨hlegal, hret, hsemaphores, hsems⟩

theorem Stands.create (h : Stands k sems) {addr : Nat} (hfree : (sems addr).isSome = false) :
    Follows k (.createInit addr 0 1) (some (tklSemaphoreCreateInit sems addr 1).1)
      (tklSemaphoreCreateInit sems addr 1).2.2 := by
  have hnone : k.queues addr = none :=
    Option.isNone_iff_eq_none.mp (by rw [← Option.not_isSome, h.isSome, hfree]; rfl)
  refine h.follows (c := .createInit addr 0 1) ⟨by decide, by decide, hnone⟩ ?_
  unfold countStep tklSemaphoreCreateInit
  by_cases haddr : addr = 0
  · rw [if_pos haddr]
    simp only [if_pos haddr]
  · simp only [if_neg haddr, retag_create]
    rfl

theorem Stands.wait (h : Stands k sems) (hnull : handle ≠ 0)
    (hsome : (sems handle).isSome = true) (expired : Bool) :
    Follows k (.wait handle scanTimeout expired)
      ((tklSemaphoreWait sems handle expired).map Prod.fst)
      (((tklSemaphoreWait sems handle expired).map fun r => r.2.2).getD sems) := by
  refine h.follows (c := .wait handle scanTimeout expired) ((h.isSome handle).trans hsome) ?_
  have hfinite : scanTimeout ≠ System.tklSemWaitForever := by decide
  unfold countStep tklSemaphoreWait
  simp only [if_neg hnull, take_retag]
  cases take sems handle with
  | none => cases expired <;> simp [hfinite]
  | some r => rfl

theorem Stands.post (h : Stands k sems) (hnull : handle ≠ 0)
    (hsome : (sems handle).isSome = true) (scan : ScanId) :
    Follows k (.post handle false) (some (tklSemaphorePost sems handle scan).1)
      (tklSemaphorePost sems handle scan).2 := by
  refine h.follows (c := .post handle false) ((h.isSome handle).trans hsome) ?_
  unfold countStep tklSemaphorePost
  have hgive := give_retag (fun _ => ()) sems handle scan
  simp only [if_neg hnull, hgive]
  cases give sems handle scan with
  | none => rfl
  | some sems' => rfl

theorem Stands.release (h : Stands k sems) (hnull : handle ≠ 0)
    (hsome : (sems handle).isSome = true) :
    Follows k (.release handle) (some (tklSemaphoreRelease sems handle).1)
      (tklSemaphoreRelease sems handle).2 := by
  refine h.follows (c := .release handle) ((h.isSome handle).trans hsome) ?_
  unfold countStep tklSemaphoreRelease
  simp only [if_neg hnull, retag_delete]

end Calls

/-! ## Runs -/

/-- The calls of a step are legal, and leave the semaphores of the scans. -/
structure StepFollows (k : Kernel) (cs : List SemCall) (sems : ScanSems) : Prop where
  legal : Along semStep System.Legal k cs
  stands : Stands (final semStep k cs) sems

theorem Follows.one {k : Kernel} {c : SemCall} {ret : Option OperateRet} {sems : ScanSems}
    (h : Follows k c ret sems) : StepFollows k [c] sems := ⟨⟨h.legal, trivial⟩, h.stands⟩

theorem Stands.none {k : Kernel} {sems : ScanSems} (h : Stands k sems) : StepFollows k [] sems :=
  ⟨trivial, h⟩

section Steps

variable {k : Kernel} {s : ScanState}

theorem Stands.call_step (h : Stands k s.sems) (hcall : s.call = .idle) (ssid apAry num : Bool)
    (addr : Nat) : StepFollows k (semCalls s (.call ssid apAry num addr))
      (scanStep s (.call ssid apAry num addr)).1.sems := by
  simp only [semCalls, scanStep, hcall]
  by_cases hrefused : scanRefused s ssid apAry num
  · simp only [hrefused, true_or, if_true]
    exact h.none
  · by_cases hsome : (s.sems addr).isSome = true
    · simp only [hrefused, hsome, or_true, if_true, if_false]
      exact h.none
    · have hfree : (s.sems addr).isSome = false := Bool.eq_false_iff.mpr hsome
      have hcreate := (h.create hfree).one
      simp only [hrefused, hfree, Bool.false_eq_true, or_false, if_false]
      split
      · exact hcreate
      · exact hcreate

theorem Stands.wait_step (h : Stands k s.sems) (hheld : Held s) {scan : ScanId}
    (hcall : s.call = .waiting scan) (expired : Bool) :
    StepFollows k (semCalls s (.wait expired)) (scanStep s (.wait expired)).1.sems := by
  have hwait := (h.wait hheld.handle hheld.present expired).one
  simp only [semCalls, scanStep, hcall]
  cases hret : tklSemaphoreWait s.sems s.scanHandle expired with
  | none =>
    rw [hret] at hwait
    exact hwait
  | some r =>
    rw [hret] at hwait
    exact hwait

theorem Stands.callback_step (h : Stands k s.sems) {scan : ScanId}
    (hlive : PostsLive s (.callback scan)) :
    StepFollows k (semCalls s (.callback scan)) (scanCb s scan).sems := by
  unfold semCalls scanCb
  simp only
  cases hcb : s.cb scan with
  | loaded handle =>
    by_cases hnull : handle = 0
    · simp only [hnull, if_true]
      exact h.none
    · simp only [hnull, if_false]
      exact (h.post hnull (hlive handle hcb hnull) scan).one
  | _ => exact h.none

/-- A step of the scans is a step of the kernel, or none. -/
theorem Stands.step (h : Stands k s.sems) (hc : Consistent s) {e : ScanEvent}
    (hlive : PostsLive s e) : StepFollows k (semCalls s e) (scanStep s e).1.sems := by
  cases e with
  | callback scan => exact h.callback_step hlive
  | call ssid apAry num addr =>
    cases hcall : s.call with
    | idle => exact h.call_step hcall ssid apAry num addr
    | _ =>
      simp only [semCalls, scanStep, hcall]
      exact h.none
  | wait expired =>
    cases hcall : s.call with
    | waiting scan => exact h.wait_step (hc.at hcall) hcall expired
    | _ =>
      simp only [semCalls, scanStep, hcall]
      exact h.none
  | release =>
    cases hcall : s.call with
    | waited ret =>
      have hheld : Held s := hc.at hcall
      simp only [semCalls, scanStep, hcall]
      exact (h.release hheld.handle hheld.present).one
    | _ =>
      simp only [semCalls, scanStep, hcall]
      exact h.none
  | start | clear | results =>
    -- no semaphore is called, whatever the call has come to
    cases hcall : s.call <;> simp only [semCalls, scanStep, hcall] <;> (try split) <;> exact h.none

end Steps

/-- What a run of the scans calls is legal in the kernel, and leaves the semaphores of the scans,
    if no `scan_cb` posts a semaphore that is deleted. -/
theorem scan_semaphores {es : List ScanEvent} (h : Along scanStep PostsLive .static es) :
    StepFollows .static (collect scanStep semCalls .static es)
      (final scanStep .static es).sems := by
  have hstatic : Stands Kernel.static ScanState.static.sems := ⟨(fun _ _ hq => nomatch hq), rfl⟩
  have hstep : ∀ (s : ScanState) (k : Kernel) (e : ScanEvent), Consistent s ∧ Stands k s.sems →
      PostsLive s e → Along semStep System.Legal k (semCalls s e) ∧
        Consistent (scanStep s e).1 ∧
          Stands (final semStep k (semCalls s e)) (scanStep s e).1.sems := by
    rintro s k e ⟨hc, hs⟩ hlive
    obtain ⟨hlegal, hstands⟩ := hs.step hc hlive
    exact ⟨hlegal, hc.move (scanStep_move s e), hstands⟩
  obtain ⟨hlegal, -, hstands⟩ := along_collect hstep ⟨consistent_static, hstatic⟩ h
  exact ⟨hlegal, hstands⟩

end ArduinoT2.Wifi
