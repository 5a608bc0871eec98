import ArduinoT2.Adapter.TklWifiScan
import ArduinoT2.Lib.StepSys

/-
  The scans of tkl_wifi.c and the completions that wake their calls.

  `scan_cb` does not know which scan it is of: it posts the semaphore that `scanHandle` holds, and
  behind a wait that has timed out this is the semaphore of a later call. `ScanMove` says what a
  step does. From it: `Consistent.move`, which carries that `scanHandle` is NULL behind every call
  (`scan_cleared`), and `PostedOwn.move`, which carries that the posts are of the scan that is
  waited for as long as no completion posts the semaphore of a later call (`scan_completion`). It
  is enough for this that every call comes behind the completions of the earlier ones
  (`scan_serial`).
-/

namespace ArduinoT2.Wifi

open StepSys Semaphore ArduinoT2.Adapter

/-! ## Semaphores -/

/-- A wait neither creates nor deletes a semaphore. -/
theorem isSome_wait {sems sems' : ScanSems} {handle : Nat} {expired : Bool} {ret : OperateRet}
    {scan : Option ScanId} (h : tklSemaphoreWait sems handle expired = some (ret, scan, sems'))
    (a : Nat) : (sems' a).isSome = (sems a).isSome := by
  unfold tklSemaphoreWait at h
  split at h
  · obtain ⟨-, -, rfl⟩ := h
    rfl
  · split at h
    · rename_i htake
      obtain ⟨-, -, rfl⟩ := h
      exact isSome_take htake a
    · split at h
      · obtain ⟨-, -, rfl⟩ := h
        rfl
      · exact nomatch h

/-- Whose post a wait takes. -/
theorem posted_of_wait {sems sems' : ScanSems} {handle : Nat} {expired : Bool} {ret : OperateRet}
    {scan : ScanId} (h : tklSemaphoreWait sems handle expired = some (ret, some scan, sems')) :
    Posted sems handle scan := by
  unfold tklSemaphoreWait at h
  split at h
  · exact nomatch h
  · split at h
    · rename_i htake
      obtain ⟨-, rfl, -⟩ := h
      exact posted_of_take htake
    · split at h <;> exact nomatch h

theorem post_cases (sems : ScanSems) (handle : Nat) (scan : ScanId) :
    (tklSemaphorePost sems handle scan).2 = sems ∨
      give sems handle scan = some (tklSemaphorePost sems handle scan).2 := by
  unfold tklSemaphorePost
  split
  · exact .inl rfl
  · cases hgive : give sems handle scan with
    | none => exact .inl rfl
    | some sems' => exact .inr rfl

theorem isSome_post (sems : ScanSems) (handle : Nat) (scan : ScanId) (a : Nat) :
    ((tklSemaphorePost sems handle scan).2 a).isSome = (sems a).isSome := by
  rcases post_cases sems handle scan with h | h
  · rw [h]
  · exact isSome_give h a

/-- The posts behind a post. -/
theorem posted_of_post {sems : ScanSems} {handle : Nat} {scan : ScanId} {a : Nat} {j : ScanId}
    (h : Posted (tklSemaphorePost sems handle scan).2 a j) :
    Posted sems a j ∨ (j = scan ∧ Open sems handle) := by
  rcases post_cases sems handle scan with hpost | hpost
  · rw [hpost] at h
    exact .inl h
  · exact posted_of_give hpost h

/-! ## What a step does -/

/-- The steps. -/
inductive ScanMove (s : ScanState) : ScanEvent → ScanState × Option OperateRet → Prop
  | skip (e : ScanEvent) : ScanMove s e (s, none)
  | refused {ssid apAry num : Bool} {addr : Nat} (hcall : s.call = .idle)
      (hrefused : scanRefused s ssid apAry num) :
      ScanMove s (.call ssid apAry num addr) (s, some oprtOsAdapterInvalidParm)
  | noMemory {ssid apAry num : Bool} {addr : Nat} (hcall : s.call = .idle) :
      ScanMove s (.call ssid apAry num addr)
        ({ s with scanHandle := 0 }, some oprtOsAdapterSemCreatFailed)
  | created {ssid apAry num : Bool} {addr : Nat} (hcall : s.call = .idle) (haddr : addr ≠ 0) :
      ScanMove s (.call ssid apAry num addr)
        ({ s with scanHandle := addr, sems := create s.sems addr 1, call := .created }, none)
  | started {status : Int} (hcall : s.call = .created) :
      ScanMove s (.start status)
        ({ s with call := .waiting s.started, cb := Function.update s.cb s.started .pending
                  started := s.started + 1 }, none)
  | notStarted {status : Int} (hcall : s.call = .created) :
      ScanMove s (.start status) ({ s with call := .waited oprtComError }, none)
  | waited {expired : Bool} {scan : ScanId} {ret : OperateRet} {taken : Option ScanId}
      {sems : ScanSems} (hcall : s.call = .waiting scan)
      (hwait : tklSemaphoreWait s.sems s.scanHandle expired = some (ret, taken, sems)) :
      ScanMove s (.wait expired) ({ s with call := .waited ret, sems }, none)
  | released {ret : OperateRet} (hcall : s.call = .waited ret) :
      ScanMove s .release
        ({ s with call := .released ret
                  sems := (tklSemaphoreRelease s.sems s.scanHandle).2 }, none)
  | failed {ret : OperateRet} (hcall : s.call = .released ret) :
      ScanMove s .clear ({ s with scanHandle := 0, call := .idle }, some ret)
  | cleared {ret : OperateRet} (hcall : s.call = .released ret) :
      ScanMove s .clear ({ s with scanHandle := 0, call := .reading }, none)
  | results {ok : Bool} (ret : OperateRet) (hcall : s.call = .reading) :
      ScanMove s (.results ok) ({ s with call := .idle }, some ret)
  | callback (scan : ScanId) : ScanMove s (.callback scan) (scanCb s scan, none)

theorem scanStep_move (s : ScanState) (e : ScanEvent) : ScanMove s e (scanStep s e) := by
  unfold scanStep
  split
  · rename_i ssid apAry num addr hcall
    split
    · rename_i hrefused
      exact .refused hcall hrefused
    · split
      · exact .skip _
      · by_cases haddr : addr = 0
        · have hcreate : tklSemaphoreCreateInit s.sems addr 1 =
            (oprtOsAdapterSemCreatFailed, 0, s.sems) := if_pos haddr
          rw [hcreate]
          exact .noMemory hcall
        · have hcreate : tklSemaphoreCreateInit s.sems addr 1 =
            (oprtOk, addr, create s.sems addr 1) := if_neg haddr
          rw [hcreate]
          exact .created hcall haddr
  · rename_i hcall
    split
    · exact .started hcall
    · exact .notStarted hcall
  · rename_i hcall
    split
    · exact .skip _
    · rename_i hwait
      exact .waited hcall hwait
  · rename_i hcall
    exact .released hcall
  · rename_i hcall
    split
    · exact .failed hcall
    · exact .cleared hcall
  · rename_i hcall
    exact .results _ hcall
  · exact .callback _
  · exact .skip _

/-! ## The handle -/

/-- The semaphore of the call exists, and no other one. -/
structure Held (s : ScanState) : Prop where
  handle : s.scanHandle ≠ 0
  present : (s.sems s.scanHandle).isSome = true
  only : ∀ a, a ≠ s.scanHandle → (s.sems a).isSome = false

/-- No semaphore exists. -/
def NoSem (s : ScanState) : Prop := ∀ a, (s.sems a).isSome = false

/-- What the handle and the semaphores are while a call is at `call`. -/
def HandleAt (s : ScanState) : CallPc → Prop
  | .idle | .reading => s.scanHandle = 0 ∧ NoSem s
  | .created | .waiting _ | .waited _ => Held s
  | .released _ => NoSem s

/-- The handle and the semaphores are as the call has left them. -/
def Consistent (s : ScanState) : Prop := HandleAt s s.call

theorem Held.congr {s s' : ScanState} (h : Held s) (hhandle : s'.scanHandle = s.scanHandle)
    (hsems : ∀ a, (s'.sems a).isSome = (s.sems a).isSome) : Held s' := by
  refine ⟨?_, ?_, ?_⟩
  · rw [hhandle]
    exact h.handle
  · rw [hhandle, hsems]
    exact h.present
  · intro a ha
    rw [hsems]
    exact h.only a (hhandle ▸ ha)

/-- `scan_cb` only adds posts. -/
theorem scanCb_frame (s : ScanState) (scan : ScanId) :
    (scanCb s scan).scanHandle = s.scanHandle ∧ (scanCb s scan).call = s.call ∧
      (scanCb s scan).started = s.started ∧
      ∀ a, ((scanCb s scan).sems a).isSome = (s.sems a).isSome := by
  unfold scanCb
  split
  · exact ⟨rfl, rfl, rfl, fun _ => rfl⟩
  · exact ⟨rfl, rfl, rfl, fun _ => rfl⟩
  · exact ⟨rfl, rfl, rfl, fun _ => rfl⟩
  · exact ⟨rfl, rfl, rfl, isSome_post _ _ _⟩
  · exact ⟨rfl, rfl, rfl, fun _ => rfl⟩

theorem Consistent.callback {s : ScanState} (h : Consistent s) (scan : ScanId) :
    Consistent (scanCb s scan) := by
  obtain ⟨hhandle, hcall, -, hsems⟩ := scanCb_frame s scan
  unfold Consistent HandleAt at h ⊢
  rw [hcall]
  split at h
  · exact ⟨hhandle ▸ h.1, fun a => (hsems a).trans (h.2 a)⟩
  · exact ⟨hhandle ▸ h.1, fun a => (hsems a).trans (h.2 a)⟩
  · exact h.congr hhandle hsems
  · exact h.congr hhandle hsems
  · exact h.congr hhandle hsems
  · exact fun a => (hsems a).trans (h a)

theorem Consistent.at {s : ScanState} (h : Consistent s) {call : CallPc} (hcall : s.call = call) :
    HandleAt s call := hcall ▸ h

/-- A step keeps the handle and the semaphores as the call needs them. -/
theorem Consistent.move {s : ScanState} {e : ScanEvent} {r : ScanState × Option OperateRet}
    (h : Consistent s) (hmove : ScanMove s e r) : Consistent r.1 := by
  cases hmove with
  | skip => exact h
  | refused => exact h
  | callback scan => exact h.callback scan
  | noMemory hcall =>
    have hidle : s.scanHandle = 0 ∧ NoSem s := h.at hcall
    show HandleAt _ s.call
    rw [hcall]
    exact ⟨rfl, hidle.2⟩
  | created hcall haddr =>
    have hidle : s.scanHandle = 0 ∧ NoSem s := h.at hcall
    refine ⟨haddr, isSome_create _ _ _, fun a ha => ?_⟩
    simp only [create_of_ne _ _ ha]
    exact hidle.2 a
  | started hcall =>
    have hheld : Held s := h.at hcall
    exact ⟨hheld.handle, hheld.present, hheld.only⟩
  | notStarted hcall =>
    have hheld : Held s := h.at hcall
    exact ⟨hheld.handle, hheld.present, hheld.only⟩
  | waited hcall hwait =>
    have hheld : Held s := h.at hcall
    exact hheld.congr rfl (isSome_wait hwait)
  | released hcall =>
    have hheld : Held s := h.at hcall
    intro a
    have hrelease : tklSemaphoreRelease s.sems s.scanHandle =
      (oprtOk, delete s.sems s.scanHandle) := if_neg hheld.handle
    simp only [hrelease]
    by_cases ha : a = s.scanHandle
    · rw [ha, delete_self]
      rfl
    · rw [delete_of_ne _ ha]
      exact hheld.only a ha
  | failed hcall =>
    have hnone : NoSem s := h.at hcall
    exact ⟨rfl, hnone⟩
  | cleared hcall =>
    have hnone : NoSem s := h.at hcall
    exact ⟨rfl, hnone⟩
  | results ret hcall =>
    have hread : s.scanHandle = 0 ∧ NoSem s := h.at hcall
    exact hread

/-- A call that returns leaves the handle NULL. -/
theorem Consistent.returns {s : ScanState} {e : ScanEvent} {r : ScanState × Option OperateRet}
    (h : Consistent s) (hmove : ScanMove s e r) (hret : r.2 ≠ none) : r.1.scanHandle = 0 := by
  cases hmove with
  | refused hcall =>
    have hidle : s.scanHandle = 0 ∧ NoSem s := h.at hcall
    exact hidle.1
  | noMemory => rfl
  | failed => rfl
  | results ret hcall =>
    have hread : s.scanHandle = 0 ∧ NoSem s := h.at hcall
    exact hread.1
  | _ => exact absurd rfl hret

/-- Its parameters are the only reason to refuse a call. -/
theorem Consistent.accepts {s : ScanState} {ssid apAry num : Bool} {addr : Nat}
    {r : ScanState × Option OperateRet} (h : Consistent s) (hary : apAry = true)
    (hnum : ssid = true ∨ num = true) (hmove : ScanMove s (.call ssid apAry num addr) r) :
    r.2 ≠ some oprtOsAdapterInvalidParm := by
  cases hmove with
  | refused hcall hrefused =>
    have hidle : s.scanHandle = 0 ∧ NoSem s := h.at hcall
    unfold scanRefused at hrefused
    split at hrefused
    · rcases hrefused with hno | hhandle
      · exact absurd (hary.symm.trans hno) (by decide)
      · exact absurd hidle.1 hhandle
    · rename_i hssid
      rcases hrefused with hno | hno | hhandle
      · exact absurd (hary.symm.trans hno) (by decide)
      · exact absurd ((hnum.resolve_left hssid).symm.trans hno) (by decide)
      · exact absurd hidle.1 hhandle
  | noMemory =>
    show some oprtOsAdapterSemCreatFailed ≠ some oprtOsAdapterInvalidParm
    decide
  | _ => exact nofun

/-! ## The posts -/

/-- A call waits, or is about to, for another scan than this one. -/
def AwaitsOther (s : ScanState) (scan : ScanId) : Prop :=
  s.call = .created ∨ ∃ k, s.call = .waiting k ∧ k ≠ scan

/-- No post is there that another call waits for. -/
def PostedOwn (s : ScanState) : Prop := ∀ a j, Posted s.sems a j → ¬AwaitsOther s j

/-- No `scan_cb` posts the semaphore of a later call while that has not got behind its wait. -/
def PostsOwn (s : ScanState) : ScanEvent → Prop
  | .callback scan => ∀ handle, s.cb scan = .loaded handle → Open s.sems handle →
      ¬AwaitsOther s scan
  | _ => True

/-- Behind the wait, a call waits for no scan. -/
theorem not_awaitsOther {s : ScanState} {call : CallPc} (hcall : s.call = call)
    (hcreated : call ≠ .created) (hwaiting : ∀ k, call ≠ .waiting k) (j : ScanId) :
    ¬AwaitsOther s j := by
  intro hawaits
  rcases hawaits with h | ⟨k, h, -⟩
  · exact hcreated (hcall.symm.trans h)
  · exact hwaiting k (hcall.symm.trans h)

theorem PostedOwn.of_call {s : ScanState} {call : CallPc} (hcall : s.call = call)
    (hcreated : call ≠ .created) (hwaiting : ∀ k, call ≠ .waiting k) : PostedOwn s :=
  fun _ j _ => not_awaitsOther hcall hcreated hwaiting j

theorem PostedOwn.callback {s : ScanState} (h : PostedOwn s) {scan : ScanId}
    (hpost : PostsOwn s (.callback scan)) : PostedOwn (scanCb s scan) := by
  have hsame : ∀ j, AwaitsOther (scanCb s scan) j ↔ AwaitsOther s j := by
    intro j
    unfold AwaitsOther
    rw [(scanCb_frame s scan).2.1]
  intro a j hj
  rw [hsame]
  cases hcb : s.cb scan with
  | loaded handle =>
    have hsems : (scanCb s scan).sems = (tklSemaphorePost s.sems handle scan).2 := by
      unfold scanCb
      rw [hcb]
    rw [hsems] at hj
    rcases posted_of_post hj with hold | ⟨rfl, hopen⟩
    · exact h a j hold
    · exact hpost handle hcb hopen
  | _ =>
    have hsems : (scanCb s scan).sems = s.sems := by
      unfold scanCb
      rw [hcb]
    rw [hsems] at hj
    exact h a j hj

/-- A step that meets the condition keeps the posts those of the scan that is waited for. -/
theorem PostedOwn.move {s : ScanState} {e : ScanEvent} {r : ScanState × Option OperateRet}
    (hc : Consistent s) (h : PostedOwn s) (hpost : PostsOwn s e) (hmove : ScanMove s e r) :
    PostedOwn r.1 := by
  cases hmove with
  | skip => exact h
  | refused => exact h
  | callback scan => exact h.callback hpost
  | noMemory hcall => exact .of_call hcall (fun h => nomatch h) fun _ h => nomatch h
  | created hcall haddr =>
    have hidle : s.scanHandle = 0 ∧ NoSem s := hc.at hcall
    intro a j hj
    obtain ⟨sem, hsem, -⟩ := posted_of_create hj
    have hnone := hidle.2 a
    rw [hsem] at hnone
    exact nomatch hnone
  | started hcall =>
    -- before the start there is no post at all
    intro a j hj
    exact absurd (.inl hcall) (h a j hj)
  | notStarted => exact .of_call rfl (fun h => nomatch h) fun _ h => nomatch h
  | waited => exact .of_call rfl (fun h => nomatch h) fun _ h => nomatch h
  | released => exact .of_call rfl (fun h => nomatch h) fun _ h => nomatch h
  | failed => exact .of_call rfl (fun h => nomatch h) fun _ h => nomatch h
  | cleared => exact .of_call rfl (fun h => nomatch h) fun _ h => nomatch h
  | results => exact .of_call rfl (fun h => nomatch h) fun _ h => nomatch h

/-! ## Runs -/

/-- Whose post a step of a wait takes. -/
def wokenBy (s : ScanState) : ScanEvent → Option ScanId
  | .wait expired => (tklSemaphoreWait s.sems s.scanHandle expired).bind fun r => r.2.1
  | _ => none

/-- A wait that succeeds is woken by the scan that the call has started; `scanHandle` is NULL
    behind every call; and a call is not refused but for its parameters. -/
structure ScanOk (s : ScanState) (e : ScanEvent) : Prop where
  own : ∀ scan j, s.call = .waiting scan → wokenBy s e = some j → j = scan
  cleared : (scanStep s e).2 ≠ none → (scanStep s e).1.scanHandle = 0
  accepted : ∀ ssid apAry num addr, e = .call ssid apAry num addr → apAry = true →
    (ssid = true ∨ num = true) → (scanStep s e).2 ≠ some oprtOsAdapterInvalidParm

theorem consistent_static : Consistent .static := ⟨rfl, fun _ => rfl⟩

theorem postedOwn_static : PostedOwn .static := fun _ _ ⟨_, hsem, _⟩ => nomatch hsem

theorem scanOk {s : ScanState} (hc : Consistent s) (h : PostedOwn s) (e : ScanEvent) :
    ScanOk s e := by
  refine ⟨?_, hc.returns (scanStep_move s e), ?_⟩
  · intro scan j hcall hwoken
    cases e with
    | wait expired =>
      obtain ⟨⟨ret, taken, sems⟩, hwait, htaken⟩ := Option.bind_eq_some_iff.mp hwoken
      obtain rfl : taken = some j := htaken
      by_contra hne
      exact h _ j (posted_of_wait hwait) (.inr ⟨scan, hcall, fun heq => hne heq.symm⟩)
    | _ => exact nomatch hwoken
  · rintro ssid apAry num addr rfl hary hnum
    exact hc.accepts hary hnum (scanStep_move s _)

/-- Whatever the order of the steps, the handle is NULL behind every call. -/
theorem scan_cleared (es : List ScanEvent) : Along scanStep
    (fun s e => (scanStep s e).2 ≠ none → (scanStep s e).1.scanHandle = 0) .static es := by
  refine along_of_inv (I := Consistent) (C := fun _ _ => True) ?_ consistent_static
    (along_of_forall (fun _ _ => trivial) _ es)
  intro s e hc _
  exact ⟨hc.move (scanStep_move s e), hc.returns (scanStep_move s e)⟩

/-- In every run in which no `scan_cb` posts the semaphore of a later call that has not got behind
    its wait, each wait that succeeds is woken by the completion of its own scan, and `scanHandle`
    is NULL behind every call. -/
theorem scan_completion {es : List ScanEvent} (h : Along scanStep PostsOwn .static es) :
    Along scanStep ScanOk .static es := by
  refine along_of_inv (I := fun s => Consistent s ∧ PostedOwn s) ?_
    ⟨consistent_static, postedOwn_static⟩ h
  rintro s e ⟨hc, hown⟩ hpost
  have hmove := scanStep_move s e
  exact ⟨⟨hc.move hmove, hown.move hc hpost hmove⟩, scanOk hc hown e⟩

/-- A scan times out. Its completion comes while the next call is under way, and posts behind the
    wait of that one, which its own scan has woken. -/
def scanTwice : List ScanEvent :=
  [.call false true true 1, .start 0, .wait true, .release, .clear, .call false true true 2,
    .start 0, .callback 0, .callback 1, .callback 1, .callback 1, .wait false, .callback 0,
    .callback 0, .release, .clear, .results true]

theorem scan_completion_sample : Along scanStep ScanOk .static scanTwice := by
  refine scan_completion ⟨trivial, trivial, trivial, trivial, trivial, trivial, trivial,
    (fun _ h => nomatch h), (fun _ h => nomatch h), (fun _ h => nomatch h), ?_, trivial,
    (fun _ h => nomatch h), ?_, trivial, trivial, trivial, trivial⟩
  · rintro _ _ _ (h | ⟨k, h, hk⟩)
    · exact nomatch h
    · exact hk (CallPc.waiting.inj h).symm
  · rintro _ _ _ (h | ⟨k, h, -⟩)
    · exact nomatch h
    · exact nomatch h

/-- A scan times out, and its completion comes when the next call waits. -/
theorem scan_completion_late : ¬Along scanStep ScanOk .static
    [.call false true true 1, .start 0, .wait true, .release, .clear, .call false true true 2,
      .start 0, .callback 0, .callback 0, .callback 0, .wait false] := by
  intro hrun
  obtain ⟨-, -, -, -, -, -, -, -, -, -, hwait, -⟩ := hrun
  exact absurd (hwait.own 1 0 rfl rfl) (by decide)

/-! ## Calls behind all completions -/

/-- `scan_cb` of the scan is under way, or to come. -/
def Outstanding (s : ScanState) (scan : ScanId) : Prop :=
  s.cb scan ≠ .unstarted ∧ s.cb scan ≠ .done

/-- A call comes when `scan_cb` of every scan that was started has finished. -/
def Serial (s : ScanState) : ScanEvent → Prop
  | .call .. => ∀ scan < s.started, s.cb scan = .done
  | _ => True

/-- The scans to come are not started, and no call waits for another scan than the one that is
    outstanding. -/
structure OneScan (s : ScanState) : Prop where
  unstarted : ∀ scan, s.started ≤ scan → s.cb scan = .unstarted
  own : ∀ scan, Outstanding s scan → ¬AwaitsOther s scan

theorem OneScan.postsOwn {s : ScanState} (h : OneScan s) (e : ScanEvent) : PostsOwn s e := by
  cases e with
  | callback scan =>
    intro handle hcb _
    refine h.own scan ⟨?_, ?_⟩ <;> rw [hcb] <;> exact (fun heq => nomatch heq)
  | _ => trivial

/-- `scan_cb` moves from a step to the next one of its own scan. -/
theorem scanCb_cb (s : ScanState) (scan j : ScanId) :
    (scanCb s scan).cb j = s.cb j ∨ Outstanding s j := by
  unfold scanCb Outstanding
  by_cases hj : j = scan
  · subst hj
    cases hcb : s.cb j with
    | unstarted => exact .inl hcb
    | done => exact .inl hcb
    | _ => exact .inr ⟨(fun heq => nomatch heq), (fun heq => nomatch heq)⟩
  · left
    split <;> first | rfl | exact Function.update_of_ne hj _ _

/-- A call that waits for no scan, or not yet. -/
theorem OneScan.of_call {s s' : ScanState} (h : OneScan s) (hstarted : s'.started = s.started)
    (hcb : s'.cb = s.cb) {call : CallPc} (hcall : s'.call = call) (hcreated : call ≠ .created)
    (hwaiting : ∀ k, call ≠ .waiting k) : OneScan s' := by
  refine ⟨?_, fun j _ => not_awaitsOther hcall hcreated hwaiting j⟩
  rw [hstarted, hcb]
  exact h.unstarted

theorem OneScan.move {s : ScanState} {e : ScanEvent} {r : ScanState × Option OperateRet}
    (h : OneScan s) (hserial : Serial s e) (hmove : ScanMove s e r) : OneScan r.1 := by
  cases hmove with
  | skip => exact h
  | refused => exact h
  | callback scan =>
    obtain ⟨-, hcall, hstarted, -⟩ := scanCb_frame s scan
    have hout : ∀ j, Outstanding (scanCb s scan) j → Outstanding s j := by
      intro j hj
      rcases scanCb_cb s scan j with heq | hout
      · unfold Outstanding at hj
        rwa [heq] at hj
      · exact hout
    refine ⟨fun j hj => ?_, fun j hj => ?_⟩
    · have hun := h.unstarted j (hstarted ▸ hj)
      rcases scanCb_cb s scan j with heq | hout
      · exact heq.trans hun
      · exact absurd hun hout.1
    · unfold AwaitsOther
      rw [hcall]
      exact h.own j (hout j hj)
  | noMemory hcall =>
    exact h.of_call rfl rfl hcall (fun heq => nomatch heq) fun _ heq => nomatch heq
  | created hcall haddr =>
    refine ⟨h.unstarted, fun j hj => ?_⟩
    -- every scan has finished, so none is outstanding
    rcases Nat.lt_or_ge j s.started with hlt | hge
    · exact absurd (hserial j hlt) hj.2
    · exact absurd (h.unstarted j hge) hj.1
  | started hcall =>
    refine ⟨fun j hj => ?_, fun j hj => ?_⟩
    · have hne : j ≠ s.started := by
        simp only at hj
        omega
      simp only [Function.update_of_ne hne]
      exact h.unstarted j (by simp only at hj; omega)
    · by_cases hne : j = s.started
      · intro hawaits
        rcases hawaits with heq | ⟨k, heq, hk⟩
        · exact nomatch heq
        · exact hk ((CallPc.waiting.inj heq).symm.trans hne.symm)
      · unfold Outstanding at hj
        simp only [Function.update_of_ne hne] at hj
        exact absurd (.inl hcall) (h.own j hj)
  | notStarted => exact h.of_call rfl rfl rfl (fun heq => nomatch heq) fun _ heq => nomatch heq
  | waited => exact h.of_call rfl rfl rfl (fun heq => nomatch heq) fun _ heq => nomatch heq
  | released => exact h.of_call rfl rfl rfl (fun heq => nomatch heq) fun _ heq => nomatch heq
  | failed => exact h.of_call rfl rfl rfl (fun heq => nomatch heq) fun _ heq => nomatch heq
  | cleared => exact h.of_call rfl rfl rfl (fun heq => nomatch heq) fun _ heq => nomatch heq
  | results => exact h.of_call rfl rfl rfl (fun heq => nomatch heq) fun _ heq => nomatch heq

/-- If no call comes before `scan_cb` of every earlier scan has finished, all is as it must be. -/
theorem scan_serial {es : List ScanEvent} (h : Along scanStep Serial .static es) :
    Along scanStep ScanOk .static es := by
  refine along_of_inv (I := fun s => (Consistent s ∧ PostedOwn s) ∧ OneScan s) ?_
    ⟨⟨consistent_static, postedOwn_static⟩, fun _ _ => rfl, fun _ hout => absurd rfl hout.1⟩ h
  rintro s e ⟨⟨hc, hown⟩, hone⟩ hserial
  have hmove := scanStep_move s e
  exact ⟨⟨⟨hc.move hmove, hown.move hc (hone.postsOwn e) hmove⟩, hone.move hserial hmove⟩,
    scanOk hc hown e⟩

end ArduinoT2.Wifi
