import ArduinoT2.Kernel.TaskStart

/-
  The context switch, the tick and the end of a suspension of the scheduler.

  `Counted m k k' n` says that `k'` is `k` once `n` ticks have been counted: the tasks are ready
  whose time to wake has come or that were signalled before, and a switch is asked for when one of
  them has at least the priority of the current task. The tick counts one, and `xTaskResumeAll` the
  ticks that came in the meantime.
-/

namespace ArduinoT2.Kernel

open StepSys

variable {T E : Type} [DecidableEq T] [DecidableEq E]
variable {m : ListMem (TaskList E) (TaskItem T)} {idle t : T} {k k' : Sched T E}

/-! ## The context switch -/

omit [DecidableEq T] [DecidableEq E] in
/-- The search for a ready task ends at the highest priority there is one of. -/
theorem findPriority_spec (hidle : k.lists.items (.ready 0) ≠ []) (n : Nat) :
    ∃ p, k.findPriority n = some p ∧ p ≤ n ∧ k.lists.items (.ready p) ≠ [] ∧
      ∀ q, p < q → q ≤ n → k.lists.items (.ready q) = [] := by
  induction n with
  | zero =>
    refine ⟨0, ?_, Nat.le_refl _, hidle, fun q hq hle => absurd hq (Nat.not_lt.2 hle)⟩
    rw [Sched.findPriority, if_neg (by simpa using hidle)]
  | succ n ih =>
    by_cases hempty : k.lists.items (.ready (n + 1)) = []
    · obtain ⟨p, hp, hle, hne, habove⟩ := ih
      refine ⟨p, ?_, Nat.le_succ_of_le hle, hne, fun q hlt hq => ?_⟩
      · rw [Sched.findPriority, if_pos (by simpa using hempty), hp]
      · obtain hq | hq := Nat.lt_or_eq_of_le hq
        · exact habove q hlt (Nat.lt_succ_iff.1 hq)
        · exact hq ▸ hempty
    · refine ⟨n + 1, ?_, Nat.le_refl _, hempty, fun q hq hle => absurd hq (Nat.not_lt.2 hle)⟩
      rw [Sched.findPriority, if_neg (by simpa using hempty)]

omit [DecidableEq T] [DecidableEq E] in
theorem findPriority_congr (k k' : Sched T E) (hlists : k'.lists = k.lists) (n : Nat) :
    k'.findPriority n = k.findPriority n := by
  induction n with
  | zero => rw [Sched.findPriority, Sched.findPriority, hlists]
  | succ n ih => rw [Sched.findPriority, Sched.findPriority, hlists, ih]

/-- The task is ready, and no ready task has a higher priority. -/
def Sched.Highest (k : Sched T E) (t : T) : Prop :=
  k.Ready t ∧ ∀ s, k.Ready s → k.uxPriority s ≤ k.uxPriority t

/-- What a context switch does: no item moves. -/
structure Switched (k k' : Sched T E) : Prop where
  container : k'.lists.container = k.lists.container
  value : k'.lists.value = k.lists.value
  priority : k'.uxPriority = k.uxPriority
  second : k'.second = k.second
  running : k'.xSchedulerRunning = k.xSchedulerRunning
  suspended : k'.uxSchedulerSuspended = k.uxSchedulerSuspended
  tick : k'.xTickCount = k.xTickCount
  overflows : k'.xNumOfOverflows = k.xNumOfOverflows
  pended : k'.uxPendedTicks = k.uxPendedTicks
  kept : k.uxSchedulerSuspended ≠ 0 → k'.pxCurrentTCB = k.pxCurrentTCB
  chosen : k.uxSchedulerSuspended = 0 → ∃ t, k'.pxCurrentTCB = some t ∧ k'.Highest t

/-- A task of the highest ready priority is served. -/
theorem select_spec (h : SchedInv m idle k) (hrun : k.xSchedulerRunning = true) :
    ∃ p t, k.findPriority k.uxTopReadyPriority = some p ∧
      TaskInv m { k.list (.nextEntry (.ready p)) with uxTopReadyPriority := p } ∧
      nextEntry (k.lists.index (.ready p)) (k.lists.items (.ready p)) = some (.state t) ∧
      k.Highest t := by
  have hidle := (h.inv.mem_iff (.ready 0) (.state idle)).2 (h.idle hrun)
  obtain ⟨p, hp, hle, hne, habove⟩ :=
    findPriority_spec (List.ne_nil_of_mem hidle) k.uxTopReadyPriority
  have hready : ∀ s, k.Ready s → k.uxPriority s ≤ p := fun s hs => by
    by_contra hlt
    have hmem := (h.inv.mem_iff (.ready (k.uxPriority s)) (.state s)).2 hs
    rw [habove _ (Nat.lt_of_not_le hlt) (h.inv.top s _ hs)] at hmem
    cases hmem
  obtain ⟨x, hx⟩ := exists_nextEntry hne
  have hin := (h.inv.mem_iff (.ready p) x).1 (nextEntry_mem hx)
  have hhome := h.inv.home x _ hin
  have hserved : TaskInv m (k.list (.nextEntry (.ready p))) := h.inv.list hne trivial
  cases x with
  | event s => cases hhome
  | state s =>
    obtain rfl : p = k.uxPriority s := hhome
    refine ⟨_, s, hp, ?_, hx, hin, hready⟩
    refine ⟨hserved.log, hserved.lists, hserved.made, hserved.home, hserved.priority,
      Nat.lt_of_le_of_lt hle h.inv.topBound, fun t q hq => ?_, hserved.sorted⟩
    obtain rfl : q = k.uxPriority t := h.inv.home _ _ hq
    exact hready t hq

/-- What `vTaskSwitchContext` does when the scheduler is not suspended. -/
theorem vTaskSwitchContext_eq {p : Nat} (hsus : k.uxSchedulerSuspended = 0)
    (hp : k.findPriority k.uxTopReadyPriority = some p)
    (hnext : nextEntry (k.lists.index (.ready p)) (k.lists.items (.ready p)) = some (.state t)) :
    k.vTaskSwitchContext = some { k.list (.nextEntry (.ready p)) with
      pxCurrentTCB := some t, uxTopReadyPriority := p, xYieldPending := false
      yield := false } := by
  have hfind : ({ k with yield := false, xYieldPending := false } : Sched T E).findPriority
      k.uxTopReadyPriority = some p :=
    (findPriority_congr k { k with yield := false, xYieldPending := false } rfl _).trans hp
  have hindex : ((k.list (.nextEntry (.ready p))).lists.index (.ready p)).map TaskItem.owner =
      some t := by
    simp [Sched.list, Lists.call, Lists.setIndex, hnext, TaskItem.owner]
  rw [← hindex, Sched.vTaskSwitchContext, if_neg (fun hne => hne hsus),
    Sched.taskSelectHighestPriorityTask, hfind]
  rfl

theorem vTaskSwitchContext_spec (h : SchedInv m idle k) (hrun : k.xSchedulerRunning = true) :
    ∃ k', k.vTaskSwitchContext = some k' ∧ SchedInv m idle k' ∧ Switched k k' := by
  by_cases hsus : k.uxSchedulerSuspended = 0
  · obtain ⟨p, t, hp, hinv, hnext, hhigh⟩ := select_spec h hrun
    refine ⟨_, vTaskSwitchContext_eq hsus hp hnext, ?_, ?_⟩
    · have hserved : SchedInv m idle
          { k.list (.nextEntry (.ready p)) with uxTopReadyPriority := p } :=
        ⟨hinv, ⟨h.timed.due, h.timed.next⟩, h.known, h.waits, h.pending, h.idle, h.stopped,
          h.preempts⟩
      exact hserved.switched (.inl hhigh.2)
    · exact ⟨rfl, rfl, rfl, rfl, rfl, rfl, rfl, rfl, rfl, fun hne => absurd hsus hne,
        fun _ => ⟨t, rfl, hhigh⟩⟩
  · refine ⟨{ k with yield := false, xYieldPending := true }, ?_, h.switched (.inr (.inr rfl)), ?_⟩
    · exact if_pos hsus
    · exact ⟨rfl, rfl, rfl, rfl, rfl, rfl, rfl, rfl, rfl, fun _ => rfl, fun hz => absurd hz hsus⟩

/-! ## Counted ticks -/

/-- The event item of the task is in `xPendingReadyList`. -/
def Sched.Pending (k : Sched T E) (t : T) : Prop :=
  k.lists.container (.event t) = some .pendingReady

/-- The task is to be ready once `n` ticks are counted. -/
def Sched.Wakes (k : Sched T E) (n : Nat) (t : T) : Prop := k.Pending t ∨ k.DueWithin n t

/-- `n` ticks are counted. -/
structure Counted (m : ListMem (TaskList E) (TaskItem T)) (k k' : Sched T E) (n : Nat) : Prop where
  inv : TaskInv m k'
  timed : k'.Timed
  time : k'.time = k.time + n
  woken : Woken (k.Wakes n) k k'
  deadline : ∀ t, ¬ k.Wakes n t → k'.deadline t = k.deadline t
  current : k'.pxCurrentTCB = k.pxCurrentTCB
  running : k'.xSchedulerRunning = k.xSchedulerRunning
  suspended : k'.uxSchedulerSuspended = 0
  pended : k'.uxPendedTicks = 0
  yield : k.yield = true → k'.yield = true
  yieldPending : k.xYieldPending = true → k'.xYieldPending = true
  noticed : ∀ t, k.Wakes n t → k.currentPriority ≤ k.uxPriority t →
    k'.yield = true ∨ k'.xYieldPending = true

/-- A switch is asked for behind the ticks. -/
theorem Counted.portYield {n : Nat} (h : Counted m k k' n) : Counted m k k'.portYield n :=
  ⟨h.inv.congr rfl rfl rfl rfl, ⟨h.timed.due, h.timed.next⟩, h.time,
    ⟨h.woken.state, h.woken.event, h.woken.stateElse, h.woken.eventElse, h.woken.value,
      h.woken.known, h.woken.priority⟩, h.deadline, h.current, h.running, h.suspended, h.pended,
    fun _ => rfl, h.yieldPending, fun _ _ _ => .inl rfl⟩

theorem SchedInv.counted (h : SchedInv m idle k) {n : Nat} (hc : Counted m k k' n)
    (hrun : k.xSchedulerRunning = true) : SchedInv m idle k' := by
  have hidle := h.idle hrun
  have hstays : ¬ k.Wakes n idle := by
    intro hw
    have hready : k.Ready idle := by
      unfold Sched.Ready
      have hprio : 0 = k.uxPriority idle := h.inv.home _ _ hidle
      rw [← hprio]
      exact hidle
    obtain hp | ⟨-, w, hw, -⟩ := hw
    · unfold Sched.Pending at hp
      rw [h.event_of_ready hready] at hp
      cases hp
    · obtain ⟨b, hb⟩ := delayed_of_deadline hw
      rw [hidle] at hb
      cases hb
  have hevent : ∀ s, k'.lists.container (.event s) ≠ none → ¬ k.Wakes n s := fun s hs hw =>
    hs (hc.woken.event s hw)
  refine ⟨hc.inv, hc.timed, fun s => ?_, fun s hs => ?_, fun _ => ⟨hc.pended, fun s hs => ?_⟩,
    fun _ => ?_, fun hnot => ?_, ?_⟩
  · rw [hc.woken.known]
    exact h.known s
  · have hout := hevent s hs
    rw [hc.woken.eventElse s hout] at hs
    unfold Sched.Stopped
    rw [hc.woken.stateElse s hout]
    exact h.waits s hs
  · have hout := hevent s (by rw [hs]; exact fun hn => by cases hn)
    rw [hc.woken.eventElse s hout] at hs
    exact hout (.inl hs)
  · rw [hc.woken.stateElse idle hstays]
    exact hidle
  · rw [hc.running, hrun] at hnot
    cases hnot
  · have hprio : k'.currentPriority = k.currentPriority := by
      unfold Sched.currentPriority
      rw [hc.current, hc.woken.priority]
    obtain hall | hyield | hpend := h.preempts
    · by_cases hsome : ∃ t, k.Wakes n t ∧ k.currentPriority ≤ k.uxPriority t
      · obtain ⟨t, hw, hle⟩ := hsome
        exact .inr (hc.noticed t hw hle)
      · refine .inl fun s hs => ?_
        rw [hprio, hc.woken.priority]
        by_cases hw : k.Wakes n s
        · exact Nat.le_of_not_le fun hle => hsome ⟨s, hw, hle⟩
        · unfold Sched.Ready at hs
          rw [hc.woken.stateElse s hw, hc.woken.priority] at hs
          exact hall s hs
    · exact .inr (.inl (hc.yield hyield))
    · exact .inr (.inr (hc.yieldPending hpend))

/-! ## The tick -/

/-- `xTaskIncrementTick`, with the switch that its result asks for. -/
def Sched.tickAndYield (k : Sched T E) : Option (Sched T E) :=
  k.xTaskIncrementTick.map fun r => if r.2 then r.1.portYield else r.1

omit [DecidableEq T] [DecidableEq E] in
/-- While the scheduler is not suspended no task is pending. -/
theorem SchedInv.wakes_iff [DecidableEq T] [DecidableEq E] (h : SchedInv m idle k)
    (hsus : k.uxSchedulerSuspended = 0) (n : Nat) (t : T) :
    k.Wakes n t ↔ k.DueWithin n t :=
  ⟨fun hw => hw.resolve_left ((h.pending hsus).2 t), .inr⟩

/-- The tick is counted, or kept for later while the scheduler is suspended. -/
theorem tickAndYield_spec (h : SchedInv m idle k) (hrun : k.xSchedulerRunning = true) :
    ∃ k', k.tickAndYield = some k' ∧ SchedInv m idle k' ∧
      if k.uxSchedulerSuspended = 0 then Counted m k k' 1
      else k' = { k with uxPendedTicks := k.uxPendedTicks + 1, yield := k'.yield } := by
  by_cases hsus : k.uxSchedulerSuspended = 0
  · obtain ⟨k₁, b, htick, hpassed, hpend, hnoticed⟩ := countTick_passed h.inv h.timed
    have hwakes := h.wakes_iff hsus 1
    have hcounted : ∀ y : Bool, (k.yield = true → y = true) →
        (∀ t, k.Wakes 1 t → k.currentPriority ≤ k.uxPriority t →
          y = true ∨ k₁.xYieldPending = true) → Counted m k { k₁ with yield := y } 1 := by
      intro y hy hall
      have hwoken : Woken (k.Wakes 1) k k₁ := hpassed.woken.congr fun t => (hwakes t).symm
      exact ⟨hpassed.inv.congr rfl rfl rfl rfl, ⟨hpassed.timed.due, hpassed.timed.next⟩,
        hpassed.time, ⟨hwoken.state, hwoken.event, hwoken.stateElse, hwoken.eventElse, hwoken.value,
          hwoken.known, hwoken.priority⟩, fun t ht => hpassed.deadline t fun hdue => ht (.inr hdue),
        hpassed.rest.current, hpassed.rest.running, hpassed.rest.suspended.trans hsus,
        hpassed.rest.pended.trans (h.pending hsus).1, hy, fun hp => hpend.trans hp, hall⟩
    have hrun' : k.tickAndYield =
        some (if (b || k₁.xYieldPending) = true then k₁.portYield else k₁) := by
      simp only [Sched.tickAndYield, Sched.xTaskIncrementTick, hsus, if_true, htick,
        Option.map_some]
    refine ⟨_, hrun', ?_⟩
    rw [if_pos hsus]
    have hc : Counted m k (if (b || k₁.xYieldPending) = true then k₁.portYield else k₁) 1 := by
      split_ifs with hb
      · exact hcounted true (fun _ => rfl) fun _ _ _ => .inl rfl
      · refine hcounted k₁.yield (fun hy => hpassed.rest.yield.trans hy) fun t hw hle => ?_
        have htrue := hnoticed t ((hwakes t).1 hw) hle
        rw [htrue, Bool.true_or] at hb
        exact absurd rfl hb
    exact ⟨h.counted hc hrun, hc⟩
  · have hrun' : k.tickAndYield = some (if k.xYieldPending = true then
        { k with uxPendedTicks := k.uxPendedTicks + 1 }.portYield
        else { k with uxPendedTicks := k.uxPendedTicks + 1 }) := by
      simp only [Sched.tickAndYield, Sched.xTaskIncrementTick, hsus, if_false, Option.map_some,
        Bool.false_or]
    have hinv : SchedInv m idle { k with uxPendedTicks := k.uxPendedTicks + 1 } :=
      ⟨h.inv.congr rfl rfl rfl rfl, ⟨h.timed.due, h.timed.next⟩, h.known, h.waits,
        fun hz => absurd hz hsus, h.idle, h.stopped, h.preempts⟩
    refine ⟨_, hrun', ?_⟩
    rw [if_neg hsus]
    split_ifs
    · exact ⟨hinv.portYield, rfl⟩
    · exact ⟨hinv, rfl⟩

/-- What `vTaskStepTick` asserts, without a wrap of the count, and what
    `taskSWITCH_DELAYED_LISTS` asserts when the tick behind the jump makes the count 0. -/
def Sched.MayJump (k : Sched T E) (xTicksToJump : UInt32) : Prop :=
  k.xTickCount.toNat + xTicksToJump.toNat ≤ k.xNextTaskUnblockTime.toNat ∧
    (k.xTickCount + xTicksToJump = portMaxDelay → k.lists.items k.pxDelayedTaskList = [])

/-- A jump of the tick to the next time to wake at most. -/
theorem vTaskStepTick_spec (h : SchedInv m idle k) (hrun : k.xSchedulerRunning = true) {n : UInt32}
    (hn : k.MayJump n) :
    SchedInv m idle (k.vTaskStepTick n) ∧ (k.vTaskStepTick n).time = k.time + n.toNat := by
  have htick : (k.vTaskStepTick n).xTickCount.toNat = k.xTickCount.toNat + n.toNat := by
    have hadd := UInt32.toNat_add k.xTickCount n
    have hlt := k.xNextTaskUnblockTime.toNat_lt
    have hle := hn.1
    change (k.xTickCount + n).toNat = _
    omega
  refine ⟨⟨h.inv.congr rfl rfl rfl rfl, ⟨fun t ht => ⟨?_, fun hmax => ?_⟩, h.timed.next⟩, h.known,
    h.waits, h.pending, h.idle, fun hnot => ?_, h.preempts⟩, ?_⟩
  · have hnext := UInt32.le_iff_toNat_le.1 (h.timed.next t ht)
    refine UInt32.le_iff_toNat_le.2 (Nat.le_trans ?_ hnext)
    rw [htick]
    exact hn.1
  · have hmem := (h.inv.mem_iff k.pxDelayedTaskList (.state t)).2 ht
    rw [hn.2 hmax] at hmem
    cases hmem
  · rw [show k.xSchedulerRunning = false from hnot] at hrun
    cases hrun
  · rw [Sched.time, htick]
    exact (Nat.add_assoc _ _ _).symm

omit [DecidableEq T] [DecidableEq E] in
/-- A jump that wraps the count is not noticed: 2 ^ 32 ticks are lost. -/
theorem stepTick_wraps {n : UInt32} (hn : tickSpan ≤ k.xTickCount.toNat + n.toNat) :
    (k.vTaskStepTick n).time + tickSpan = k.time + n.toNat := by
  have hadd := UInt32.toNat_add k.xTickCount n
  have htick := k.xTickCount.toNat_lt
  have hjump := n.toNat_lt
  have hsum : (k.xTickCount + n).toNat + tickSpan = k.xTickCount.toNat + n.toNat := by
    unfold tickSpan at hn ⊢
    omega
  calc (k.vTaskStepTick n).time + tickSpan
      = k.xNumOfOverflows * tickSpan + ((k.xTickCount + n).toNat + tickSpan) := Nat.add_assoc _ _ _
    _ = k.time + n.toNat := by rw [hsum, Sched.time, Nat.add_assoc]

/-! ## The end of a suspension -/

/-- A round of the loop of `xTaskResumeAll`. -/
def Sched.moveTask (k : Sched T E) (t : T) : Sched T E :=
  let k := ((k.list (.remove (.event t))).list (.remove (.state t))).prvAddTaskToReadyList t
  if k.currentPriority ≤ k.uxPriority t then { k with xYieldPending := true } else k

/-- What a round does. -/
structure PendingMoved (m : ListMem (TaskList E) (TaskItem T)) (t : T) (k k' : Sched T E) :
    Prop where
  inv : TaskInv m k'
  woken : Woken (fun s => s = t) k k'
  same : SameVars k k'
  next : k'.xNextTaskUnblockTime = k.xNextTaskUnblockTime
  items : k'.lists.items .pendingReady = (k.lists.items .pendingReady).erase (.event t)
  yieldPending : k.xYieldPending = true → k'.xYieldPending = true
  noticed : k.currentPriority ≤ k.uxPriority t → k'.xYieldPending = true

theorem moveTask_moved (h : TaskInv m k) (hevent : k.lists.container (.event t) ≠ none)
    (hstate : k.lists.container (.state t) ≠ none) : PendingMoved m t k (k.moveTask t) := by
  have hfirst : TaskInv m (k.list (.remove (.event t))) := h.list hevent trivial
  have hin : (k.list (.remove (.event t))).lists.container (.state t) ≠ none := by
    simpa [Sched.list] using hstate
  have hsecond : TaskInv m ((k.list (.remove (.event t))).list (.remove (.state t))) :=
    hfirst.list hin trivial
  have hne : (TaskItem.state t : TaskItem T) ≠ .event t := fun he => by cases he
  have hcont : ((k.list (.remove (.event t))).list (.remove (.state t))).lists.container =
      Function.update (Function.update k.lists.container (.state t) none) (.event t) none := by
    rw [Function.update_comm hne]
    simp [Sched.list]
  have hknown : ((k.list (.remove (.event t))).list (.remove (.state t))).lists.known =
      k.lists.known := by simp [Sched.list]
  have hvalue : ((k.list (.remove (.event t))).list (.remove (.state t))).lists.value =
      k.lists.value := by simp [Sched.list]
  have hready : TaskInv m
      (((k.list (.remove (.event t))).list (.remove (.state t))).prvAddTaskToReadyList t) :=
    hsecond.addReady (by rw [hcont]; simp) (by rw [hknown]; exact h.known_of_mem hstate)
  have hwoken : Woken (fun s => s = t) k
      (((k.list (.remove (.event t))).list (.remove (.state t))).prvAddTaskToReadyList t) :=
    woken_of_out hcont hvalue hknown rfl
  have hitems : (((k.list (.remove (.event t))).list (.remove (.state t))).prvAddTaskToReadyList
      t).lists.items .pendingReady = (k.lists.items .pendingReady).erase (.event t) := by
    have hout : TaskItem.state t ∉ (k.list (.remove (.event t))).lists.items .pendingReady :=
      fun hmem => hfirst.home _ _ ((hfirst.mem_iff _ _).1 hmem)
    rw [prvAddTaskToReadyList_eq]
    calc _ = ((k.list (.remove (.event t))).list (.remove (.state t))).lists.items .pendingReady :=
          items_insertEnd_of_ne _ (fun he => by cases he) _
      _ = (k.list (.remove (.event t))).lists.items .pendingReady := by
          rw [Sched.list, items_remove hfirst.ok, List.erase_of_not_mem hout]
      _ = _ := items_remove h.ok _ _
  have hcurrent : (((k.list (.remove (.event t))).list (.remove (.state t))).prvAddTaskToReadyList
      t).currentPriority = k.currentPriority := by
    rw [prvAddTaskToReadyList_eq]
    rfl
  unfold Sched.moveTask
  simp only [hcurrent, hwoken.priority]
  split_ifs with hle
  · rw [prvAddTaskToReadyList_eq] at hready hwoken hitems ⊢
    exact ⟨hready.congr rfl rfl rfl rfl, ⟨hwoken.state, hwoken.event, hwoken.stateElse,
      hwoken.eventElse, hwoken.value, hwoken.known, hwoken.priority⟩,
      ⟨⟨rfl, rfl, rfl, rfl, rfl⟩, rfl, rfl, rfl⟩, rfl, hitems, fun _ => rfl, fun _ => rfl⟩
  · rw [prvAddTaskToReadyList_eq] at hready hwoken hitems ⊢
    exact ⟨hready, hwoken, ⟨⟨rfl, rfl, rfl, rfl, rfl⟩, rfl, rfl, rfl⟩, rfl, hitems, id,
      fun hgt => absurd hgt hle⟩

/-- The loop over `xPendingReadyList` ends, and the pending tasks are ready. -/
theorem movePending_spec {rounds : Nat} (h : TaskInv m k)
    (hwaits : ∀ t, k.Pending t → k.lists.container (.state t) ≠ none)
    (hr : (k.lists.items .pendingReady).length < rounds) :
    ∃ k' b, Sched.movePending rounds k = some (k', b) ∧ TaskInv m k' ∧ Woken k.Pending k k' ∧
      SameVars k k' ∧ (k.xYieldPending = true → k'.xYieldPending = true) ∧
      k'.xNextTaskUnblockTime = k.xNextTaskUnblockTime ∧ (b = false → ∀ t, ¬ k.Pending t) ∧
      ∀ t, k.Pending t → k.currentPriority ≤ k.uxPriority t → k'.xYieldPending = true := by
  induction rounds generalizing k with
  | zero => cases hr
  | succ rounds ih =>
    cases hhead : k.headOwner .pendingReady with
    | none =>
      have hout : ∀ t, ¬ k.Pending t := fun t => h.headOwner_none hhead _
      exact ⟨k, false, by simp only [Sched.movePending, hhead], h, .none hout rfl rfl, .self, id,
        rfl, fun _ => hout, fun t ht => absurd ht (hout t)⟩
    | some t =>
      have htin : k.Pending t := h.event_head (.inl rfl) hhead
      have hin : k.lists.container (.event t) ≠ none := by
        rw [htin]
        exact fun hn => by cases hn
      have hmoved := moveTask_moved h hin (hwaits t htin)
      have hstays : ∀ s, (k.moveTask t).Pending s ↔ s ≠ t ∧ k.Pending s := fun s => by
        by_cases hst : s = t
        · subst hst
          have hnone := hmoved.woken.event s rfl
          simp [Sched.Pending, hnone]
        · simp [Sched.Pending, hmoved.woken.eventElse s hst, hst]
      have hwaits' : ∀ s, (k.moveTask t).Pending s →
          (k.moveTask t).lists.container (.state s) ≠ none := fun s hs => by
        obtain ⟨hst, hs⟩ := (hstays s).1 hs
        rw [hmoved.woken.stateElse s hst]
        exact hwaits s hs
      have hlen : ((k.moveTask t).lists.items .pendingReady).length < rounds := by
        have hmem := (h.mem_iff .pendingReady (.event t)).2 htin
        have hpos := List.length_pos_of_mem hmem
        rw [hmoved.items, List.length_erase_of_mem hmem]
        omega
      obtain ⟨k', b, hrun, hinv, hwoken, hsame, hpend, hnext, -, hnoticed⟩ :=
        ih hmoved.inv hwaits' hlen
      have hstep : Sched.movePending (rounds + 1) k =
          (Sched.movePending rounds (k.moveTask t)).map fun r => (r.1, true) := by
        simp only [Sched.movePending, hhead]
        rfl
      refine ⟨k', true, by rw [hstep, hrun]; rfl, hinv,
        (hmoved.woken.trans hwoken).congr fun s => ?_, hmoved.same.trans hsame,
        fun hp => hpend (hmoved.yieldPending hp), hnext.trans hmoved.next,
        (fun hb => by cases hb), fun s hs hle => ?_⟩
      · rw [hstays s]
        by_cases hst : s = t
        · simp [hst, htin]
        · simp [hst]
      · by_cases hst : s = t
        · exact hpend (hmoved.noticed (hst ▸ hle))
        · have hcur : (k.moveTask t).currentPriority = k.currentPriority := by
            unfold Sched.currentPriority
            rw [hmoved.same.current, hmoved.woken.priority]
          refine hnoticed s ((hstays s).2 ⟨hst, hs⟩) ?_
          rwa [hcur, hmoved.woken.priority]

theorem Passed.yieldPending {n : Nat} (h : Passed m k k' n) (p : Bool) :
    Passed m k { k' with xYieldPending := p } n :=
  ⟨h.inv.congr rfl rfl rfl rfl, ⟨h.timed.due, h.timed.next⟩, h.time,
    ⟨h.woken.state, h.woken.event, h.woken.stateElse, h.woken.eventElse, h.woken.value,
      h.woken.known, h.woken.priority⟩, h.deadline,
    ⟨h.rest.current, h.rest.running, h.rest.suspended, h.rest.pended, h.rest.yield⟩⟩

/-- The pended ticks are counted one after the other. -/
theorem unwindTicks_spec (n : Nat) (h : TaskInv m k) (ht : k.Timed)
    (hsus : k.uxSchedulerSuspended = 0) :
    ∃ k', Sched.unwindTicks n k = some k' ∧ Passed m k k' n ∧
      (k.xYieldPending = true → k'.xYieldPending = true) ∧
      ∀ t, k.DueWithin n t → k.currentPriority ≤ k.uxPriority t → k'.xYieldPending = true := by
  induction n generalizing k with
  | zero => exact ⟨k, rfl, .self h ht, id, fun t hdue _ => absurd rfl hdue.1⟩
  | succ n ih =>
    obtain ⟨k₁, b, htick, hpassed, hpend, hnoticed⟩ := countTick_passed h ht
    have hone := hpassed.yieldPending (b || k₁.xYieldPending)
    have hflag :
        (if (b || k₁.xYieldPending) = true then { k₁ with xYieldPending := true } else k₁) =
        { k₁ with xYieldPending := b || k₁.xYieldPending } := by
      cases hf : b || k₁.xYieldPending with
      | true => rfl
      | false =>
        rw [← (Bool.or_eq_false_iff.1 hf).2]
        exact if_neg fun he => by
          rw [(Bool.or_eq_false_iff.1 hf).2] at he
          cases he
    have hstep : Sched.unwindTicks (n + 1) k =
        Sched.unwindTicks n { k₁ with xYieldPending := b || k₁.xYieldPending } := by
      rw [← hflag]
      simp only [Sched.unwindTicks, Sched.xTaskIncrementTick, hsus, if_true, htick, Option.map_some]
      rfl
    obtain ⟨k', hrun, hrest, hkeep, hnoticed'⟩ :=
      ih hone.inv hone.timed (hone.rest.suspended.trans hsus)
    refine ⟨k', hstep.trans hrun, Nat.add_comm 1 n ▸ hone.trans hrest, fun hp => hkeep ?_,
      fun t hdue hprio => ?_⟩
    · change (b || k₁.xYieldPending) = true
      rw [hpend, hp, Bool.or_true]
    · by_cases hfirst : k.DueWithin 1 t
      · refine hkeep ?_
        change (b || k₁.xYieldPending) = true
        rw [hnoticed t hfirst hprio, Bool.true_or]
      · obtain ⟨-, w, hw, hle⟩ := hdue
        have hlater : ¬ w ≤ k.time + 1 := fun hle => hfirst ⟨Nat.one_ne_zero, w, hw, hle⟩
        have hcur : Sched.currentPriority { k₁ with xYieldPending := b || k₁.xYieldPending } =
            k.currentPriority := by
          unfold Sched.currentPriority
          rw [hone.rest.current, hone.woken.priority]
        refine hnoticed' t ⟨by omega, w, (hone.deadline t hfirst).trans hw, ?_⟩ ?_
        · rw [hone.time]
          omega
        · rwa [hcur, hone.woken.priority]

/-- What the loop over `xPendingReadyList` leaves behind, with `prvResetNextTaskUnblockTime`. -/
structure Ended (m : ListMem (TaskList E) (TaskItem T)) (k k' : Sched T E) : Prop where
  inv : TaskInv m k'
  timed : k'.Timed
  woken : Woken k.Pending k k'
  same : SameVars k k'
  yieldPending : k.xYieldPending = true → k'.xYieldPending = true
  noticed : ∀ t, k.Pending t → k.currentPriority ≤ k.uxPriority t → k'.xYieldPending = true

theorem movePending_ended (h : TaskInv m k) (ht : k.Timed)
    (hwaits : ∀ t, k.Pending t → k.lists.container (.state t) ≠ none) :
    ∃ r, Sched.movePending ((k.lists.items .pendingReady).length + 1) k = some r ∧
      Ended m k (if r.2 then r.1.prvResetNextTaskUnblockTime else r.1) := by
  obtain ⟨k₁, b, hrun, hinv, hwoken, hsame, hpend, hnext, hb, hnoticed⟩ :=
    movePending_spec h hwaits (Nat.lt_succ_self _)
  refine ⟨_, hrun, ?_⟩
  have hold : ∀ s, k₁.lists.container (.state s) = some k₁.pxDelayedTaskList →
      k.lists.container (.state s) = some k.pxDelayedTaskList := fun s hs => by
    have hout : ¬ k.Pending s := fun hp => by
      rw [hwoken.state s hp] at hs
      cases hs
    rwa [hwoken.stateElse s hout, Sched.pxDelayedTaskList, hsame.second] at hs
  have hdue : ∀ s, k₁.lists.container (.state s) = some k₁.pxDelayedTaskList →
      k₁.xTickCount ≤ k₁.lists.value (.state s) ∧ k₁.xTickCount ≠ portMaxDelay := fun s hs => by
    rw [hsame.tick, hwoken.value]
    exact ht.due s (hold s hs)
  cases b with
  | true =>
    exact ⟨hinv.reset, ⟨hdue, fun s hs => reset_next hinv s hs⟩, ⟨hwoken.state, hwoken.event,
      hwoken.stateElse, hwoken.eventElse, hwoken.value, hwoken.known, hwoken.priority⟩,
      ⟨⟨hsame.current, hsame.running, hsame.suspended, hsame.pended, hsame.yield⟩, hsame.second,
        hsame.tick, hsame.overflows⟩, hpend, hnoticed⟩
  | false =>
    refine ⟨hinv, ⟨hdue, fun s hs => ?_⟩, hwoken, hsame, hpend, hnoticed⟩
    rw [if_neg Bool.false_ne_true, hnext, hwoken.value]
    exact ht.next s (hold s hs)

/-- The pended ticks are counted once the pending tasks are ready. -/
theorem Ended.counted {k₁ k₂ : Sched T E} {n : Nat} (h : Ended m k k₁) (hp : Passed m k₁ k₂ n)
    (hsus : k.uxSchedulerSuspended = 0)
    (hyield : k₁.xYieldPending = true → k₂.xYieldPending = true)
    (hnoticed : ∀ t, k₁.DueWithin n t → k₁.currentPriority ≤ k₁.uxPriority t →
      k₂.xYieldPending = true) :
    Counted m k { k₂ with uxPendedTicks := 0 } n := by
  have htime : k₁.time = k.time := by
    rw [Sched.time, Sched.time, h.same.overflows, h.same.tick]
  have hdeadline : ∀ t, ¬ k.Pending t → k₁.deadline t = k.deadline t := fun t ht =>
    deadline_congr (h.woken.stateElse t ht) (by rw [h.woken.value]) h.same.second h.same.overflows
  have hdue : ∀ t, ¬ k.Pending t → (k₁.DueWithin n t ↔ k.DueWithin n t) := fun t ht => by
    unfold Sched.DueWithin
    rw [hdeadline t ht, htime]
  have hwoken : Woken (k.Wakes n) k k₂ := (h.woken.trans hp.woken).congr fun t => by
    unfold Sched.Wakes
    by_cases ht : k.Pending t
    · simp [ht]
    · rw [hdue t ht]
  have hcur : k₁.currentPriority = k.currentPriority := by
    unfold Sched.currentPriority
    rw [h.same.current, h.woken.priority]
  refine ⟨hp.inv.congr rfl rfl rfl rfl, ⟨hp.timed.due, hp.timed.next⟩, hp.time.trans (htime ▸ rfl),
    ⟨hwoken.state, hwoken.event, hwoken.stateElse, hwoken.eventElse, hwoken.value, hwoken.known,
      hwoken.priority⟩, fun t ht => ?_, hp.rest.current.trans h.same.current,
    hp.rest.running.trans h.same.running, hp.rest.suspended.trans (h.same.suspended.trans hsus),
    rfl, fun hy => hp.rest.yield.trans (h.same.yield.trans hy), fun hy => hyield (h.yieldPending hy),
    fun t ht hle => .inr ?_⟩
  · have hnot := not_or.1 ht
    have hkept := hp.deadline t fun hw => hnot.2 ((hdue t hnot.1).1 hw)
    exact hkept.trans (hdeadline t hnot.1)
  · by_cases hpend : k.Pending t
    · exact hyield (h.noticed t hpend hle)
    · refine hnoticed t ((hdue t hpend).2 (ht.resolve_left hpend)) ?_
      rwa [hcur, h.woken.priority]

/-- The last `xTaskResumeAll` makes the pending tasks ready and counts the pended ticks. -/
theorem xTaskResumeAll_spec (h : SchedInv m idle k) (hrun : k.xSchedulerRunning = true)
    (hsus : k.uxSchedulerSuspended ≠ 0) :
    ∃ r, k.xTaskResumeAll = some r ∧ SchedInv m idle r.1 ∧
      if k.uxSchedulerSuspended = 1 then Counted m k r.1 k.uxPendedTicks
      else r.1 = { k with uxSchedulerSuspended := k.uxSchedulerSuspended - 1 } := by
  by_cases hone : k.uxSchedulerSuspended = 1
  · have hinv : TaskInv m { k with uxSchedulerSuspended := 0 } := h.inv.congr rfl rfl rfl rfl
    have htimed : ({ k with uxSchedulerSuspended := 0 } : Sched T E).Timed :=
      ⟨h.timed.due, h.timed.next⟩
    have hwaits : ∀ t, ({ k with uxSchedulerSuspended := 0 } : Sched T E).Pending t →
        k.lists.container (.state t) ≠ none := fun t ht => by
      have hne : k.lists.container (.event t) ≠ none := by
        intro hnone
        exact absurd (hnone.symm.trans ht) (by simp)
      exact (h.waits t hne).ne_none
    obtain ⟨r, hmove, hended⟩ := movePending_ended hinv htimed hwaits
    obtain ⟨k₂, hunwind, hpassed, hkeep, hnoticed⟩ := unwindTicks_spec k.uxPendedTicks hended.inv
      hended.timed hended.same.suspended
    have hc := hended.counted hpassed rfl hkeep hnoticed
    have hc' : Counted m k { k₂ with uxPendedTicks := 0 } k.uxPendedTicks :=
      ⟨hc.inv, hc.timed, hc.time, ⟨hc.woken.state, hc.woken.event, hc.woken.stateElse,
        hc.woken.eventElse, hc.woken.value, hc.woken.known, hc.woken.priority⟩, hc.deadline,
        hc.current, hc.running, hc.suspended, hc.pended, hc.yield, hc.yieldPending, hc.noticed⟩
    have hall : k.xTaskResumeAll = some
        (if k₂.xYieldPending = true then ({ k₂ with uxPendedTicks := 0 }.portYield, true)
        else ({ k₂ with uxPendedTicks := 0 }, false)) := by
      have hpended : (if r.2 = true then r.1.prvResetNextTaskUnblockTime else r.1).uxPendedTicks =
          k.uxPendedTicks := hended.same.pended
      simp only [Sched.xTaskResumeAll, hone, Nat.sub_self, if_true, hmove, Option.bind_eq_bind,
        Option.bind_some, hpended, hunwind]
      split_ifs <;> rfl
    refine ⟨_, hall, ?_⟩
    rw [if_pos hone]
    split_ifs
    · exact ⟨h.counted hc'.portYield hrun, hc'.portYield⟩
    · exact ⟨h.counted hc' hrun, hc'⟩
  · have hstill : k.uxSchedulerSuspended - 1 ≠ 0 := by omega
    refine ⟨({ k with uxSchedulerSuspended := k.uxSchedulerSuspended - 1 }, false), ?_, ?_, ?_⟩
    · simp only [Sched.xTaskResumeAll, hstill, if_false]
      rfl
    · exact ⟨h.inv.congr rfl rfl rfl rfl, ⟨h.timed.due, h.timed.next⟩, h.known, h.waits,
        fun hz => absurd hz hstill, h.idle, h.stopped, h.preempts⟩
    · rw [if_neg hone]

theorem vTaskSuspendAll_spec (h : SchedInv m idle k) : SchedInv m idle k.vTaskSuspendAll :=
  ⟨h.inv.congr rfl rfl rfl rfl, ⟨h.timed.due, h.timed.next⟩, h.known, h.waits,
    fun hz => absurd hz (Nat.succ_ne_zero _), h.idle, h.stopped, h.preempts⟩

end ArduinoT2.Kernel
