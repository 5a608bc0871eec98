import ArduinoT2.Kernel.TaskInv

/-
  The tick of the kernel and the time.

  `time` is the number of ticks counted since the scheduler was started and `deadline` the time at
  which a delayed task is to wake, both unbounded: `xTickCount` is 32 bits wide and starts again
  at 0, when the list of the tasks whose time to wake has overflowed becomes the current one.
  `Passed m k k' n` says that `n` ticks bring `k` to `k'`: exactly the tasks are woken whose
  deadline has come (`DueWithin`). `countTick_passed` has this of one tick.

  Behind a tick no task of a delayed list is due. A jump of the tick wakes none, and may go up to
  the next time to wake: a task whose deadline is then, is woken by the next tick.
-/

namespace ArduinoT2.Kernel

variable {T E : Type} [DecidableEq T] [DecidableEq E]

/-- The number of ticks before `xTickCount` is 0 again. -/
@[irreducible] def tickSpan : Nat := 4294967296

namespace Sched

variable (k : Sched T E)

/-- The ticks counted since the scheduler was started. -/
def time : Nat := k.xNumOfOverflows * tickSpan + k.xTickCount.toNat

/-- The time at which a task in a delayed list is to wake. -/
def deadline (t : T) : Option Nat :=
  match k.lists.container (.state t) with
  | some (.delayed b) =>
    some ((k.xNumOfOverflows + if b = k.second then 0 else 1) * tickSpan +
      (k.lists.value (.state t)).toNat)
  | _ => none

/-- The deadline of the task comes with the next `n` ticks. -/
def DueWithin (n : Nat) (t : T) : Prop := n ≠ 0 ∧ ∃ w, k.deadline t = some w ∧ w ≤ k.time + n

/-- No task of the current list is to wake before now, nor before `xNextTaskUnblockTime`; and the
    list is empty when the next tick makes the count 0. -/
structure Timed : Prop where
  due : ∀ t, k.lists.container (.state t) = some k.pxDelayedTaskList →
    k.xTickCount ≤ k.lists.value (.state t) ∧ k.xTickCount ≠ portMaxDelay
  next : ∀ t, k.lists.container (.state t) = some k.pxDelayedTaskList →
    k.xNextTaskUnblockTime ≤ k.lists.value (.state t)

end Sched

/-- `n` ticks bring `k` to `k'`. -/
structure Passed (m : ListMem (TaskList E) (TaskItem T)) (k k' : Sched T E) (n : Nat) : Prop where
  inv : TaskInv m k'
  timed : k'.Timed
  time : k'.time = k.time + n
  woken : Woken (k.DueWithin n) k k'
  deadline : ∀ t, ¬ k.DueWithin n t → k'.deadline t = k.deadline t
  rest : SameRest k k'

section Deadlines

variable {m : ListMem (TaskList E) (TaskItem T)} {k k' k'' : Sched T E} {t : T}

omit [DecidableEq T] [DecidableEq E] in
theorem deadline_of_delayed {b : Bool} (h : k.lists.container (.state t) = some (.delayed b)) :
    k.deadline t = some ((k.xNumOfOverflows + if b = k.second then 0 else 1) * tickSpan +
      (k.lists.value (.state t)).toNat) := by
  simp only [Sched.deadline, h]

omit [DecidableEq T] [DecidableEq E] in
theorem deadline_of_not_delayed (h : ∀ b, k.lists.container (.state t) ≠ some (.delayed b)) :
    k.deadline t = none := by
  unfold Sched.deadline
  cases hc : k.lists.container (.state t) with
  | none => rfl
  | some l =>
    cases l with
    | delayed b => exact absurd hc (h b)
    | ready | pendingReady | waitingTermination | suspended | event => rfl

omit [DecidableEq T] [DecidableEq E] in
/-- A task with a deadline is in a delayed list. -/
theorem delayed_of_deadline {w : Nat} (h : k.deadline t = some w) :
    ∃ b, k.lists.container (.state t) = some (.delayed b) := by
  by_contra hnot
  rw [deadline_of_not_delayed fun b hb => hnot ⟨b, hb⟩] at h
  cases h

omit [DecidableEq T] [DecidableEq E] in
theorem deadline_congr (hcont : k'.lists.container (.state t) = k.lists.container (.state t))
    (hvalue : k'.lists.value (.state t) = k.lists.value (.state t))
    (hsecond : k'.second = k.second) (hover : k'.xNumOfOverflows = k.xNumOfOverflows) :
    k'.deadline t = k.deadline t := by
  unfold Sched.deadline
  rw [hcont, hvalue, hsecond, hover]

omit [DecidableEq T] [DecidableEq E] in
/-- A task that wakes behind the current tick is not in the way of the next one. -/
theorem due_of_lt (h : k.xTickCount < k.lists.value (.state t)) :
    k.xTickCount ≤ k.lists.value (.state t) ∧ k.xTickCount ≠ portMaxDelay := by
  refine ⟨UInt32.le_of_lt h, fun hmax => ?_⟩
  have hlt := UInt32.lt_iff_toNat_lt.1 h
  have hvalue := (k.lists.value (.state t)).toNat_lt
  rw [hmax] at hlt
  simp only [portMaxDelay, UInt32.reduceToNat] at hlt
  omega

omit [DecidableEq T] [DecidableEq E] in
/-- A delayed task does not wake before now. -/
theorem Sched.Timed.le_deadline (h : k.Timed) {w : Nat} (hw : k.deadline t = some w) :
    k.time ≤ w := by
  obtain ⟨b, hb⟩ := delayed_of_deadline hw
  rw [deadline_of_delayed hb] at hw
  have hw' := Option.some.inj hw
  have htick := k.xTickCount.toNat_lt
  unfold Sched.time
  by_cases hcur : b = k.second
  · have hin : k.lists.container (.state t) = some k.pxDelayedTaskList := by rw [hb, hcur]; rfl
    have hdue := UInt32.le_iff_toNat_le.1 (h.due t hin).1
    simp only [hcur, if_true, Nat.add_zero] at hw'
    omega
  · simp only [hcur, if_false, tickSpan] at hw' ⊢
    omega

theorem Passed.self (hinv : TaskInv m k) (h : k.Timed) : Passed m k k 0 := by
  exact ⟨hinv, h, rfl, .none (fun t ht => ht.1 rfl) rfl rfl, fun t _ => rfl, .self⟩

theorem Passed.trans {i j : Nat} (h : Passed m k k' i) (h' : Passed m k' k'' j) :
    Passed m k k'' (i + j) := by
  have htime : k''.time = k.time + (i + j) := by rw [h'.time, h.time, Nat.add_assoc]
  have hdue : ∀ s, k.DueWithin i s ∨ k'.DueWithin j s ↔ k.DueWithin (i + j) s := by
    intro s
    unfold Sched.DueWithin
    rw [h.time]
    by_cases hs : k.DueWithin i s
    · obtain ⟨hi, w, hw, hle⟩ := hs
      exact iff_of_true (.inl ⟨hi, w, hw, hle⟩) ⟨by omega, w, hw, by omega⟩
    · rw [h.deadline s hs]
      refine ⟨fun hor => ?_, fun hdue => .inr ?_⟩
      · obtain ⟨hj, w, hw, hle⟩ := hor.resolve_left hs
        exact ⟨by omega, w, hw, by omega⟩
      · obtain ⟨hij, w, hw, hle⟩ := hdue
        have hj : j ≠ 0 := fun hz => hs ⟨by omega, w, hw, by omega⟩
        exact ⟨hj, w, hw, by omega⟩
  refine ⟨h'.inv, h'.timed, htime, (h.woken.trans h'.woken).congr hdue, fun s hs => ?_,
    h.rest.trans h'.rest⟩
  have hnot := not_or.1 fun hor => hs ((hdue s).1 hor)
  exact (h'.deadline s hnot.2).trans (h.deadline s hnot.1)

end Deadlines

/-! ## One tick -/

section Tick

variable {m : ListMem (TaskList E) (TaskItem T)} {k : Sched T E}

/-- `prvResetNextTaskUnblockTime` leaves no task to be woken before. -/
theorem reset_next (h : TaskInv m k) :
    ∀ t, k.lists.container (.state t) = some k.pxDelayedTaskList →
      k.prvResetNextTaskUnblockTime.xNextTaskUnblockTime ≤ k.lists.value (.state t) := by
  intro t ht
  unfold Sched.prvResetNextTaskUnblockTime
  cases hhead : k.headOwner k.pxDelayedTaskList with
  | none => exact absurd ht (h.headOwner_none hhead _)
  | some s => exact (h.head_least hhead).2 t ht

theorem TaskInv.reset (h : TaskInv m k) : TaskInv m k.prvResetNextTaskUnblockTime :=
  ⟨h.log, h.lists, h.made, h.home, h.priority, h.topBound, h.top, h.sorted⟩

/-- What the next tick does before it wakes tasks: the time goes on by one, and the deadlines
    stay. -/
structure Advanced (m : ListMem (TaskList E) (TaskItem T)) (k k' : Sched T E) : Prop where
  inv : TaskInv m k'
  lists : k'.lists = k.lists
  time : k'.time = k.time + 1
  deadline : ∀ t, k'.deadline t = k.deadline t
  next : ∀ t, k'.lists.container (.state t) = some k'.pxDelayedTaskList →
    k'.xNextTaskUnblockTime ≤ k'.lists.value (.state t)
  rest : SameRest k k'
  priority : k'.uxPriority = k.uxPriority
  pending : k'.xYieldPending = k.xYieldPending

omit [DecidableEq T] [DecidableEq E] in
/-- Switching the delayed lists keeps the deadline of a task that is not in the current one. -/
theorem switch_deadline {k' : Sched T E} {t : T} (hlists : k'.lists = k.lists)
    (hsecond : k'.second = !k.second) (hover : k'.xNumOfOverflows = k.xNumOfOverflows + 1)
    (hout : k.lists.container (.state t) ≠ some k.pxDelayedTaskList) :
    k'.deadline t = k.deadline t := by
  unfold Sched.deadline
  rw [hlists, hsecond, hover]
  cases hc : k.lists.container (.state t) with
  | none => rfl
  | some l =>
    cases l with
    | delayed b =>
      have hne : b ≠ k.second := fun he => hout (by rw [hc, he]; rfl)
      have hb : b = !k.second := by
        cases b <;> cases hs : k.second <;> simp_all
      simp [hb]
    | ready | pendingReady | waitingTermination | suspended | event => rfl

theorem advanceTick_advanced (h : TaskInv m k) (ht : k.Timed) : Advanced m k k.advanceTick := by
  have hadd := UInt32.toNat_add k.xTickCount 1
  have hlt := k.xTickCount.toNat_lt
  simp only [UInt32.reduceToNat] at hadd
  unfold Sched.advanceTick
  by_cases hwrap : k.xTickCount + 1 = 0
  · -- the lists are switched: the current one is empty
    have hmax : k.xTickCount.toNat + 1 = tickSpan := by
      have hzero := congrArg UInt32.toNat hwrap
      rw [hadd] at hzero
      simp only [UInt32.toNat_zero] at hzero
      unfold tickSpan
      omega
    have hlast : k.xTickCount = portMaxDelay := UInt32.toNat_inj.1 (by
      simp only [portMaxDelay, UInt32.reduceToNat]
      unfold tickSpan at hmax
      omega)
    have hempty : ∀ t, k.lists.container (.state t) ≠ some k.pxDelayedTaskList := fun t hin =>
      (ht.due t hin).2 hlast
    have hinv : TaskInv m { k with
        xTickCount := 0, second := !k.second, xNumOfOverflows := k.xNumOfOverflows + 1 } :=
      ⟨h.log, h.lists, h.made, h.home, h.priority, h.topBound, h.top, h.sorted⟩
    simp only [hwrap, if_true, Sched.taskSwitchDelayedLists]
    refine ⟨hinv.reset, rfl, ?_, fun t => switch_deadline rfl rfl rfl (hempty t),
      fun t hin => reset_next hinv t hin, ⟨rfl, rfl, rfl, rfl, rfl⟩, rfl, rfl⟩
    simp only [Sched.time, Sched.prvResetNextTaskUnblockTime, UInt32.toNat_zero, Nat.add_mul]
    omega
  · have hsucc : (k.xTickCount + 1).toNat = k.xTickCount.toNat + 1 := by
      have hne : (k.xTickCount + 1).toNat ≠ 0 := fun hz => hwrap (UInt32.toNat_inj.1 hz)
      rw [hadd] at hne ⊢
      omega
    simp only [hwrap, if_false]
    refine ⟨⟨h.log, h.lists, h.made, h.home, h.priority, h.topBound, h.top, h.sorted⟩, rfl, ?_,
      fun t => rfl, ht.next, ⟨rfl, rfl, rfl, rfl, rfl⟩, rfl, rfl⟩
    simp only [Sched.time, hsucc]
    omega

/-- What is due behind the tick is what has that time or an earlier one as its deadline. -/
theorem Advanced.due_iff {k' : Sched T E} (h : Advanced m k k')
    (t : T) : k'.Due k'.xTickCount t ↔ k.DueWithin 1 t := by
  have htick := k'.xTickCount.toNat_lt
  unfold Sched.DueWithin
  rw [← h.deadline t, ← h.time]
  constructor
  · intro hdue
    refine ⟨Nat.one_ne_zero, _, deadline_of_delayed hdue.1, ?_⟩
    have hle := UInt32.le_iff_toNat_le.1 hdue.2
    simp only [if_true, Sched.time, Nat.add_zero]
    omega
  · intro hdue
    obtain ⟨-, w, hw, hle⟩ := hdue
    obtain ⟨b, hb⟩ := delayed_of_deadline hw
    rw [deadline_of_delayed hb] at hw
    have hw' := Option.some.inj hw
    unfold Sched.time at hle
    by_cases hcur : b = k'.second
    · refine ⟨by rw [hb, hcur]; rfl, UInt32.le_iff_toNat_le.2 ?_⟩
      simp only [hcur, if_true, Nat.add_zero] at hw'
      omega
    · simp only [hcur, if_false, Nat.add_mul, tickSpan] at hw' hle
      omega

/-- The loop of the tick, or the comparison that spares it, wakes the tasks that are due. -/
theorem wakeDue_spec {k : Sched T E} (h : TaskInv m k)
    (hnext : ∀ t, k.lists.container (.state t) = some k.pxDelayedTaskList →
      k.xNextTaskUnblockTime ≤ k.lists.value (.state t)) :
    ∃ k' b, (if k.xNextTaskUnblockTime ≤ k.xTickCount then
        Sched.unblockTasks k.xTickCount ((k.lists.items k.pxDelayedTaskList).length + 1) k
      else some (k, false)) = some (k', b) ∧ TaskInv m k' ∧
      Woken (k.Due k.xTickCount) k k' ∧ SameVars k k' ∧ k'.xYieldPending = k.xYieldPending ∧
      (∀ t, k'.lists.container (.state t) = some k'.pxDelayedTaskList →
        k'.xNextTaskUnblockTime ≤ k'.lists.value (.state t)) ∧
      (∀ t, k.Due k.xTickCount t → k.currentPriority ≤ k.uxPriority t → b = true) := by
  by_cases hle : k.xNextTaskUnblockTime ≤ k.xTickCount
  · rw [if_pos hle]
    exact unblockTasks_spec k.xTickCount h (Nat.lt_succ_self _)
  · have hnone : ∀ t, ¬ k.Due k.xTickCount t := fun t ht =>
      hle (UInt32.le_trans (hnext t ht.1) ht.2)
    rw [if_neg hle]
    exact ⟨k, false, rfl, h, .none hnone rfl rfl, .self, rfl, hnext,
      fun t ht => absurd ht (hnone t)⟩

/-- One tick passes, and wakes the tasks whose deadline has come; it asks for a switch when one of
    them has at least the priority of the current task. -/
theorem countTick_passed (h : TaskInv m k) (ht : k.Timed) :
    ∃ k' b, k.countTick = some (k', b) ∧ Passed m k k' 1 ∧ k'.xYieldPending = k.xYieldPending ∧
      (∀ t, k.DueWithin 1 t → k.currentPriority ≤ k.uxPriority t → b = true) := by
  have hadv := advanceTick_advanced h ht
  obtain ⟨k', b, hrun, hinv, hwoken, hsame, hpend, hnext, hyield⟩ :=
    wakeDue_spec hadv.inv hadv.next
  have hkept : ∀ t, ¬ k.advanceTick.Due k.advanceTick.xTickCount t →
      k'.deadline t = k.advanceTick.deadline t := fun t hnot =>
    deadline_congr (hwoken.stateElse t hnot) (by rw [hwoken.value]) hsame.second hsame.overflows
  refine ⟨k', _, by simp only [Sched.countTick, hrun]; rfl,
    ⟨hinv, ⟨fun t hin => due_of_lt ?_, hnext⟩, ?_, ?_, fun t hnot => ?_,
      hadv.rest.trans hsame.toSameRest⟩, hpend.trans hadv.pending, fun t hdue hle => ?_⟩
  · have hnot : ¬ k.advanceTick.Due k.advanceTick.xTickCount t := fun hdue => by
      rw [hwoken.state t hdue] at hin
      cases hin
    rw [hwoken.stateElse t hnot, Sched.pxDelayedTaskList, hsame.second] at hin
    rw [hsame.tick, hwoken.value]
    exact UInt32.not_le.1 fun hle => hnot ⟨hin, hle⟩
  · rw [← hadv.time]
    simp only [Sched.time, hsame.overflows, hsame.tick]
  · have hfrom : Woken (k.advanceTick.Due k.advanceTick.xTickCount) k k' := by
      refine ⟨fun t hp => ?_, hwoken.event, fun t hp => ?_, fun t hp => ?_, ?_, ?_, ?_⟩
      · rw [hwoken.state t hp, hadv.priority]
      · rw [hwoken.stateElse t hp, hadv.lists]
      · rw [hwoken.eventElse t hp, hadv.lists]
      · rw [hwoken.value, hadv.lists]
      · rw [hwoken.known, hadv.lists]
      · rw [hwoken.priority, hadv.priority]
    exact hfrom.congr hadv.due_iff
  · exact (hkept t fun hdue => hnot ((hadv.due_iff t).1 hdue)).trans (hadv.deadline t)
  · have hcur : k.advanceTick.currentPriority = k.currentPriority := by
      unfold Sched.currentPriority
      rw [hadv.rest.current, hadv.priority]
    have hb := hyield t ((hadv.due_iff t).2 hdue) (by rwa [hcur, hadv.priority])
    rw [hb]
    rfl

end Tick

end ArduinoT2.Kernel
