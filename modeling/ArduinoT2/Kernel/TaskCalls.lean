import ArduinoT2.Kernel.TaskTicks

/-
  What the calls of tasks.c keep.

  `SchedInv m idle k` is the invariant of the scheduler behind a call: besides the lists, no task is
  overdue, a task that waits for an event is not ready, nothing is pending unless the scheduler is
  suspended, the idle task is ready, and a ready task of a higher priority than the current one
  never goes unnoticed (`preempt`). A call that changes one task alone keeps it when that task
  does (`SchedInv.touch`).
-/

namespace ArduinoT2.Kernel

variable {T E : Type} [DecidableEq T] [DecidableEq E]

namespace Sched

variable (k : Sched T E)

/-- The task is in a delayed list or in the list of the suspended tasks. -/
def Stopped (t : T) : Prop :=
  (∃ b, k.lists.container (.state t) = some (.delayed b)) ∨
    k.lists.container (.state t) = some .suspended

/-- The task is in the list of the ready tasks of its priority. -/
def Ready (t : T) : Prop := k.lists.container (.state t) = some (.ready (k.uxPriority t))

/-- The current task has the highest priority of the ready tasks, or a switch is to come. -/
def Preempts : Prop :=
  (∀ t, k.Ready t → k.uxPriority t ≤ k.currentPriority) ∨ k.yield = true ∨ k.xYieldPending = true

end Sched

structure SchedInv (m : ListMem (TaskList E) (TaskItem T)) (idle : T) (k : Sched T E) : Prop where
  inv : TaskInv m k
  timed : k.Timed
  known : ∀ t, k.lists.known (.state t) = k.lists.known (.event t)
  waits : ∀ t, k.lists.container (.event t) ≠ none → k.Stopped t
  pending : k.uxSchedulerSuspended = 0 →
    k.uxPendedTicks = 0 ∧ ∀ t, k.lists.container (.event t) ≠ some .pendingReady
  idle : k.xSchedulerRunning = true → k.lists.container (.state idle) = some (.ready 0)
  stopped : k.xSchedulerRunning = false →
    k.xTickCount = 0 ∧ ∀ t b, k.lists.container (.state t) ≠ some (.delayed b)
  preempts : k.Preempts

/-- Nothing but the items of task `t`, and what a switch may be asked for by, has changed. -/
structure Touches (t : T) (k k' : Sched T E) : Prop where
  state : ∀ s, s ≠ t → k'.lists.container (.state s) = k.lists.container (.state s)
  event : ∀ s, s ≠ t → k'.lists.container (.event s) = k.lists.container (.event s)
  value : ∀ s, s ≠ t → k'.lists.value (.state s) = k.lists.value (.state s)
  known : k'.lists.known = k.lists.known
  priority : k'.uxPriority = k.uxPriority
  second : k'.second = k.second
  current : k'.pxCurrentTCB = k.pxCurrentTCB
  running : k'.xSchedulerRunning = k.xSchedulerRunning
  suspended : k'.uxSchedulerSuspended = k.uxSchedulerSuspended
  tick : k'.xTickCount = k.xTickCount
  overflows : k'.xNumOfOverflows = k.xNumOfOverflows
  pended : k'.uxPendedTicks = k.uxPendedTicks
  yield : k.yield = true → k'.yield = true
  yieldPending : k.xYieldPending = true → k'.xYieldPending = true

section Touch

variable {m : ListMem (TaskList E) (TaskItem T)} {idle t : T} {k k' k'' : Sched T E}

omit [DecidableEq T] [DecidableEq E] in
theorem Touches.self : Touches t k k :=
  ⟨fun _ _ => rfl, fun _ _ => rfl, fun _ _ => rfl, rfl, rfl, rfl, rfl, rfl, rfl, rfl, rfl, rfl, id,
    id⟩

omit [DecidableEq T] [DecidableEq E] in
theorem Touches.trans (h : Touches t k k') (h' : Touches t k' k'') : Touches t k k'' :=
  ⟨fun s hs => (h'.state s hs).trans (h.state s hs),
    fun s hs => (h'.event s hs).trans (h.event s hs),
    fun s hs => (h'.value s hs).trans (h.value s hs), h'.known.trans h.known,
    h'.priority.trans h.priority, h'.second.trans h.second, h'.current.trans h.current,
    h'.running.trans h.running, h'.suspended.trans h.suspended, h'.tick.trans h.tick,
    h'.overflows.trans h.overflows, h'.pended.trans h.pended, fun hy => h'.yield (h.yield hy),
    fun hy => h'.yieldPending (h.yieldPending hy)⟩

omit [DecidableEq T] [DecidableEq E] in
theorem Touches.time (h : Touches t k k') : k'.time = k.time := by
  simp only [Sched.time, h.overflows, h.tick]

omit [DecidableEq T] [DecidableEq E] in
theorem Touches.deadline (h : Touches t k k') {s : T} (hs : s ≠ t) :
    k'.deadline s = k.deadline s :=
  deadline_congr (h.state s hs) (h.value s hs) h.second h.overflows

omit [DecidableEq T] [DecidableEq E] in
theorem Touches.currentPriority (h : Touches t k k') :
    k'.currentPriority = k.currentPriority := by
  unfold Sched.currentPriority
  rw [h.current, h.priority]

omit [DecidableEq T] [DecidableEq E] in
theorem Touches.timed (hk : Touches t k k') (h : k.Timed)
    (hdue : k'.lists.container (.state t) = some k'.pxDelayedTaskList →
      k'.xTickCount ≤ k'.lists.value (.state t) ∧ k'.xTickCount ≠ portMaxDelay)
    (hnext : ∀ s, k'.lists.container (.state s) = some k'.pxDelayedTaskList →
      k'.xNextTaskUnblockTime ≤ k'.lists.value (.state s)) : k'.Timed := by
  refine ⟨fun s hs => ?_, hnext⟩
  by_cases hst : s = t
  · exact hst ▸ hdue (hst ▸ hs)
  · rw [hk.state s hst, Sched.pxDelayedTaskList, hk.second] at hs
    rw [hk.tick, hk.value s hst]
    exact h.due s hs

/-- A call that changes task `t` alone keeps the invariant when it does of `t`. -/
theorem SchedInv.touch (h : SchedInv m idle k) (hk : Touches t k k') (hinv : TaskInv m k')
    (hdue : k'.lists.container (.state t) = some k'.pxDelayedTaskList →
      k'.xTickCount ≤ k'.lists.value (.state t) ∧ k'.xTickCount ≠ portMaxDelay)
    (hnext : ∀ s, k'.lists.container (.state s) = some k'.pxDelayedTaskList →
      k'.xNextTaskUnblockTime ≤ k'.lists.value (.state s))
    (hwaits : k'.lists.container (.event t) ≠ none → k'.Stopped t)
    (hpending : k'.uxSchedulerSuspended = 0 → k'.lists.container (.event t) ≠ some .pendingReady)
    (hidle : k.xSchedulerRunning = true → idle ≠ t)
    (hstopped : k.xSchedulerRunning = false →
      ∀ b, k'.lists.container (.state t) ≠ some (.delayed b))
    (hready : k'.Ready t → k'.uxPriority t ≤ k'.currentPriority ∨ k'.yield = true ∨
      k'.xYieldPending = true) : SchedInv m idle k' := by
  refine ⟨hinv, hk.timed h.timed hdue hnext, fun s => ?_, fun s hs => ?_, fun hsus => ?_,
    fun hrun => ?_, fun hrun => ?_, ?_⟩
  · rw [hk.known]
    exact h.known s
  · by_cases hst : s = t
    · exact hst ▸ hwaits (hst ▸ hs)
    · rw [hk.event s hst] at hs
      unfold Sched.Stopped
      rw [hk.state s hst]
      exact h.waits s hs
  · obtain ⟨hpended, hnone⟩ := h.pending (hk.suspended ▸ hsus)
    refine ⟨hk.pended.trans hpended, fun s => ?_⟩
    by_cases hst : s = t
    · exact hst ▸ hpending hsus
    · rw [hk.event s hst]
      exact hnone s
  · have hrun' := hk.running ▸ hrun
    rw [hk.state idle (hidle hrun')]
    exact h.idle hrun'
  · have hrun' := hk.running ▸ hrun
    obtain ⟨htick, hnone⟩ := h.stopped hrun'
    refine ⟨hk.tick.trans htick, fun s => ?_⟩
    by_cases hst : s = t
    · exact hst ▸ hstopped hrun'
    · rw [hk.state s hst]
      exact hnone s
  · obtain hall | hyield | hpend := h.preempts
    · by_cases hrt : k'.Ready t
      · obtain hle | hsome := hready hrt
        · refine .inl fun s hs => ?_
          by_cases hst : s = t
          · rw [hst]
            exact hle
          · unfold Sched.Ready at hs
            rw [hk.state s hst, hk.priority] at hs
            rw [hk.priority, hk.currentPriority]
            exact hall s hs
        · exact .inr hsome
      · refine .inl fun s hs => ?_
        have hst : s ≠ t := fun he => hrt (he ▸ hs)
        unfold Sched.Ready at hs
        rw [hk.state s hst, hk.priority] at hs
        rw [hk.priority, hk.currentPriority]
        exact hall s hs
    · exact .inr (.inl (hk.yield hyield))
    · exact .inr (.inr (hk.yieldPending hpend))

/-! ## List calls of one task -/

/-- The call moves item `x` or sets its value. -/
def ListCall.Moves {L I : Type} (x : I) : ListCall L I → Prop
  | .remove y | .insertEnd _ y | .insert _ y | .setValue y _ => y = x
  | _ => False

theorem touches_list {c : ListCall (TaskList E) (TaskItem T)} {x : TaskItem T} (hc : c.Moves x)
    (hx : x.owner = t) : Touches t k (k.list c) := by
  have hstate : ∀ s, s ≠ t → TaskItem.state s ≠ x := fun s hs he => hs (by rw [← hx, ← he]; rfl)
  have hevent : ∀ s, s ≠ t → TaskItem.event s ≠ x := fun s hs he => hs (by rw [← hx, ← he]; rfl)
  have hcont : ∀ y, y ≠ x → (k.lists.call c).1.container y = k.lists.container y ∧
      (k.lists.call c).1.value y = k.lists.value y := by
    intro y hy
    cases c with
    | remove z | insertEnd l z | insert l z | setValue z v =>
      obtain rfl : z = x := hc
      simp [hy]
    | initialise | initialiseItem | nextEntry | headEntry | headValue | length | contains =>
      cases hc
  have hknown : (k.lists.call c).1.known = k.lists.known := by
    cases c with
    | remove z => exact known_remove _ _
    | insertEnd | insert | setValue => rfl
    | initialise | initialiseItem | nextEntry | headEntry | headValue | length | contains =>
      cases hc
  exact ⟨fun s hs => (hcont _ (hstate s hs)).1, fun s hs => (hcont _ (hevent s hs)).1,
    fun s hs => (hcont _ (hstate s hs)).2, hknown, rfl, rfl, rfl, rfl, rfl, rfl, rfl, rfl, id, id⟩

theorem touches_addReady (t : T) : Touches t k (k.prvAddTaskToReadyList t) := by
  rw [prvAddTaskToReadyList_eq]
  have hput : Touches t k (k.list (.insertEnd (.ready (k.uxPriority t)) (.state t))) :=
    touches_list (x := .state t) rfl rfl
  exact ⟨hput.state, hput.event, hput.value, hput.known, rfl, rfl, rfl, rfl, rfl, rfl, rfl, rfl, id,
    id⟩

theorem touches_leaveEventList (t : T) : Touches t k (k.leaveEventList t) := by
  unfold Sched.leaveEventList
  split_ifs with ht
  · exact touches_list (x := .event t) rfl rfl
  · exact .self

/-- The state item of a task that is made ready. -/
theorem addReady_container (t : T) :
    (k.prvAddTaskToReadyList t).lists.container =
      Function.update k.lists.container (.state t) (some (.ready (k.uxPriority t))) := by
  rw [prvAddTaskToReadyList_eq]
  rfl

theorem addReady_next (t : T) :
    (k.prvAddTaskToReadyList t).xNextTaskUnblockTime = k.xNextTaskUnblockTime := by
  rw [prvAddTaskToReadyList_eq]
  rfl

omit [DecidableEq T] [DecidableEq E] in
/-- A task whose state item has left the delayed lists leaves the others to wake as before. -/
theorem next_of_touch (h : k.Timed) (hk : Touches t k k')
    (hnext : k'.xNextTaskUnblockTime = k.xNextTaskUnblockTime)
    (hout : ∀ b, k'.lists.container (.state t) ≠ some (.delayed b)) :
    ∀ s, k'.lists.container (.state s) = some k'.pxDelayedTaskList →
      k'.xNextTaskUnblockTime ≤ k'.lists.value (.state s) := by
  intro s hs
  have hst : s ≠ t := fun he => hout k'.second (he ▸ hs)
  rw [hk.state s hst, Sched.pxDelayedTaskList, hk.second] at hs
  rw [hnext, hk.value s hst]
  exact h.next s hs

end Touch

/-! ## Blocking -/

section Blocking

variable {m : ListMem (TaskList E) (TaskItem T)} {k : Sched T E} {t : T}

/-- What `prvAddCurrentTaskToDelayedList` does to the task. -/
structure Delayed (m : ListMem (TaskList E) (TaskItem T)) (t : T) (n : UInt32) (forever : Bool)
    (k k' : Sched T E) : Prop where
  inv : TaskInv m k'
  touches : Touches t k k'
  event : k'.lists.container (.event t) = k.lists.container (.event t)
  stopped : k'.Stopped t
  timed : k'.Timed
  deadline : k'.deadline t =
    if n = portMaxDelay ∧ forever = true then none else some (k.time + n.toNat)

omit [DecidableEq T] [DecidableEq E] in
/-- The time to wake, when it overflows and when it does not. -/
theorem wake_toNat (tick n : UInt32) :
    (tick + n < tick → (tick + n).toNat + tickSpan = tick.toNat + n.toNat) ∧
      (¬ tick + n < tick → (tick + n).toNat = tick.toNat + n.toNat) := by
  have hadd := UInt32.toNat_add tick n
  have htick := tick.toNat_lt
  have hn := n.toNat_lt
  rw [UInt32.lt_iff_toNat_lt]
  unfold tickSpan
  omega

/-- The state item of the task is put into a delayed list. -/
theorem delay_insert (h : TaskInv m k) (hin : k.lists.container (.state t) ≠ none)
    (wake : UInt32) (b : Bool) :
    let k' := ((k.list (.remove (.state t))).list (.setValue (.state t) wake)).list
      (.insert (.delayed b) (.state t))
    TaskInv m k' ∧ Touches t k k' ∧
      k'.lists.container = Function.update k.lists.container (.state t) (some (.delayed b)) ∧
      k'.lists.value (.state t) = wake := by
  have hk := h.known_of_mem hin
  have hout : (k.list (.remove (.state t))).lists.container (.state t) = none := by
    simp [Sched.list]
  have hrem : TaskInv m (k.list (.remove (.state t))) := h.list hin trivial
  have hset : TaskInv m ((k.list (.remove (.state t))).list (.setValue (.state t) wake)) :=
    hrem.list trivial fun b hb => by
      rw [hout] at hb
      cases hb
  refine ⟨hset.list ⟨hset.made (.delayed b) trivial, ?_, hout⟩ ⟨trivial, fun p hp => by cases hp⟩,
    ?_, ?_, ?_⟩
  · simpa [Sched.list] using hk
  · have hfirst : Touches t k (k.list (.remove (.state t))) :=
      touches_list (x := .state t) rfl rfl
    have hsecond : Touches t (k.list (.remove (.state t)))
        ((k.list (.remove (.state t))).list (.setValue (.state t) wake)) :=
      touches_list (x := .state t) rfl rfl
    exact hfirst.trans (hsecond.trans (touches_list (x := .state t) rfl rfl))
  · simp [Sched.list]
  · simp [Sched.list]

/-- The state item of the task is put into the list of the suspended tasks. -/
theorem suspend_insert (h : TaskInv m k) (hin : k.lists.container (.state t) ≠ none) :
    let k' := (k.list (.remove (.state t))).list (.insertEnd .suspended (.state t))
    TaskInv m k' ∧ Touches t k k' ∧
      k'.lists.container = Function.update k.lists.container (.state t) (some .suspended) := by
  have hk := h.known_of_mem hin
  have hout : (k.list (.remove (.state t))).lists.container (.state t) = none := by
    simp [Sched.list]
  have hrem : TaskInv m (k.list (.remove (.state t))) := h.list hin trivial
  refine ⟨hrem.list ⟨hrem.made .suspended trivial, ?_, hout⟩
    ⟨trivial, (fun b hb => by cases hb), fun p hp => by cases hp⟩, ?_, ?_⟩
  · simpa [Sched.list] using hk
  · have hfirst : Touches t k (k.list (.remove (.state t))) :=
      touches_list (x := .state t) rfl rfl
    exact hfirst.trans (touches_list (x := .state t) rfl rfl)
  · simp [Sched.list]

section Places

variable {k' : Sched T E} {n : UInt32} {forever : Bool}

theorem delayed_forever (ht : k.Timed) (hinv : TaskInv m k') (htouch : Touches t k k')
    (hcont : k'.lists.container = Function.update k.lists.container (.state t) (some .suspended))
    (hnext : k'.xNextTaskUnblockTime = k.xNextTaskUnblockTime)
    (hforever : n = portMaxDelay ∧ forever = true) : Delayed m t n forever k k' := by
  have hstate : k'.lists.container (.state t) = some .suspended := by simp [hcont]
  have hout : ∀ b, k'.lists.container (.state t) ≠ some (.delayed b) := fun b hb => by
    rw [hstate] at hb
    cases hb
  refine ⟨hinv, htouch, by simp [hcont], .inr hstate, htouch.timed ht (fun hb => ?_) ?_, ?_⟩
  · exact absurd hb (hout _)
  · exact next_of_touch ht htouch hnext hout
  · rw [if_pos hforever]
    exact deadline_of_not_delayed hout

theorem delayed_overflow (ht : k.Timed) (hinv : TaskInv m k') (htouch : Touches t k k')
    (hcont : k'.lists.container =
      Function.update k.lists.container (.state t) (some (.delayed (!k.second))))
    (hvalue : k'.lists.value (.state t) = k.xTickCount + n)
    (hnext : k'.xNextTaskUnblockTime = k.xNextTaskUnblockTime)
    (hforever : ¬ (n = portMaxDelay ∧ forever = true)) (hwrap : k.xTickCount + n < k.xTickCount) :
    Delayed m t n forever k k' := by
  have hstate : k'.lists.container (.state t) = some (.delayed (!k.second)) := by simp [hcont]
  have hcur : k'.lists.container (.state t) ≠ some k'.pxDelayedTaskList := fun hb => by
    rw [hstate, Sched.pxDelayedTaskList, htouch.second] at hb
    simp at hb
  refine ⟨hinv, htouch, by simp [hcont], .inl ⟨_, hstate⟩,
    htouch.timed ht (fun hb => absurd hb hcur) fun s hs => ?_, ?_⟩
  · have hst : s ≠ t := fun he => hcur (he ▸ hs)
    rw [htouch.state s hst, Sched.pxDelayedTaskList, htouch.second] at hs
    rw [hnext, htouch.value s hst]
    exact ht.next s hs
  · have hover := (wake_toNat k.xTickCount n).1 hwrap
    have hne : (!k.second) ≠ k.second := by simp
    rw [if_neg hforever, deadline_of_delayed hstate, htouch.second, if_neg hne, htouch.overflows,
      hvalue]
    simp only [Sched.time, Nat.add_mul]
    congr 1
    omega

theorem delayed_current (ht : k.Timed) (hn : n ≠ 0) (hinv : TaskInv m k') (htouch : Touches t k k')
    (hcont : k'.lists.container =
      Function.update k.lists.container (.state t) (some (.delayed k.second)))
    (hvalue : k'.lists.value (.state t) = k.xTickCount + n)
    (hnext : k'.xNextTaskUnblockTime ≤ k.xNextTaskUnblockTime ∧
      k'.xNextTaskUnblockTime ≤ k.xTickCount + n)
    (hforever : ¬ (n = portMaxDelay ∧ forever = true))
    (hwrap : ¬ k.xTickCount + n < k.xTickCount) : Delayed m t n forever k k' := by
  have hstate : k'.lists.container (.state t) = some (.delayed k.second) := by simp [hcont]
  have hwake := (wake_toNat k.xTickCount n).2 hwrap
  refine ⟨hinv, htouch, by simp [hcont], .inl ⟨_, hstate⟩,
    htouch.timed ht (fun _ => due_of_lt ?_) fun s hs => ?_, ?_⟩
  · have hpos : n.toNat ≠ 0 := fun hz => hn (UInt32.toNat_inj.1 hz)
    rw [hvalue, htouch.tick, UInt32.lt_iff_toNat_lt]
    omega
  · by_cases hst : s = t
    · rw [hst, hvalue]
      exact hnext.2
    · rw [htouch.state s hst, Sched.pxDelayedTaskList, htouch.second] at hs
      rw [htouch.value s hst]
      exact UInt32.le_trans hnext.1 (ht.next s hs)
  · rw [if_neg hforever, deadline_of_delayed hstate, htouch.second, if_pos rfl, htouch.overflows,
      hvalue, Nat.add_zero]
    simp only [Sched.time]
    congr 1
    omega

end Places

theorem prvAddCurrentTaskToDelayedList_delayed (h : TaskInv m k) (ht : k.Timed) {n : UInt32}
    (hn : n ≠ 0) {p : Nat} (hready : k.lists.container (.state t) = some (.ready p))
    (forever : Bool) :
    Delayed m t n forever k (k.prvAddCurrentTaskToDelayedList t n forever) := by
  have hin : k.lists.container (.state t) ≠ none := by simp [hready]
  have hcleared : TaskInv m { k with
      ucDelayAborted := Function.update k.ucDelayAborted t false } :=
    ⟨h.log, h.lists, h.made, h.home, h.priority, h.topBound, h.top, h.sorted⟩
  have hclear : Touches t k { k with
      ucDelayAborted := Function.update k.ucDelayAborted t false } :=
    ⟨fun _ _ => rfl, fun _ _ => rfl, fun _ _ => rfl, rfl, rfl, rfl, rfl, rfl, rfl, rfl, rfl, rfl,
      id, id⟩
  by_cases hforever : n = portMaxDelay ∧ forever = true
  · obtain ⟨hinv, htouch, hcont⟩ := suspend_insert hcleared hin
    rw [Sched.prvAddCurrentTaskToDelayedList, if_pos hforever]
    exact delayed_forever ht hinv (hclear.trans htouch) hcont rfl hforever
  · rw [Sched.prvAddCurrentTaskToDelayedList, if_neg hforever]
    by_cases hwrap : k.xTickCount + n < k.xTickCount
    · obtain ⟨hinv, htouch, hcont, hvalue⟩ :=
        delay_insert hcleared hin (k.xTickCount + n) (!k.second)
      have hdel := delayed_overflow ht hinv (hclear.trans htouch) hcont hvalue rfl hforever hwrap
      exact (if_pos hwrap).symm ▸ hdel
    · obtain ⟨hinv, htouch, hcont, hvalue⟩ :=
        delay_insert hcleared hin (k.xTickCount + n) k.second
      refine (if_neg hwrap).symm ▸ ?_
      by_cases hlt : k.xTickCount + n < k.xNextTaskUnblockTime
      · refine (if_pos hlt).symm ▸ delayed_current ht hn ?_ (hclear.trans ?_) hcont hvalue
          ⟨UInt32.le_of_lt hlt, UInt32.le_refl _⟩ hforever hwrap
        · exact ⟨hinv.log, hinv.lists, hinv.made, hinv.home, hinv.priority, hinv.topBound, hinv.top,
            hinv.sorted⟩
        · exact ⟨htouch.state, htouch.event, htouch.value, htouch.known, rfl, rfl, rfl, rfl, rfl,
            rfl, rfl, rfl, id, id⟩
      · exact (if_neg hlt).symm ▸ delayed_current ht hn hinv (hclear.trans htouch) hcont hvalue
          ⟨UInt32.le_refl _, UInt32.not_lt.1 hlt⟩ hforever hwrap

end Blocking

/-! ## The calls that block -/

section Calls

variable {m : ListMem (TaskList E) (TaskItem T)} {idle t : T} {k k₁ k' : Sched T E}

/-- The task blocks, once its event item may have been put into a list. -/
theorem SchedInv.block (h : SchedInv m idle k) (hrun : k.xSchedulerRunning = true)
    (hidle : idle ≠ t) (htouch : Touches t k k₁)
    (hevent : k₁.lists.container (.event t) ≠ some .pendingReady)
    {n : UInt32} {forever : Bool} (hd : Delayed m t n forever k₁ k') : SchedInv m idle k' := by
  refine h.touch (htouch.trans hd.touches) hd.inv (hd.timed.due t) hd.timed.next
    (fun _ => hd.stopped) (fun _ => hd.event ▸ hevent) (fun _ => hidle) (fun hnot => ?_)
    fun hready => ?_
  · rw [hrun] at hnot
    cases hnot
  · unfold Sched.Ready at hready
    obtain ⟨b, hb⟩ | hb := hd.stopped
    · rw [hb] at hready
      cases hready
    · rw [hb] at hready
      cases hready

omit [DecidableEq T] [DecidableEq E] in
/-- A ready task waits for no event. -/
theorem SchedInv.event_of_ready [DecidableEq T] [DecidableEq E] (h : SchedInv m idle k)
    (hready : k.Ready t) : k.lists.container (.event t) = none := by
  by_contra hne
  unfold Sched.Ready at hready
  obtain ⟨b, hb⟩ | hb := h.waits t hne
  · rw [hb] at hready
    cases hready
  · rw [hb] at hready
    cases hready

theorem SchedInv.known_event (h : SchedInv m idle k)
    (hin : k.lists.container (.state t) ≠ none) : k.lists.known (.event t) = true := by
  rw [← h.known t]
  exact h.inv.known_of_mem hin

theorem delay_inv (h : SchedInv m idle k) (hrun : k.xSchedulerRunning = true) (hidle : idle ≠ t)
    (hready : k.Ready t) {n : UInt32} (hn : n ≠ 0) (forever : Bool) :
    SchedInv m idle (k.prvAddCurrentTaskToDelayedList t n forever) := by
  refine h.block hrun hidle .self ?_
    (prvAddCurrentTaskToDelayedList_delayed h.inv h.timed hn hready forever)
  rw [h.event_of_ready hready]
  exact fun hc => by cases hc

/-- The event item of the current task is put into an event list by one of the two insertions. -/
theorem placed_delayed (h : SchedInv m idle k) (hready : k.Ready t)
    {c : ListCall (TaskList E) (TaskItem T)} {e : E}
    (hc : c = .insert (.event e) (.event t) ∨ c = .insertEnd (.event e) (.event t))
    (hmade : k.lists.made (.event e) = true) {n : UInt32} (hn : n ≠ 0) (forever : Bool) :
    Touches t k (k.list c) ∧ (k.list c).lists.container (.event t) = some (.event e) ∧
      Delayed m t n forever (k.list c) ((k.list c).prvAddCurrentTaskToDelayedList t n forever) := by
  have hready' : k.lists.container (.state t) = some (.ready (k.uxPriority t)) := hready
  have hin : k.lists.container (.state t) ≠ none := by simp [hready']
  have hout := h.event_of_ready hready
  have hknown := h.known_event hin
  have htouch : Touches t k (k.list c) := by
    obtain rfl | rfl := hc
    · exact touches_list (x := .event t) rfl rfl
    · exact touches_list (x := .event t) rfl rfl
  have hcont : (k.list c).lists.container =
      Function.update k.lists.container (.event t) (some (.event e)) := by
    obtain rfl | rfl := hc
    · rfl
    · rfl
  have hinv : TaskInv m (k.list c) := by
    obtain rfl | rfl := hc
    · exact h.inv.list ⟨hmade, hknown, hout⟩ ⟨trivial, fun p hp => by cases hp⟩
    · exact h.inv.list ⟨hmade, hknown, hout⟩
        ⟨trivial, (fun b hb => by cases hb), fun p hp => by cases hp⟩
  have hstate : (k.list c).lists.container (.state t) = some (.ready (k.uxPriority t)) := by
    rw [hcont]
    simpa using hready'
  have hnext : (k.list c).xNextTaskUnblockTime = k.xNextTaskUnblockTime := rfl
  have hnot : ∀ b, (k.list c).lists.container (.state t) ≠ some (.delayed b) := fun b hb => by
    rw [hstate] at hb
    cases hb
  have htimed : (k.list c).Timed := htouch.timed h.timed (fun hb => absurd hb (hnot _))
    (next_of_touch h.timed htouch hnext hnot)
  refine ⟨htouch, by simp [hcont], ?_⟩
  exact prvAddCurrentTaskToDelayedList_delayed hinv htimed hn hstate forever

/-! ## The calls that make ready -/

omit [DecidableEq T] [DecidableEq E] in
theorem touches_yieldPending : Touches t k { k with xYieldPending := true } :=
  ⟨fun _ _ => rfl, fun _ _ => rfl, fun _ _ => rfl, rfl, rfl, rfl, rfl, rfl, rfl, rfl, rfl, rfl, id,
    fun _ => rfl⟩

omit [DecidableEq T] [DecidableEq E] in
theorem touches_portYield : Touches t k k.portYield :=
  ⟨fun _ _ => rfl, fun _ _ => rfl, fun _ _ => rfl, rfl, rfl, rfl, rfl, rfl, rfl, rfl, rfl, rfl,
    fun _ => rfl, id⟩

theorem TaskInv.congr (h : TaskInv m k) (hlists : k'.lists = k.lists) (hcalls : k'.calls = k.calls)
    (hprio : k'.uxPriority = k.uxPriority)
    (htop : k'.uxTopReadyPriority = k.uxTopReadyPriority) : TaskInv m k' := by
  refine ⟨?_, ?_, ?_, ?_, ?_, ?_, ?_, ?_⟩
  · rw [hcalls]
    exact h.log
  · rw [hcalls, hlists]
    exact h.lists
  · rw [hlists]
    exact h.made
  · rw [hlists, hprio]
    exact h.home
  · rw [hprio]
    exact h.priority
  · rw [htop]
    exact h.topBound
  · rw [hlists, htop]
    exact h.top
  · rw [hlists]
    exact h.sorted

/-- The task is made ready and is in no event list. -/
structure MadeReady (m : ListMem (TaskList E) (TaskItem T)) (t : T) (k k' : Sched T E) : Prop where
  inv : TaskInv m k'
  touches : Touches t k k'
  ready : k'.Ready t
  event : k'.lists.container (.event t) = none
  next : k'.xNextTaskUnblockTime = k.xNextTaskUnblockTime

/-- A task whose items were taken out is made ready. -/
theorem madeReady_of_out (hinv : TaskInv m k₁) (htouch : Touches t k k₁)
    (hknown : k.lists.known (.state t) = true)
    (hstate : k₁.lists.container (.state t) = none)
    (hevent : k₁.lists.container (.event t) = none)
    (hnext : k₁.xNextTaskUnblockTime = k.xNextTaskUnblockTime) :
    MadeReady m t k (k₁.prvAddTaskToReadyList t) := by
  have htouch' := htouch.trans (touches_addReady (k := k₁) t)
  refine ⟨hinv.addReady hstate (htouch.known ▸ hknown), htouch', ?_, ?_,
    (addReady_next t).trans hnext⟩
  · unfold Sched.Ready
    rw [addReady_container, htouch'.priority, Function.update_self, htouch.priority]
  · rw [addReady_container]
    simpa using hevent

/-- Asking for a switch changes no task. -/
theorem MadeReady.congr (h : MadeReady m t k k₁) (htouch : Touches t k₁ k')
    (hlists : k'.lists = k₁.lists) (hcalls : k'.calls = k₁.calls)
    (htop : k'.uxTopReadyPriority = k₁.uxTopReadyPriority)
    (hnext : k'.xNextTaskUnblockTime = k₁.xNextTaskUnblockTime) : MadeReady m t k k' := by
  refine ⟨h.inv.congr hlists hcalls htouch.priority htop, h.touches.trans htouch, ?_, ?_,
    hnext.trans h.next⟩
  · unfold Sched.Ready
    rw [hlists, htouch.priority]
    exact h.ready
  · rw [hlists]
    exact h.event

omit [DecidableEq T] [DecidableEq E] in
theorem MadeReady.not_delayed [DecidableEq T] [DecidableEq E] (h : MadeReady m t k k') (b : Bool) :
    k'.lists.container (.state t) ≠ some (.delayed b) := fun hb => by
  have hready := h.ready
  unfold Sched.Ready at hready
  rw [hb] at hready
  cases hready

/-- A stopped task that is made ready, with a switch asked for when its priority is higher. -/
theorem SchedInv.madeReady (h : SchedInv m idle k) (hk : MadeReady m t k k')
    (hidle : k.xSchedulerRunning = true → idle ≠ t)
    (hyield : k'.uxPriority t ≤ k'.currentPriority ∨ k'.yield = true ∨ k'.xYieldPending = true) :
    SchedInv m idle k' := by
  refine h.touch hk.touches hk.inv (fun hb => absurd hb (hk.not_delayed _))
    (next_of_touch h.timed hk.touches hk.next hk.not_delayed) (fun hne => absurd hk.event hne)
    (fun _ => ?_) hidle (fun _ => hk.not_delayed) fun _ => hyield
  rw [hk.event]
  exact fun hc => by cases hc

/-- A stopped task is not the idle task. -/
theorem SchedInv.idle_ne (h : SchedInv m idle k) (hs : k.Stopped t) :
    k.xSchedulerRunning = true → idle ≠ t := fun hrun he => by
  have hidle := h.idle hrun
  rw [he] at hidle
  obtain ⟨b, hb⟩ | hb := hs
  · rw [hb] at hidle
    cases hidle
  · rw [hb] at hidle
    cases hidle

omit [DecidableEq T] [DecidableEq E] in
theorem Sched.Stopped.ne_none (h : k.Stopped t) : k.lists.container (.state t) ≠ none := by
  obtain ⟨b, hb⟩ | hb := h
  · simp [hb]
  · simp [hb]

/-- A task whose state item alone is taken out of its list. -/
theorem madeReady_state (h : SchedInv m idle k) (hs : k.Stopped t)
    (hevent : k.lists.container (.event t) = none) :
    MadeReady m t k ((k.list (.remove (.state t))).prvAddTaskToReadyList t) := by
  refine madeReady_of_out (h.inv.list hs.ne_none trivial) (touches_list (x := .state t) rfl rfl)
    (h.inv.known_of_mem hs.ne_none) ?_ ?_ rfl
  · simp [Sched.list]
  · simpa [Sched.list] using hevent

/-- A task whose event item and then its state item are taken out. -/
theorem madeReady_both (h : SchedInv m idle k) (hevent : k.lists.container (.event t) ≠ none) :
    MadeReady m t k
      (((k.list (.remove (.event t))).list (.remove (.state t))).prvAddTaskToReadyList t) := by
  have hs := h.waits t hevent
  have hrem : TaskInv m (k.list (.remove (.event t))) := h.inv.list hevent trivial
  have hin : (k.list (.remove (.event t))).lists.container (.state t) ≠ none := by
    simpa [Sched.list] using hs.ne_none
  have hfirst : Touches t k (k.list (.remove (.event t))) := touches_list (x := .event t) rfl rfl
  refine madeReady_of_out (hrem.list hin trivial)
    (hfirst.trans (touches_list (x := .state t) rfl rfl)) (h.inv.known_of_mem hs.ne_none) ?_ ?_ rfl
  · simp [Sched.list]
  · simp [Sched.list]

/-- The first task of an event list. -/
theorem TaskInv.event_head (h : TaskInv m k) {l : TaskList E}
    (hl : l = .pendingReady ∨ ∃ e, l = .event e) (ht : k.headOwner l = some t) :
    k.lists.container (.event t) = some l := by
  unfold Sched.headOwner at ht
  cases hitems : k.lists.items l with
  | nil => simp [hitems] at ht
  | cons x rest =>
    have hin := (h.mem_iff l x).1 (hitems ▸ List.mem_cons_self)
    have hhome := h.home x l hin
    cases x with
    | event s =>
      have hs : s = t := by simpa [hitems, TaskItem.owner] using ht
      exact hs ▸ hin
    | state s =>
      obtain rfl | ⟨e, rfl⟩ := hl
      · cases hhome
      · cases hhome

end Calls

end ArduinoT2.Kernel
