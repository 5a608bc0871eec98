import ArduinoT2.Kernel.TaskCalls

/-
  The calls of tasks.c that wake, suspend, create and delete tasks keep the invariant.

  Each lemma has besides the invariant what the call does to the task it is about; all other tasks
  stay as they are (`Touches`).
-/

namespace ArduinoT2.Kernel

variable {T E : Type} [DecidableEq T] [DecidableEq E]
variable {m : ListMem (TaskList E) (TaskItem T)} {idle t : T} {k : Sched T E}

/-! ## Events -/

omit [DecidableEq T] [DecidableEq E] in
theorem touches_pendYield (k : Sched T E) (s : T) : Touches t k (k.pendYield s).1 := by
  unfold Sched.pendYield
  split_ifs
  · exact touches_yieldPending
  · exact .self

omit [DecidableEq T] [DecidableEq E] in
theorem pendYield_same (k : Sched T E) (s : T) :
    (k.pendYield s).1.lists = k.lists ∧ (k.pendYield s).1.calls = k.calls ∧
      (k.pendYield s).1.uxTopReadyPriority = k.uxTopReadyPriority ∧
      (k.pendYield s).1.xNextTaskUnblockTime = k.xNextTaskUnblockTime := by
  unfold Sched.pendYield
  split_ifs
  · exact ⟨rfl, rfl, rfl, rfl⟩
  · exact ⟨rfl, rfl, rfl, rfl⟩

omit [DecidableEq T] [DecidableEq E] in
theorem pendYield_noticed (k : Sched T E) (t : T) :
    (k.pendYield t).1.uxPriority t ≤ (k.pendYield t).1.currentPriority ∨
      (k.pendYield t).1.yield = true ∨ (k.pendYield t).1.xYieldPending = true := by
  unfold Sched.pendYield
  split_ifs with hlt
  · exact .inr (.inr rfl)
  · exact .inl (Nat.le_of_not_lt hlt)

/-- A task that is made ready, and `xYieldPending` with it. -/
theorem SchedInv.madeReady_pendYield (h : SchedInv m idle k) {k₁ : Sched T E}
    (hk : MadeReady m t k k₁) (hidle : k.xSchedulerRunning = true → idle ≠ t) :
    SchedInv m idle (k₁.pendYield t).1 ∧ MadeReady m t k (k₁.pendYield t).1 := by
  obtain ⟨hlists, hcalls, htop, hnext⟩ := pendYield_same k₁ t
  have hready := hk.congr (touches_pendYield k₁ t) hlists hcalls htop hnext
  exact ⟨h.madeReady hready hidle (pendYield_noticed k₁ t), hready⟩

/-- What `xTaskRemoveFromEventList` does to the task it wakes. -/
def Signalled (t : T) (k k' : Sched T E) : Prop :=
  Touches t k k' ∧
    if k.uxSchedulerSuspended = 0 then k'.Ready t ∧ k'.lists.container (.event t) = none
    else k'.lists.container (.state t) = k.lists.container (.state t) ∧
      k'.lists.container (.event t) = some .pendingReady ∧
      k'.lists.value (.state t) = k.lists.value (.state t)

omit [DecidableEq T] [DecidableEq E] in
theorem touches_reset : Touches t k k.prvResetNextTaskUnblockTime :=
  ⟨fun _ _ => rfl, fun _ _ => rfl, fun _ _ => rfl, rfl, rfl, rfl, rfl, rfl, rfl, rfl, rfl, rfl, id,
    id⟩

theorem SchedInv.reset (h : SchedInv m idle k) :
    SchedInv m idle k.prvResetNextTaskUnblockTime :=
  ⟨h.inv.reset, ⟨h.timed.due, fun s hs => reset_next h.inv s hs⟩, h.known, h.waits, h.pending,
    h.idle, h.stopped, h.preempts⟩

/-- An event item that goes over to `xPendingReadyList`. -/
theorem SchedInv.toPending (h : SchedInv m idle k) {k₁ : Sched T E} (hinv : TaskInv m k₁)
    (htouch : Touches t k k₁)
    (hstate : k₁.lists.container (.state t) = k.lists.container (.state t))
    (hvalue : k₁.lists.value (.state t) = k.lists.value (.state t))
    (hnext : k₁.xNextTaskUnblockTime = k.xNextTaskUnblockTime) (hs : k.Stopped t)
    (hsus : k.uxSchedulerSuspended ≠ 0) : SchedInv m idle k₁ := by
  have hvalues : ∀ s, k₁.lists.value (.state s) = k.lists.value (.state s) ∧
      k₁.lists.container (.state s) = k.lists.container (.state s) := by
    intro s
    by_cases hst : s = t
    · exact hst ▸ ⟨hvalue, hstate⟩
    · exact ⟨htouch.value s hst, htouch.state s hst⟩
  have hstopped : k₁.Stopped t := by
    unfold Sched.Stopped
    rw [hstate]
    exact hs
  refine h.touch htouch hinv (fun hb => ?_) (fun s hb => ?_) (fun _ => hstopped)
    (fun hzero => absurd (htouch.suspended ▸ hzero) hsus) (h.idle_ne hs) (fun hrun b => ?_)
    fun hready => ?_
  · rw [hstate, Sched.pxDelayedTaskList, htouch.second] at hb
    rw [hvalue, htouch.tick]
    exact h.timed.due t hb
  · rw [(hvalues s).2, Sched.pxDelayedTaskList, htouch.second] at hb
    rw [(hvalues s).1, hnext]
    exact h.timed.next s hb
  · rw [hstate]
    exact (h.stopped hrun).2 t b
  · unfold Sched.Ready at hready
    obtain ⟨b, hb⟩ | hb := hstopped
    · rw [hb] at hready
      cases hready
    · rw [hb] at hready
      cases hready

theorem SchedInv.yieldPending (h : SchedInv m idle k) :
    SchedInv m idle { k with xYieldPending := true } :=
  ⟨h.inv.congr rfl rfl rfl rfl, ⟨h.timed.due, h.timed.next⟩, h.known, h.waits, h.pending, h.idle,
    h.stopped, .inr (.inr rfl)⟩

theorem SchedInv.portYield (h : SchedInv m idle k) : SchedInv m idle k.portYield :=
  ⟨h.inv.congr rfl rfl rfl rfl, ⟨h.timed.due, h.timed.next⟩, h.known, h.waits, h.pending, h.idle,
    h.stopped, .inr (.inl rfl)⟩

theorem SchedInv.pendYield (h : SchedInv m idle k) (s : T) : SchedInv m idle (k.pendYield s).1 := by
  unfold Sched.pendYield
  split_ifs
  · exact h.yieldPending
  · exact h

/-- The event item of a stopped task is put into `xPendingReadyList`. -/
theorem pendingReady_insert (h : TaskInv m k)
    (hk : k.lists.known (.event t) = true) (hout : k.lists.container (.event t) = none) :
    TaskInv m (k.list (.insertEnd .pendingReady (.event t))) :=
  h.list ⟨h.made .pendingReady trivial, hk, hout⟩
    ⟨trivial, (fun b hb => by cases hb), fun p hp => by cases hp⟩

/-- What `xTaskRemoveFromEventList` does with its first task, once that is in its new list. -/
theorem xTaskRemoveFromEventList_eq {e : E} {k₁ : Sched T E}
    (ht : k.headOwner (.event e) = some t)
    (hk : (if k.uxSchedulerSuspended = 0 then
        ((k.list (.remove (.event t))).list (.remove (.state t))).prvAddTaskToReadyList t
      else (k.list (.remove (.event t))).list (.insertEnd .pendingReady (.event t))) = k₁) :
    k.xTaskRemoveFromEventList e =
      some ((k₁.pendYield t).1.prvResetNextTaskUnblockTime, (k₁.pendYield t).2) := by
  rw [← hk, Sched.xTaskRemoveFromEventList, ht]
  rfl

theorem xTaskRemoveFromEventList_spec (h : SchedInv m idle k) {e : E}
    (hne : k.lists.items (.event e) ≠ []) :
    ∃ r t, k.xTaskRemoveFromEventList e = some r ∧ k.headOwner (.event e) = some t ∧
      SchedInv m idle r.1 ∧ Signalled t k r.1 := by
  obtain ⟨t, ht⟩ : ∃ t, k.headOwner (.event e) = some t := by
    obtain ⟨x, xs, hitems⟩ := List.exists_cons_of_ne_nil hne
    exact ⟨x.owner, by simp [Sched.headOwner, hitems]⟩
  have hevent := h.inv.event_head (.inr ⟨e, rfl⟩) ht
  have hin : k.lists.container (.event t) ≠ none := by simp [hevent]
  have hs := h.waits t hin
  by_cases hsus : k.uxSchedulerSuspended = 0
  · obtain ⟨hinv, hready⟩ := h.madeReady_pendYield (madeReady_both h hin) (h.idle_ne hs)
    refine ⟨_, t, xTaskRemoveFromEventList_eq ht (if_pos hsus), ht, hinv.reset,
      hready.touches.trans touches_reset, ?_⟩
    rw [if_pos hsus]
    exact ⟨hready.ready, hready.event⟩
  · have hrem : TaskInv m (k.list (.remove (.event t))) := h.inv.list hin trivial
    have hout : (k.list (.remove (.event t))).lists.container (.event t) = none := by
      simp [Sched.list]
    have hknown : (k.list (.remove (.event t))).lists.known (.event t) = true := by
      simpa [Sched.list] using h.inv.known_of_mem hin
    have hmoved := pendingReady_insert hrem hknown hout
    have hfirst : Touches t k (k.list (.remove (.event t))) := touches_list (x := .event t) rfl rfl
    have htouch : Touches t k
        ((k.list (.remove (.event t))).list (.insertEnd .pendingReady (.event t))) :=
      hfirst.trans (touches_list (x := .event t) rfl rfl)
    have hinv := h.toPending hmoved htouch (by simp [Sched.list]) (by simp [Sched.list]) rfl hs hsus
    obtain ⟨hlists, -, -, -⟩ := pendYield_same
      ((k.list (.remove (.event t))).list (.insertEnd .pendingReady (.event t))) t
    refine ⟨_, t, xTaskRemoveFromEventList_eq ht (if_neg hsus), ht, (hinv.pendYield t).reset,
      (htouch.trans (touches_pendYield _ t)).trans touches_reset, ?_⟩
    rw [if_neg hsus]
    simp only [Sched.prvResetNextTaskUnblockTime, hlists]
    exact ⟨by simp [Sched.list], by simp [Sched.list], by simp [Sched.list]⟩

/-- Setting the value of an event item changes nothing else. -/
theorem SchedInv.setEventValue (h : SchedInv m idle k) (t : T) (v : UInt32) :
    SchedInv m idle (k.list (.setValue (.event t) v)) := by
  have hinv : TaskInv m (k.list (.setValue (.event t) v)) :=
    h.inv.list trivial fun b hb => h.inv.home _ _ hb
  have hvalue : ∀ s, (k.list (.setValue (.event t) v)).lists.value (.state s) =
      k.lists.value (.state s) := fun s => by simp [Sched.list]
  refine ⟨hinv, ⟨fun s hs => ?_, fun s hs => ?_⟩, h.known, h.waits, h.pending, h.idle, h.stopped,
    h.preempts⟩
  · rw [hvalue]
    exact h.timed.due s hs
  · rw [hvalue]
    exact h.timed.next s hs

theorem xTaskRemoveFromUnorderedEventList_spec (h : SchedInv m idle k) {v : UInt32}
    (hin : k.lists.container (.event t) ≠ none) :
    SchedInv m idle (k.xTaskRemoveFromUnorderedEventList t v).1 ∧
      MadeReady m t k (k.xTaskRemoveFromUnorderedEventList t v).1 := by
  have hset := h.setEventValue t (v ||| taskEventListItemValueInUse)
  have hs := hset.waits t hin
  obtain ⟨hinv, hready⟩ := hset.madeReady_pendYield (madeReady_both hset hin) (hset.idle_ne hs)
  have htouch : Touches t k (k.list (.setValue (.event t) (v ||| taskEventListItemValueInUse))) :=
    touches_list (x := .event t) rfl rfl
  exact ⟨hinv, hready.inv, htouch.trans hready.touches, hready.ready, hready.event, hready.next⟩

/-! ## Aborting a delay -/

omit [DecidableEq T] in
theorem stopped_of_blocked [DecidableEq T] (h : k.eTaskGetState t = .eBlocked) : k.Stopped t := by
  unfold Sched.eTaskGetState at h
  by_cases hdel : k.lists.container (.state t) = some k.pxDelayedTaskList ∨
      k.lists.container (.state t) = some k.pxOverflowDelayedTaskList
  · exact .inl (hdel.elim (fun hb => ⟨_, hb⟩) fun hb => ⟨_, hb⟩)
  · by_cases hsus : k.lists.container (.state t) = some .suspended
    · exact .inr hsus
    · simp only [hdel, hsus, if_false] at h
      split_ifs at h

theorem abortEvent_spec (h : TaskInv m k) (t : T) :
    TaskInv m (k.abortEvent t) ∧ Touches t k (k.abortEvent t) ∧
      (k.abortEvent t).lists.container = Function.update k.lists.container (.event t) none ∧
      (k.abortEvent t).xNextTaskUnblockTime = k.xNextTaskUnblockTime := by
  unfold Sched.abortEvent Sched.inEventList
  split_ifs with ht
  · have hin : k.lists.container (.event t) ≠ none := fun hnone => by simp [hnone] at ht
    have htouch : Touches t k (k.list (.remove (.event t))) := touches_list (x := .event t) rfl rfl
    have hrem : TaskInv m (k.list (.remove (.event t))) := h.list hin trivial
    refine ⟨hrem.congr rfl rfl rfl rfl, htouch.trans ?_, container_remove _ _, rfl⟩
    exact ⟨fun _ _ => rfl, fun _ _ => rfl, fun _ _ => rfl, rfl, rfl, rfl, rfl, rfl, rfl, rfl, rfl,
      rfl, id, id⟩
  · have hnone : k.lists.container (.event t) = none := by simpa using ht
    exact ⟨h, .self, by rw [← hnone, Function.update_eq_self], rfl⟩

/-- Aborting the delay of a blocked task makes it ready; another task is left alone. -/
theorem abortDelay_spec (h : SchedInv m idle k) (t : T) :
    SchedInv m idle (k.abortDelay t) ∧
      (k.abortDelay t = k ∨ k.Stopped t ∧ MadeReady m t k (k.abortDelay t)) := by
  by_cases hblocked : k.eTaskGetState t = .eBlocked
  · have hs := stopped_of_blocked hblocked
    have hrem : TaskInv m (k.list (.remove (.state t))) := h.inv.list hs.ne_none trivial
    have hfirst : Touches t k (k.list (.remove (.state t))) := touches_list (x := .state t) rfl rfl
    obtain ⟨hinv, htouch, hcont, hnext⟩ := abortEvent_spec hrem t
    have hout := madeReady_of_out hinv (hfirst.trans htouch) (h.inv.known_of_mem hs.ne_none)
      (by rw [hcont]; simp [Sched.list]) (by rw [hcont]; simp) hnext
    obtain ⟨hsched, hready⟩ := h.madeReady_pendYield hout (h.idle_ne hs)
    rw [Sched.abortDelay, if_pos hblocked]
    exact ⟨hsched, .inr ⟨hs, hready⟩⟩
  · have hsame : k.abortDelay t = k := if_neg hblocked
    exact ⟨hsame.symm ▸ h, .inl hsame⟩

/-! ## Suspending and resuming -/

/-- What `vTaskSuspend` and `vTaskDelete` do to the task. -/
structure TakenOut (m : ListMem (TaskList E) (TaskItem T)) (t : T) (home : Option (TaskList E))
    (k k' : Sched T E) : Prop where
  inv : TaskInv m k'
  touches : Touches t k k'
  state : k'.lists.container (.state t) = home
  event : k'.lists.container (.event t) = none

/-- The items of the task are taken out of their lists. -/
theorem takenOut_none (h : TaskInv m k) (hin : k.lists.container (.state t) ≠ none) :
    TakenOut m t none k ((k.list (.remove (.state t))).leaveEventList t) := by
  have hrem : TaskInv m (k.list (.remove (.state t))) := h.list hin trivial
  have hfirst : Touches t k (k.list (.remove (.state t))) := touches_list (x := .state t) rfl rfl
  refine ⟨hrem.leaveEventList t, hfirst.trans (touches_leaveEventList t), ?_, ?_⟩
  · rw [leaveEventList_container]
    simp [Sched.list]
  · rw [leaveEventList_container]
    simp

/-- The state item is put into a list of tasks that do not run. -/
theorem TakenOut.insertEnd {k₁ : Sched T E} (h : TakenOut m t none k k₁)
    (hk : k.lists.known (.state t) = true) {l : TaskList E}
    (hl : l = .suspended ∨ l = .waitingTermination) :
    TakenOut m t (some l) k (k₁.list (.insertEnd l (.state t))) := by
  have hmade : k₁.lists.made l = true := by
    obtain rfl | rfl := hl
    · exact h.inv.made _ trivial
    · exact h.inv.made _ trivial
  have hfit : Suits k₁ (.insertEnd l (.state t)) := by
    obtain rfl | rfl := hl
    · exact ⟨trivial, (fun b hb => by cases hb), fun p hp => by cases hp⟩
    · exact ⟨trivial, (fun b hb => by cases hb), fun p hp => by cases hp⟩
  refine ⟨h.inv.list ⟨hmade, h.touches.known ▸ hk, h.state⟩ hfit,
    h.touches.trans (touches_list (x := .state t) rfl rfl), ?_, ?_⟩
  · simp [Sched.list]
  · simpa [Sched.list] using h.event

theorem TakenOut.congr {k₁ k' : Sched T E} {home : Option (TaskList E)}
    (h : TakenOut m t home k k₁) (htouch : Touches t k₁ k') (hlists : k'.lists = k₁.lists)
    (hcalls : k'.calls = k₁.calls) (htop : k'.uxTopReadyPriority = k₁.uxTopReadyPriority) :
    TakenOut m t home k k' := by
  refine ⟨h.inv.congr hlists hcalls htouch.priority htop, h.touches.trans htouch, ?_, ?_⟩
  · rw [hlists]
    exact h.state
  · rw [hlists]
    exact h.event

/-- A task that is taken out and is not ready. -/
theorem SchedInv.takenOut (h : SchedInv m idle k) {k' : Sched T E} {home : Option (TaskList E)}
    (hk : TakenOut m t home k k') (hidle : k.xSchedulerRunning = true → idle ≠ t)
    (hhome : ∀ l, home = some l → l = .suspended ∨ l = .waitingTermination)
    (hnext : ∀ s, k'.lists.container (.state s) = some k'.pxDelayedTaskList →
      k'.xNextTaskUnblockTime ≤ k'.lists.value (.state s)) : SchedInv m idle k' := by
  have hnot : ∀ b, k'.lists.container (.state t) ≠ some (.delayed b) := fun b hb => by
    obtain hl | hl := hhome _ (hk.state ▸ hb)
    · cases hl
    · cases hl
  refine h.touch hk.touches hk.inv (fun hb => absurd hb (hnot _)) hnext
    (fun hne => absurd hk.event hne) (fun _ => ?_) hidle (fun _ => hnot) fun hready => ?_
  · rw [hk.event]
    exact fun hc => by cases hc
  · unfold Sched.Ready at hready
    obtain hl | hl := hhome _ (hk.state ▸ hready)
    · cases hl
    · cases hl

theorem vTaskSuspend_spec (h : SchedInv m idle k) (hin : k.lists.container (.state t) ≠ none)
    (hidle : k.xSchedulerRunning = true → idle ≠ t) :
    SchedInv m idle (k.vTaskSuspend t) ∧ TakenOut m t (some .suspended) k (k.vTaskSuspend t) := by
  have hout := (takenOut_none h.inv hin).insertEnd (h.inv.known_of_mem hin) (.inl rfl)
  have hreset := hout.congr touches_reset rfl rfl rfl
  have hinv := h.takenOut hreset hidle (fun l hl => .inl (Option.some.inj hl).symm)
    fun s hs => reset_next hout.inv s hs
  unfold Sched.vTaskSuspend
  simp only
  split_ifs
  · exact ⟨hinv.portYield, hreset.congr touches_portYield rfl rfl rfl⟩
  · exact ⟨hinv, hreset⟩

theorem vTaskResume_spec (h : SchedInv m idle k) (t : T) :
    SchedInv m idle (k.vTaskResume t) ∧
      (k.vTaskResume t = k ∨ k.lists.container (.state t) = some .suspended ∧
        MadeReady m t k (k.vTaskResume t)) := by
  unfold Sched.vTaskResume
  by_cases hcur : k.pxCurrentTCB ≠ some t
  · by_cases hsus : k.prvTaskIsTaskSuspended t = true
    · have hsus' : k.lists.container (.state t) = some .suspended ∧
          k.lists.container (.event t) ≠ some .pendingReady ∧
          k.lists.container (.event t) = none := by
        simpa [Sched.prvTaskIsTaskSuspended] using hsus
      have hs : k.Stopped t := .inr hsus'.1
      have hready := madeReady_state h hs hsus'.2.2
      rw [if_pos hcur, if_pos hsus]
      simp only
      split_ifs with hle
      · have hyield := hready.congr touches_portYield rfl rfl rfl rfl
        exact ⟨h.madeReady hyield (h.idle_ne hs) (.inr (.inl rfl)), .inr ⟨hsus'.1, hyield⟩⟩
      · exact ⟨h.madeReady hready (h.idle_ne hs) (.inl (Nat.le_of_not_le hle)),
          .inr ⟨hsus'.1, hready⟩⟩
    · rw [if_pos hcur, if_neg hsus]
      exact ⟨h, .inl rfl⟩
  · rw [if_neg hcur]
    exact ⟨h, .inl rfl⟩

/-- `xTaskResumeFromISR`, with the switch that its result asks for. -/
def Sched.resumeAndYield (k : Sched T E) (t : T) : Sched T E :=
  if (k.xTaskResumeFromISR t).2 then (k.xTaskResumeFromISR t).1.portYield
  else (k.xTaskResumeFromISR t).1

/-- The event item of a suspended task that was resumed while the scheduler is suspended. -/
def ToPending (t : T) (k k' : Sched T E) : Prop :=
  Touches t k k' ∧ k'.lists.container (.state t) = k.lists.container (.state t) ∧
    k'.lists.container (.event t) = some .pendingReady ∧
    k'.lists.value (.state t) = k.lists.value (.state t)

theorem resumeAndYield_spec (h : SchedInv m idle k) (t : T) :
    SchedInv m idle (k.resumeAndYield t) ∧
      (k.resumeAndYield t = k ∨ k.lists.container (.state t) = some .suspended ∧
        (MadeReady m t k (k.resumeAndYield t) ∨ ToPending t k (k.resumeAndYield t))) := by
  unfold Sched.resumeAndYield Sched.xTaskResumeFromISR
  by_cases hsus : k.prvTaskIsTaskSuspended t = true
  · have hsus' : k.lists.container (.state t) = some .suspended ∧
        k.lists.container (.event t) ≠ some .pendingReady ∧
        k.lists.container (.event t) = none := by
      simpa [Sched.prvTaskIsTaskSuspended] using hsus
    have hs : k.Stopped t := .inr hsus'.1
    simp only [hsus, if_true]
    by_cases hzero : k.uxSchedulerSuspended = 0
    · have hready := madeReady_state h hs hsus'.2.2
      have hcur := hready.touches.currentPriority
      have hprio := hready.touches.priority
      simp only [hzero, if_true, decide_eq_true_eq]
      split_ifs with hle
      · have hyield := hready.congr touches_portYield rfl rfl rfl rfl
        exact ⟨h.madeReady hyield (h.idle_ne hs) (.inr (.inl rfl)), .inr ⟨hsus'.1, .inl hyield⟩⟩
      · refine ⟨h.madeReady hready (h.idle_ne hs) (.inl ?_), .inr ⟨hsus'.1, .inl hready⟩⟩
        rw [hcur, hprio]
        exact Nat.le_of_not_le hle
    · have hknown := h.known_event hs.ne_none
      have htouch : Touches t k (k.list (.insertEnd .pendingReady (.event t))) :=
        touches_list (x := .event t) rfl rfl
      have hinv := h.toPending (pendingReady_insert h.inv hknown hsus'.2.2) htouch
        (by simp [Sched.list]) rfl rfl hs hzero
      simp only [hzero, if_false, Bool.false_eq_true]
      exact ⟨hinv, .inr ⟨hsus'.1, .inr ⟨htouch, by simp [Sched.list], by simp [Sched.list], rfl⟩⟩⟩
  · simp only [hsus, if_false, Bool.false_eq_true]
    exact ⟨h, .inl trivial⟩

/-! ## Deleting -/

omit [DecidableEq T] [DecidableEq E] in
theorem touches_deleted {n : Nat} :
    Touches t k { k with uxDeletedTasksWaitingCleanUp := n }.portYield :=
  ⟨fun _ _ => rfl, fun _ _ => rfl, fun _ _ => rfl, rfl, rfl, rfl, rfl, rfl, rfl, rfl, rfl, rfl,
    fun _ => rfl, id⟩

theorem vTaskDelete_spec (h : SchedInv m idle k) (hin : k.lists.container (.state t) ≠ none)
    (hidle : k.xSchedulerRunning = true → idle ≠ t) :
    SchedInv m idle (k.vTaskDelete t) ∧
      ∃ home, TakenOut m t home k (k.vTaskDelete t) ∧
        (home = none ∨ home = some .waitingTermination) := by
  have hout := takenOut_none h.inv hin
  unfold Sched.vTaskDelete
  simp only
  split_ifs with hcur
  · have hterm := hout.insertEnd (h.inv.known_of_mem hin) (.inr rfl)
    have hgone := hterm.congr (touches_deleted (n :=
      ((k.list (.remove (.state t))).leaveEventList t).uxDeletedTasksWaitingCleanUp + 1)) rfl rfl
      rfl
    have hleave := leaveEventList_same (k := k.list (.remove (.state t))) t
    refine ⟨h.takenOut hgone hidle (fun l hl => .inr (Option.some.inj hl).symm) ?_, _, hgone,
      .inr rfl⟩
    refine next_of_touch h.timed hgone.touches hleave.2.2.2.2.2 fun b hb => ?_
    rw [hgone.state] at hb
    cases hb
  · have hreset := hout.congr touches_reset rfl rfl rfl
    exact ⟨h.takenOut hreset hidle (fun l hl => by cases hl) fun s hs => reset_next hout.inv s hs,
      none, hreset, .inl rfl⟩

end ArduinoT2.Kernel
