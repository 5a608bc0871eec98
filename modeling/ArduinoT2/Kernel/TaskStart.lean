import ArduinoT2.Kernel.TaskWakes

/-
  Where the tasks come from: the lists are initialised, tasks are created and the scheduler is
  started. `bootSched m` is the state before the first task is created.
-/

namespace ArduinoT2.Kernel

open StepSys

variable {T E : Type} [DecidableEq T] [DecidableEq E]
variable {m : ListMem (TaskList E) (TaskItem T)} {idle t : T} {k : Sched T E}

/-! ## Initialising the lists -/

/-- Lists are initialised one after the other. -/
def Sched.initialiseAll (k : Sched T E) (ls : List (TaskList E)) : Sched T E :=
  ls.foldl (fun k l => k.list (.initialise l)) k

/-- The lists of `prvInitialiseTaskLists`. -/
def ownLists : List (TaskList E) :=
  (List.range configMaxPriorities).map .ready ++
    [.delayed false, .delayed true, .pendingReady, .waitingTermination, .suspended]

theorem prvInitialiseTaskLists_eq (k : Sched T E) :
    k.prvInitialiseTaskLists = { k.initialiseAll ownLists with second := false } := by
  rw [Sched.initialiseAll, ownLists, List.foldl_append, List.foldl_map]
  rfl

omit [DecidableEq E] in
theorem own_mem {l : TaskList E} (hl : l.Own) : l ∈ (ownLists : List (TaskList E)) := by
  cases l with
  | ready p => exact List.mem_append_left _ (List.mem_map.2 ⟨p, List.mem_range.2 hl, rfl⟩)
  | delayed b => cases b <;> simp [ownLists]
  | pendingReady | waitingTermination | suspended => simp [ownLists]
  | event e => cases hl

/-- What initialising lists does while no item is in any list. -/
structure Emptied (m : ListMem (TaskList E) (TaskItem T)) (ls : List (TaskList E))
    (k k' : Sched T E) : Prop where
  log : Along Lists.call Lists.Legal (bootLists m) k'.calls
  lists : final Lists.call (bootLists m) k'.calls = k'.lists
  made : ∀ l, k.lists.made l = true ∨ l ∈ ls → k'.lists.made l = true
  items : ∀ l, k'.lists.items l = []
  container : ∀ x, k'.lists.container x = none
  known : k'.lists.known = k.lists.known
  rest : k' = { k with lists := k'.lists, calls := k'.calls }

theorem initialiseAll_emptied (ls : List (TaskList E))
    (hlog : Along Lists.call Lists.Legal (bootLists m) k.calls)
    (hlists : final Lists.call (bootLists m) k.calls = k.lists)
    (hitems : ∀ l, k.lists.items l = []) (hcont : ∀ x, k.lists.container x = none) :
    Emptied m ls k (k.initialiseAll ls) := by
  induction ls generalizing k with
  | nil =>
    exact ⟨hlog, hlists, fun l hl => hl.resolve_right List.not_mem_nil, hitems, hcont, rfl, rfl⟩
  | cons l ls ih =>
    have hnew : Emptied m ls (k.list (.initialise l))
        ((k.list (.initialise l)).initialiseAll ls) := by
      apply ih
      · refine (along_append _ _ _ _).2 ⟨hlog, ?_⟩
        rw [hlists]
        exact ⟨hitems l, trivial⟩
      · change final Lists.call (bootLists m) (k.calls ++ [_]) = (k.lists.call _).1
        rw [final_append, hlists]
        rfl
      · exact hitems
      · exact hcont
    refine ⟨hnew.log, hnew.lists, fun l' hl' => hnew.made l' ?_, hnew.items, hnew.container,
      hnew.known, hnew.rest⟩
    by_cases he : l' = l
    · left
      simp [Sched.list, Lists.call, he]
    · obtain hmade | hmem := hl'
      · exact .inl (made_call _ _ hmade)
      · exact .inr ((List.mem_cons.1 hmem).resolve_left he)

/-- The variables of tasks.c before the first call. -/
def staticSched (m : ListMem (TaskList E) (TaskItem T)) : Sched T E where
  lists := bootLists m
  calls := []
  second := false
  pxCurrentTCB := none
  uxPriority := fun _ => 0
  ucDelayAborted := fun _ => false
  uxTopReadyPriority := 0
  xSchedulerRunning := false
  uxSchedulerSuspended := 0
  xTickCount := 0
  xNumOfOverflows := 0
  uxPendedTicks := 0
  xNextTaskUnblockTime := 0
  xYieldPending := false
  uxDeletedTasksWaitingCleanUp := 0
  yield := false

def bootSched (m : ListMem (TaskList E) (TaskItem T)) : Sched T E :=
  (staticSched m).prvInitialiseTaskLists

theorem Emptied.inv (idle : T) (h : Emptied m ownLists (staticSched m) k) :
    SchedInv m idle { k with second := false } := by
  have hout : ∀ x l, k.lists.container x ≠ some l := fun x l hx => by
    rw [h.container] at hx
    cases hx
  have hprio := congrArg Sched.uxPriority h.rest
  have htop := congrArg Sched.uxTopReadyPriority h.rest
  have hrunning := congrArg Sched.xSchedulerRunning h.rest
  refine ⟨⟨h.log, h.lists, fun l hl => h.made l (.inr (own_mem hl)),
    fun x l hx => absurd hx (hout x l), fun s => ?_, ?_, fun s p hs => absurd hs (hout _ _),
    fun b => ?_⟩, ⟨fun s hs => absurd hs (hout _ _), fun s hs => absurd hs (hout _ _)⟩, fun s => ?_,
    fun s hs => absurd (h.container _) hs,
    fun _ => ⟨congrArg Sched.uxPendedTicks h.rest, fun s => hout _ _⟩, fun hrun => ?_,
    fun _ => ⟨congrArg Sched.xTickCount h.rest, fun s b => hout _ _⟩,
    .inl fun s hs => absurd hs (hout _ _)⟩
  · change k.uxPriority s < configMaxPriorities
    rw [hprio]
    exact Nat.succ_pos 9
  · change k.uxTopReadyPriority < configMaxPriorities
    rw [htop]
    exact Nat.succ_pos 9
  · change List.Pairwise _ (k.lists.items _)
    rw [h.items]
    exact .nil
  · change k.lists.known _ = k.lists.known _
    rw [h.known]
    rfl
  · change k.xSchedulerRunning = true at hrun
    rw [hrunning] at hrun
    cases hrun

theorem bootSched_inv (m : ListMem (TaskList E) (TaskItem T)) (idle : T) :
    SchedInv m idle (bootSched m) := by
  have h : Emptied m ownLists (staticSched m) ((staticSched m).initialiseAll ownLists) :=
    initialiseAll_emptied ownLists trivial rfl (fun _ => rfl) fun _ => rfl
  unfold bootSched
  rw [prvInitialiseTaskLists_eq]
  exact h.inv idle

/-- A list of those who wait for an event is initialised. -/
theorem SchedInv.initialise (h : SchedInv m idle k) {l : TaskList E} (hl : k.lists.items l = []) :
    SchedInv m idle (k.list (.initialise l)) :=
  ⟨h.inv.list hl trivial, ⟨h.timed.due, h.timed.next⟩, h.known, h.waits, h.pending, h.idle,
    h.stopped, h.preempts⟩

/-! ## Creating a task -/

/-- The current task is changed, or a switch asked for. -/
theorem SchedInv.switched (h : SchedInv m idle k) {current : Option T} {pending yield : Bool}
    (hp : ({ k with pxCurrentTCB := current, xYieldPending := pending, yield := yield } :
      Sched T E).Preempts) :
    SchedInv m idle
      { k with pxCurrentTCB := current, xYieldPending := pending, yield := yield } :=
  ⟨h.inv.congr rfl rfl rfl rfl, ⟨h.timed.due, h.timed.next⟩, h.known, h.waits, h.pending, h.idle,
    h.stopped, hp⟩

/-- What `prvInitialiseNewTask` does. -/
structure NewTask (m : ListMem (TaskList E) (TaskItem T)) (idle t : T) (k k' : Sched T E) :
    Prop where
  inv : SchedInv m idle k'
  container : k'.lists.container = k.lists.container
  value : ∀ s, k'.lists.value (.state s) = k.lists.value (.state s)
  known : k'.lists.known (.state t) = true
  priority : ∀ s, s ≠ t → k'.uxPriority s = k.uxPriority s
  rest : k' = { k with
    lists := k'.lists, calls := k'.calls, uxPriority := k'.uxPriority,
    ucDelayAborted := k'.ucDelayAborted }

/-- The priority of a task that is in no list is set. -/
theorem TaskInv.setPriority (h : TaskInv m k) (hstate : k.lists.container (.state t) = none)
    {p : Nat} (hp : p < configMaxPriorities) :
    TaskInv m { k with
      uxPriority := Function.update k.uxPriority t p
      ucDelayAborted := Function.update k.ucDelayAborted t false } := by
  refine ⟨h.log, h.lists, h.made, fun x l hx => ?_, fun s => ?_, h.topBound, h.top, h.sorted⟩
  · have hhome := h.home x l hx
    cases x with
    | event s => cases l <;> exact hhome
    | state s =>
      have hst : s ≠ t := fun he => by
        have hx' : k.lists.container (.state s) = some l := hx
        rw [he, hstate] at hx'
        cases hx'
      cases l with
      | ready q =>
        have hq : q = k.uxPriority s := hhome
        simp [Home, hst, hq]
      | delayed | pendingReady | waitingTermination | suspended | event => exact hhome
  · by_cases hst : s = t
    · simpa [hst] using hp
    · simpa [hst] using h.priority s

omit [DecidableEq T] [DecidableEq E] in
/-- A task that is in no list of its state waits for nothing. -/
theorem SchedInv.event_of_out [DecidableEq T] [DecidableEq E] (h : SchedInv m idle k)
    (hstate : k.lists.container (.state t) = none) : k.lists.container (.event t) = none := by
  by_contra hne
  exact (h.waits t hne).ne_none hstate

theorem prvInitialiseNewTask_spec (h : SchedInv m idle k)
    (hstate : k.lists.container (.state t) = none) (hcur : k.pxCurrentTCB ≠ some t) (p : Nat) :
    NewTask m idle t k (k.prvInitialiseNewTask t p) := by
  have hevent := h.event_of_out hstate
  have hprio : (if configMaxPriorities ≤ p then configMaxPriorities - 1 else p) <
      configMaxPriorities := by
    unfold configMaxPriorities
    split_ifs <;> omega
  have hset := h.inv.setPriority hstate hprio
  have hfirst := hset.list (c := .initialiseItem (.state t)) hstate trivial
  have hsecond := hfirst.list (c := .initialiseItem (.event t)) hevent trivial
  have hinv : TaskInv m (k.prvInitialiseNewTask t p) := by
    refine hsecond.list trivial fun b hb => ?_
    have hb' : k.lists.container (.event t) = some (.delayed b) := hb
    rw [hevent] at hb'
    cases hb'
  have hvalue : ∀ s, (k.prvInitialiseNewTask t p).lists.value (.state s) =
      k.lists.value (.state s) := fun s => by
    simp [Sched.prvInitialiseNewTask, Sched.list, Lists.call]
  have hpriority : ∀ s, s ≠ t → (k.prvInitialiseNewTask t p).uxPriority s = k.uxPriority s :=
    fun s hs => Function.update_of_ne hs _ _
  have hcurrent : (k.prvInitialiseNewTask t p).currentPriority = k.currentPriority := by
    cases hc : k.pxCurrentTCB with
    | none => simp [Sched.currentPriority, Sched.prvInitialiseNewTask, Sched.list, hc]
    | some s =>
      have hst : s ≠ t := fun he => hcur (he ▸ hc)
      simp [Sched.currentPriority, Sched.prvInitialiseNewTask, Sched.list, hc, hst]
  refine ⟨⟨hinv, ⟨fun s hs => ?_, fun s hs => ?_⟩, fun s => ?_, h.waits, h.pending, h.idle,
    h.stopped, ?_⟩, rfl, hvalue, ?_, hpriority, rfl⟩
  · rw [hvalue]
    exact h.timed.due s hs
  · rw [hvalue]
    exact h.timed.next s hs
  · by_cases hst : s = t
    · simp [Sched.prvInitialiseNewTask, Sched.list, Lists.call, hst]
    · simpa [Sched.prvInitialiseNewTask, Sched.list, Lists.call, hst] using h.known s
  · obtain hall | hyield := h.preempts
    · refine .inl fun s hs => ?_
      have hs' : k.lists.container (.state s) =
          some (.ready ((k.prvInitialiseNewTask t p).uxPriority s)) := hs
      have hst : s ≠ t := fun he => by
        rw [he, hstate] at hs'
        cases hs'
      rw [hpriority s hst] at hs' ⊢
      rw [hcurrent]
      exact hall s hs'
    · exact .inr hyield
  · simp [Sched.prvInitialiseNewTask, Sched.list, Lists.call]

/-- What creating a task does. -/
structure Created (m : ListMem (TaskList E) (TaskItem T)) (t : T) (k k' : Sched T E) : Prop where
  ready : k'.Ready t
  container : k'.lists.container = Function.update k.lists.container (.state t)
    (some (.ready (k'.uxPriority t)))
  value : ∀ s, k'.lists.value (.state s) = k.lists.value (.state s)
  second : k'.second = k.second
  running : k'.xSchedulerRunning = k.xSchedulerRunning
  suspended : k'.uxSchedulerSuspended = k.uxSchedulerSuspended
  tick : k'.xTickCount = k.xTickCount
  overflows : k'.xNumOfOverflows = k.xNumOfOverflows
  pended : k'.uxPendedTicks = k.uxPendedTicks

theorem addReady_switched (k : Sched T E) (t : T) (current : Option T) :
    ({ k with pxCurrentTCB := current } : Sched T E).prvAddTaskToReadyList t =
      { k.prvAddTaskToReadyList t with pxCurrentTCB := current } := by
  rw [prvAddTaskToReadyList_eq, prvAddTaskToReadyList_eq]
  rfl

/-- A new task is made ready, whatever the current task and the switches asked for then are, as
    long as no preemption is lost. -/
theorem SchedInv.addNew (h : SchedInv m idle k) (hstate : k.lists.container (.state t) = none)
    (hknown : k.lists.known (.state t) = true) :
    SchedInv m idle (k.prvAddTaskToReadyList t).portYield := by
  have hevent := h.event_of_out hstate
  have hready : MadeReady m t k (k.prvAddTaskToReadyList t) :=
    madeReady_of_out h.inv .self hknown hstate hevent rfl
  refine h.madeReady (hready.congr touches_portYield rfl rfl rfl rfl) (fun hrun he => ?_)
    (.inr (.inl rfl))
  have hidle := h.idle hrun
  rw [he, hstate] at hidle
  cases hidle

/-- A current task that has at least the priority of the last one and of the new task. -/
theorem addReady_preempts (h : k.Preempts) (current : Option T)
    (hcur : k.currentPriority ≤ ({ k with pxCurrentTCB := current } : Sched T E).currentPriority)
    (ht : k.uxPriority t ≤ ({ k with pxCurrentTCB := current } : Sched T E).currentPriority) :
    ({ k.prvAddTaskToReadyList t with pxCurrentTCB := current } : Sched T E).Preempts := by
  have hput := addReady_container (k := k) t
  obtain hall | hyield := h
  · refine .inl fun s hs => ?_
    change (k.prvAddTaskToReadyList t).lists.container (.state s) =
      some (.ready ((k.prvAddTaskToReadyList t).uxPriority s)) at hs
    rw [hput] at hs
    rw [prvAddTaskToReadyList_eq] at hs ⊢
    change k.uxPriority s ≤ ({ k with pxCurrentTCB := current } : Sched T E).currentPriority
    by_cases hst : s = t
    · rw [hst]
      exact ht
    · have hs' : k.lists.container (.state s) = some (.ready (k.uxPriority s)) := by
        simpa [hst, Sched.list] using hs
      exact (hall s hs').trans hcur
  · right
    rw [prvAddTaskToReadyList_eq]
    exact hyield

theorem prvAddNewTaskToReadyList_spec (h : SchedInv m idle k)
    (hstate : k.lists.container (.state t) = none)
    (hknown : k.lists.known (.state t) = true) :
    SchedInv m idle (k.prvAddNewTaskToReadyList t) ∧
      Created m t k (k.prvAddNewTaskToReadyList t) := by
  have hnew := h.addNew hstate hknown
  have hcreated : ∀ (current : Option T) (y : Bool), Created m t k
      { k.prvAddTaskToReadyList t with pxCurrentTCB := current, yield := y } := fun current y => by
    rw [prvAddTaskToReadyList_eq]
    exact ⟨by simp [Sched.Ready, Sched.list], rfl, fun s => rfl, rfl, rfl, rfl, rfl, rfl, rfl⟩
  have hyield : (k.prvAddTaskToReadyList t).yield = k.yield := by
    rw [prvAddTaskToReadyList_eq]
    rfl
  unfold Sched.prvAddNewTaskToReadyList
  by_cases hfirst : k.pxCurrentTCB = none ∨
      k.xSchedulerRunning = false ∧ k.currentPriority ≤ k.uxPriority t
  · have hle : k.currentPriority ≤ k.uxPriority t := by
      obtain hnone | hle := hfirst
      · simp [Sched.currentPriority, hnone]
      · exact hle.2
    have hpre := addReady_preempts (t := t) h.preempts (some t) hle (Nat.le_refl _)
    simp only [if_pos hfirst, addReady_switched]
    rw [if_neg fun hlt => Nat.lt_irrefl _ hlt.2]
    exact ⟨hnew.switched hpre, hcreated _ _⟩
  · simp only [if_neg hfirst]
    split_ifs with hlt
    · exact ⟨hnew, hcreated _ _⟩
    · have hcurrent : (k.prvAddTaskToReadyList t).currentPriority = k.currentPriority :=
        (touches_addReady t).currentPriority
      have hpriority : (k.prvAddTaskToReadyList t).uxPriority = k.uxPriority :=
        (touches_addReady t).priority
      have hrunning : (k.prvAddTaskToReadyList t).xSchedulerRunning = k.xSchedulerRunning :=
        (touches_addReady t).running
      rw [hcurrent, hpriority, hrunning] at hlt
      have hle : k.uxPriority t ≤ k.currentPriority := by
        cases hrun : k.xSchedulerRunning with
        | true => exact Nat.le_of_not_lt fun hgt => hlt ⟨hrun, hgt⟩
        | false =>
          exact Nat.le_of_lt (Nat.lt_of_not_le fun hge => hfirst (.inr ⟨hrun, hge⟩))
      have hpre := addReady_preempts (t := t) h.preempts k.pxCurrentTCB
        (Nat.le_refl _) hle
      rw [← (touches_addReady (k := k) t).current] at hpre
      have hinv : SchedInv m idle (k.prvAddTaskToReadyList t) := hnew.switched hpre
      exact ⟨hinv, hcreated (k.prvAddTaskToReadyList t).pxCurrentTCB _⟩

/-- Creating a task that is not there keeps the invariant, and the task is ready. -/
theorem xTaskCreate_spec (h : SchedInv m idle k) (hstate : k.lists.container (.state t) = none)
    (hcur : k.pxCurrentTCB ≠ some t) (p : Nat) :
    SchedInv m idle (k.xTaskCreate t p) ∧ Created m t k (k.xTaskCreate t p) := by
  have hnew := prvInitialiseNewTask_spec h hstate hcur p
  have hstate' : (k.prvInitialiseNewTask t p).lists.container (.state t) = none := by
    rw [hnew.container]
    exact hstate
  obtain ⟨hinv, hcreated⟩ := prvAddNewTaskToReadyList_spec hnew.inv hstate' hnew.known
  refine ⟨hinv, hcreated.ready, ?_, fun s => ?_, ?_, ?_, ?_, ?_, ?_, ?_⟩
  · rw [Sched.xTaskCreate, hcreated.container, hnew.container]
  · exact (hcreated.value s).trans (hnew.value s)
  · exact hcreated.second
  · exact hcreated.running
  · exact hcreated.suspended
  · exact hcreated.tick
  · exact hcreated.overflows
  · exact hcreated.pended

/-! ## Starting the scheduler -/

theorem prvInitialiseNewTask_priority (k : Sched T E) (t : T) {p : Nat}
    (hp : p < configMaxPriorities) : (k.prvInitialiseNewTask t p).uxPriority t = p := by
  simp [Sched.prvInitialiseNewTask, Sched.list, Nat.not_le.2 hp]

theorem xTaskCreate_priority (k : Sched T E) (t : T) {p : Nat} (hp : p < configMaxPriorities) :
    (k.xTaskCreate t p).uxPriority t = p := by
  have hsame : ∀ k : Sched T E, (k.prvAddNewTaskToReadyList t).uxPriority = k.uxPriority := by
    intro k
    unfold Sched.prvAddNewTaskToReadyList
    simp only [prvAddTaskToReadyList_eq]
    split_ifs <;> rfl
  rw [Sched.xTaskCreate, hsame, prvInitialiseNewTask_priority k t hp]

/-- Starting the scheduler: the idle task is ready, and no time has passed. -/
theorem vTaskStartScheduler_spec (h : SchedInv m idle k)
    (hstate : k.lists.container (.state idle) = none) (hcur : k.pxCurrentTCB ≠ some idle)
    (hrun : k.xSchedulerRunning = false) :
    SchedInv m idle (k.vTaskStartScheduler idle) ∧
      (k.vTaskStartScheduler idle).time = k.time ∧
      (k.vTaskStartScheduler idle).uxPendedTicks = k.uxPendedTicks := by
  obtain ⟨hinv, hcreated⟩ := xTaskCreate_spec h hstate hcur 0
  have hpriority := xTaskCreate_priority k idle (p := 0) (Nat.succ_pos 9)
  obtain ⟨htick, hnone⟩ := h.stopped hrun
  have hdelayed : ∀ s b, (k.vTaskStartScheduler idle).lists.container (.state s) ≠
      some (.delayed b) := (hinv.stopped (hcreated.running.trans hrun)).2
  refine ⟨⟨hinv.inv.congr rfl rfl rfl rfl, ⟨fun s hs => absurd hs (hdelayed s _), fun s hs =>
    absurd hs (hdelayed s _)⟩, hinv.known, hinv.waits, hinv.pending, fun _ => ?_,
    (fun hnot => by cases hnot), hinv.preempts⟩, ?_, hcreated.pended⟩
  · have hready : (k.xTaskCreate idle 0).lists.container (.state idle) =
        some (.ready ((k.xTaskCreate idle 0).uxPriority idle)) := hcreated.ready
    rw [hpriority] at hready
    exact hready
  · have hover : (k.vTaskStartScheduler idle).xNumOfOverflows = k.xNumOfOverflows :=
      hcreated.overflows
    have hzero : (k.vTaskStartScheduler idle).xTickCount = 0 := rfl
    rw [Sched.time, Sched.time, hover, hzero, htick]

/-! ## Deleted tasks -/

/-- The first of the tasks that deleted themselves. -/
theorem TaskInv.terminated_head (h : TaskInv m k) (ht : k.headOwner .waitingTermination = some t) :
    k.lists.container (.state t) = some .waitingTermination := by
  unfold Sched.headOwner at ht
  cases hitems : k.lists.items .waitingTermination with
  | nil => simp [hitems] at ht
  | cons x rest =>
    have hx := (h.mem_iff .waitingTermination x).1 (hitems ▸ List.mem_cons_self)
    have hhome := h.home x _ hx
    cases x with
    | state s =>
      have hs : s = t := by simpa [hitems, TaskItem.owner] using ht
      exact hs ▸ hx
    | event s => cases hhome

/-- The idle task frees what a task that deleted itself has left. -/
theorem cleanUp_spec (h : SchedInv m idle k) :
    SchedInv m idle k.cleanUp ∧ (k.cleanUp = k ∨
      ∃ t, k.lists.container (.state t) = some .waitingTermination ∧
        TakenOut m t none k k.cleanUp) := by
  unfold Sched.cleanUp
  cases hhead : k.headOwner .waitingTermination with
  | none => exact ⟨h, .inl rfl⟩
  | some t =>
    have hin := h.inv.terminated_head hhead
    have hne : k.lists.container (.state t) ≠ none := by simp [hin]
    have hevent : k.lists.container (.event t) = none := by
      by_contra hwait
      obtain ⟨b, hb⟩ | hb := h.waits t hwait
      · rw [hin] at hb
        cases hb
      · rw [hin] at hb
        cases hb
    have hrem : TaskInv m (k.list (.remove (.state t))) := h.inv.list hne trivial
    have htouch : Touches t k (k.list (.remove (.state t))) := touches_list (x := .state t) rfl rfl
    have hout : TakenOut m t none k { k.list (.remove (.state t)) with
        uxDeletedTasksWaitingCleanUp := k.uxDeletedTasksWaitingCleanUp - 1 } := by
      refine ⟨hrem.congr rfl rfl rfl rfl, ⟨htouch.state, htouch.event, htouch.value, htouch.known,
        rfl, rfl, rfl, rfl, rfl, rfl, rfl, rfl, id, id⟩, ?_, ?_⟩
      · simp [Sched.list]
      · simpa [Sched.list] using hevent
    have hidle : k.xSchedulerRunning = true → idle ≠ t := fun hrun he => by
      have hready := h.idle hrun
      rw [he, hin] at hready
      cases hready
    refine ⟨h.takenOut hout hidle (fun l hl => by cases hl) ?_, .inr ⟨t, hin, hout⟩⟩
    refine next_of_touch h.timed hout.touches rfl fun b hb => ?_
    rw [hout.state] at hb
    cases hb

end ArduinoT2.Kernel
