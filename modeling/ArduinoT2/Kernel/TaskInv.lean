import ArduinoT2.Kernel.Tasks
import ArduinoT2.Kernel.ListOrder

/-
  What the functions of tasks.c keep of the lists.

  `TaskInv m k`: every list call so far was legal (so the memory is known, Kernel.ListRuns), a list
  holds the items that belong there, `uxTopReadyPriority` is not below a ready task, and the
  delayed lists are sorted by the time to wake. Each list call keeps it (`TaskInv.list`).
-/

namespace ArduinoT2.Kernel

open StepSys

/-! ## What a call does -/

section Calls

variable {L I : Type} [DecidableEq L] [DecidableEq I] (a : Lists L I)

@[simp] theorem container_remove (x : I) :
    (a.call (.remove x)).1.container = Function.update a.container x none := by
  simp only [Lists.call]
  cases hx : a.container x with
  | none =>
    have hself : Function.update a.container x none = a.container := by
      rw [← hx, Function.update_eq_self]
    rw [hself]
  | some l => rfl

@[simp] theorem container_insertEnd (l : L) (x : I) :
    (a.call (.insertEnd l x)).1.container = Function.update a.container x (some l) := rfl

@[simp] theorem container_insert (l : L) (x : I) :
    (a.call (.insert l x)).1.container = Function.update a.container x (some l) := rfl

@[simp] theorem container_setValue (x : I) (v : UInt32) :
    (a.call (.setValue x v)).1.container = a.container := rfl

@[simp] theorem container_nextEntry (l : L) :
    (a.call (.nextEntry l)).1.container = a.container := rfl

@[simp] theorem container_initialise (l : L) :
    (a.call (.initialise l)).1.container = a.container := rfl

@[simp] theorem container_initialiseItem (x : I) :
    (a.call (.initialiseItem x)).1.container = a.container := rfl

@[simp] theorem value_remove (x : I) : (a.call (.remove x)).1.value = a.value := by
  simp only [Lists.call]
  cases a.container x with
  | none => rfl
  | some l => rfl

@[simp] theorem value_insertEnd (l : L) (x : I) :
    (a.call (.insertEnd l x)).1.value = a.value := rfl

@[simp] theorem value_insert (l : L) (x : I) : (a.call (.insert l x)).1.value = a.value := rfl

@[simp] theorem value_setValue (x : I) (v : UInt32) :
    (a.call (.setValue x v)).1.value = Function.update a.value x v := rfl

@[simp] theorem value_nextEntry (l : L) : (a.call (.nextEntry l)).1.value = a.value := rfl

@[simp] theorem known_remove (x : I) : (a.call (.remove x)).1.known = a.known := by
  simp only [Lists.call]
  cases a.container x with
  | none => rfl
  | some l => rfl

@[simp] theorem known_insertEnd (l : L) (x : I) :
    (a.call (.insertEnd l x)).1.known = a.known := rfl

@[simp] theorem known_insert (l : L) (x : I) : (a.call (.insert l x)).1.known = a.known := rfl

@[simp] theorem known_setValue (x : I) (v : UInt32) :
    (a.call (.setValue x v)).1.known = a.known := rfl

@[simp] theorem known_nextEntry (l : L) : (a.call (.nextEntry l)).1.known = a.known := rfl

@[simp] theorem known_initialise (l : L) : (a.call (.initialise l)).1.known = a.known := rfl

/-- No call forgets that a list was initialised. -/
theorem made_call (c : ListCall L I) {l : L} (h : a.made l = true) :
    (a.call c).1.made l = true := by
  cases c with
  | initialise l' =>
    by_cases hl : l = l'
    · simp [Lists.call, hl]
    · simpa [Lists.call, hl] using h
  | remove x =>
    simp only [Lists.call]
    cases a.container x with
    | none => exact h
    | some l' => exact h
  | initialiseItem | setValue | insertEnd | insert | nextEntry | headEntry | headValue | length
  | contains => exact h

theorem items_remove {a : Lists L I} (hok : a.Ok) (x : I) (l : L) :
    ((a.call (.remove x)).1.items l) = (a.items l).erase x := by
  simp only [Lists.call]
  cases hx : a.container x with
  | none => exact (List.erase_of_not_mem (hok.not_mem hx l)).symm
  | some l' =>
    by_cases hl : l = l'
    · subst hl
      simp [Lists.take, Lists.setContainer, Lists.setIndex, Lists.setItems]
    · have hmem : x ∉ a.items l := fun hmem => by
        have hin := (hok.container l x).2 hmem
        rw [hx] at hin
        exact hl (Option.some.inj hin).symm
      simp [Lists.take, Lists.setContainer, Lists.setIndex, Lists.setItems, hl,
        List.erase_of_not_mem hmem]

theorem items_insertEnd_of_ne {l l' : L} (h : l ≠ l') (x : I) :
    (a.call (.insertEnd l' x)).1.items l = a.items l := by
  simp [Lists.call, Lists.put, Lists.setContainer, Lists.setItems, h]

theorem items_insert_self (l : L) (x : I) :
    (a.call (.insert l x)).1.items l = insertSorted a.value x (a.items l) := by
  simp [Lists.call, Lists.put, Lists.setContainer, Lists.setItems]

theorem items_insert_of_ne {l l' : L} (h : l ≠ l') (x : I) :
    (a.call (.insert l' x)).1.items l = a.items l := by
  simp [Lists.call, Lists.put, Lists.setContainer, Lists.setItems, h]

end Calls

/-! ## The invariant -/

variable {T E : Type} [DecidableEq T] [DecidableEq E]

/-- The lists that tasks.c keeps itself. -/
def TaskList.Own : TaskList E → Prop
  | .ready p => p < configMaxPriorities
  | .event _ => False
  | _ => True

/-- The lists that an item of a task may be in. -/
def Home (uxPriority : T → Nat) : TaskItem T → TaskList E → Prop
  | .state t, .ready p => p = uxPriority t
  | .state _, .delayed _ => True
  | .state _, .waitingTermination => True
  | .state _, .suspended => True
  | .event _, .pendingReady => True
  | .event _, .event _ => True
  | _, _ => False

structure TaskInv (m : ListMem (TaskList E) (TaskItem T)) (k : Sched T E) : Prop where
  log : Along Lists.call Lists.Legal (bootLists m) k.calls
  lists : final Lists.call (bootLists m) k.calls = k.lists
  made : ∀ l : TaskList E, l.Own → k.lists.made l = true
  home : ∀ x l, k.lists.container x = some l → Home k.uxPriority x l
  priority : ∀ t, k.uxPriority t < configMaxPriorities
  topBound : k.uxTopReadyPriority < configMaxPriorities
  top : ∀ t p, k.lists.container (.state t) = some (.ready p) → p ≤ k.uxTopReadyPriority
  sorted : ∀ b, (k.lists.items (.delayed b)).Pairwise fun x y => k.lists.value x ≤ k.lists.value y

/-- What tasks.c asks of a list call. -/
def Suits (k : Sched T E) : ListCall (TaskList E) (TaskItem T) → Prop
  | .insertEnd l x => Home k.uxPriority x l ∧ (∀ b, l ≠ .delayed b) ∧
      ∀ p, l = .ready p → p ≤ k.uxTopReadyPriority
  | .insert l x => Home k.uxPriority x l ∧ ∀ p, l ≠ .ready p
  | .setValue x _ => ∀ b, k.lists.container x ≠ some (.delayed b)
  | _ => True

section Inv

variable {m : ListMem (TaskList E) (TaskItem T)} {k : Sched T E}

theorem TaskInv.ok (h : TaskInv m k) : k.lists.Ok := by
  rw [← h.lists]
  exact final_of_along (fun a c hok hc => hok.call hc) (bootLists_rep m).ok h.log

/-- The items of a list are those whose container it is. -/
theorem TaskInv.mem_iff (h : TaskInv m k) (l : TaskList E) (x : TaskItem T) :
    x ∈ k.lists.items l ↔ k.lists.container x = some l := (h.ok.container l x).symm

/-- An item is added to the lists that its container shows. -/
theorem container_of_call {c : ListCall (TaskList E) (TaskItem T)} {x : TaskItem T}
    {l : TaskList E} (h : (k.lists.call c).1.container x = some l) :
    k.lists.container x = some l ∨ c = .insertEnd l x ∨ c = .insert l x := by
  cases c with
  | remove y =>
    rw [container_remove] at h
    by_cases hx : x = y
    · subst hx
      simp at h
    · exact .inl (by simpa [hx] using h)
  | insertEnd l' y =>
    rw [container_insertEnd] at h
    by_cases hx : x = y
    · subst hx
      have hl : l' = l := by simpa using h
      exact .inr (.inl (hl ▸ rfl))
    · exact .inl (by simpa [hx] using h)
  | insert l' y =>
    rw [container_insert] at h
    by_cases hx : x = y
    · subst hx
      have hl : l' = l := by simpa using h
      exact .inr (.inr (hl ▸ rfl))
    · exact .inl (by simpa [hx] using h)
  | initialise | initialiseItem | setValue | nextEntry | headEntry | headValue | length
  | contains => exact .inl h

theorem sorted_call (h : TaskInv m k) {c : ListCall (TaskList E) (TaskItem T)}
    (hc : k.lists.Legal c) (hfit : Suits k c) (b : Bool) :
    ((k.lists.call c).1.items (.delayed b)).Pairwise fun x y =>
      (k.lists.call c).1.value x ≤ (k.lists.call c).1.value y := by
  have hold := h.sorted b
  cases c with
  | remove x =>
    rw [items_remove h.ok, value_remove]
    exact hold.sublist List.erase_sublist
  | insertEnd l x =>
    rw [items_insertEnd_of_ne k.lists (hfit.2.1 b).symm]
    exact hold
  | insert l x =>
    by_cases hl : .delayed b = l
    · subst hl
      rw [items_insert_self]
      exact (SortedAs.insert ⟨hold, fun v => rfl⟩ x).sorted
    · rw [items_insert_of_ne k.lists hl]
      exact hold
  | setValue x v =>
    have hout : x ∉ k.lists.items (.delayed b) := fun hmem => hfit b ((h.mem_iff _ _).1 hmem)
    refine hold.imp_of_mem fun {y z} hy hz hle => ?_
    have hyx : y ≠ x := fun he => hout (he ▸ hy)
    have hzx : z ≠ x := fun he => hout (he ▸ hz)
    simpa [hyx, hzx] using hle
  | initialise | initialiseItem | nextEntry | headEntry | headValue | length | contains =>
    exact hold

/-- A legal list call that suits tasks.c keeps the invariant. -/
theorem TaskInv.list (h : TaskInv m k) {c : ListCall (TaskList E) (TaskItem T)}
    (hc : k.lists.Legal c) (hfit : Suits k c) : TaskInv m (k.list c) := by
  have hlists := h.lists
  refine ⟨(along_append _ _ _ _).2 ⟨h.log, ?_⟩, ?_, fun l hl => made_call _ _ (h.made l hl),
    fun x l hx => ?_, h.priority, h.topBound, fun t p ht => ?_, sorted_call h hc hfit⟩
  · rw [hlists]
    exact ⟨hc, trivial⟩
  · change final Lists.call (bootLists m) (k.calls ++ [c]) = (k.lists.call c).1
    rw [final_append, hlists]
    rfl
  · obtain hx | rfl | rfl := container_of_call hx
    · exact h.home x l hx
    · exact hfit.1
    · exact hfit.1
  · obtain ht | rfl | rfl := container_of_call ht
    · exact h.top t p ht
    · exact hfit.2.2 p rfl
    · exact absurd rfl (hfit.2 p)

end Inv

/-! ## Waking a task -/

/-- The tasks of `p` are made ready and leave the lists of events, the others stay. -/
structure Woken (p : T → Prop) (k k' : Sched T E) : Prop where
  state : ∀ t, p t → k'.lists.container (.state t) = some (.ready (k.uxPriority t))
  event : ∀ t, p t → k'.lists.container (.event t) = none
  stateElse : ∀ t, ¬ p t → k'.lists.container (.state t) = k.lists.container (.state t)
  eventElse : ∀ t, ¬ p t → k'.lists.container (.event t) = k.lists.container (.event t)
  value : k'.lists.value = k.lists.value
  known : k'.lists.known = k.lists.known
  priority : k'.uxPriority = k.uxPriority

/-- The variables that the tick leaves alone. -/
structure SameRest (k k' : Sched T E) : Prop where
  current : k'.pxCurrentTCB = k.pxCurrentTCB
  running : k'.xSchedulerRunning = k.xSchedulerRunning
  suspended : k'.uxSchedulerSuspended = k.uxSchedulerSuspended
  pended : k'.uxPendedTicks = k.uxPendedTicks
  yield : k'.yield = k.yield

/-- The variables that waking a task leaves alone. -/
structure SameVars (k k' : Sched T E) : Prop extends SameRest k k' where
  second : k'.second = k.second
  tick : k'.xTickCount = k.xTickCount
  overflows : k'.xNumOfOverflows = k.xNumOfOverflows

section Waking

variable {m : ListMem (TaskList E) (TaskItem T)} {k k' k'' : Sched T E} {p q : T → Prop}

omit [DecidableEq T] [DecidableEq E] in
theorem SameRest.self : SameRest k k := ⟨rfl, rfl, rfl, rfl, rfl⟩

omit [DecidableEq T] [DecidableEq E] in
theorem SameRest.trans (h : SameRest k k') (h' : SameRest k' k'') : SameRest k k'' :=
  ⟨h'.current.trans h.current, h'.running.trans h.running, h'.suspended.trans h.suspended,
    h'.pended.trans h.pended, h'.yield.trans h.yield⟩

omit [DecidableEq T] [DecidableEq E] in
theorem SameVars.self : SameVars k k := ⟨.self, rfl, rfl, rfl⟩

omit [DecidableEq T] [DecidableEq E] in
theorem SameVars.trans (h : SameVars k k') (h' : SameVars k' k'') : SameVars k k'' :=
  ⟨h.toSameRest.trans h'.toSameRest, h'.second.trans h.second, h'.tick.trans h.tick,
    h'.overflows.trans h.overflows⟩

omit [DecidableEq T] [DecidableEq E] in
theorem Woken.none (hp : ∀ t, ¬ p t) (hlists : k'.lists = k.lists)
    (hprio : k'.uxPriority = k.uxPriority) : Woken p k k' := by
  refine ⟨fun t ht => absurd ht (hp t), fun t ht => absurd ht (hp t), fun _ _ => ?_, fun _ _ => ?_,
    ?_, ?_, hprio⟩ <;> rw [hlists]

omit [DecidableEq T] [DecidableEq E] in
/-- The tasks of `p` are woken and then those of `q`. -/
theorem Woken.trans (h : Woken p k k') (h' : Woken q k' k'') :
    Woken (fun t => p t ∨ q t) k k'' := by
  refine ⟨fun t ht => ?_, fun t ht => ?_, fun t ht => ?_, fun t ht => ?_,
    h'.value.trans h.value, h'.known.trans h.known, h'.priority.trans h.priority⟩
  · by_cases hq : q t
    · rw [h'.state t hq, h.priority]
    · rw [h'.stateElse t hq, h.state t (ht.resolve_right hq)]
  · by_cases hq : q t
    · exact h'.event t hq
    · rw [h'.eventElse t hq, h.event t (ht.resolve_right hq)]
  · obtain ⟨hp, hq⟩ := not_or.1 ht
    rw [h'.stateElse t hq, h.stateElse t hp]
  · obtain ⟨hp, hq⟩ := not_or.1 ht
    rw [h'.eventElse t hq, h.eventElse t hp]

omit [DecidableEq T] [DecidableEq E] in
theorem Woken.congr (h : Woken p k k') (hpq : ∀ t, p t ↔ q t) : Woken q k k' :=
  ⟨fun t ht => h.state t ((hpq t).2 ht), fun t ht => h.event t ((hpq t).2 ht),
    fun t ht => h.stateElse t (mt (hpq t).1 ht), fun t ht => h.eventElse t (mt (hpq t).1 ht),
    h.value, h.known, h.priority⟩

omit [DecidableEq T] [DecidableEq E] in
theorem taskRecordReadyPriority_eq (p : Nat) :
    k.taskRecordReadyPriority p =
      { k with uxTopReadyPriority := max k.uxTopReadyPriority p } := by
  unfold Sched.taskRecordReadyPriority
  split_ifs with hp
  · rw [max_eq_right (Nat.le_of_lt hp)]
  · rw [max_eq_left (Nat.le_of_not_lt hp)]

theorem prvAddTaskToReadyList_eq (t : T) :
    k.prvAddTaskToReadyList t =
      { k.list (.insertEnd (.ready (k.uxPriority t)) (.state t)) with
        uxTopReadyPriority := max k.uxTopReadyPriority (k.uxPriority t) } := by
  rw [Sched.prvAddTaskToReadyList, taskRecordReadyPriority_eq]
  rfl

theorem TaskInv.addReady (h : TaskInv m k) {t : T}
    (hout : k.lists.container (.state t) = none) (hk : k.lists.known (.state t) = true) :
    TaskInv m (k.prvAddTaskToReadyList t) := by
  rw [Sched.prvAddTaskToReadyList, taskRecordReadyPriority_eq]
  have hprio := h.priority t
  have hrec : TaskInv m { k with
      uxTopReadyPriority := max k.uxTopReadyPriority (k.uxPriority t) } :=
    ⟨h.log, h.lists, h.made, h.home, h.priority, max_lt h.topBound hprio,
      fun s p hs => (h.top s p hs).trans (le_max_left _ _), h.sorted⟩
  refine hrec.list ⟨h.made _ hprio, hk, hout⟩ ⟨rfl, fun b hb => ?_, fun p hp => ?_⟩
  · cases hb
  · cases hp
    exact le_max_right _ _

theorem leaveEventList_container (t : T) :
    (k.leaveEventList t).lists.container =
      Function.update k.lists.container (.event t) none := by
  unfold Sched.leaveEventList Sched.inEventList
  split_ifs with ht
  · exact container_remove _ _
  · have hnone : k.lists.container (.event t) = none := by simpa using ht
    rw [← hnone, Function.update_eq_self]

theorem TaskInv.leaveEventList (h : TaskInv m k) (t : T) : TaskInv m (k.leaveEventList t) := by
  unfold Sched.leaveEventList Sched.inEventList
  split_ifs with ht
  · exact h.list (fun hnone => by simp [hnone] at ht) trivial
  · exact h

theorem leaveEventList_same (t : T) :
    SameVars k (k.leaveEventList t) ∧ (k.leaveEventList t).lists.value = k.lists.value ∧
      (k.leaveEventList t).lists.known = k.lists.known ∧
      (k.leaveEventList t).uxPriority = k.uxPriority ∧
      (k.leaveEventList t).xYieldPending = k.xYieldPending ∧
      (k.leaveEventList t).xNextTaskUnblockTime = k.xNextTaskUnblockTime := by
  unfold Sched.leaveEventList
  split_ifs with ht
  · exact ⟨⟨⟨rfl, rfl, rfl, rfl, rfl⟩, rfl, rfl, rfl⟩, value_remove _ _, known_remove _ _, rfl, rfl,
      rfl⟩
  · exact ⟨.self, rfl, rfl, rfl, rfl, rfl⟩

omit [DecidableEq E] in
/-- A task whose items were taken out is made ready. -/
theorem woken_of_out [DecidableEq E] {t : T}
    (hcont : k'.lists.container =
      Function.update (Function.update k.lists.container (.state t) none) (.event t) none)
    (hvalue : k'.lists.value = k.lists.value) (hknown : k'.lists.known = k.lists.known)
    (hprio : k'.uxPriority = k.uxPriority) :
    Woken (fun s => s = t) k (k'.prvAddTaskToReadyList t) := by
  have hnew : (k'.prvAddTaskToReadyList t).lists.container =
      Function.update k'.lists.container (.state t) (some (.ready (k.uxPriority t))) := by
    rw [prvAddTaskToReadyList_eq, ← hprio]
    rfl
  refine ⟨fun s hs => ?_, fun s hs => ?_, fun s hs => ?_, fun s hs => ?_, ?_, ?_, ?_⟩
  · rw [hnew, hs, Function.update_self]
  · rw [hnew, hcont, hs]
    simp
  · have hne : (TaskItem.state s : TaskItem T) ≠ .state t := fun he => hs (by injection he)
    rw [hnew, hcont]
    simp [hne]
  · have hne : (TaskItem.event s : TaskItem T) ≠ .event t := fun he => hs (by injection he)
    rw [hnew, hcont]
    simp [hne]
  · rw [prvAddTaskToReadyList_eq, ← hvalue]
    rfl
  · rw [prvAddTaskToReadyList_eq, ← hknown]
    rfl
  · rw [prvAddTaskToReadyList_eq, ← hprio]
    rfl

theorem TaskInv.known_of_mem (h : TaskInv m k) {x : TaskItem T} (hx : k.lists.container x ≠ none) :
    k.lists.known x = true := by
  obtain ⟨l, hl⟩ := Option.ne_none_iff_exists'.1 hx
  exact h.ok.known l x ((h.mem_iff l x).2 hl)

/-- The head of a delayed list is the state item of a task. -/
theorem TaskInv.delayed_head (h : TaskInv m k) {b : Bool} {t : T}
    (ht : k.headOwner (.delayed b) = some t) :
    ∃ rest, k.lists.items (.delayed b) = .state t :: rest := by
  unfold Sched.headOwner at ht
  cases hitems : k.lists.items (.delayed b) with
  | nil => simp [hitems] at ht
  | cons x rest =>
    have hhome := h.home x (.delayed b) ((h.mem_iff _ _).1 (hitems ▸ List.mem_cons_self))
    cases x with
    | state s =>
      have hs : s = t := by simpa [hitems, TaskItem.owner] using ht
      exact ⟨rest, hs ▸ rfl⟩
    | event s => cases hhome

theorem TaskInv.headOwner_none {l : TaskList E} (h : TaskInv m k) (hl : k.headOwner l = none)
    (x : TaskItem T) : k.lists.container x ≠ some l := fun hx => by
  have hmem := (h.mem_iff l x).2 hx
  have hnil : k.lists.items l = [] := by simpa [Sched.headOwner] using hl
  rw [hnil] at hmem
  cases hmem

theorem leaveEventList_delayed (h : TaskInv m k) (t : T) (b : Bool) :
    (k.leaveEventList t).lists.items (.delayed b) = k.lists.items (.delayed b) := by
  unfold Sched.leaveEventList
  split_ifs with ht
  · have hout : TaskItem.event t ∉ k.lists.items (.delayed b) := fun hmem =>
      h.home _ _ ((h.mem_iff _ _).1 hmem)
    exact (items_remove h.ok _ _).trans (List.erase_of_not_mem hout)
  · rfl

theorem TaskInv.wakeTask (h : TaskInv m k) {t : T}
    (hin : k.lists.container (.state t) ≠ none) :
    TaskInv m (k.wakeTask t) ∧ Woken (fun s => s = t) k (k.wakeTask t) ∧
      SameVars k (k.wakeTask t) ∧ (k.wakeTask t).xYieldPending = k.xYieldPending := by
  have hrem : TaskInv m (k.list (.remove (.state t))) := h.list hin trivial
  obtain ⟨hsame, hvalue, hknown, hprio, hpend, -⟩ :=
    leaveEventList_same (k := k.list (.remove (.state t))) t
  have hcont : ((k.list (.remove (.state t))).leaveEventList t).lists.container =
      Function.update (Function.update k.lists.container (.state t) none) (.event t) none := by
    rw [leaveEventList_container]
    exact congrArg (fun f => Function.update f _ _) (container_remove _ _)
  have hk : ((k.list (.remove (.state t))).leaveEventList t).lists.known = k.lists.known :=
    hknown.trans (known_remove _ _)
  refine ⟨(hrem.leaveEventList t).addReady ?_ ?_,
    woken_of_out hcont (hvalue.trans (value_remove _ _)) hk hprio, ?_, ?_⟩
  · rw [hcont]
    simp
  · rw [hk]
    exact h.known_of_mem hin
  · rw [Sched.wakeTask, prvAddTaskToReadyList_eq]
    exact ⟨⟨hsame.current, hsame.running, hsame.suspended, hsame.pended, hsame.yield⟩,
      hsame.second, hsame.tick, hsame.overflows⟩
  · rw [Sched.wakeTask, prvAddTaskToReadyList_eq]
    exact hpend

theorem TaskInv.wakeTask_delayed (h : TaskInv m k) {t : T}
    (hin : k.lists.container (.state t) ≠ none) (b : Bool) :
    (k.wakeTask t).lists.items (.delayed b) = (k.lists.items (.delayed b)).erase (.state t) := by
  have hrem : TaskInv m (k.list (.remove (.state t))) := h.list hin trivial
  rw [Sched.wakeTask, prvAddTaskToReadyList_eq]
  calc _ = ((k.list (.remove (.state t))).leaveEventList t).lists.items (.delayed b) :=
        items_insertEnd_of_ne _ (fun he => by cases he) _
    _ = (k.list (.remove (.state t))).lists.items (.delayed b) := leaveEventList_delayed hrem t b
    _ = _ := items_remove h.ok _ _

/-- The tasks of the current delayed list whose time has come. -/
def Sched.Due (k : Sched T E) (tick : UInt32) (t : T) : Prop :=
  k.lists.container (.state t) = some k.pxDelayedTaskList ∧ k.lists.value (.state t) ≤ tick

/-- The task at the head of a delayed list is the first to wake. -/
theorem TaskInv.head_least (h : TaskInv m k) {t : T}
    (ht : k.headOwner k.pxDelayedTaskList = some t) :
    k.lists.container (.state t) = some k.pxDelayedTaskList ∧
      ∀ s, k.lists.container (.state s) = some k.pxDelayedTaskList →
        k.lists.value (.state t) ≤ k.lists.value (.state s) := by
  obtain ⟨rest, hitems⟩ := h.delayed_head ht
  have hsorted := h.sorted k.second
  rw [hitems] at hsorted
  refine ⟨(h.mem_iff _ _).1 (hitems ▸ List.mem_cons_self), fun s hs => ?_⟩
  have hmem : TaskItem.state s ∈ k.lists.items (.delayed k.second) := (h.mem_iff _ _).2 hs
  rw [hitems] at hmem
  obtain heq | hmem := List.mem_cons.1 hmem
  · rw [heq]
    exact UInt32.le_refl _
  · exact (List.pairwise_cons.1 hsorted).1 _ hmem

/-- The loop of `xTaskIncrementTick` ends and wakes the tasks whose time has come; the tasks that
    are left are not to be woken before `xNextTaskUnblockTime`. -/
theorem unblockTasks_spec (tick : UInt32) {rounds : Nat} (h : TaskInv m k)
    (hr : (k.lists.items k.pxDelayedTaskList).length < rounds) :
    ∃ k' b, Sched.unblockTasks tick rounds k = some (k', b) ∧ TaskInv m k' ∧
      Woken (k.Due tick) k k' ∧ SameVars k k' ∧ k'.xYieldPending = k.xYieldPending ∧
      (∀ t, k'.lists.container (.state t) = some k'.pxDelayedTaskList →
        k'.xNextTaskUnblockTime ≤ k'.lists.value (.state t)) ∧
      (∀ t, k.Due tick t → k.currentPriority ≤ k.uxPriority t → b = true) := by
  induction rounds generalizing k with
  | zero => cases hr
  | succ rounds ih =>
    cases hhead : k.headOwner k.pxDelayedTaskList with
    | none =>
      have hout : ∀ t, k.lists.container (.state t) ≠ some k.pxDelayedTaskList := fun t =>
        h.headOwner_none hhead _
      refine ⟨{ k with xNextTaskUnblockTime := portMaxDelay }, false,
        by simp only [Sched.unblockTasks, hhead],
        ⟨h.log, h.lists, h.made, h.home, h.priority, h.topBound, h.top, h.sorted⟩,
        .none (fun t ht => hout t ht.1) rfl rfl, ⟨⟨rfl, rfl, rfl, rfl, rfl⟩, rfl, rfl, rfl⟩, rfl,
        fun t ht => absurd ht (hout t), fun t ht => absurd ht.1 (hout t)⟩
    | some t =>
      obtain ⟨rest, hitems⟩ := h.delayed_head hhead
      obtain ⟨htin, hleast⟩ := h.head_least hhead
      by_cases hlt : tick < k.lists.value (.state t)
      · have hout : ∀ s, ¬ k.Due tick s := fun s hs =>
          UInt32.not_le.2 (UInt32.lt_of_lt_of_le hlt (hleast s hs.1)) hs.2
        refine ⟨{ k with xNextTaskUnblockTime := k.lists.value (.state t) }, false,
          by simp only [Sched.unblockTasks, hhead, if_pos hlt],
          ⟨h.log, h.lists, h.made, h.home, h.priority, h.topBound, h.top, h.sorted⟩,
          .none hout rfl rfl, ⟨⟨rfl, rfl, rfl, rfl, rfl⟩, rfl, rfl, rfl⟩, rfl, hleast,
          fun s hs => absurd hs (hout s)⟩
      · have hin : k.lists.container (.state t) ≠ none := by simp [htin]
        obtain ⟨hinv, hwoken, hsame, hpend⟩ := h.wakeTask hin
        have hcur : (k.wakeTask t).pxDelayedTaskList = k.pxDelayedTaskList :=
          congrArg TaskList.delayed hsame.second
        have hlen : ((k.wakeTask t).lists.items (k.wakeTask t).pxDelayedTaskList).length <
            rounds := by
          rw [hcur, Sched.pxDelayedTaskList, h.wakeTask_delayed hin, hitems, List.erase_cons_head]
          rw [Sched.pxDelayedTaskList, hitems, List.length_cons] at hr
          exact Nat.lt_of_succ_lt_succ hr
        obtain ⟨k', b, hrun, hinv', hwoken', hsame', hpend', hnext, hyield⟩ := ih hinv hlen
        have hdue : ∀ s, s ≠ t → ((k.wakeTask t).Due tick s ↔ k.Due tick s) := fun s hs => by
          unfold Sched.Due
          rw [hwoken.stateElse s hs, hcur, hwoken.value]
        refine ⟨k', decide ((k.wakeTask t).currentPriority ≤ (k.wakeTask t).uxPriority t) || b, ?_,
          hinv', (hwoken.trans hwoken').congr fun s => ?_, hsame.trans hsame',
          hpend'.trans hpend, hnext, fun s hs hle => ?_⟩
        · simp only [Sched.unblockTasks, hhead, if_neg hlt, hrun, Option.map_some]
        · by_cases hst : s = t
          · refine ⟨fun _ => ?_, fun _ => .inl hst⟩
            rw [hst]
            exact ⟨htin, UInt32.not_lt.1 hlt⟩
          · rw [hdue s hst]
            simp [hst]
        · have hcurprio : (k.wakeTask t).currentPriority = k.currentPriority := by
            unfold Sched.currentPriority
            rw [hsame.current, hwoken.priority]
          by_cases hst : s = t
          · have hprio : (k.wakeTask t).currentPriority ≤ (k.wakeTask t).uxPriority t := by
              rw [hcurprio, hwoken.priority, ← hst]
              exact hle
            rw [decide_eq_true hprio, Bool.true_or]
          · have hb := hyield s ((hdue s hst).2 hs) (by rwa [hcurprio, hwoken.priority])
            rw [hb, Bool.or_true]

end Waking

end ArduinoT2.Kernel
