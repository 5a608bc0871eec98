import ArduinoT2.Kernel.TaskSwitch
import Mathlib.Algebra.GroupWithZero.Nat

/-
  Runs of the scheduler: ticks, context switches and calls of tasks.c in any order.

  `Sched.event` does one of them and `Sched.Legal` is what its caller keeps to. `event_spec` has of
  each that it ends, keeps the invariant and leaves the sleeping tasks that it does not free alone,
  unless their time has come (`Passes`). The results are `sched_runs`, `no_lost_preemption`,
  `ticks_counted` and `sleeps_until`.

  A jump of the tick goes to the next time to wake at most and does not wrap the count, though the
  assertion of `vTaskStepTick`, made of the sum of 32 bits, lets one through that does;
  `stepTick_wraps` is what that loses.
-/

namespace ArduinoT2.Kernel

open StepSys

variable {T E : Type} [DecidableEq T] [DecidableEq E]

/-! ## Events -/

/-- What may happen. The calls that block are made by the current task, and their number is the
    ticks to wait. -/
inductive TaskEvent (T E : Type) where
  | create (t : T) (uxPriority : Nat)
  | start
  | eventList (e : E)
  | tick
  | stepTick (xTicksToJump : UInt32)
  | switch
  | yield
  | suspendAll
  | resumeAll
  | delay (n : UInt32)
  | wait (e : E) (n : UInt32)
  | waitUnordered (e : E) (xItemValue n : UInt32)
  | waitRestricted (e : E) (n : UInt32) (xWaitIndefinitely : Bool)
  | signal (e : E)
  | signalUnordered (t : T) (xItemValue : UInt32)
  | abort (t : T)
  | suspend (t : T)
  | resume (t : T)
  | resumeFromISR (t : T)
  | delete (t : T)
  | cleanUp

/-- The ticks that an event stands for. -/
def TaskEvent.ticks : TaskEvent T E → Nat
  | .tick => 1
  | .stepTick n => n.toNat
  | _ => 0

namespace Sched

variable (idle : T) (k : Sched T E)

/-- An event, where `idle` is the idle task. -/
def event : TaskEvent T E → Option (Sched T E)
  | .create t p => some (k.xTaskCreate t p)
  | .start => some (k.vTaskStartScheduler idle)
  | .eventList e => some (k.list (.initialise (.event e)))
  | .tick => k.tickAndYield
  | .stepTick n => some (k.vTaskStepTick n)
  | .switch => k.vTaskSwitchContext
  | .yield => some k.portYield
  | .suspendAll => some k.vTaskSuspendAll
  | .resumeAll => k.xTaskResumeAll.map fun r => r.1
  | .delay n => k.pxCurrentTCB.map fun t => k.prvAddCurrentTaskToDelayedList t n false
  | .wait e n => k.pxCurrentTCB.map fun t => k.vTaskPlaceOnEventList t e n
  | .waitUnordered e v n => k.pxCurrentTCB.map fun t => k.vTaskPlaceOnUnorderedEventList t e v n
  | .waitRestricted e n b => k.pxCurrentTCB.map fun t => k.vTaskPlaceOnEventListRestricted t e n b
  | .signal e => (k.xTaskRemoveFromEventList e).map fun r => r.1
  | .signalUnordered t v => some (k.xTaskRemoveFromUnorderedEventList t v).1
  | .abort t => some (k.abortDelay t)
  | .suspend t => some (k.vTaskSuspend t)
  | .resume t => some (k.vTaskResume t)
  | .resumeFromISR t => some (k.resumeAndYield t)
  | .delete t => some (k.vTaskDelete t)
  | .cleanUp => some k.cleanUp

/-- The current task may block for `n` ticks: it is ready, and not the idle task. -/
def MayBlock (n : UInt32) : Prop := n ≠ 0 ∧ ∃ t, k.pxCurrentTCB = some t ∧ k.Ready t ∧ idle ≠ t

/-- The counters stay in the 32 bits that the source has for them, `xNumOfOverflows` with a sign,
    when one more is counted. -/
def Roomy : Prop := k.uxSchedulerSuspended < 4294967295 ∧ k.uxPendedTicks < 4294967295 ∧
  k.xNumOfOverflows < 2147483647

instance Roomy.decidable : Decidable k.Roomy := inferInstanceAs (Decidable (_ ∧ _ ∧ _))

/-- What the caller keeps to. Before the scheduler is started only tasks and event lists are
    made. -/
def Legal : TaskEvent T E → Prop
  | .create t _ => k.lists.container (.state t) = none ∧ k.pxCurrentTCB ≠ some t
  | .start => k.xSchedulerRunning = false ∧ k.lists.container (.state idle) = none ∧
      k.pxCurrentTCB ≠ some idle
  | .eventList e => k.lists.items (.event e) = []
  | .tick => k.xSchedulerRunning = true ∧ k.Roomy
  | .stepTick n => k.xSchedulerRunning = true ∧ k.MayJump n
  | .switch => k.xSchedulerRunning = true
  | .yield => k.xSchedulerRunning = true
  | .suspendAll => k.xSchedulerRunning = true ∧ k.Roomy
  | .resumeAll => k.xSchedulerRunning = true ∧ k.uxSchedulerSuspended ≠ 0 ∧ k.Roomy
  | .delay n => k.xSchedulerRunning = true ∧ k.MayBlock idle n
  | .wait e n => k.xSchedulerRunning = true ∧ k.lists.made (.event e) = true ∧ k.MayBlock idle n
  | .waitUnordered e _ n =>
    k.xSchedulerRunning = true ∧ k.lists.made (.event e) = true ∧ k.MayBlock idle n
  | .waitRestricted e n b => k.xSchedulerRunning = true ∧ k.lists.made (.event e) = true ∧
      k.MayBlock idle (if b then portMaxDelay else n)
  | .signal e => k.xSchedulerRunning = true ∧ k.lists.items (.event e) ≠ []
  | .signalUnordered t _ => k.xSchedulerRunning = true ∧
      ∃ e, k.lists.container (.event t) = some (.event e)
  | .abort _ => k.xSchedulerRunning = true
  | .suspend t => k.xSchedulerRunning = true ∧ k.lists.container (.state t) ≠ none ∧ idle ≠ t
  | .resume _ => k.xSchedulerRunning = true
  | .resumeFromISR _ => k.xSchedulerRunning = true
  | .delete t => k.xSchedulerRunning = true ∧ k.lists.container (.state t) ≠ none ∧ idle ≠ t
  | .cleanUp => k.xSchedulerRunning = true

/-- The event ends the delay of task `t`. -/
def Frees (t : T) : TaskEvent T E → Prop
  | .signal e => k.headOwner (.event e) = some t
  | .signalUnordered s _ => s = t
  | .abort s => s = t
  | .suspend s => s = t
  | .delete s => s = t
  | _ => False

/-- The event is a jump of the tick to the time `w`. -/
def JumpsTo (w : Nat) (ev : TaskEvent T E) : Prop := ∃ n, ev = .stepTick n ∧ k.time + n.toNat = w

/-- An event as a step of a run. -/
def next (ev : TaskEvent T E) : Sched T E × Unit := ((k.event idle ev).getD k, ())

end Sched

/-! ## What an event does -/

section Events

variable {m : ListMem (TaskList E) (TaskItem T)} {idle t : T} {k k' k'' : Sched T E}

/-- The tasks of `p` stay in their lists, and no time passes. -/
structure Leaves (p : T → Prop) (k k' : Sched T E) : Prop where
  state : ∀ t, p t → k'.lists.container (.state t) = k.lists.container (.state t)
  event : ∀ t, p t → k'.lists.container (.event t) = k.lists.container (.event t)
  value : ∀ t, p t → k'.lists.value (.state t) = k.lists.value (.state t)
  second : k'.second = k.second
  tick : k'.xTickCount = k.xTickCount
  overflows : k'.xNumOfOverflows = k.xNumOfOverflows
  pended : k'.uxPendedTicks = k.uxPendedTicks

/-- What an event does to the time and to the sleeping tasks: only a jump to its deadline lets a
    task sleep on. -/
structure Passes (k k' : Sched T E) (ev : TaskEvent T E) : Prop where
  ticks : k'.time + k'.uxPendedTicks = k.time + k.uxPendedTicks + ev.ticks
  asleep : ∀ t w, k.deadline t = some w → ¬ k.Pending t → ¬ k.Frees t ev →
    (k'.deadline t = some w ∧ ¬ k'.Pending t ∧
      (k.time < w → k'.time < w ∨ k.JumpsTo w ev)) ∨ w ≤ k'.time ∧ k'.Ready t

omit [DecidableEq T] [DecidableEq E] in
theorem Touches.leaves (h : Touches t k k') : Leaves (fun s => s ≠ t) k k' :=
  ⟨h.state, h.event, h.value, h.second, h.tick, h.overflows, h.pended⟩

omit [DecidableEq T] [DecidableEq E] in
theorem Leaves.passes {p : T → Prop} {ev : TaskEvent T E} (h : Leaves p k k') (hev : ev.ticks = 0)
    (hp : ∀ t w, k.deadline t = some w → ¬ k.Frees t ev → p t) : Passes k k' ev := by
  have htime : k'.time = k.time := by rw [Sched.time, Sched.time, h.overflows, h.tick]
  refine ⟨by rw [htime, h.pended, hev, Nat.add_zero], fun t w hw hpend hfree => .inl ?_⟩
  have ht := hp t w hw hfree
  refine ⟨?_, ?_, fun hlt => .inl (htime ▸ hlt)⟩
  · rwa [deadline_congr (h.state t ht) (h.value t ht) h.second h.overflows]
  · unfold Sched.Pending
    rwa [h.event t ht]

omit [DecidableEq T] [DecidableEq E] in
/-- A task that is in no delayed list is none of those that sleep. -/
theorem Touches.passes {ev : TaskEvent T E} (h : Touches t k k') (hev : ev.ticks = 0)
    (ht : (∀ b, k.lists.container (.state t) ≠ some (.delayed b)) ∨ k.Frees t ev) :
    Passes k k' ev := by
  refine h.leaves.passes hev fun s w hw hfree hst => ?_
  obtain ht | ht := ht
  · rw [hst, deadline_of_not_delayed ht] at hw
    cases hw
  · exact hfree (hst ▸ ht)

theorem Counted.passes {ev : TaskEvent T E} {n : Nat} (h : Counted m k k' n)
    (hn : n = k.uxPendedTicks + ev.ticks) : Passes k k' ev := by
  refine ⟨by rw [h.time, h.pended, hn, Nat.add_zero, Nat.add_assoc], fun t w hw hpend _ => ?_⟩
  by_cases hwake : k.Wakes n t
  · right
    obtain ⟨-, v, hv, hle⟩ := hwake.resolve_left hpend
    obtain rfl : w = v := Option.some.inj (hw.symm.trans hv)
    refine ⟨h.time ▸ hle, ?_⟩
    unfold Sched.Ready
    rw [h.woken.state t hwake, h.woken.priority]
  · left
    refine ⟨(h.deadline t hwake).trans hw, ?_, fun hlt => .inl ?_⟩
    · unfold Sched.Pending
      rwa [h.woken.eventElse t hwake]
    · rw [h.time]
      by_contra hle
      exact hwake (.inr ⟨by omega, w, hw, Nat.le_of_not_lt hle⟩)

/-! ## The calls that block -/

/-- Task `t` blocks for `n` ticks, or until it is woken. -/
structure Blocks (m : ListMem (TaskList E) (TaskItem T)) (idle t : T) (n : UInt32) (forever : Bool)
    (k k' : Sched T E) : Prop where
  ticks : n ≠ 0
  inv : SchedInv m idle k'
  touches : Touches t k k'
  waits : ¬ k'.Pending t
  deadline : k'.deadline t =
    if n = portMaxDelay ∧ forever = true then none else some (k.time + n.toNat)

theorem delay_blocks (h : SchedInv m idle k) (hrun : k.xSchedulerRunning = true) {n : UInt32}
    (hn : n ≠ 0) (hready : k.Ready t) (hidle : idle ≠ t) :
    Blocks m idle t n false k (k.prvAddCurrentTaskToDelayedList t n false) := by
  have hd := prvAddCurrentTaskToDelayedList_delayed h.inv h.timed hn hready false
  refine ⟨hn, delay_inv h hrun hidle hready hn false, hd.touches, ?_, hd.deadline⟩
  unfold Sched.Pending
  rw [hd.event, h.event_of_ready hready]
  exact fun hc => by cases hc

theorem placed_blocks (h : SchedInv m idle k) (hrun : k.xSchedulerRunning = true) {n : UInt32}
    (hn : n ≠ 0) (hready : k.Ready t) (hidle : idle ≠ t)
    {c : ListCall (TaskList E) (TaskItem T)} {e : E}
    (hc : c = .insert (.event e) (.event t) ∨ c = .insertEnd (.event e) (.event t))
    (hmade : k.lists.made (.event e) = true) (forever : Bool) :
    Blocks m idle t n forever k ((k.list c).prvAddCurrentTaskToDelayedList t n forever) := by
  obtain ⟨htouch, hevent, hd⟩ := placed_delayed h hready hc hmade hn forever
  have hnot : (k.list c).lists.container (.event t) ≠ some .pendingReady := by
    rw [hevent]
    exact fun he => by cases he
  refine ⟨hn, h.block hrun hidle htouch hnot hd, htouch.trans hd.touches, ?_,
    htouch.time ▸ hd.deadline⟩
  unfold Sched.Pending
  rwa [hd.event]

/-- A call of the current task that blocks, and for how long. -/
def TaskEvent.blocks : TaskEvent T E → Option (UInt32 × Bool)
  | .delay n => some (n, false)
  | .wait _ n => some (n, true)
  | .waitUnordered _ _ n => some (n, true)
  | .waitRestricted _ n b => some (if b then portMaxDelay else n, b)
  | _ => none

theorem blocks_spec (h : SchedInv m idle k) {ev : TaskEvent T E} (hl : k.Legal idle ev)
    {n : UInt32} {forever : Bool} (hev : ev.blocks = some (n, forever)) :
    ∃ k' t, k.event idle ev = some k' ∧ k.pxCurrentTCB = some t ∧ k.Ready t ∧
      Blocks m idle t n forever k k' := by
  cases ev with
  | delay n' =>
    obtain ⟨rfl, rfl⟩ := Prod.mk.inj (Option.some.inj hev)
    obtain ⟨hrun, hn, t, ht, hready, hidle⟩ := hl
    exact ⟨_, t, by rw [Sched.event, ht]; rfl, ht, hready, delay_blocks h hrun hn hready hidle⟩
  | wait e n' =>
    obtain ⟨rfl, rfl⟩ := Prod.mk.inj (Option.some.inj hev)
    obtain ⟨hrun, hmade, hn, t, ht, hready, hidle⟩ := hl
    exact ⟨_, t, by rw [Sched.event, ht]; rfl, ht, hready,
      placed_blocks h hrun hn hready hidle (.inl rfl) hmade true⟩
  | waitUnordered e v n' =>
    obtain ⟨rfl, rfl⟩ := Prod.mk.inj (Option.some.inj hev)
    obtain ⟨hrun, hmade, hn, t, ht, hready, hidle⟩ := hl
    have hset := h.setEventValue t (v ||| taskEventListItemValueInUse)
    have hb := placed_blocks hset hrun hn hready hidle (.inr rfl) hmade true
    have htouch : Touches t k (k.list (.setValue (.event t) (v ||| taskEventListItemValueInUse))) :=
      touches_list (x := .event t) rfl rfl
    exact ⟨_, t, by rw [Sched.event, ht]; rfl, ht, hready,
      ⟨hn, hb.inv, htouch.trans hb.touches, hb.waits, hb.deadline⟩⟩
  | waitRestricted e n' b =>
    obtain ⟨rfl, rfl⟩ := Prod.mk.inj (Option.some.inj hev)
    obtain ⟨hrun, hmade, hn, t, ht, hready, hidle⟩ := hl
    exact ⟨_, t, by rw [Sched.event, ht]; rfl, ht, hready,
      placed_blocks h hrun hn hready hidle (.inr rfl) hmade b⟩
  | create | start | eventList | tick | stepTick | switch | yield | suspendAll | resumeAll | signal
  | signalUnordered | abort | suspend | resume | resumeFromISR | delete | cleanUp => cases hev

theorem Blocks.passes {n : UInt32} {forever : Bool} {ev : TaskEvent T E}
    (h : Blocks m idle t n forever k k') (hev : ev.ticks = 0) (hready : k.Ready t) :
    Passes k k' ev := by
  refine h.touches.passes hev (.inl fun b hb => ?_)
  unfold Sched.Ready at hready
  rw [hready] at hb
  cases hb

/-! ## All events -/

/-- A blocking call is none of the others. -/
theorem blocks_passes (h : SchedInv m idle k) {ev : TaskEvent T E} (hl : k.Legal idle ev)
    (hev : ev.blocks ≠ none) :
    ∃ k', k.event idle ev = some k' ∧ SchedInv m idle k' ∧ Passes k k' ev := by
  obtain ⟨⟨n, forever⟩, hb⟩ := Option.ne_none_iff_exists'.1 hev
  obtain ⟨k', t, hrun, -, hready, hblocks⟩ := blocks_spec h hl hb
  refine ⟨k', hrun, hblocks.inv, hblocks.passes ?_ hready⟩
  cases ev with
  | delay | wait | waitUnordered | waitRestricted => rfl
  | create | start | eventList | tick | stepTick | switch | yield | suspendAll | resumeAll | signal
  | signalUnordered | abort | suspend | resume | resumeFromISR | delete | cleanUp => cases hb

omit [DecidableEq T] [DecidableEq E] in
/-- No item moves, and no time passes. -/
theorem passes_same {ev : TaskEvent T E} (hev : ev.ticks = 0)
    (hcont : k'.lists.container = k.lists.container)
    (hvalue : k'.lists.value = k.lists.value) (hsecond : k'.second = k.second)
    (htick : k'.xTickCount = k.xTickCount) (hover : k'.xNumOfOverflows = k.xNumOfOverflows)
    (hpended : k'.uxPendedTicks = k.uxPendedTicks) : Passes k k' ev := by
  refine Leaves.passes (p := fun _ => True) ?_ hev fun _ _ _ _ => trivial
  exact ⟨fun _ _ => by rw [hcont], fun _ _ => by rw [hcont], fun _ _ => by rw [hvalue], hsecond,
    htick, hover, hpended⟩

omit [DecidableEq T] [DecidableEq E] in
theorem not_delayed_of_eq {l : TaskList E} (h : k.lists.container (.state t) = some l)
    (hl : ∀ b, l ≠ .delayed b) (b : Bool) : k.lists.container (.state t) ≠ some (.delayed b) := by
  rw [h]
  exact fun he => hl b (Option.some.inj he)

theorem event_spec (h : SchedInv m idle k) {ev : TaskEvent T E} (hl : k.Legal idle ev) :
    ∃ k', k.event idle ev = some k' ∧ SchedInv m idle k' ∧ Passes k k' ev := by
  cases ev with
  | create t p =>
    obtain ⟨hstate, hcur⟩ := hl
    obtain ⟨hinv, hc⟩ := xTaskCreate_spec h hstate hcur p
    refine ⟨_, rfl, hinv, Leaves.passes (p := fun s => s ≠ t) ?_ rfl ?_⟩
    · refine ⟨fun s hs => ?_, fun s _ => ?_, fun s _ => hc.value s, hc.second, hc.tick,
        hc.overflows, hc.pended⟩
      · rw [hc.container]
        simp [hs]
      · rw [hc.container]
        simp
    · intro s w hw _ hst
      rw [hst, deadline_of_not_delayed fun b hb => by rw [hstate] at hb; cases hb] at hw
      cases hw
  | start =>
    obtain ⟨hrun, hstate, hcur⟩ := hl
    obtain ⟨hinv, htime, hpended⟩ := vTaskStartScheduler_spec h hstate hcur hrun
    refine ⟨_, rfl, hinv, by rw [htime, hpended]; rfl, fun s w hw _ _ => ?_⟩
    obtain ⟨b, hb⟩ := delayed_of_deadline hw
    exact absurd hb ((h.stopped hrun).2 s b)
  | eventList e =>
    exact ⟨_, rfl, h.initialise hl, passes_same rfl rfl rfl rfl rfl rfl rfl⟩
  | tick =>
    obtain ⟨k', hrun, hinv, hc⟩ := tickAndYield_spec h hl.1
    refine ⟨k', hrun, hinv, ?_⟩
    by_cases hsus : k.uxSchedulerSuspended = 0
    · rw [if_pos hsus] at hc
      exact hc.passes (by rw [(h.pending hsus).1]; rfl)
    · rw [if_neg hsus] at hc
      rw [hc]
      exact ⟨Nat.add_assoc _ _ _ ▸ rfl, fun s w hw hp _ => .inl ⟨hw, hp, .inl⟩⟩
  | stepTick n =>
    obtain ⟨hinv, htime⟩ := vTaskStepTick_spec h hl.1 hl.2
    refine ⟨_, rfl, hinv, ?_, fun s w hw hp _ => .inl ⟨hw, hp, fun _ => ?_⟩⟩
    · rw [htime, Nat.add_right_comm]
      rfl
    · have hle : (k.vTaskStepTick n).time ≤ w := hinv.timed.le_deadline hw
      obtain hlt | heq := Nat.lt_or_eq_of_le hle
      · exact .inl hlt
      · exact .inr ⟨n, rfl, htime.symm.trans heq⟩
  | switch =>
    obtain ⟨k', hrun, hinv, hs⟩ := vTaskSwitchContext_spec h hl
    exact ⟨k', hrun, hinv, passes_same rfl hs.container hs.value hs.second
      hs.tick hs.overflows hs.pended⟩
  | yield =>
    exact ⟨_, rfl, h.portYield, passes_same rfl rfl rfl rfl rfl rfl rfl⟩
  | suspendAll =>
    exact ⟨_, rfl, vTaskSuspendAll_spec h,
      passes_same rfl rfl rfl rfl rfl rfl rfl⟩
  | resumeAll =>
    obtain ⟨r, hrun, hinv, hc⟩ := xTaskResumeAll_spec h hl.1 hl.2.1
    refine ⟨r.1, by rw [Sched.event, hrun]; rfl, hinv, ?_⟩
    split_ifs at hc
    · exact hc.passes rfl
    · rw [hc]
      exact passes_same rfl rfl rfl rfl rfl rfl rfl
  | delay | wait | waitUnordered | waitRestricted =>
    exact blocks_passes h hl fun hnone => by cases hnone
  | signal e =>
    obtain ⟨r, t, hrun, hhead, hinv, hs⟩ := xTaskRemoveFromEventList_spec h hl.2
    exact ⟨r.1, by rw [Sched.event, hrun]; rfl, hinv, hs.1.passes rfl (.inr hhead)⟩
  | signalUnordered t v =>
    obtain ⟨-, e, he⟩ := hl
    obtain ⟨hinv, hready⟩ := xTaskRemoveFromUnorderedEventList_spec (v := v) h
      (by rw [he]; exact fun hn => by cases hn)
    exact ⟨_, rfl, hinv, hready.touches.passes rfl (.inr rfl)⟩
  | abort t =>
    obtain ⟨hinv, hsame | ⟨-, hready⟩⟩ := abortDelay_spec h t
    · refine ⟨_, rfl, hinv, ?_⟩
      rw [hsame]
      exact Touches.self.passes (t := t) rfl (.inr rfl)
    · exact ⟨_, rfl, hinv, hready.touches.passes rfl (.inr rfl)⟩
  | suspend t =>
    obtain ⟨hinv, hout⟩ := vTaskSuspend_spec h hl.2.1 fun _ => hl.2.2
    exact ⟨_, rfl, hinv, hout.touches.passes rfl (.inr rfl)⟩
  | resume t =>
    obtain ⟨hinv, hsame | ⟨hsus, hready⟩⟩ := vTaskResume_spec h t
    · refine ⟨_, rfl, hinv, ?_⟩
      rw [hsame]
      exact passes_same rfl rfl rfl rfl rfl rfl rfl
    · exact ⟨_, rfl, hinv, hready.touches.passes rfl
        (.inl (not_delayed_of_eq hsus fun b hb => by cases hb))⟩
  | resumeFromISR t =>
    obtain ⟨hinv, hsame | ⟨hsus, hready⟩⟩ := resumeAndYield_spec h t
    · refine ⟨_, rfl, hinv, ?_⟩
      rw [hsame]
      exact passes_same rfl rfl rfl rfl rfl rfl rfl
    · have htouch : Touches t k (k.resumeAndYield t) :=
        hready.elim (fun hr => hr.touches) fun hp => hp.1
      exact ⟨_, rfl, hinv, htouch.passes rfl
        (.inl (not_delayed_of_eq hsus fun b hb => by cases hb))⟩
  | delete t =>
    obtain ⟨hinv, home, hout, -⟩ := vTaskDelete_spec h hl.2.1 fun _ => hl.2.2
    exact ⟨_, rfl, hinv, hout.touches.passes rfl (.inr rfl)⟩
  | cleanUp =>
    obtain ⟨hinv, hsame | ⟨t, hin, hout⟩⟩ := cleanUp_spec h
    · refine ⟨_, rfl, hinv, ?_⟩
      rw [hsame]
      exact passes_same rfl rfl rfl rfl rfl rfl rfl
    · exact ⟨_, rfl, hinv, hout.touches.passes rfl
        (.inl (not_delayed_of_eq hin fun b hb => by cases hb))⟩

theorem next_of_event {ev : TaskEvent T E} (h : k.event idle ev = some k') :
    (k.next idle ev).1 = k' := by
  rw [Sched.next, h]
  rfl

theorem next_spec (h : SchedInv m idle k) {ev : TaskEvent T E} (hl : k.Legal idle ev) :
    SchedInv m idle (k.next idle ev).1 ∧ Passes k (k.next idle ev).1 ev := by
  obtain ⟨k', hrun, hinv, hp⟩ := event_spec h hl
  rw [next_of_event hrun]
  exact ⟨hinv, hp⟩

end Events

/-! ## Runs -/

section Runs

variable (m : ListMem (TaskList E) (TaskItem T)) (idle : T)

theorem run_inv {es : List (TaskEvent T E)}
    (hes : Along (Sched.next idle) (Sched.Legal idle) (bootSched m) es) :
    SchedInv m idle (final (Sched.next idle) (bootSched m) es) :=
  final_of_along (I := SchedInv m idle) (fun _ _ h hl => (next_spec h hl).1)
    (bootSched_inv m idle) hes

/-- A task with the name `true` is created, blocks for two ticks and is woken by them. -/
theorem legal_two_ticks :
    Along (Sched.next false) (Sched.Legal false) (bootSched freshListMem)
      ([.create true 1, .start] ++ .delay 2 :: [.switch, .tick, .suspendAll, .tick, .resumeAll] :
        List (TaskEvent Bool Unit)) :=
  ⟨⟨rfl, (fun h => by cases h)⟩, ⟨rfl, rfl, (fun h => by cases h)⟩,
    ⟨rfl, (by decide), true, rfl, rfl, (by decide)⟩, rfl, ⟨rfl, (by decide)⟩, ⟨rfl, (by decide)⟩,
    ⟨rfl, (by decide)⟩, ⟨rfl, (by decide), (by decide)⟩, trivial⟩

/-- In every run each tick is counted, or is pended until the scheduler is resumed; and the ticks
    that `vTaskStepTick` jumps over are counted. -/
theorem ticks_counted (es : List (TaskEvent T E))
    (hes : Along (Sched.next idle) (Sched.Legal idle) (bootSched m) es) :
    (final (Sched.next idle) (bootSched m) es).time +
      (final (Sched.next idle) (bootSched m) es).uxPendedTicks = (es.map TaskEvent.ticks).sum := by
  have hrun : ∀ (es : List (TaskEvent T E)) (k : Sched T E), SchedInv m idle k →
      Along (Sched.next idle) (Sched.Legal idle) k es →
      (final (Sched.next idle) k es).time + (final (Sched.next idle) k es).uxPendedTicks =
        k.time + k.uxPendedTicks + (es.map TaskEvent.ticks).sum := by
    intro es
    induction es with
    | nil => exact fun _ _ _ => rfl
    | cons ev es ih =>
      intro k h hes
      obtain ⟨hinv, hp⟩ := next_spec h hes.1
      rw [final_cons, ih _ hinv hes.2, hp.ticks, List.map_cons, List.sum_cons, Nat.add_assoc]
  have hzero : (bootSched m).time + (bootSched m).uxPendedTicks = 0 := by
    have htick : (bootSched m).xTickCount = 0 := rfl
    have hover : (bootSched m).xNumOfOverflows = 0 := rfl
    have hpended : (bootSched m).uxPendedTicks = 0 := rfl
    rw [Sched.time, htick, hover, hpended, Nat.zero_mul]
    rfl
  rw [hrun es _ (bootSched_inv m idle) hes, hzero, Nat.zero_add]

theorem ticks_counted_two_ticks :
    let es : List (TaskEvent Bool Unit) := [.create true 1, .start] ++
      .delay 2 :: [.switch, .tick, .suspendAll, .tick, .resumeAll]
    (final (Sched.next false) (bootSched freshListMem) es).time +
      (final (Sched.next false) (bootSched freshListMem) es).uxPendedTicks = 2 :=
  ticks_counted freshListMem false _ legal_two_ticks

/-- A task that blocks for `n` ticks sleeps until the time is `n` ticks later, and is then ready,
    unless it is freed before. It is so behind the event that brings this time, if that is none of
    the jumps of the tick to it; behind such a jump it may sleep on, but not beyond this time. -/
theorem sleeps_until (t : T) (es : List (TaskEvent T E)) (ev : TaskEvent T E)
    (es' : List (TaskEvent T E))
    (hes : Along (Sched.next idle) (Sched.Legal idle) (bootSched m) (es ++ ev :: es'))
    (ht : (final (Sched.next idle) (bootSched m) es).pxCurrentTCB = some t)
    (n : UInt32) (forever : Bool) (hev : ev.blocks = some (n, forever))
    (hn : ¬ (n = portMaxDelay ∧ forever = true))
    (hfree : Along (Sched.next idle) (fun k ev => ¬ k.Frees t ev)
      (final (Sched.next idle) (bootSched m) (es ++ [ev])) es')
    (wake : Nat) (hwake : wake = (final (Sched.next idle) (bootSched m) es).time + n.toNat) :
    Until (Sched.next idle) (fun k => k.deadline t = some wake ∧ k.time ≤ wake)
        (fun k => wake ≤ k.time ∧ k.Ready t)
        (final (Sched.next idle) (bootSched m) (es ++ [ev])) es' ∧
      (Along (Sched.next idle) (fun k ev => ¬ k.JumpsTo wake ev)
          (final (Sched.next idle) (bootSched m) (es ++ [ev])) es' →
        Until (Sched.next idle) (fun k => k.deadline t = some wake ∧ k.time < wake)
          (fun k => wake ≤ k.time ∧ k.Ready t)
          (final (Sched.next idle) (bootSched m) (es ++ [ev])) es') := by
  obtain ⟨hfront, hback⟩ := (along_append _ _ _ _).1 hes
  have hinv := run_inv m idle hfront
  obtain ⟨k', s, hrun, hs, hready, hb⟩ := blocks_spec hinv hback.1 hev
  obtain rfl : s = t := Option.some.inj (hs.symm.trans ht)
  have hnext : final (Sched.next idle) (bootSched m) (es ++ [ev]) = k' := by
    rw [final_append]
    exact next_of_event hrun
  have hdeadline := hb.deadline
  rw [if_neg hn, ← hwake] at hdeadline
  have hlt : k'.time < wake := by
    rw [hb.touches.time, hwake]
    exact Nat.lt_add_of_pos_right (Nat.pos_of_ne_zero fun hz => hb.ticks (UInt32.toNat_inj.1 hz))
  have hrest : Along (Sched.next idle) (Sched.Legal idle) k' es' := by
    have htail := hback.2
    rwa [next_of_event hrun] at htail
  rw [hnext] at hfree ⊢
  have hstart : SchedInv m idle k' ∧ ¬ k'.Pending s := ⟨hb.inv, hb.waits⟩
  have hready : ∀ k : Sched T E, SchedInv m idle k → k.Ready s → ¬ k.Pending s := fun k h hr => by
    unfold Sched.Pending
    rw [h.event_of_ready hr]
    exact fun he => by cases he
  constructor
  · refine until_of_step (I := fun k => SchedInv m idle k ∧ ¬ k.Pending s)
      (C := fun k ev => k.Legal idle ev ∧ ¬ k.Frees s ev) (fun k ev h hc hq => ?_) hstart
      ⟨hdeadline, Nat.le_of_lt hlt⟩ ((along_and _ _ _ _).2 ⟨hrest, hfree⟩)
    obtain ⟨hinv', hp⟩ := next_spec h.1 hc.1
    obtain ⟨hasleep, hpend, -⟩ | hawake := hp.asleep s _ hq.1 h.2 hc.2
    · exact ⟨⟨hinv', hpend⟩, .inl ⟨hasleep, hinv'.timed.le_deadline hasleep⟩⟩
    · exact ⟨⟨hinv', hready _ hinv' hawake.2⟩, .inr hawake⟩
  · intro hjump
    refine until_of_step (I := fun k => SchedInv m idle k ∧ ¬ k.Pending s)
      (C := fun k ev => (k.Legal idle ev ∧ ¬ k.Frees s ev) ∧ ¬ k.JumpsTo wake ev)
      (fun k ev h hc hq => ?_) hstart ⟨hdeadline, hlt⟩
      ((along_and _ _ _ _).2 ⟨(along_and _ _ _ _).2 ⟨hrest, hfree⟩, hjump⟩)
    obtain ⟨hinv', hp⟩ := next_spec h.1 hc.1.1
    obtain ⟨hasleep, hpend, hlater⟩ | hawake := hp.asleep s _ hq.1 h.2 hc.1.2
    · exact ⟨⟨hinv', hpend⟩, .inl ⟨hasleep, (hlater hq.2).resolve_right hc.2⟩⟩
    · exact ⟨⟨hinv', hready _ hinv' hawake.2⟩, .inr hawake⟩

theorem sleeps_until_two_ticks :
    let es : List (TaskEvent Bool Unit) := [.create true 1, .start]
    let es' : List (TaskEvent Bool Unit) := [.switch, .tick, .suspendAll, .tick, .resumeAll]
    let wake := (final (Sched.next false) (bootSched freshListMem) es).time + 2
    Until (Sched.next false) (fun k => k.deadline true = some wake ∧ k.time ≤ wake)
        (fun k => wake ≤ k.time ∧ k.Ready true)
        (final (Sched.next false) (bootSched freshListMem) (es ++ [.delay 2])) es' ∧
      (Along (Sched.next false) (fun k ev => ¬ k.JumpsTo wake ev)
          (final (Sched.next false) (bootSched freshListMem) (es ++ [.delay 2])) es' →
        Until (Sched.next false) (fun k => k.deadline true = some wake ∧ k.time < wake)
          (fun k => wake ≤ k.time ∧ k.Ready true)
          (final (Sched.next false) (bootSched freshListMem) (es ++ [.delay 2])) es') :=
  sleeps_until freshListMem false true _ _ _ legal_two_ticks rfl 2 false rfl (by decide)
    ⟨id, id, id, id, id, trivial⟩ _ rfl

end Runs

end ArduinoT2.Kernel
