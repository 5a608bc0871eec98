import ArduinoT2.Lib.StepSys
import ArduinoT2.System.TklQueue

/-
  The queues of the adapter (tkl_queue.c) are bounded FIFOs, and what a fetch without a buffer
  writes.

  Messages come out in the order of the posts that have been accepted (`queue_fifo`). A fetch
  that gets no buffer lets the kernel write the message to a pointer on the stack, so it writes
  no more than it owns only if a message is no larger than a pointer (`queue_fifo_iff`).
-/

namespace ArduinoT2.System

open StepSys ArduinoT2.Adapter ArduinoT2.Vendor

/-! ## Calls -/

/-- One call on the queue. -/
def queueStep (q : Option KernelQueue) (c : QueueCall) :
    Option KernelQueue × Option OperateRet × Written :=
  let (ret, written, q) := queueCall q c
  (q, ret, written)

/-- The messages that wait in the queue. -/
def pending (q : Option KernelQueue) : List (List UInt8) := q.elim [] KernelQueue.items

/-- The message that a call puts into the queue. -/
def accepted (q : Option KernelQueue) (c : QueueCall) : List (List UInt8) :=
  match q, c with
  | some q', .post data _ _ _ =>
    if (queueStep q c).2.1 = some oprtOk then [q'.itemAt data] else []
  | _, _ => []

/-- The message that a call takes out of the queue, into a buffer or not. -/
def fetched (q : Option KernelQueue) (c : QueueCall) : List (List UInt8) :=
  match c with
  | .post _ _ _ _ => []
  | .fetch _ _ _ =>
    if (queueStep q c).2.1 = some oprtOk then [(queueStep q c).2.2.bytes] else []

/-- What a call must do on a queue for `c` messages of `s` bytes: a post that comes to its end
    fails if and only if the queue is full, a fetch that does takes the oldest message if there is
    one, and a fetch writes no more than it owns. -/
structure QueueOk (s c : Nat) (q : Option KernelQueue) (call : QueueCall) : Prop where
  posted : ∀ data timeout isr expired ret, call = .post data timeout isr expired →
    (queueStep q call).2.1 = some ret → (ret ≠ oprtOk ↔ (pending q).length = c)
  fetched : ∀ msg timeout expired ret, call = .fetch msg timeout expired →
    (queueStep q call).2.1 = some ret →
      (ret ≠ oprtOk ↔ pending q = []) ∧ pending (queueStep q call).1 = (pending q).tail ∧
      (ret = oprtOk → (queueStep q call).2.2.bytes.length = s)
  memory : (queueStep q call).2.2.bytes.length ≤ (queueStep q call).2.2.owned

/-- A fetch that gets no buffer finds messages no larger than a pointer, or none. -/
def DiscardFits (s : Nat) (q : Option KernelQueue) : QueueCall → Prop
  | .post _ _ _ _ => True
  | .fetch msg _ _ => msg = false → s ≤ 4 ∨ pending q = []

/-! ## The queue -/

/-- A queue for `c` messages of `s` bytes. -/
structure IsQueue (s c : Nat) (q : KernelQueue) : Prop where
  length : q.length = c
  itemSize : q.itemSize = s
  le : q.items.length ≤ c
  items : ∀ item ∈ q.items, item.length = s

/-- There is a queue behind the handle. -/
def Created (s c : Nat) (q : Option KernelQueue) : Prop := ∃ q', q = some q' ∧ IsQueue s c q'

theorem created_createInit (s c : Nat) : Created s c (tklQueueCreateInit true s c).2 :=
  ⟨_, rfl, rfl, rfl, Nat.zero_le _, fun _ h => nomatch h⟩

theorem length_itemAt (q : KernelQueue) (data : Nat → UInt8) :
    (q.itemAt data).length = q.itemSize := by
  unfold KernelQueue.itemAt bytesAt
  rw [List.length_map, List.length_range]

theorem IsQueue.push {s c : Nat} {q : KernelQueue} (h : IsQueue s c q)
    (hlt : q.items.length < q.length) (data : Nat → UInt8) :
    IsQueue s c { q with items := q.items ++ [q.itemAt data] } := by
  refine ⟨h.length, h.itemSize, ?_, ?_⟩
  · rw [List.length_append]
    exact h.length ▸ hlt
  · intro item hitem
    rcases List.mem_append.mp hitem with hitem | hitem
    · exact h.items item hitem
    · rw [List.mem_singleton.mp hitem, length_itemAt, h.itemSize]

theorem IsQueue.pop {s c : Nat} {q : KernelQueue} (h : IsQueue s c q) {item : List UInt8}
    {items : List (List UInt8)} (hitems : q.items = item :: items) :
    item.length = s ∧ IsQueue s c { q with items } := by
  have hle := h.le
  have hall := h.items
  rw [hitems] at hle hall
  refine ⟨hall item List.mem_cons_self, h.length, h.itemSize, Nat.le_of_succ_le hle, ?_⟩
  exact fun item' hitem' => hall item' (List.mem_cons_of_mem _ hitem')

/-! ## One call -/

/-- A call that finds no room, or no message, does not return `OPRT_OK`. -/
theorem giveUp_ne_ok (expired : Bool) (ticks : UInt32) :
    (giveUp expired ticks 0).map queueRet ≠ some oprtOk := by
  have hfail : some oprtOsAdapterQueueSendFail ≠ some oprtOk := by decide
  unfold giveUp
  split
  · exact hfail
  · split
    · exact hfail
    · exact (Option.some_ne_none _).symm

/-- A post puts its message behind the others if there is room. -/
theorem post_cases (q : KernelQueue) (data : Nat → UInt8) (timeout : UInt32)
    (isr expired : Bool) :
    (q.items.length < q.length ∧ queueStep (some q) (.post data timeout isr expired) =
      (some { q with items := q.items ++ [q.itemAt data] }, some oprtOk, ⟨[], 0⟩)) ∨
    (¬q.items.length < q.length ∧ ∃ ret, ret ≠ some oprtOk ∧
      queueStep (some q) (.post data timeout isr expired) = (some q, ret, ⟨[], 0⟩)) := by
  unfold queueStep queueCall tklQueuePost xQueueSend xQueueSendFromISR
  by_cases hlt : q.items.length < q.length
  · left
    refine ⟨hlt, ?_⟩
    simp only [if_pos hlt]
    cases isr <;> rfl
  · right
    refine ⟨hlt, ?_⟩
    simp only [if_neg hlt]
    cases isr with
    | true => exact ⟨some oprtOsAdapterQueueSendFail, by decide, rfl⟩
    | false => exact ⟨_, giveUp_ne_ok expired (waitTicks timeout), rfl⟩

/-- A fetch takes the oldest message if there is one. -/
theorem fetch_cases (q : KernelQueue) (msg : Bool) (timeout : UInt32) (expired : Bool) :
    (∃ item items, q.items = item :: items ∧ queueStep (some q) (.fetch msg timeout expired) =
      (some { q with items }, some oprtOk, ⟨item, if msg then q.itemSize else 4⟩)) ∨
    (q.items = [] ∧ ∃ ret, ret ≠ some oprtOk ∧ queueStep (some q) (.fetch msg timeout expired) =
      (some q, ret, ⟨[], if msg then q.itemSize else 4⟩)) := by
  unfold queueStep queueCall tklQueueFetch xQueueReceive
  cases hitems : q.items with
  | nil =>
    right
    simp only [hitems]
    exact ⟨trivial, _, giveUp_ne_ok expired (waitTicks timeout), rfl⟩
  | cons item items =>
    left
    simp only [hitems]
    exact ⟨item, items, rfl, rfl⟩

/-- A call on a queue leaves a queue. -/
theorem created_step {s c : Nat} {q : Option KernelQueue} (h : Created s c q) (call : QueueCall) :
    Created s c (queueStep q call).1 := by
  obtain ⟨q, rfl, hq⟩ := h
  cases call with
  | post data timeout isr expired =>
    rcases post_cases q data timeout isr expired with ⟨hlt, heq⟩ | ⟨-, ret, -, heq⟩
    · rw [heq]
      exact ⟨_, rfl, hq.push hlt data⟩
    · rw [heq]
      exact ⟨q, rfl, hq⟩
  | fetch msg timeout expired =>
    rcases fetch_cases q msg timeout expired with ⟨item, items, hitems, heq⟩ | ⟨-, ret, -, heq⟩
    · rw [heq]
      exact ⟨_, rfl, (hq.pop hitems).2⟩
    · rw [heq]
      exact ⟨q, rfl, hq⟩

/-- What a call has put in is at the end, and what it has taken out was at the front. -/
theorem pending_balance {s c : Nat} {q : Option KernelQueue} (h : Created s c q)
    (call : QueueCall) :
    pending q ++ accepted q call = fetched q call ++ pending (queueStep q call).1 := by
  obtain ⟨q, rfl, -⟩ := h
  cases call with
  | post data timeout isr expired =>
    rcases post_cases q data timeout isr expired with ⟨-, heq⟩ | ⟨-, ret, hret, heq⟩
    · unfold accepted fetched
      simp only [heq]
      rfl
    · unfold accepted fetched
      simp only [heq, if_neg hret]
      exact List.append_nil _
  | fetch msg timeout expired =>
    have hnone : accepted (some q) (.fetch msg timeout expired) = [] := rfl
    rw [hnone, List.append_nil]
    rcases fetch_cases q msg timeout expired with ⟨item, items, hitems, heq⟩ | ⟨-, ret, hret, heq⟩
    · unfold fetched
      simp only [heq]
      exact hitems
    · unfold fetched
      simp only [heq, if_neg hret]
      rfl

theorem posted_ok {s c : Nat} {q : KernelQueue} (h : IsQueue s c q) {data : Nat → UInt8}
    {timeout : UInt32} {isr expired : Bool} {ret : OperateRet}
    (hret : (queueStep (some q) (.post data timeout isr expired)).2.1 = some ret) :
    ret ≠ oprtOk ↔ q.items.length = c := by
  have hle := h.le
  rcases post_cases q data timeout isr expired with ⟨hlt, hstep⟩ | ⟨hfull, r, hr, hstep⟩
  · rw [hstep] at hret
    obtain rfl := Option.some.inj hret
    exact iff_of_false (fun hne => hne rfl) (Nat.ne_of_lt (h.length ▸ hlt))
  · rw [hstep] at hret
    have hne : ret ≠ oprtOk := fun heq => hr (hret.trans (congrArg some heq))
    exact iff_of_true hne (Nat.le_antisymm hle (h.length ▸ Nat.le_of_not_lt hfull))

theorem fetched_ok {s c : Nat} {q : KernelQueue} (h : IsQueue s c q) {msg : Bool}
    {timeout : UInt32} {expired : Bool} {ret : OperateRet}
    (hret : (queueStep (some q) (.fetch msg timeout expired)).2.1 = some ret) :
    (ret ≠ oprtOk ↔ q.items = []) ∧
      pending (queueStep (some q) (.fetch msg timeout expired)).1 = q.items.tail ∧
      (ret = oprtOk →
        (queueStep (some q) (.fetch msg timeout expired)).2.2.bytes.length = s) := by
  rcases fetch_cases q msg timeout expired with
    ⟨item, items, hitems, hstep⟩ | ⟨hitems, r, hr, hstep⟩
  · rw [hstep] at hret ⊢
    obtain rfl := Option.some.inj hret
    rw [hitems]
    exact ⟨iff_of_false (fun hne => hne rfl) (List.cons_ne_nil _ _), rfl,
      fun _ => (h.pop hitems).1⟩
  · rw [hstep] at hret ⊢
    have hne : ret ≠ oprtOk := fun heq => hr (hret.trans (congrArg some heq))
    rw [hitems]
    exact ⟨iff_of_true hne rfl, hitems, fun heq => absurd heq hne⟩

/-- A call writes no more than it owns if and only if it does not discard a message that is larger
    than a pointer. -/
theorem memory_iff {s c : Nat} {q : KernelQueue} (h : IsQueue s c q) (call : QueueCall) :
    (queueStep (some q) call).2.2.bytes.length ≤ (queueStep (some q) call).2.2.owned ↔
      DiscardFits s (some q) call := by
  cases call with
  | post data timeout isr expired =>
    refine iff_of_true ?_ trivial
    rcases post_cases q data timeout isr expired with ⟨-, hstep⟩ | ⟨-, r, -, hstep⟩ <;>
      exact hstep ▸ Nat.le_refl 0
  | fetch msg timeout expired =>
    rcases fetch_cases q msg timeout expired with
      ⟨item, items, hitems, hstep⟩ | ⟨hitems, r, -, hstep⟩
    · rw [hstep]
      simp only [(h.pop hitems).1, h.itemSize]
      have hsome : pending (some q) ≠ [] := by
        show q.items ≠ []
        rw [hitems]
        exact List.cons_ne_nil _ _
      cases msg with
      | true => exact iff_of_true (Nat.le_refl s) (fun hmsg => nomatch hmsg)
      | false => exact ⟨fun hle _ => .inl hle, fun hfits => (hfits rfl).resolve_right hsome⟩
    · rw [hstep]
      exact iff_of_true (Nat.zero_le _) (fun _ => .inr hitems)

/-- On a queue a call does what it must if and only if it does not discard a message that is
    larger than a pointer. -/
theorem queueOk_iff {s c : Nat} {q : Option KernelQueue} (h : Created s c q) (call : QueueCall) :
    QueueOk s c q call ↔ DiscardFits s q call := by
  obtain ⟨q, rfl, hq⟩ := h
  constructor
  · exact fun hok => (memory_iff hq call).mp hok.memory
  · intro hfits
    constructor
    · rintro data timeout isr expired ret rfl hret
      exact posted_ok hq hret
    · rintro msg timeout expired ret rfl hret
      exact fetched_ok hq hret
    · exact (memory_iff hq call).mpr hfits

/-! ## Runs -/

/-- Whatever the calls on a new queue: the messages that have been taken out and those that wait
    are the accepted ones, in order. -/
theorem queue_fifo (s c : Nat) (calls : List QueueCall) :
    collect queueStep accepted (tklQueueCreateInit true s c).2 calls =
      collect queueStep fetched (tklQueueCreateInit true s c).2 calls ++
        pending (final queueStep (tklQueueCreateInit true s c).2 calls) :=
  collect_balance (I := Created s c)
    (fun _ call h => ⟨created_step h call, pending_balance h call⟩) (created_createInit s c) calls

/-- On a new queue for `c` messages of `s` bytes, whatever the calls: it is a bounded FIFO whose
    fetches write no more than they own, if and only if no fetch discards a message larger than a
    pointer. -/
theorem queue_fifo_iff (s c : Nat) (calls : List QueueCall) :
    let created := (tklQueueCreateInit true s c).2
    (Along queueStep (QueueOk s c) created calls ∧
      collect queueStep accepted created calls =
        collect queueStep fetched created calls ++ pending (final queueStep created calls)) ↔
      Along queueStep (DiscardFits s) created calls := by
  intro created
  have hiff : Along queueStep (QueueOk s c) created calls ↔
      Along queueStep (DiscardFits s) created calls :=
    along_congr (I := Created s c) (fun _ call h _ => created_step h call)
      (fun _ call h => queueOk_iff h call) (created_createInit s c) calls
  exact ⟨fun h => hiff.mp h.1, fun h => ⟨hiff.mpr h, queue_fifo s c calls⟩⟩

/-- A message of 8 bytes is discarded. -/
theorem queue_overflows : ¬∀ (s c : Nat) (calls : List QueueCall), 1 ≤ s → 1 ≤ c →
    Along queueStep (QueueOk s c) (tklQueueCreateInit true s c).2 calls := by
  intro h
  have hrun := h 8 1 [.post (fun _ => 0) 0 false false, .fetch false 0 false] (by decide)
    (by decide)
  exact absurd hrun.2.1.memory (by decide)

end ArduinoT2.System
