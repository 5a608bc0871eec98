import ArduinoT2.Serial.Fifo

/-
  A serial port under interrupt preemption (SerialUART.cpp, RingBuffer.h).

  A task holds the mutex over `read`, `peek` or `available`; the receive interrupt takes no lock
  and runs between any two accesses of the task to the members of the buffer, which are volatile.
  `read_char` stores the tail before it loads and stores the count: `settled` is the buffer as it
  is once the count has been stored. `rx_preempted` says when the count survives,
  `rx_preempted_lost` when it does not.
-/

namespace ArduinoT2.Serial

open StepSys BoundedQueue ArduinoT2.Api

/-! ## The accesses of a task -/

/-- The calls of a task that hold the mutex. -/
inductive RxOp
  | read | peek | available
  deriving DecidableEq

/-- Where a task is, with the values it has loaded. Each constructor but `idle` and `ret` is the
    point before one access to the buffer. -/
inductive RxPc
  | idle
  | readEmpty
  | readTail
  | readCell (tail : Fin 256)
  | readNextTail (value : UInt8)
  | readSetTail (value : UInt8) (tail : Fin 256)
  | readNum (value : UInt8)
  | readSetNum (value : UInt8) (num : Int)
  | peekEmpty
  | peekTail
  | peekCell (tail : Fin 256)
  | availableNum
  | ret (op : RxOp) (rt : Int)
  deriving DecidableEq

/-- The first access of a call. -/
def RxOp.entry : RxOp → RxPc
  | .read => .readEmpty
  | .peek => .peekEmpty
  | .available => .availableNum

/-- The next access of `read_char`, `peek` or `available`. -/
def rxAccess (r : RingBufferN 256) : RxPc → RingBufferN 256 × RxPc
  | .idle => (r, .idle)
  | .readEmpty => (r, if r.isEmpty then .ret .read (-1) else .readTail)
  | .readTail => (r, .readCell r.iTail)
  | .readCell tail => (r, .readNextTail (r.aucBuffer tail))
  | .readNextTail value => (r, .readSetTail value r.iTail)
  | .readSetTail value tail => ({ r with iTail := RingBufferN.nextIndex tail }, .readNum value)
  | .readNum value => (r, .readSetNum value r.numElems)
  | .readSetNum value num => ({ r with numElems := num - 1 }, .ret .read value.toNat)
  | .peekEmpty => (r, if r.isEmpty then .ret .peek (-1) else .peekTail)
  | .peekTail => (r, .peekCell r.iTail)
  | .peekCell tail => (r, .ret .peek (r.aucBuffer tail).toNat)
  | .availableNum => (r, .ret .available r.available)
  | .ret _ _ => (r, .idle)

/-- The ports, and the task that holds the mutex of one of them. -/
structure TaskState where
  serial : SerialState
  pc : RxPc

/-- A receive interrupt, a call, or the next access of the call under way. -/
inductive TaskEvent
  | irq (u : BkUart) (bytes : List UInt8)
  | call (op : RxOp)
  | access

/-- One event at port `p`. A call waits for the mutex while another one is under way. -/
def taskStep (p : SerialObj) (s : TaskState) : TaskEvent → TaskState × Option (RxOp × Int)
  | .irq u bytes => ({ s with serial := (uartStep s.serial (.rxCb u bytes)).1 }, none)
  | .call op => (if s.pc = .idle then { s with pc := op.entry } else s, none)
  | .access =>
    let x := s.serial.obj p
    let (rxBuffer, pc) := rxAccess x.rxBuffer s.pc
    ({ serial := s.serial.setObj p { x with rxBuffer }, pc },
      match s.pc with
      | .ret op rt => some (op, rt)
      | _ => none)

/-! ## The buffer between two accesses -/

/-- The buffer once the count of the byte taken has been stored. -/
def settled (r : RingBufferN 256) : RingBufferN 256 := { r with numElems := r.numElems - 1 }

/-- The tail has been stored, the count has not. -/
structure Unsettled (r : RingBufferN 256) : Prop where
  wf : (settled r).Wf
  le : r.numElems ≤ 256

/-- The values that the task has loaded still hold. -/
def PcOk (r : RingBufferN 256) : RxPc → Prop
  | .readTail => r.Wf ∧ r.contents ≠ []
  | .readCell tail => r.Wf ∧ r.contents ≠ [] ∧ tail = r.iTail
  | .readNextTail value => r.Wf ∧ r.contents.head? = some value
  | .readSetTail value tail => r.Wf ∧ r.contents.head? = some value ∧ tail = r.iTail
  | .readNum _ => Unsettled r
  | .readSetNum _ num => Unsettled r ∧ num = r.numElems
  | _ => r.Wf

/-- The bytes that reads have still to return, the one of the read under way included. -/
def undelivered (r : RingBufferN 256) : RxPc → List Int
  | .readNum value => RingBufferN.byteVal value :: (settled r).contents.map RingBufferN.byteVal
  | .readSetNum value _ =>
    RingBufferN.byteVal value :: (settled r).contents.map RingBufferN.byteVal
  | .ret .read rt => (if rt ≠ -1 then [rt] else []) ++ r.contents.map RingBufferN.byteVal
  | _ => r.contents.map RingBufferN.byteVal

/-- What a `read` that is about to return delivers. -/
def returned : RxPc → List Int
  | .ret .read rt => if rt ≠ -1 then [rt] else []
  | _ => []

theorem rxBufWrite_iTail (x : SerialUART) (c : UInt8) :
    (x.rxBufWrite c).rxBuffer.iTail = x.rxBuffer.iTail := by
  unfold SerialUART.rxBufWrite RingBufferN.storeChar
  split
  · split
    · rfl
    · rfl
  · rfl

theorem rxBufWrite_foldl_iTail (x : SerialUART) (bytes : List UInt8) :
    (bytes.foldl SerialUART.rxBufWrite x).rxBuffer.iTail = x.rxBuffer.iTail := by
  induction bytes generalizing x with
  | nil => rfl
  | cons c bytes ih => rw [List.foldl_cons, ih, rxBufWrite_iTail]

/-- What a byte does to a buffer that is not settled. -/
theorem rxBufWrite_unsettled {x : SerialUART} (h : Unsettled x.rxBuffer) (c : UInt8) :
    Unsettled (x.rxBufWrite c).rxBuffer ∧
      (settled (x.rxBufWrite c).rxBuffer).contents = (settled x.rxBuffer).contents ++
        if x.rxBuffer.availableForStore ≠ 0 then [c] else [] := by
  unfold SerialUART.rxBufWrite
  split
  · rename_i hroom
    have hne : x.rxBuffer.numElems ≠ 256 := by
      unfold RingBufferN.availableForStore at hroom
      omega
    have hle := h.le
    have hstore : settled (x.rxBuffer.storeChar c) = (settled x.rxBuffer).storeChar c := by
      unfold settled RingBufferN.storeChar RingBufferN.isFull
      have hfull : (x.rxBuffer.numElems - 1 == ((256 : Nat) : Int)) = false := by
        rw [beq_eq_false_iff_ne]
        omega
      have hfull' : (x.rxBuffer.numElems == ((256 : Nat) : Int)) = false :=
        beq_eq_false_iff_ne.mpr hne
      simp only [hfull, hfull', Bool.not_false, if_true, RingBufferN.mk.injEq, true_and]
      omega
    obtain ⟨hwf, hq⟩ := h.wf.storeChar c
    have hlt : (settled x.rxBuffer).contents.length < 256 := by
      have hnum := h.wf.numElems_eq
      have : (settled x.rxBuffer).numElems = x.rxBuffer.numElems - 1 := rfl
      omega
    refine ⟨⟨by rwa [hstore], ?_⟩, ?_⟩
    · have hnum : (settled (x.rxBuffer.storeChar c)).numElems ≤ 255 := by
        rw [hstore, hwf.numElems_eq, hq, offer_eq, if_pos hlt, List.length_append]
        have hnum := h.wf.numElems_eq
        have : (settled x.rxBuffer).numElems = x.rxBuffer.numElems - 1 := rfl
        simp only [List.length_singleton]
        omega
      have : (settled (x.rxBuffer.storeChar c)).numElems =
        (x.rxBuffer.storeChar c).numElems - 1 := rfl
      simp only
      omega
    · simp only
      rw [hstore, hq, offer_eq, if_pos hlt]
  · exact ⟨h, (List.append_nil _).symm⟩

theorem rxBufWrite_foldl_unsettled {x : SerialUART} (h : Unsettled x.rxBuffer)
    (bytes : List UInt8) : Unsettled (bytes.foldl SerialUART.rxBufWrite x).rxBuffer ∧
      (settled (bytes.foldl SerialUART.rxBufWrite x).rxBuffer).contents =
        (settled x.rxBuffer).contents ++ x.stored bytes := by
  induction bytes generalizing x with
  | nil => exact ⟨h, (List.append_nil _).symm⟩
  | cons c bytes ih =>
    obtain ⟨hun, hq⟩ := rxBufWrite_unsettled h c
    obtain ⟨hrest, hqs⟩ := ih hun
    refine ⟨hrest, ?_⟩
    rw [List.foldl_cons, hqs, hq, List.append_assoc]
    rfl

/-! ## What the interrupt keeps -/

theorem rxBufWrite_foldl_contents {x : SerialUART} (h : x.rxBuffer.Wf) (bytes : List UInt8) :
    (bytes.foldl SerialUART.rxBufWrite x).rxBuffer.Wf ∧
      (bytes.foldl SerialUART.rxBufWrite x).rxBuffer.contents =
        x.rxBuffer.contents ++ x.stored bytes := by
  rw [SerialUART.stored_eq h, ← foldl_offer]
  exact SerialUART.rxBufWrite_foldl h bytes

/-- A buffer that is full keeps its count. -/
theorem rxBufWrite_foldl_of_stored_nil {x : SerialUART} {bytes : List UInt8}
    (h : x.stored bytes = []) : bytes.foldl SerialUART.rxBufWrite x = x := by
  induction bytes with
  | nil => rfl
  | cons c bytes ih =>
    obtain ⟨hc, hrest⟩ := List.append_eq_nil_iff.mp h
    have hfull : ¬x.rxBuffer.availableForStore ≠ 0 := by
      intro hroom
      rw [if_pos hroom] at hc
      exact nomatch hc
    have hkeep : x.rxBufWrite c = x := if_neg hfull
    rw [hkeep] at hrest
    rw [List.foldl_cons, hkeep, ih hrest]

/-- The count is loaded and not yet stored. -/
def countInFlight : RxPc → Bool
  | .readSetNum _ _ => true
  | _ => false

theorem pcOk_irq {x : SerialUART} {pc : RxPc} (h : PcOk x.rxBuffer pc) {bytes : List UInt8}
    (hc : countInFlight pc = true → x.stored bytes = []) :
    PcOk (bytes.foldl SerialUART.rxBufWrite x).rxBuffer pc ∧
      undelivered (bytes.foldl SerialUART.rxBufWrite x).rxBuffer pc =
        undelivered x.rxBuffer pc ++ (x.stored bytes).map RingBufferN.byteVal := by
  have hwf : x.rxBuffer.Wf → (bytes.foldl SerialUART.rxBufWrite x).rxBuffer.Wf ∧
      (bytes.foldl SerialUART.rxBufWrite x).rxBuffer.contents.map RingBufferN.byteVal =
        x.rxBuffer.contents.map RingBufferN.byteVal ++
          (x.stored bytes).map RingBufferN.byteVal := by
    intro hw
    obtain ⟨hwf, hq⟩ := rxBufWrite_foldl_contents hw bytes
    exact ⟨hwf, by rw [hq, List.map_append]⟩
  -- the first byte stays where it is
  have hne : x.rxBuffer.Wf → x.rxBuffer.contents ≠ [] →
      (bytes.foldl SerialUART.rxBufWrite x).rxBuffer.contents ≠ [] := by
    intro hw hq
    rw [(rxBufWrite_foldl_contents hw bytes).2]
    exact List.append_ne_nil_of_left_ne_nil hq _
  have hhead : ∀ value, x.rxBuffer.Wf → x.rxBuffer.contents.head? = some value →
      (bytes.foldl SerialUART.rxBufWrite x).rxBuffer.contents.head? = some value := by
    intro value hw hq
    rw [(rxBufWrite_foldl_contents hw bytes).2, List.head?_append, hq]
    rfl
  have htail := rxBufWrite_foldl_iTail x bytes
  cases pc with
  | readTail => exact ⟨⟨(hwf h.1).1, hne h.1 h.2⟩, (hwf h.1).2⟩
  | readCell tail => exact ⟨⟨(hwf h.1).1, hne h.1 h.2.1, h.2.2.trans htail.symm⟩, (hwf h.1).2⟩
  | readNextTail value => exact ⟨⟨(hwf h.1).1, hhead value h.1 h.2⟩, (hwf h.1).2⟩
  | readSetTail value tail =>
    exact ⟨⟨(hwf h.1).1, hhead value h.1 h.2.1, h.2.2.trans htail.symm⟩, (hwf h.1).2⟩
  | readNum value =>
    obtain ⟨hun, hq⟩ := rxBufWrite_foldl_unsettled h bytes
    refine ⟨hun, ?_⟩
    unfold undelivered
    rw [hq, List.map_append, List.cons_append]
  | readSetNum value num =>
    have hnil := hc rfl
    rw [rxBufWrite_foldl_of_stored_nil hnil, hnil, List.map_nil, List.append_nil]
    exact ⟨h, rfl⟩
  | ret op rt =>
    refine ⟨(hwf h).1, ?_⟩
    cases op with
    | read =>
      unfold undelivered
      rw [(hwf h).2, List.append_assoc]
    | peek => exact (hwf h).2
    | available => exact (hwf h).2
  | idle => exact hwf h
  | readEmpty => exact hwf h
  | peekEmpty => exact hwf h
  | peekTail => exact hwf h
  | peekCell tail => exact hwf h
  | availableNum => exact hwf h

/-! ## What an access keeps -/

theorem head?_contents {r : RingBufferN 256} (h : r.Wf) (hne : r.contents ≠ []) :
    r.contents.head? = some (r.aucBuffer r.iTail) := by
  rcases h.contents_cases with ⟨-, hq⟩ | ⟨-, n, -, hq⟩
  · exact absurd hq hne
  · rw [hq, List.head?_cons]

theorem isEmpty_iff {r : RingBufferN 256} (h : r.Wf) : r.isEmpty = true ↔ r.contents = [] := by
  rcases h.contents_cases with ⟨hempty, hq⟩ | ⟨hempty, n, -, hq⟩
  · exact iff_of_true hempty hq
  · rw [hempty, hq]
    exact iff_of_false (fun h => nomatch h) (List.cons_ne_nil _ _)

/-- Storing the tail takes the first byte, up to the count. -/
theorem setTail_unsettled {r : RingBufferN 256} (h : r.Wf) {value : UInt8}
    (hq : r.contents.head? = some value) :
    Unsettled { r with iTail := RingBufferN.nextIndex r.iTail } ∧
      r.contents =
        value :: (settled { r with iTail := RingBufferN.nextIndex r.iTail }).contents := by
  have hempty : ¬r.isEmpty = true := by
    intro hempty
    rw [(isEmpty_iff h).mp hempty] at hq
    exact nomatch hq
  have hread : r.readChar.2 = settled { r with iTail := RingBufferN.nextIndex r.iTail } := by
    unfold RingBufferN.readChar
    rw [if_neg hempty]
    rfl
  obtain ⟨-, hwf, htail⟩ := h.readChar
  rw [hread] at hwf htail
  refine ⟨⟨hwf, ?_⟩, ?_⟩
  · have hnum := h.numElems_eq
    have hle := h.length_le
    simp only
    omega
  · rw [htail]
    exact (List.cons_head?_tail hq).symm

/-- An access keeps what is undelivered, except that a read that ends delivers its value. -/
theorem pcOk_access {r : RingBufferN 256} {pc : RxPc} (h : PcOk r pc) :
    PcOk (rxAccess r pc).1 (rxAccess r pc).2 ∧
      undelivered r pc = returned pc ++ undelivered (rxAccess r pc).1 (rxAccess r pc).2 := by
  cases pc with
  | idle => exact ⟨h, rfl⟩
  | readEmpty =>
    unfold rxAccess
    by_cases hempty : r.isEmpty = true
    · simp only [hempty, if_true]
      exact ⟨h, rfl⟩
    · simp only [hempty]
      exact ⟨⟨h, fun hq => hempty ((isEmpty_iff h).mpr hq)⟩, rfl⟩
  | readTail => exact ⟨⟨h.1, h.2, rfl⟩, rfl⟩
  | readCell tail =>
    obtain ⟨hwf, hne, rfl⟩ := h
    exact ⟨⟨hwf, head?_contents hwf hne⟩, rfl⟩
  | readNextTail value => exact ⟨⟨h.1, h.2, rfl⟩, rfl⟩
  | readSetTail value tail =>
    obtain ⟨hwf, hq, rfl⟩ := h
    obtain ⟨hun, hcontents⟩ := setTail_unsettled hwf hq
    refine ⟨hun, ?_⟩
    unfold undelivered rxAccess
    simp only
    rw [hcontents, List.map_cons]
    rfl
  | readNum value => exact ⟨⟨h, rfl⟩, rfl⟩
  | readSetNum value num =>
    obtain ⟨hun, rfl⟩ := h
    refine ⟨hun.wf, ?_⟩
    have hne : ((value.toNat : Nat) : Int) ≠ -1 := RingBufferN.byteVal_ne value
    unfold undelivered rxAccess
    simp only [if_pos hne]
    rfl
  | peekEmpty =>
    unfold rxAccess
    by_cases hempty : r.isEmpty = true
    · simp only [hempty, if_true]
      exact ⟨h, rfl⟩
    · simp only [hempty]
      exact ⟨h, rfl⟩
  | peekTail => exact ⟨h, rfl⟩
  | peekCell tail => exact ⟨h, rfl⟩
  | availableNum => exact ⟨h, rfl⟩
  | ret op rt => cases op <;> exact ⟨h, rfl⟩

/-! ## Runs -/

/-- Port `p` as its interrupts and its task find it. -/
structure TaskOk (p : SerialObj) (s : TaskState) : Prop where
  wired : Wired p s.serial
  pc : PcOk (s.serial.obj p).rxBuffer s.pc

/-- No receive interrupt stores a byte at the port between the load of the count in `read_char`
    and its store. -/
def Unpreempted (p : SerialObj) (s : TaskState) : TaskEvent → Prop
  | .irq u bytes => countInFlight s.pc = true → acceptedAt p s.serial (.rxCb u bytes) = []
  | _ => True

/-- The bytes that an event stores at the port. -/
def storedBy (p : SerialObj) (s : TaskState) : TaskEvent → List UInt8
  | .irq u bytes => acceptedAt p s.serial (.rxCb u bytes)
  | _ => []

/-- What a `read` returns when it ends, -1 left out. -/
def deliveredBy (p : SerialObj) (s : TaskState) (e : TaskEvent) : List Int :=
  match (taskStep p s e).2 with
  | some (.read, rt) => if rt ≠ -1 then [rt] else []
  | _ => []

/-- An interrupt of the port, or of another one, between two accesses. -/
theorem taskOk_irq {p : SerialObj} {s : TaskState} (h : TaskOk p s) {u : BkUart}
    {bytes : List UInt8} (hc : Unpreempted p s (.irq u bytes)) :
    TaskOk p (taskStep p s (.irq u bytes)).1 ∧
      undelivered (s.serial.obj p).rxBuffer s.pc ++
          (storedBy p s (.irq u bytes)).map RingBufferN.byteVal =
        undelivered ((taskStep p s (.irq u bytes)).1.serial.obj p).rxBuffer s.pc := by
  obtain ⟨hwired, hobj⟩ := h.wired.rxCb u bytes
  have hstored : storedBy p s (.irq u bytes) =
      if u = uartOf p then (s.serial.obj p).stored bytes else [] := h.wired.acceptedAt u bytes
  by_cases hu : u = uartOf p
  · rw [if_pos hu] at hobj hstored
    have hin : countInFlight s.pc = true → (s.serial.obj p).stored bytes = [] := by
      intro hpc
      rw [← hstored]
      exact hc hpc
    obtain ⟨hpc, hbal⟩ := pcOk_irq h.pc hin
    rw [← hobj] at hpc hbal
    rw [hstored]
    exact ⟨⟨hwired, hpc⟩, hbal.symm⟩
  · rw [if_neg hu] at hobj hstored
    have hpc := h.pc
    rw [← hobj] at hpc
    refine ⟨⟨hwired, hpc⟩, ?_⟩
    rw [hstored, ← hobj]
    exact List.append_nil _

/-- A call begins if none is running. -/
theorem taskOk_call {p : SerialObj} {s : TaskState} (h : TaskOk p s) (op : RxOp) :
    TaskOk p (taskStep p s (.call op)).1 ∧ undelivered (s.serial.obj p).rxBuffer s.pc =
      undelivered ((taskStep p s (.call op)).1.serial.obj p).rxBuffer
        (taskStep p s (.call op)).1.pc := by
  show TaskOk p (if s.pc = .idle then { s with pc := op.entry } else s) ∧
    undelivered (s.serial.obj p).rxBuffer s.pc =
      undelivered ((if s.pc = .idle then { s with pc := op.entry } else s).serial.obj p).rxBuffer
        (if s.pc = .idle then { s with pc := op.entry } else s).pc
  split
  · rename_i hidle
    have hwf := h.pc
    rw [hidle] at hwf ⊢
    refine ⟨⟨h.wired, ?_⟩, ?_⟩
    · cases op <;> exact hwf
    · cases op <;> rfl
  · exact ⟨h, rfl⟩

/-- An access of the call that is running. -/
theorem taskOk_access {p : SerialObj} {s : TaskState} (h : TaskOk p s) :
    TaskOk p (taskStep p s .access).1 ∧ undelivered (s.serial.obj p).rxBuffer s.pc =
      deliveredBy p s .access ++
        undelivered ((taskStep p s .access).1.serial.obj p).rxBuffer
          (taskStep p s .access).1.pc := by
  obtain ⟨hpc, hbal⟩ := pcOk_access h.pc
  have hobj : ((taskStep p s .access).1.serial.obj p).rxBuffer =
      (rxAccess (s.serial.obj p).rxBuffer s.pc).1 := by
    unfold taskStep SerialState.setObj
    simp only [Function.update_self]
  have hdel : deliveredBy p s .access = returned s.pc := by
    unfold deliveredBy taskStep
    cases s.pc with
    | ret op rt => cases op <;> rfl
    | _ => rfl
  refine ⟨⟨⟨h.wired.own, h.wired.other, h.wired.drained⟩, ?_⟩, ?_⟩
  · rw [hobj]
    exact hpc
  · rw [hobj, hdel]
    exact hbal

theorem taskOk_step {p : SerialObj} (s : TaskState) (e : TaskEvent) (h : TaskOk p s)
    (hc : Unpreempted p s e) : TaskOk p (taskStep p s e).1 ∧
      undelivered (s.serial.obj p).rxBuffer s.pc ++
          (storedBy p s e).map RingBufferN.byteVal =
        deliveredBy p s e ++
          undelivered ((taskStep p s e).1.serial.obj p).rxBuffer (taskStep p s e).1.pc := by
  cases e with
  | irq u bytes => exact taskOk_irq h hc
  | call op =>
    obtain ⟨hok, hbytes⟩ := taskOk_call h op
    exact ⟨hok, (List.append_nil _).trans hbytes⟩
  | access =>
    obtain ⟨hok, hbal⟩ := taskOk_access h
    exact ⟨hok, (List.append_nil _).trans hbal⟩

/-- The state in which port `p` has begun, and ports `others` before it. -/
def TaskState.begun (p : SerialObj) (others : List SerialObj) : TaskState where
  serial := (others.foldl SerialState.begin SerialState.static).begin p
  pc := .idle

theorem taskOk_begun (p : SerialObj) (others : List SerialObj) :
    TaskOk p (.begun p others) ∧ undelivered ((TaskState.begun p others).serial.obj p).rxBuffer
      (TaskState.begun p others).pc = [] := by
  obtain ⟨hbegun, hempty⟩ := begun_begin (fresh_foldl others) p
  exact ⟨⟨hbegun.wired, hbegun.wf⟩, congrArg (List.map RingBufferN.byteVal) hempty⟩

/-- Count, tail and head of a buffer that stores a queue. -/
theorem numElems_mod {r : RingBufferN 256} (h : r.Wf) :
    0 ≤ r.numElems ∧ r.numElems ≤ 256 ∧
      r.numElems % 256 = ((r.iHead.val : Int) - r.iTail.val) % 256 := by
  have hlen := h.length_le
  have hnum := h.numElems_eq
  have hhead : r.iHead.val = (r.iTail.val + r.numElems.toNat) % 256 :=
    congrArg Fin.val h.layout.head
  refine ⟨h.nonneg, by omega, ?_⟩
  omega

/-- The receive buffer of a port under preemption, over every run in which no interrupt stores a
    byte between the load and the store of the count. Whenever no call is under way the count is
    the distance from tail to head, and every byte stored is either delivered, once and in order,
    or still in the buffer. -/
theorem rx_preempted (p : SerialObj) (others : List SerialObj) (es : List TaskEvent)
    (h : Along (taskStep p) (Unpreempted p) (.begun p others) es) :
    let s := final (taskStep p) (.begun p others) es
    let r := (s.serial.obj p).rxBuffer
    let stored := collect (taskStep p) (storedBy p) (.begun p others) es
    let delivered := collect (taskStep p) (deliveredBy p) (.begun p others) es
    s.pc = .idle →
      r.numElems % 256 = ((r.iHead.val : Int) - r.iTail.val) % 256 ∧
      0 ≤ r.numElems ∧ r.numElems ≤ 256 ∧
      stored.map RingBufferN.byteVal = delivered ++ r.contents.map RingBufferN.byteVal ∧
      (r.contents.length : Int) = r.numElems ∧
      (∀ bytes, storedBy p s (.irq (uartOf p) bytes) = bytes.take (256 - r.contents.length)) := by
  intro s r stored delivered hidle
  obtain ⟨hok₀, hnone⟩ := taskOk_begun p others
  have hok : TaskOk p s := final_of_along (fun s e hi hc => (taskOk_step s e hi hc).1) hok₀ h
  have hwf : r.Wf := by
    have := hok.pc
    rwa [hidle] at this
  obtain ⟨h0, hle, hmod⟩ := numElems_mod hwf
  refine ⟨hmod, h0, hle, ?_, hwf.numElems_eq.symm, ?_⟩
  · have hrun := collect_balance_of (fun s e hi hc => taskOk_step s e hi hc) hok₀ h
    rw [hnone, List.nil_append, collect_map] at hrun
    have hund : undelivered r s.pc = r.contents.map RingBufferN.byteVal := by rw [hidle]; rfl
    rw [← hund]
    exact hrun
  · intro bytes
    have haccepted := acceptedAt_begun (hok.wired.begun hwf) (uartOf p) bytes
    rw [if_pos rfl] at haccepted
    exact haccepted

/-- The port when its first byte has arrived. -/
theorem first_byte (p : SerialObj) (others : List SerialObj) (b : UInt8) :
    let s := (taskStep p (.begun p others) (.irq (uartOf p) [b])).1
    TaskOk p s ∧ s.pc = .idle ∧ (s.serial.obj p).rxBuffer.contents.length = 1 := by
  obtain ⟨hok, hnone⟩ := taskOk_begun p others
  obtain ⟨hok', hbal⟩ := taskOk_step _ (.irq (uartOf p) [b]) hok (fun h => nomatch h)
  have hstored : storedBy p (.begun p others) (.irq (uartOf p) [b]) = [b] := by
    obtain ⟨hbegun, hempty⟩ := begun_begin (fresh_foldl others) p
    have := acceptedAt_begun hbegun (uartOf p) [b]
    rwa [if_pos rfl, hempty] at this
  rw [hnone, hstored] at hbal
  refine ⟨hok', rfl, ?_⟩
  rw [← List.length_map RingBufferN.byteVal]
  exact (congrArg List.length hbal).symm

/-- A read with an interrupt before the tail is stored, and one between the tail and the load of
    the count. -/
def readPreempted (p : SerialObj) (c d : UInt8) : List TaskEvent :=
  [.call .read, .access, .access, .access, .irq (uartOf p) [c], .access, .access,
    .irq (uartOf p) [d], .access, .access, .access]

theorem readPreempted_ends {p : SerialObj} {s : TaskState} (hidle : s.pc = .idle)
    (hne : (s.serial.obj p).rxBuffer.isEmpty = false) (c d : UInt8) :
    Along (taskStep p) (Unpreempted p) s (readPreempted p c d) ∧
      (final (taskStep p) s (readPreempted p c d)).pc = .idle := by
  unfold readPreempted
  simp [taskStep, rxAccess, RxOp.entry, SerialState.setObj, Unpreempted, countInFlight, hidle, hne]

/-- The byte 7 arrives, and a read takes it while 8 and 9 arrive. -/
theorem rx_preempted_sample :
    let es := .irq (uartOf .serialUART0) [7] :: readPreempted .serialUART0 8 9
    let s := final (taskStep .serialUART0) (.begun .serialUART0 []) es
    let r := (s.serial.obj .serialUART0).rxBuffer
    let stored :=
      collect (taskStep .serialUART0) (storedBy .serialUART0) (.begun .serialUART0 []) es
    let delivered :=
      collect (taskStep .serialUART0) (deliveredBy .serialUART0) (.begun .serialUART0 []) es
    r.numElems % 256 = ((r.iHead.val : Int) - r.iTail.val) % 256 ∧
      stored.map RingBufferN.byteVal = delivered ++ r.contents.map RingBufferN.byteVal ∧
      (r.contents.length : Int) = r.numElems := by
  obtain ⟨hok, hidle, hlen⟩ := first_byte .serialUART0 [] 7
  have hwf := hok.pc
  rw [hidle] at hwf
  have hne : ((taskStep .serialUART0 (.begun .serialUART0 [])
      (.irq (uartOf .serialUART0) [7])).1.serial.obj .serialUART0).rxBuffer.isEmpty = false := by
    refine Bool.eq_false_iff.mpr fun hempty => ?_
    rw [(isEmpty_iff hwf).mp hempty] at hlen
    cases hlen
  obtain ⟨halong, hend⟩ := readPreempted_ends hidle hne 8 9
  have h := rx_preempted .serialUART0 []
    (.irq (uartOf .serialUART0) [7] :: readPreempted .serialUART0 8 9)
    ⟨(fun h => nomatch h), halong⟩ hend
  exact ⟨h.1, h.2.2.2.1, h.2.2.2.2.1⟩

/-! ## The lost update -/

/-- The accesses of `read_char` up to the load of the count, with no interrupt between them. -/
def readToCount : List TaskEvent :=
  [.call .read, .access, .access, .access, .access, .access, .access]

theorem final_readToCount {p : SerialObj} {s : TaskState} (hidle : s.pc = .idle)
    (hne : (s.serial.obj p).rxBuffer.isEmpty = false) :
    final (taskStep p) s readToCount =
      let x := s.serial.obj p
      let r := x.rxBuffer
      { serial := s.serial.setObj p
          { x with rxBuffer := { r with iTail := RingBufferN.nextIndex r.iTail } }
        pc := .readSetNum (r.aucBuffer r.iTail) r.numElems } := by
  unfold readToCount
  simp [taskStep, rxAccess, RxOp.entry, SerialState.setObj, hidle, hne]

/-- With nothing between them, the accesses do what `read` does. -/
theorem final_read {p : SerialObj} {s : TaskState} (hidle : s.pc = .idle)
    (hne : (s.serial.obj p).rxBuffer.isEmpty = false) :
    final (taskStep p) s (readToCount ++ [.access, .access]) =
      { serial := s.serial.setObj p (s.serial.obj p).read.2, pc := .idle } := by
  rw [final_append, final_readToCount hidle hne]
  simp [taskStep, rxAccess, SerialState.setObj, SerialUART.read, RingBufferN.readChar, hne]

/-- Bytes that come between the load and the store of the count are missing in it. -/
theorem preempted_count {p : SerialObj} {s : TaskState} (h : TaskOk p s) {value : UInt8}
    {num : Int} (hpc : s.pc = .readSetNum value num) (bytes : List UInt8) :
    let s' := final (taskStep p) s [.irq (uartOf p) bytes, .access, .access]
    let r := (s'.serial.obj p).rxBuffer
    s'.pc = .idle ∧ (r.numElems % 256 = ((r.iHead.val : Int) - r.iTail.val) % 256 ↔
      storedBy p s (.irq (uartOf p) bytes) = []) := by
  intro s' r
  obtain ⟨hun, hnum⟩ : PcOk (s.serial.obj p).rxBuffer (.readSetNum value num) := by
    rw [← hpc]
    exact h.pc
  obtain ⟨-, hobj⟩ := h.wired.rxCb (uartOf p) bytes
  rw [if_pos rfl] at hobj
  have hr : r = { (bytes.foldl SerialUART.rxBufWrite (s.serial.obj p)).rxBuffer with
      numElems := num - 1 } := by
    show ((final (taskStep p) s
      [.irq (uartOf p) bytes, .access, .access]).serial.obj p).rxBuffer = _
    simp only [final_cons, final_nil, taskStep, SerialState.setObj, Function.update_self, hpc,
      rxAccess, hobj]
  have hidle : s'.pc = .idle := by
    show (final (taskStep p) s [.irq (uartOf p) bytes, .access, .access]).pc = .idle
    simp only [final_cons, final_nil, taskStep, hpc, rxAccess]
  have hstored : storedBy p s (.irq (uartOf p) bytes) = (s.serial.obj p).stored bytes := by
    have := h.wired.acceptedAt (uartOf p) bytes
    rwa [if_pos rfl] at this
  obtain ⟨hun', hq⟩ := rxBufWrite_foldl_unsettled hun bytes
  have hlen := congrArg List.length hq
  rw [List.length_append] at hlen
  have hcount : num - 1 = ((settled (s.serial.obj p).rxBuffer).contents.length : Int) := by
    rw [← hun.wf.numElems_eq, hnum]
    rfl
  have hcount' : (bytes.foldl SerialUART.rxBufWrite (s.serial.obj p)).rxBuffer.numElems - 1 = _ :=
    hun'.wf.numElems_eq
  have hmod : ((bytes.foldl SerialUART.rxBufWrite (s.serial.obj p)).rxBuffer.numElems - 1) % 256 =
      _ := (numElems_mod hun'.wf).2.2
  have hle := hun'.le
  refine ⟨hidle, ?_⟩
  rw [hstored, hr, ← List.length_eq_zero_iff]
  rw [show (settled (bytes.foldl SerialUART.rxBufWrite (s.serial.obj p)).rxBuffer).iHead =
    (bytes.foldl SerialUART.rxBufWrite (s.serial.obj p)).rxBuffer.iHead from rfl,
    show (settled (bytes.foldl SerialUART.rxBufWrite (s.serial.obj p)).rxBuffer).iTail =
    (bytes.foldl SerialUART.rxBufWrite (s.serial.obj p)).rxBuffer.iTail from rfl] at hmod
  simp only
  omega

/-- A read of a port with a first byte and room for another, preempted there. -/
theorem preempted_read {p : SerialObj} {s : TaskState} (h : TaskOk p s) (hidle : s.pc = .idle)
    (hne : (s.serial.obj p).rxBuffer.contents ≠ [])
    (hroom : (s.serial.obj p).rxBuffer.contents.length < 256) (c : UInt8) :
    let s' := final (taskStep p) s (readToCount ++ [.irq (uartOf p) [c], .access, .access])
    let r := (s'.serial.obj p).rxBuffer
    s'.pc = .idle ∧ r.numElems % 256 ≠ ((r.iHead.val : Int) - r.iTail.val) % 256 := by
  intro s' r
  have hwf : (s.serial.obj p).rxBuffer.Wf := by
    have := h.pc
    rwa [hidle] at this
  have hempty : (s.serial.obj p).rxBuffer.isEmpty = false :=
    Bool.eq_false_iff.mpr fun hempty => hne ((isEmpty_iff hwf).mp hempty)
  have hload := final_readToCount hidle hempty
  have hok : TaskOk p (final (taskStep p) s readToCount) :=
    final_of_along (fun s e hi hc => (taskOk_step s e hi hc).1) h
      ⟨trivial, trivial, trivial, trivial, trivial, trivial, trivial, trivial⟩
  have hpc := congrArg TaskState.pc hload
  have hobj := congrArg (fun s => (s.serial.obj p).rxBuffer) hload
  simp only [SerialState.setObj, Function.update_self] at hpc hobj
  have hstored : storedBy p (final (taskStep p) s readToCount) (.irq (uartOf p) [c]) ≠ [] := by
    have hcount := hwf.numElems_eq
    have := hok.wired.acceptedAt (uartOf p) [c]
    rw [if_pos rfl] at this
    show acceptedAt p _ (.rxCb (uartOf p) [c]) ≠ []
    rw [this, SerialUART.stored, hobj, if_pos]
    · exact List.cons_ne_nil _ _
    · unfold RingBufferN.availableForStore
      simp only
      omega
  obtain ⟨hidle', hiff⟩ := preempted_count hok hpc [c]
  have hs' : s' = final (taskStep p) (final (taskStep p) s readToCount)
      [.irq (uartOf p) [c], .access, .access] := final_append (taskStep p) s readToCount _
  have hr : r = ((final (taskStep p) (final (taskStep p) s readToCount)
      [.irq (uartOf p) [c], .access, .access]).serial.obj p).rxBuffer := by rw [← hs']
  rw [hs', hr]
  exact ⟨hidle', hiff.not.mpr hstored⟩

/-- With one byte pending and one more arriving there, the count ends at 0 with one byte left. -/
theorem rx_preempted_lost :
    ¬ ∀ (p : SerialObj) (others : List SerialObj) (es : List TaskEvent),
      let s := final (taskStep p) (.begun p others) es
      let r := (s.serial.obj p).rxBuffer
      s.pc = .idle → r.numElems % 256 = ((r.iHead.val : Int) - r.iTail.val) % 256 := by
  intro h
  obtain ⟨hok, hidle, hlen⟩ := first_byte .serialUART0 [] 1
  have hrun := h .serialUART0 [] (.irq (uartOf .serialUART0) [1] ::
    (readToCount ++ [.irq (uartOf .serialUART0) [2], .access, .access]))
  simp only [final_cons] at hrun
  have hne : ∀ q : List UInt8, q.length = 1 → q ≠ [] ∧ q.length < 256 := by
    rintro q hq
    exact ⟨List.ne_nil_of_length_eq_add_one hq, by omega⟩
  obtain ⟨hne, hroom⟩ := hne _ hlen
  obtain ⟨hend, hwrong⟩ := preempted_read hok hidle hne hroom 2
  exact hwrong (hrun hend)

end ArduinoT2.Serial
