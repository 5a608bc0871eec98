import ArduinoT2.Lib.StepSys
import ArduinoT2.Serial.SerialUart

/-
  The receive buffer of a serial port over whole runs: a queue of at most 256 bytes.

  `uartRxLoop_eq` says what the callback does, `begun_step` what a call does for a port that has
  begun. `serial_fifo` follows by the balance of the bytes that a run has stored and read.
-/

namespace ArduinoT2.Serial

open StepSys BoundedQueue ArduinoT2.Api

/-! ## The buffer of one object -/

namespace SerialUART

/-- The bytes that are stored, of those handed to `__rxBufWrite` one behind the other. -/
def stored (x : SerialUART) : List UInt8 → List UInt8
  | [] => []
  | c :: cs => (if x.rxBuffer.availableForStore ≠ 0 then [c] else []) ++ (x.rxBufWrite c).stored cs

theorem rxBufWrite_spec {x : SerialUART} (h : x.rxBuffer.Wf) (c : UInt8) :
    (x.rxBufWrite c).rxBuffer.Wf ∧
      (x.rxBufWrite c).rxBuffer.contents = offer 256 x.rxBuffer.contents c := by
  unfold rxBufWrite
  split
  · exact h.storeChar c
  · rename_i hfull
    rw [h.availableForStore] at hfull
    exact ⟨h, (if_neg hfull).symm⟩

/-- The bytes handed to `__rxBufWrite` are offered to the queue. -/
theorem rxBufWrite_foldl {x : SerialUART} (h : x.rxBuffer.Wf) (cs : List UInt8) :
    (cs.foldl rxBufWrite x).rxBuffer.Wf ∧
      (cs.foldl rxBufWrite x).rxBuffer.contents = cs.foldl (offer 256) x.rxBuffer.contents := by
  induction cs generalizing x with
  | nil => exact ⟨h, rfl⟩
  | cons c cs ih =>
    obtain ⟨hwf, hq⟩ := rxBufWrite_spec h c
    rw [List.foldl_cons, List.foldl_cons, ← hq]
    exact ih hwf

/-- The bytes that the code stores are those that the queue admits. -/
theorem stored_eq {x : SerialUART} (h : x.rxBuffer.Wf) (cs : List UInt8) :
    x.stored cs = admitted 256 x.rxBuffer.contents cs := by
  induction cs generalizing x with
  | nil => rfl
  | cons c cs ih =>
    obtain ⟨hwf, hq⟩ := rxBufWrite_spec h c
    rw [stored, admitted, ih hwf, hq]
    exact congrArg (· ++ _) (if_congr h.availableForStore rfl rfl)

theorem read_spec {x : SerialUART} (h : x.rxBuffer.Wf) :
    x.read.1 = RingBufferN.front x.rxBuffer.contents ∧ x.read.2.rxBuffer.Wf ∧
      x.read.2.rxBuffer.contents = x.rxBuffer.contents.tail := h.readChar

theorem peek_spec {x : SerialUART} (h : x.rxBuffer.Wf) :
    x.peek = RingBufferN.front x.rxBuffer.contents := h.peek

theorem available_spec {x : SerialUART} (h : x.rxBuffer.Wf) :
    x.available = x.rxBuffer.contents.length := h.numElems_eq

end SerialUART

/-! ## The callback -/

theorem bkUart_irqPortId (u : BkUart) : bkUart (irqPortId u) = some u := by
  cases u <;> rfl

theorem irqPortId_injective {u v : BkUart} (h : irqPortId u = irqPortId v) : u = v :=
  Option.some.inj (by rw [← bkUart_irqPortId u, h, bkUart_irqPortId v])

/-- The callback hands the whole FIFO to the object, in order. -/
theorem uartRxLoop_eq (s : SerialState) (u : BkUart) (o : SerialObj) :
    uartRxLoop s (irqPortId u) o =
      { s with
        obj := Function.update s.obj o ((s.rxFifo u).foldl SerialUART.rxBufWrite (s.obj o))
        rxFifo := Function.update s.rxFifo u [] } := by
  have hport := bkUart_irqPortId u
  generalize hfifo : s.rxFifo u = bs
  induction bs generalizing s with
  | nil =>
    have hstop : (tklUartRead s (irqPortId u) 1).1 ≠ 1 := by
      rw [tklUartRead_nil hport hfifo]
      exact fun h => nomatch h
    rw [uartRxLoop, dif_neg hstop, tklUartRead_nil hport hfifo, List.foldl_nil,
      Function.update_eq_self, ← hfifo, Function.update_eq_self]
  | cons b bs ih =>
    have hread := tklUartRead_cons hport hfifo
    have hgo : (tklUartRead s (irqPortId u) 1).1 = 1 := by rw [hread]
    rw [uartRxLoop, dif_pos hgo, hread]
    rw [ih _ (by exact Function.update_self u bs s.rxFifo)]
    simp [SerialState.setObj]

/-- What a receive interrupt does, by the pointer of its port. -/
theorem rxCb_cases (s : SerialState) (u : BkUart) (bytes : List UInt8) :
    (s.serialPtr (irqPortId u) = none ∧ (uartStep s (.rxCb u bytes)).1 =
      { s with rxFifo := Function.update s.rxFifo u (s.rxFifo u ++ bytes) }) ∨
    (∃ o, s.serialPtr (irqPortId u) = some o ∧ (uartStep s (.rxCb u bytes)).1 =
      { s with
        obj := Function.update s.obj o
          ((s.rxFifo u ++ bytes).foldl SerialUART.rxBufWrite (s.obj o))
        rxFifo := Function.update s.rxFifo u [] }) := by
  unfold uartStep uartRxCb
  cases hptr : s.serialPtr (irqPortId u) with
  | none =>
    left
    simp only [hptr]
    exact ⟨trivial, trivial⟩
  | some o =>
    right
    refine ⟨o, rfl, ?_⟩
    simp only [hptr, uartRxLoop_eq, Function.update_self, Function.update_idem]

/-! ## A port that has begun -/

/-- The UART of an object. -/
def uartOf : SerialObj → BkUart
  | .serialUART0 => .bkUart1
  | .serialUART1 => .bkUart2

/-- The interrupts of its UART, and no others, reach the port, and they have emptied the FIFO. -/
structure Wired (p : SerialObj) (s : SerialState) : Prop where
  own : s.serialPtr (irqPortId (uartOf p)) = some p
  other : ∀ u, s.serialPtr (irqPortId u) = some p → u = uartOf p
  drained : s.rxFifo (uartOf p) = []

/-- The port is wired, and its buffer stores a queue. -/
structure Begun (p : SerialObj) (s : SerialState) : Prop where
  wf : (s.obj p).rxBuffer.Wf
  own : s.serialPtr (irqPortId (uartOf p)) = some p
  other : ∀ u, s.serialPtr (irqPortId u) = some p → u = uartOf p
  drained : s.rxFifo (uartOf p) = []

theorem Begun.wired {p : SerialObj} {s : SerialState} (h : Begun p s) : Wired p s :=
  ⟨h.own, h.other, h.drained⟩

theorem Wired.begun {p : SerialObj} {s : SerialState} (h : Wired p s)
    (hwf : (s.obj p).rxBuffer.Wf) : Begun p s := ⟨hwf, h.own, h.other, h.drained⟩

/-- An interrupt of its UART hands the bytes to a wired port, and one of the other UART
    leaves it. -/
theorem Wired.rxCb {p : SerialObj} {s : SerialState} (h : Wired p s) (u : BkUart)
    (bytes : List UInt8) : Wired p (uartStep s (.rxCb u bytes)).1 ∧
      (uartStep s (.rxCb u bytes)).1.obj p =
        if u = uartOf p then bytes.foldl SerialUART.rxBufWrite (s.obj p) else s.obj p := by
  by_cases hu : u = uartOf p
  · subst hu
    rw [if_pos rfl]
    rcases rxCb_cases s (uartOf p) bytes with ⟨hptr, -⟩ | ⟨o, hptr, hs'⟩
    · exact nomatch hptr.symm.trans h.own
    · obtain rfl : o = p := Option.some.inj (hptr.symm.trans h.own)
      have hobj := congrArg (fun s => s.obj o) hs'
      simp only [Function.update_self, h.drained, List.nil_append] at hobj
      refine ⟨?_, hobj⟩
      rw [hs']
      exact ⟨h.own, h.other, Function.update_self _ _ _⟩
  · rw [if_neg hu]
    rcases rxCb_cases s u bytes with ⟨-, hs'⟩ | ⟨o, hptr, hs'⟩
    · rw [hs']
      exact ⟨⟨h.own, h.other, (Function.update_of_ne (Ne.symm hu) _ _).trans h.drained⟩, rfl⟩
    · have ho : p ≠ o := by
        rintro rfl
        exact hu (h.other u hptr)
      rw [hs']
      exact ⟨⟨h.own, h.other, (Function.update_of_ne (Ne.symm hu) _ _).trans h.drained⟩,
        Function.update_of_ne ho _ _⟩

/-- The bytes that a call stores at a port. -/
def acceptedAt (p : SerialObj) (s : SerialState) : UartCall → List UInt8
  | .rxCb u bytes =>
    if s.serialPtr (irqPortId u) = some p then (s.obj p).stored (s.rxFifo u ++ bytes) else []
  | _ => []

/-- What a `read` of a port returns, -1 left out. -/
def readAt (p : SerialObj) (s : SerialState) : UartCall → List Int
  | .read o =>
    if o = p ∧ (uartStep s (.read o)).2 ≠ -1 then [(uartStep s (.read o)).2] else []
  | _ => []

/-- The bytes that wait at a port. -/
def waiting (p : SerialObj) (s : SerialState) : List UInt8 := (s.obj p).rxBuffer.contents

@[simp] theorem acceptedAt_rxCb (p : SerialObj) (s : SerialState) (u : BkUart)
    (bytes : List UInt8) : acceptedAt p s (.rxCb u bytes) =
      if s.serialPtr (irqPortId u) = some p then (s.obj p).stored (s.rxFifo u ++ bytes) else [] :=
  rfl

@[simp] theorem readAt_read (p : SerialObj) (s : SerialState) (o : SerialObj) :
    readAt p s (.read o) =
      if o = p ∧ (s.obj o).read.1 ≠ -1 then [(s.obj o).read.1] else [] := rfl

@[simp] theorem uartStep_read (s : SerialState) (o : SerialObj) :
    uartStep s (.read o) = (s.setObj o (s.obj o).read.2, (s.obj o).read.1) := rfl

/-- What an interrupt stores at a wired port. -/
theorem Wired.acceptedAt {p : SerialObj} {s : SerialState} (h : Wired p s) (u : BkUart)
    (bytes : List UInt8) : acceptedAt p s (.rxCb u bytes) =
      if u = uartOf p then (s.obj p).stored bytes else [] := by
  rw [acceptedAt_rxCb]
  by_cases hu : u = uartOf p
  · rw [if_pos hu, hu, if_pos h.own, h.drained, List.nil_append]
  · rw [if_neg hu, if_neg (fun hptr => hu (h.other u hptr))]

theorem begun_rxCb {p : SerialObj} {s : SerialState} (h : Begun p s) (u : BkUart)
    (bytes : List UInt8) : Begun p (uartStep s (.rxCb u bytes)).1 ∧
      waiting p (uartStep s (.rxCb u bytes)).1 =
        waiting p s ++ acceptedAt p s (.rxCb u bytes) := by
  obtain ⟨hwired, hobj⟩ := h.wired.rxCb u bytes
  rw [h.wired.acceptedAt]
  unfold waiting
  by_cases hu : u = uartOf p
  · rw [if_pos hu] at hobj ⊢
    obtain ⟨hwf, hq⟩ := SerialUART.rxBufWrite_foldl h.wf bytes
    rw [foldl_offer, ← SerialUART.stored_eq h.wf] at hq
    rw [hobj]
    exact ⟨hwired.begun (by rwa [hobj]), hq⟩
  · rw [if_neg hu] at hobj ⊢
    rw [hobj, List.append_nil]
    exact ⟨hwired.begun (by rw [hobj]; exact h.wf), rfl⟩

theorem begun_read {p : SerialObj} {s : SerialState} (h : Begun p s) (o : SerialObj) :
    Begun p (uartStep s (.read o)).1 ∧
      (waiting p s).map RingBufferN.byteVal = readAt p s (.read o) ++
        (waiting p (uartStep s (.read o)).1).map RingBufferN.byteVal := by
  rw [uartStep_read, readAt_read]
  by_cases ho : o = p
  · subst ho
    obtain ⟨hval, hwf, hq⟩ := SerialUART.read_spec h.wf
    have hobj : ((s.setObj o (s.obj o).read.2).obj o) = (s.obj o).read.2 :=
      Function.update_self _ _ _
    refine ⟨⟨by rwa [hobj], h.own, h.other, h.drained⟩, ?_⟩
    unfold waiting
    rw [hobj, hq, hval]
    cases (s.obj o).rxBuffer.contents with
    | nil =>
      rw [if_neg (fun h => h.2 rfl)]
      rfl
    | cons b q =>
      rw [if_pos ⟨rfl, RingBufferN.byteVal_ne b⟩]
      rfl
  · have hobj : ((s.setObj o (s.obj o).read.2).obj p) = s.obj p :=
      Function.update_of_ne (Ne.symm ho) _ _
    rw [if_neg (fun h => ho h.1)]
    refine ⟨⟨?_, h.own, h.other, h.drained⟩, ?_⟩
    · rw [hobj]
      exact h.wf
    · unfold waiting
      rw [hobj]
      rfl

/-- A call leaves the port begun, and what it stores and returns is what enters and leaves the
    queue. -/
theorem begun_step {p : SerialObj} (s : SerialState) (c : UartCall) (h : Begun p s) :
    Begun p (uartStep s c).1 ∧
      (waiting p s).map RingBufferN.byteVal ++ (acceptedAt p s c).map RingBufferN.byteVal =
        readAt p s c ++ (waiting p (uartStep s c).1).map RingBufferN.byteVal := by
  cases c with
  | rxCb u bytes =>
    obtain ⟨hbegun, hq⟩ := begun_rxCb h u bytes
    refine ⟨hbegun, ?_⟩
    rw [hq, List.map_append]
    rfl
  | read o =>
    obtain ⟨hbegun, hq⟩ := begun_read h o
    exact ⟨hbegun, (List.append_nil _).trans hq⟩
  | peek o => exact ⟨h, List.append_nil _⟩
  | available o => exact ⟨h, List.append_nil _⟩

/-! ## Runs -/

/-- What `begin` needs of the state: the objects are as constructed, and nothing has been
    received. -/
structure Fresh (s : SerialState) : Prop where
  obj : s.obj = SerialState.static.obj
  ptr : ∀ u o, s.serialPtr (irqPortId u) = some o → u = uartOf o
  rxFifo : s.rxFifo = SerialState.static.rxFifo

theorem begin_eq {s : SerialState} (h : s.obj = SerialState.static.obj) (o : SerialObj) :
    s.begin o =
      { s with serialPtr := Function.update s.serialPtr (irqPortId (uartOf o)) (some o) } := by
  unfold SerialState.begin
  rw [h]
  cases o <;> rfl

theorem fresh_begin {s : SerialState} (h : Fresh s) (o : SerialObj) : Fresh (s.begin o) := by
  rw [begin_eq h.obj]
  refine ⟨h.obj, ?_, h.rxFifo⟩
  intro u o' hptr
  simp only at hptr
  by_cases hu : u = uartOf o
  · subst hu
    rw [Function.update_self] at hptr
    rw [Option.some.inj hptr]
  · rw [Function.update_of_ne (fun h => hu (irqPortId_injective h))] at hptr
    exact h.ptr u o' hptr

theorem fresh_foldl (others : List SerialObj) :
    Fresh (others.foldl SerialState.begin SerialState.static) := by
  have hstatic : Fresh SerialState.static :=
    ⟨rfl, fun u o h => (Option.some_ne_none o h.symm).elim, rfl⟩
  suffices ∀ s, Fresh s → Fresh (others.foldl SerialState.begin s) from this _ hstatic
  induction others with
  | nil => exact fun s h => h
  | cons o others ih => exact fun s h => ih _ (fresh_begin h o)

theorem begun_begin {s : SerialState} (h : Fresh s) (p : SerialObj) :
    Begun p (s.begin p) ∧ waiting p (s.begin p) = [] := by
  have hnew : SerialState.static.obj p = { uartID := irqPortId (uartOf p) } := by
    cases p <;> rfl
  have hfresh := fresh_begin h p
  have hobj : ((s.begin p).obj p) = { uartID := irqPortId (uartOf p) } := by
    rw [hfresh.obj, hnew]
  refine ⟨⟨?_, ?_, fun u hptr => hfresh.ptr u p hptr, ?_⟩, ?_⟩
  · rw [hobj]
    exact RingBufferN.wf_new
  · rw [begin_eq h.obj]
    exact Function.update_self _ _ _
  · rw [hfresh.rxFifo]
    rfl
  · unfold waiting
    rw [hobj]
    rfl

/-- A callback for a port that has begun stores the first bytes that there is room for; a
    callback for another port stores none here. -/
theorem acceptedAt_begun {p : SerialObj} {s : SerialState} (h : Begun p s) (u : BkUart)
    (bytes : List UInt8) : acceptedAt p s (.rxCb u bytes) =
      if u = uartOf p then bytes.take (256 - (waiting p s).length) else [] := by
  rw [h.wired.acceptedAt, SerialUART.stored_eq h.wf, admitted_eq_take]
  rfl

/-- The receive FIFO of a port that has begun, whatever ports have begun before it, over every
    run of callbacks and calls. What `read` has returned is a prefix of what was accepted. A
    callback for the port accepts its bytes up to 256 pending ones and drops the others; one for
    the other port accepts none here. `available` is the number of pending bytes, `peek` changes
    nothing and returns what `read` would, which is -1 exactly if nothing is pending. -/
theorem serial_fifo (p : SerialObj) (others : List SerialObj) (cs : List UartCall) :
    let s₀ := (others.foldl SerialState.begin SerialState.static).begin p
    let s := final uartStep s₀ cs
    let accepted := collect uartStep (acceptedAt p) s₀ cs
    let reads := collect uartStep (readAt p) s₀ cs
    let pending := accepted.length - reads.length
    reads <+: accepted.map RingBufferN.byteVal ∧
    (∀ u bytes, collect uartStep (acceptedAt p) s₀ (cs ++ [.rxCb u bytes]) =
      accepted ++ if u = uartOf p then bytes.take (256 - pending) else []) ∧
    reads.length + pending = accepted.length ∧ pending ≤ 256 ∧
    (uartStep s (.available p)).2 = pending ∧
    uartStep s (.peek p) = (s, (uartStep s (.read p)).2) ∧
    ((uartStep s (.read p)).2 = -1 ↔ pending = 0) := by
  intro s₀ s accepted reads pending
  obtain ⟨hbegun₀, hempty⟩ := begun_begin (fresh_foldl others) p
  have hbegun : Begun p s :=
    final_of_inv (fun s c h => (begun_step s c h).1) hbegun₀ cs
  have hbal : accepted.map RingBufferN.byteVal =
      reads ++ (waiting p s).map RingBufferN.byteVal := by
    have hrun := collect_balance (fun s c h => begun_step s c h) hbegun₀ cs
    rw [hempty, List.map_nil, List.nil_append] at hrun
    rw [← hrun]
    exact (collect_map _ _ _ _).symm
  have hlen : accepted.length = reads.length + (waiting p s).length := by
    simpa using congrArg List.length hbal
  have hpending : pending = (waiting p s).length := by omega
  obtain ⟨hread, -⟩ := SerialUART.read_spec hbegun.wf
  refine ⟨⟨_, hbal.symm⟩, ?_, by omega, ?_, ?_, ?_, ?_⟩
  · intro u bytes
    rw [collect_snoc, acceptedAt_begun hbegun, hpending]
  · rw [hpending]
    exact hbegun.wf.length_le
  · rw [hpending]
    exact SerialUART.available_spec hbegun.wf
  · rw [uartStep_read]
    exact congrArg (Prod.mk s) ((SerialUART.peek_spec hbegun.wf).trans hread.symm)
  · rw [uartStep_read, hread, RingBufferN.front_eq_neg_one, hpending]
    exact List.length_eq_zero_iff.symm

end ArduinoT2.Serial
