import ArduinoT2.Adapter.ErrorCode
import ArduinoT2.Api.RingBuffer

/-
  The receive side of the serial ports (SerialUART.cpp, tkl_uart.c, uart_bk.c).

  The receive interrupt calls `__uart_rx_cb` with the number of the UART; the callback empties
  the hardware FIFO into the buffer of the object that `begin` registered for this number.
-/

namespace ArduinoT2.Serial

open ArduinoT2.Adapter ArduinoT2.Api

/-! ## The ports -/

/-- `TUYA_UART_NUM_E`. -/
inductive UartNum
  | uartNum0 | uartNum1 | uartNum2 | uartNum3 | uartNum4 | uartNum5 | uartNumMax
  deriving DecidableEq

/-- The number of the enumerator, and `TUYA_UART_GET_PORT_NUMBER` of it. -/
def UartNum.toNat : UartNum → Nat
  | .uartNum0 => 0
  | .uartNum1 => 1
  | .uartNum2 => 2
  | .uartNum3 => 3
  | .uartNum4 => 4
  | .uartNum5 => 5
  | .uartNumMax => 6

/-- `bk_uart_t`. -/
inductive BkUart
  | bkUart1 | bkUart2
  deriving DecidableEq

/-- The choice of `port` in the functions of tkl_uart.c. -/
def bkUart (portId : UartNum) : Option BkUart :=
  if portId.toNat = 0 then some .bkUart1
  else if portId.toNat = 1 then some .bkUart2
  else none

/-- The number that `uart_dev_irq_handler` hands to the callback: `BK_UART_1` is 0. -/
def irqPortId : BkUart → UartNum
  | .bkUart1 => .uartNum0
  | .bkUart2 => .uartNum1

/-! ## State -/

instance rxBufferSize_neZero : NeZero 256 := ⟨by decide⟩

/-- The members of `SerialUART` that receiving uses. -/
structure SerialUART where
  uartID : UartNum := .uartNumMax
  rxBuffer : RingBufferN 256 := RingBufferN.new 256

/-- The constructor. -/
def SerialUART.new (id : UartNum) : SerialUART :=
  if id.toNat ≥ UartNum.uartNumMax.toNat then {} else { uartID := id }

/-- The objects `_SerialUART0_` and `_SerialUART1_`. -/
inductive SerialObj
  | serialUART0 | serialUART1
  deriving DecidableEq

/-- The objects, `__serialPtr` and the receive FIFOs of the hardware. `__serialPtr` has the
    entries 0 and 1: `begin` writes no other, and the callback gets no other. -/
structure SerialState where
  obj : SerialObj → SerialUART
  serialPtr : UartNum → Option SerialObj
  rxFifo : BkUart → List UInt8

/-- The state at reset. -/
def SerialState.static : SerialState where
  obj
    | .serialUART0 => SerialUART.new .uartNum0
    | .serialUART1 => SerialUART.new .uartNum1
  serialPtr _ := none
  rxFifo _ := []

/-! ## Reading the hardware -/

/-- `uart_read_byte`: the next byte of the FIFO, or -1. -/
def uartReadByte (s : SerialState) (uport : BkUart) : Int × SerialState :=
  match s.rxFifo uport with
  | [] => (-1, s)
  | b :: bs => (b.toNat, { s with rxFifo := Function.update s.rxFifo uport bs })

/-- The loop of `tkl_uart_read`: the bytes read, up to `len` of them. -/
def tklUartReadLoop (s : SerialState) (port : BkUart) : Nat → List UInt8 × SerialState
  | 0 => ([], s)
  | len + 1 =>
    let (result, s') := uartReadByte s port
    if result ≠ -1 then
      let (buff, s'') := tklUartReadLoop s' port len
      (UInt8.ofNat result.toNat :: buff, s'')
    else ([], s')

/-- `tkl_uart_read`: the return value and the bytes read. -/
def tklUartRead (s : SerialState) (portId : UartNum) (len : UInt16) :
    Int × List UInt8 × SerialState :=
  match bkUart portId with
  | none => (oprtInvalidParm, [], s)
  | some port =>
    let (buff, s') := tklUartReadLoop s port len.toNat
    (buff.length, buff, s')

/-- What is in the FIFO of a port. -/
def fifoLength (s : SerialState) (portId : UartNum) : Nat :=
  match bkUart portId with
  | none => 0
  | some port => (s.rxFifo port).length

theorem tklUartRead_none {s : SerialState} {portId : UartNum} (h : bkUart portId = none) :
    tklUartRead s portId 1 = (oprtInvalidParm, [], s) := by
  unfold tklUartRead
  rw [h]

theorem tklUartRead_nil {s : SerialState} {portId : UartNum} {port : BkUart}
    (h : bkUart portId = some port) (hfifo : s.rxFifo port = []) :
    tklUartRead s portId 1 = (0, [], s) := by
  unfold tklUartRead
  rw [h]
  simp [tklUartReadLoop, uartReadByte, hfifo]

/-- Reading one byte takes the first of the FIFO. -/
theorem tklUartRead_cons {s : SerialState} {portId : UartNum} {port : BkUart} {b : UInt8}
    {bs : List UInt8} (h : bkUart portId = some port) (hfifo : s.rxFifo port = b :: bs) :
    tklUartRead s portId 1 =
      (1, [b], { s with rxFifo := Function.update s.rxFifo port bs }) := by
  unfold tklUartRead
  rw [h]
  have hne : (b.toNat : Int) ≠ -1 := by omega
  simp [tklUartReadLoop, uartReadByte, hfifo]

/-- A read that returns 1 has taken a byte. -/
theorem fifoLength_tklUartRead {s : SerialState} {portId : UartNum}
    (h : (tklUartRead s portId 1).1 = 1) :
    fifoLength (tklUartRead s portId 1).2.2 portId < fifoLength s portId := by
  unfold fifoLength
  cases hport : bkUart portId with
  | none =>
    rw [tklUartRead_none hport] at h
    exact absurd (show oprtInvalidParm = 1 from h) (by decide)
  | some port =>
    cases hfifo : s.rxFifo port with
    | nil =>
      rw [tklUartRead_nil hport hfifo] at h
      exact absurd (show (0 : Int) = 1 from h) (by decide)
    | cons b bs =>
      rw [tklUartRead_cons hport hfifo]
      simp [hfifo]

/-! ## The calls -/

/-- `SerialUART::__rxBufWrite`. -/
def SerialUART.rxBufWrite (x : SerialUART) (c : UInt8) : SerialUART :=
  if x.rxBuffer.availableForStore ≠ 0 then { x with rxBuffer := x.rxBuffer.storeChar c } else x

/-- `SerialUART::read`. -/
def SerialUART.read (x : SerialUART) : Int × SerialUART :=
  let (rt, rxBuffer) := x.rxBuffer.readChar
  (rt, { x with rxBuffer })

/-- `SerialUART::peek`. -/
def SerialUART.peek (x : SerialUART) : Int := x.rxBuffer.peek

/-- `SerialUART::available`. -/
def SerialUART.available (x : SerialUART) : Int := x.rxBuffer.available

/-- Object `o` becomes `x`. -/
def SerialState.setObj (s : SerialState) (o : SerialObj) (x : SerialUART) : SerialState :=
  { s with obj := Function.update s.obj o x }

/-- `SerialUART::begin`, as far as receiving goes: the object is the one of its port from here
    on. -/
def SerialState.begin (s : SerialState) (o : SerialObj) : SerialState :=
  if (s.obj o).uartID.toNat ≥ 2 then s
  else { s with serialPtr := Function.update s.serialPtr (s.obj o).uartID (some o) }

/-- The loop of `__uart_rx_cb`. Nothing changes the pointer while it runs. -/
def uartRxLoop (s : SerialState) (portId : UartNum) (o : SerialObj) : SerialState :=
  let r := tklUartRead s portId 1
  if _ : r.1 = 1 then
    uartRxLoop (r.2.2.setObj o ((r.2.2.obj o).rxBufWrite (r.2.1.headD 0))) portId o
  else r.2.2
termination_by fifoLength s portId
decreasing_by exact fifoLength_tklUartRead ‹_›

/-- `__uart_rx_cb`. -/
def uartRxCb (s : SerialState) (portId : UartNum) : SerialState :=
  match s.serialPtr portId with
  | none => s
  | some o => uartRxLoop s portId o

/-- A receive interrupt of a UART whose FIFO has got `bytes`, and the calls of a program. -/
inductive UartCall
  | rxCb (port : BkUart) (bytes : List UInt8)
  | read (o : SerialObj)
  | peek (o : SerialObj)
  | available (o : SerialObj)

/-- One call and what it returns (0 where it returns nothing). -/
def uartStep (s : SerialState) : UartCall → SerialState × Int
  | .rxCb port bytes =>
    let s' := { s with rxFifo := Function.update s.rxFifo port (s.rxFifo port ++ bytes) }
    (uartRxCb s' (irqPortId port), 0)
  | .read o => (s.setObj o (s.obj o).read.2, (s.obj o).read.1)
  | .peek o => (s, (s.obj o).peek)
  | .available o => (s, (s.obj o).available)

end ArduinoT2.Serial
