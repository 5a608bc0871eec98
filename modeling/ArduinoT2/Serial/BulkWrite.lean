import ArduinoT2.Serial.SerialUart

/-
  The transmit side of the serial ports (SerialUART.cpp, tkl_uart.c).

  A buffer is the bytes behind its pointer, and what is sent is the list of the calls of
  `bk_send_byte`. The length of `SerialUART::write` is a `size_t` of 32 bits, that of
  `tkl_uart_write` has 16 bits.

  `write_spec`: on a port that exists the first `len % 2^16` bytes are sent and counted.
  `write_all_iff`: all of them are sent exactly when the length has 16 bits.
-/

namespace ArduinoT2.Serial

open ArduinoT2.Adapter

/-- The loop of `tkl_uart_write` from the index `i` on: the index behind it and the calls of
    `bk_send_byte`. -/
def tklUartWriteLoop (port : BkUart) (buff : Nat → UInt8) (len : UInt16) (i : Nat) :
    Nat × List (BkUart × UInt8) :=
  if i < len.toNat then
    let (i', sent) := tklUartWriteLoop port buff len (i + 1)
    (i', (port, buff i) :: sent)
  else (i, [])
termination_by len.toNat - i

/-- `tkl_uart_write`: the return value and the calls of `bk_send_byte`. -/
def tklUartWrite (portId : UartNum) (buff : Nat → UInt8) (len : UInt16) :
    Int × List (BkUart × UInt8) :=
  match bkUart portId with
  | none => (oprtInvalidParm, [])
  | some port =>
    let (i, sent) := tklUartWriteLoop port buff len 0
    (i, sent)

/-- `SerialUART::write` of a buffer. -/
def SerialUART.write (s : SerialUART) (c : Nat → UInt8) (len : UInt32) :
    UInt32 × List (BkUart × UInt8) :=
  let (rt, sent) := tklUartWrite s.uartID c len.toUInt16
  (UInt32.ofInt rt, sent)

/-- The calls that hand the first `n` bytes of a buffer to a port, in order. -/
def sends (port : BkUart) (c : Nat → UInt8) (n : Nat) : List (BkUart × UInt8) :=
  (List.range n).map fun i => (port, c i)

/-- The object has a port, the whole buffer goes to it and the length comes back. -/
def WritesAll (s : SerialUART) (c : Nat → UInt8) (len : UInt32) : Prop :=
  ∃ port, bkUart s.uartID = some port ∧ s.write c len = (len, sends port c len.toNat)

theorem tklUartWriteLoop_eq (port : BkUart) (buff : Nat → UInt8) (len : UInt16) (n : Nat) :
    ∀ i, i + n = len.toNat → tklUartWriteLoop port buff len i =
      (len.toNat, (List.range' i n).map fun j => (port, buff j)) := by
  induction n with
  | zero =>
    intro i hi
    rw [tklUartWriteLoop, if_neg (by omega), ← hi]
    rfl
  | succ n ih =>
    intro i hi
    rw [tklUartWriteLoop, if_pos (by omega), ih (i + 1) (by omega), List.range'_succ,
      List.map_cons]

theorem tklUartWrite_eq {portId : UartNum} {port : BkUart} (h : bkUart portId = some port)
    (buff : Nat → UInt8) (len : UInt16) :
    tklUartWrite portId buff len = ((len.toNat : Int), sends port buff len.toNat) := by
  unfold tklUartWrite
  rw [h]
  dsimp only
  rw [tklUartWriteLoop_eq port buff len len.toNat 0 (Nat.zero_add _), sends,
    List.range_eq_range']

/-- The length is cut to 16 bits on its way to `tkl_uart_write`, and so is what comes back. -/
theorem write_spec {s : SerialUART} {port : BkUart} (h : bkUart s.uartID = some port)
    (c : Nat → UInt8) (len : UInt32) :
    s.write c len =
      (UInt32.ofNat (len.toNat % 65536), sends port c (len.toNat % 65536)) := by
  unfold SerialUART.write
  rw [tklUartWrite_eq h]
  have hlen : len.toUInt16.toNat = len.toNat % 65536 := UInt32.toNat_toUInt16 len
  have hret : UInt32.ofInt (len.toNat % 65536 : Nat) = UInt32.ofNat (len.toNat % 65536) := by
    rw [UInt32.ofInt]
    congr 1
    omega
  rw [hlen, ← hret]

/-- A bulk write sends its whole buffer exactly when the object has a port and the length is
    below 2^16. -/
theorem write_all_iff (s : SerialUART) (c : Nat → UInt8) (len : UInt32) :
    WritesAll s c len ↔ (bkUart s.uartID).isSome ∧ len.toNat < 65536 := by
  unfold WritesAll
  cases hport : bkUart s.uartID with
  | none => simp
  | some port =>
    constructor
    · intro h
      obtain ⟨port', hport', hwrite⟩ := h
      rw [write_spec hport] at hwrite
      -- what comes back has 16 bits
      have hret := congrArg (fun r => r.1.toNat) hwrite
      rw [UInt32.toNat_ofNat_of_lt' (show len.toNat % 65536 < 2 ^ 32 by omega)] at hret
      dsimp only at hret
      exact ⟨rfl, by omega⟩
    · intro h
      refine ⟨port, rfl, ?_⟩
      rw [write_spec hport, Nat.mod_eq_of_lt h.2, UInt32.ofNat_toNat]

/-- A message of 65536 bytes: no byte is sent, and 0 comes back. -/
theorem write_65536 :
    (SerialUART.new .uartNum0).write (fun _ => 0x55) 65536 = (0, []) ∧
    ¬ WritesAll (SerialUART.new .uartNum0) (fun _ => 0x55) 65536 := by
  have hport : bkUart (SerialUART.new .uartNum0).uartID = some .bkUart1 := rfl
  have hwrite := write_spec hport (fun _ => 0x55) 65536
  refine ⟨hwrite, ?_⟩
  intro h
  obtain ⟨port, _, hall⟩ := h
  rw [hwrite] at hall
  have hret : (0 : UInt32) = 65536 := congrArg Prod.fst hall
  exact absurd hret (by decide)

end ArduinoT2.Serial
