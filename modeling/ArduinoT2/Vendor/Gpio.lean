import ArduinoT2.Adapter.TklGpio
import Mathlib.Logic.Function.Basic

/-
  The interrupts of the GPIO driver (gpio.c): the handler table `p_gpio_intr_handler`, the enable
  register, and the dispatch.

  The driver is what the calls of the adapter make of it, in order (`gpioHw`). Modes, levels and
  pull resistors are not modelled, and the status register is whatever the hardware says when it
  is read.
-/

namespace ArduinoT2.Vendor

open ArduinoT2.Adapter

/-- `GPIONUM`. -/
def gpioNum : Nat := 40

/-- `REG_GPIO_INTEN`, and which entries of `p_gpio_intr_handler` are `__tkl_gpio_irq_cb`; the
    others are NULL. The register has 32 bits, and for the pins from 32 on the shift `1 << index`
    of the source is undefined: `intEn` means something only while the pins are below 32 (for the
    others the shift here is modulo 32), and nothing below reads it. -/
structure GpioHw where
  intEn : UInt32
  handler : Nat → Bool

/-- The driver at reset. -/
def GpioHw.static : GpioHw := ⟨0, fun _ => false⟩

/-- `gpio_int_enable`. -/
def gpioIntEnable (hw : GpioHw) (index : Nat) : GpioHw :=
  if index ≥ gpioNum then hw
  else
    { intEn := hw.intEn ||| ((1 : UInt32) <<< UInt32.ofNat index)
      handler := Function.update hw.handler index true }

/-- `gpio_int_disable`. The handler stays. -/
def gpioIntDisable (hw : GpioHw) (index : Nat) : GpioHw :=
  { hw with intEn := hw.intEn &&& ~~~((1 : UInt32) <<< UInt32.ofNat index) }

/-- A call of the adapter, as far as it is about interrupts. -/
def gpioCtrl (hw : GpioHw) : BkGpioOp → GpioHw
  | .enableIRQ gpio _ => gpioIntEnable hw gpio
  | .disableIRQ gpio => gpioIntDisable hw gpio
  | _ => hw

/-- The driver behind the calls of the adapter. -/
def gpioHw (s : GpioState) : GpioHw := s.ops.foldl gpioCtrl .static

/-- `gpio_isr`, with the status register: the pins whose handler it calls, in order. A bit from 32
    on is no bit of the register. -/
def gpioIsr (hw : GpioHw) (ulIntStatus : UInt32) : List Nat :=
  (List.range gpioNum).filter fun i => ulIntStatus.toNat.testBit i && hw.handler i

end ArduinoT2.Vendor
