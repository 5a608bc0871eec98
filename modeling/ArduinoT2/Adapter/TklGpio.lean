import ArduinoT2.Adapter.ErrorCode
import ArduinoT2.Lib.Table

/-
  The GPIO adapter (tkl_gpio.c): the table `pinmap` and the calls that go through it to the
  driver. The calls of the driver are recorded.

  An enum is kept in one byte, so a call gets the low byte of the pin id that its caller passes
  (`gpioCall`).
-/

namespace ArduinoT2.Adapter

/-! ## State -/

/-- `TUYA_GPIO_MODE_E`. -/
inductive GpioMode
  | pullup | pulldown | highImpedance | floating | pushPull | opendrain | opendrainPullup
  deriving DecidableEq

/-- `TUYA_GPIO_DRCT_E`, and the values that are no enumerator. -/
inductive GpioDirect
  | input | output | other (value : UInt8)
  deriving DecidableEq

/-- `TUYA_GPIO_LEVEL_E`. -/
inductive GpioLevel
  | low | high
  deriving DecidableEq

/-- `TUYA_GPIO_IRQ_E`. -/
inductive GpioIrqMode
  | rise | fall | riseFall | low | high
  deriving DecidableEq

/-- `TUYA_GPIO_BASE_CFG_T`. -/
structure GpioBaseCfg where
  mode : GpioMode
  direct : GpioDirect
  level : GpioLevel

/-- `TUYA_GPIO_IRQ_T`, with the callback and its argument as addresses. -/
structure GpioIrq where
  mode : GpioIrqMode
  cb : UInt32
  arg : UInt32

/-- `bk_gpio_config_t`, as far as the adapter uses it. -/
inductive BkGpioConfig
  | inputPullUp | inputPullDown | inputNormal | outputNormal
  deriving DecidableEq

/-- `bk_gpio_irq_trigger_t`. -/
inductive BkGpioIrqTrigger
  | risingEdge | fallingEdge | lowLevel | highLevel
  deriving DecidableEq

/-- The calls of the driver, each with its GPIO; `configure` is `BkGpioInitialize`. -/
inductive BkGpioOp
  | configure (gpio : Nat) (cfg : BkGpioConfig)
  | outputLow (gpio : Nat)
  | outputHigh (gpio : Nat)
  | inputGet (gpio : Nat)
  | enableIRQ (gpio : Nat) (trigger : BkGpioIrqTrigger)
  | disableIRQ (gpio : Nat)
  deriving DecidableEq

/-- `pin_dev_map_t`. -/
structure PinDevMap where
  gpio : Nat
  cb : UInt32 := 0
  args : UInt32 := 0
  deriving DecidableEq

/-- The number of entries of `pinmap`. -/
def pinDevNum : Nat := 40

/-- The static table, and the calls of the driver so far. -/
structure GpioState where
  pinmap : Table pinDevNum PinDevMap
  ops : List BkGpioOp

/-- A call of the driver. -/
def GpioState.op (s : GpioState) (o : BkGpioOp) : GpioState := { s with ops := s.ops ++ [o] }

/-- `pinmap[pin_id].gpio`. -/
def GpioState.gpio (s : GpioState) (pin : Nat) : Nat × GpioState :=
  ((s.pinmap.read pin).1.gpio, { s with pinmap := (s.pinmap.read pin).2 })

/-! ## The calls -/

/-- The configuration that `tkl_gpio_init` chooses. -/
def bkGpioCfg (cfg : GpioBaseCfg) : Option BkGpioConfig :=
  match cfg.direct with
  | .input =>
    if cfg.mode = .pullup then some .inputPullUp
    else if cfg.mode = .pulldown then some .inputPullDown
    else some .inputNormal
  | .output => some .outputNormal
  | .other _ => none

/-- `tkl_gpio_init`. -/
def tklGpioInit (s : GpioState) (pinId : UInt8) (cfg : GpioBaseCfg) : OperateRet × GpioState :=
  match bkGpioCfg cfg with
  | none => (oprtNotSupported, s)
  | some bkGpioCfg =>
    let (gpio, s) := s.gpio pinId.toNat
    let s := s.op (.configure gpio bkGpioCfg)
    if cfg.direct = .output then
      let (gpio, s) := s.gpio pinId.toNat
      if cfg.level = .low then (oprtOk, s.op (.outputLow gpio))
      else (oprtOk, s.op (.outputHigh gpio))
    else (oprtOk, s)

/-- `tkl_gpio_write`. -/
def tklGpioWrite (s : GpioState) (pinId : UInt8) (level : GpioLevel) : OperateRet × GpioState :=
  if pinId.toNat ≥ pinDevNum then (oprtInvalidParm, s)
  else
    let (gpio, s) := s.gpio pinId.toNat
    if level = .high then (oprtOk, s.op (.outputHigh gpio))
    else (oprtOk, s.op (.outputLow gpio))

/-- `tkl_gpio_read`, with what `BkGpioInputGet` returns: the return value and what it stores in
    `level`. -/
def tklGpioRead (s : GpioState) (pinId : UInt8) (inputGet : Bool) :
    OperateRet × Option GpioLevel × GpioState :=
  if pinId.toNat ≥ pinDevNum then (oprtInvalidParm, none, s)
  else
    let (gpio, s) := s.gpio pinId.toNat
    (oprtOk, some (if inputGet then .high else .low), s.op (.inputGet gpio))

/-- The trigger that `tkl_gpio_irq_init` chooses. -/
def irqTrigger : GpioIrqMode → Option BkGpioIrqTrigger
  | .rise => some .risingEdge
  | .fall => some .fallingEdge
  | .low => some .lowLevel
  | .high => some .highLevel
  | .riseFall => none

/-- `tkl_gpio_irq_init`. -/
def tklGpioIrqInit (s : GpioState) (pinId : UInt8) (cfg : Option GpioIrq) :
    OperateRet × GpioState :=
  if pinId.toNat ≥ 40 then (oprtNotSupported, s)
  else
    match cfg with
    | none => (oprtInvalidParm, s)
    | some cfg =>
      match irqTrigger cfg.mode with
      | none => (oprtNotSupported, s)
      | some trigger =>
        let entry := s.pinmap.entry pinId.toNat
        let s := { s with
          pinmap := s.pinmap.write pinId.toNat { entry with cb := cfg.cb, args := cfg.arg } }
        let (gpio, s) := s.gpio pinId.toNat
        (oprtOk, s.op (.enableIRQ gpio trigger))

/-- `tkl_gpio_irq_enable`. -/
def tklGpioIrqEnable (s : GpioState) (pinId : UInt8) : OperateRet × GpioState :=
  if pinId.toNat ≥ pinDevNum then (oprtInvalidParm, s) else (oprtOk, s)

/-- `tkl_gpio_irq_disable`. -/
def tklGpioIrqDisable (s : GpioState) (pinId : UInt8) : OperateRet × GpioState :=
  if pinId.toNat ≥ pinDevNum then (oprtInvalidParm, s)
  else
    let (gpio, s) := s.gpio pinId.toNat
    (oprtOk, s.op (.disableIRQ gpio))

/-- The calls of a program, with the ids as it passes them and what the hardware answers. -/
inductive GpioCall
  | init (pinId : UInt32) (cfg : GpioBaseCfg)
  | write (pinId : UInt32) (level : GpioLevel)
  | read (pinId : UInt32) (inputGet : Bool)
  | irqInit (pinId : UInt32) (cfg : Option GpioIrq)
  | irqEnable (pinId : UInt32)
  | irqDisable (pinId : UInt32)

/-- One call, with the low byte of the id: the return value and the state behind it. -/
def gpioCall (s : GpioState) : GpioCall → OperateRet × GpioState
  | .init pinId cfg => tklGpioInit s pinId.toUInt8 cfg
  | .write pinId level => tklGpioWrite s pinId.toUInt8 level
  | .read pinId inputGet =>
    ((tklGpioRead s pinId.toUInt8 inputGet).1, (tklGpioRead s pinId.toUInt8 inputGet).2.2)
  | .irqInit pinId cfg => tklGpioIrqInit s pinId.toUInt8 cfg
  | .irqEnable pinId => tklGpioIrqEnable s pinId.toUInt8
  | .irqDisable pinId => tklGpioIrqDisable s pinId.toUInt8

end ArduinoT2.Adapter
