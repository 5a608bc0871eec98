import ArduinoT2.Lib.StepSys
import ArduinoT2.Serial.SerialUart

/-
  The mutex of a `SerialUART` over its life cycle (SerialUART.cpp, tal_mutex.h).

  `begin` creates the mutex, `available`, `peek` and `read` lock and unlock the handle in
  `__mutex`, and `end` hands the address of `__mutex` to `tal_mutex_release`. The mutex functions
  themselves belong to the system layer: whether a creation succeeds is the environment's choice.
  `mutex_disciplined_iff` says which orders of calls pass live handles only.
-/

namespace ArduinoT2.Serial

open StepSys ArduinoT2.Api

/-! ## Model -/

/-- A `MUTEX_HANDLE`: a mutex by the number of its creation, the address of `__mutex`, or
    anything else that is not a mutex. -/
inductive MutexHandle
  | null
  | mutex (n : Nat)
  | memberAddr
  | stray (value : UInt32)
  deriving DecidableEq

/-- What `tal_mutex_create_init` does: it stores a new handle, or it fails and leaves the handle
    or stores one that is no mutex. -/
inductive MutexCreation
  | created
  | failed
  | failedNull
  | failedStray (value : UInt32)
  deriving DecidableEq

/-- The members of the object that the calls use, the number of mutexes that have been created,
    and those that have been released, oldest first. -/
structure MutexState where
  uart : SerialUART
  mutex : MutexHandle := .null
  created : Nat := 0
  released : List Nat := []

/-- The object as constructed, with static storage. -/
def MutexState.new (id : UartNum) : MutexState where
  uart := SerialUART.new id

/-- The calls, each `begin` with what the creation will do. -/
inductive MutexCall
  | begin (creation : MutexCreation)
  | «end»
  | available
  | peek
  | read
  deriving DecidableEq

/-- A handle passed to one of the mutex functions. -/
inductive MutexUse
  | lock (handle : MutexHandle)
  | unlock (handle : MutexHandle)
  | release (handle : MutexHandle)
  deriving DecidableEq

/-- The handle that is passed. -/
def MutexUse.handle : MutexUse → MutexHandle
  | .lock handle => handle
  | .unlock handle => handle
  | .release handle => handle

/-- `tal_mutex_create_init(&__mutex)`. -/
def MutexState.createInit (s : MutexState) : MutexCreation → MutexState
  | .created => { s with mutex := .mutex s.created, created := s.created + 1 }
  | .failed => s
  | .failedNull => { s with mutex := .null }
  | .failedStray value => { s with mutex := .stray value }

/-- `tal_mutex_release(handle)`. -/
def MutexState.release (s : MutexState) : MutexHandle → MutexState
  | .mutex n => { s with released := s.released ++ [n] }
  | _ => s

/-- One call: what it returns (0 where it returns nothing) and the handles that it passes. -/
def mutexStep (s : MutexState) : MutexCall → MutexState × Int × List MutexUse
  | .begin creation =>
    if s.uart.uartID.toNat ≥ 2 then (s, 0, []) else (s.createInit creation, 0, [])
  | .end =>
    let s' := s.release .memberAddr
    ({ s' with uart := { s'.uart with rxBuffer := s'.uart.rxBuffer.clear } }, 0,
      [.release .memberAddr])
  | .available => (s, s.uart.available, [.lock s.mutex, .unlock s.mutex])
  | .peek => (s, s.uart.peek, [.lock s.mutex, .unlock s.mutex])
  | .read =>
    ({ s with uart := s.uart.read.2 }, s.uart.read.1, [.lock s.mutex, .unlock s.mutex])

/-! ## The discipline -/

/-- The mutexes that have been created and not released. -/
def MutexState.outstanding (s : MutexState) : List Nat :=
  (List.range s.created).filter (fun n => n ∉ s.released)

/-- The handle is that of a mutex that has been created and not released. -/
def MutexState.Live (s : MutexState) (handle : MutexHandle) : Prop :=
  ∃ n ∈ s.outstanding, handle = .mutex n

/-- The call passes live handles only, and leaves at most one mutex outstanding and none
    released twice. -/
def Disciplined (s : MutexState) (c : MutexCall) : Prop :=
  (∀ use ∈ (mutexStep s c).2.2, s.Live use.handle) ∧
    (mutexStep s c).1.released.Nodup ∧ (mutexStep s c).1.outstanding.length ≤ 1

/-! ## The orders of calls that keep it -/

/-- How far the calls have got: no mutex yet, the mutex and its handle in `__mutex`, or a later
    creation that failed and has overwritten the handle. -/
inductive MutexPhase
  | none
  | held
  | overwritten
  deriving DecidableEq

/-- The phase behind a call of an object whose UART is `id`. -/
def phaseStep (id : UartNum) (ph : MutexPhase) : MutexCall → MutexPhase × Unit
  | .begin creation =>
    if id.toNat ≥ 2 then (ph, ())
    else
      match creation with
      | .created => (.held, ())
      | .failed => (ph, ())
      | .failedNull => (if ph = .none then .none else .overwritten, ())
      | .failedStray _ => (if ph = .none then .none else .overwritten, ())
  | _ => (ph, ())

/-- `end` never; a `begin` that creates a mutex only as the first such; the other calls only
    while the object holds it. -/
def InOrder (id : UartNum) (ph : MutexPhase) : MutexCall → Prop
  | .begin creation => id.toNat ≥ 2 ∨ creation ≠ .created ∨ ph = .none
  | .end => False
  | _ => ph = .held

/-- The state in a phase. -/
structure InPhase (id : UartNum) (s : MutexState) (ph : MutexPhase) : Prop where
  uartID : s.uart.uartID = id
  released : s.released = []
  created : s.created = if ph = .none then 0 else 1
  mutex : s.mutex = .mutex 0 ↔ ph = .held

theorem uartID_new (id : UartNum) : (SerialUART.new id).uartID = id := by
  cases id <;> rfl

theorem inPhase_new (id : UartNum) : InPhase id (.new id) .none :=
  ⟨uartID_new id, rfl, rfl, ⟨(fun h => nomatch h), fun h => nomatch h⟩⟩

theorem outstanding_of_inPhase {id : UartNum} {s : MutexState} {ph : MutexPhase}
    (h : InPhase id s ph) : s.outstanding = if ph = .none then [] else [0] := by
  unfold MutexState.outstanding
  rw [h.released, h.created]
  split <;> rfl

theorem live_of_inPhase {id : UartNum} {s : MutexState} {ph : MutexPhase}
    (h : InPhase id s ph) : s.Live s.mutex ↔ ph = .held := by
  unfold MutexState.Live
  rw [outstanding_of_inPhase h, ← h.mutex]
  constructor
  · rintro ⟨n, hn, hmutex⟩
    split at hn
    · exact nomatch hn
    · rwa [List.mem_singleton.mp hn] at hmutex
  · intro hmutex
    have hheld := h.mutex.mp hmutex
    refine ⟨0, ?_, hmutex⟩
    rw [if_neg (by rw [hheld]; exact fun h => nomatch h)]
    exact List.mem_singleton_self 0

/-- A call that creates and releases nothing is disciplined if its handles are live. -/
theorem disciplined_of_frame {id : UartNum} {s : MutexState} {ph : MutexPhase}
    (h : InPhase id s ph) {c : MutexCall} (hcreated : (mutexStep s c).1.created = s.created)
    (hreleased : (mutexStep s c).1.released = s.released) :
    Disciplined s c ↔ ∀ use ∈ (mutexStep s c).2.2, s.Live use.handle := by
  have hout : (mutexStep s c).1.outstanding = s.outstanding := by
    unfold MutexState.outstanding
    rw [hcreated, hreleased]
  unfold Disciplined
  rw [hreleased, hout, outstanding_of_inPhase h, h.released]
  refine and_iff_left ⟨List.nodup_nil, ?_⟩
  split <;> decide

/-- A call that locks and unlocks the handle of the object. -/
theorem disciplined_of_lock {id : UartNum} {s : MutexState} {ph : MutexPhase}
    (h : InPhase id s ph) {c : MutexCall} (hcreated : (mutexStep s c).1.created = s.created)
    (hreleased : (mutexStep s c).1.released = s.released)
    (huse : (mutexStep s c).2.2 = [.lock s.mutex, .unlock s.mutex]) :
    Disciplined s c ↔ ph = .held := by
  rw [disciplined_of_frame h hcreated hreleased, huse, ← live_of_inPhase h]
  constructor
  · intro hlive
    exact hlive (.lock s.mutex) (List.mem_cons_self ..)
  · intro hlive use huse
    rcases List.mem_pair.mp huse with rfl | rfl
    · exact hlive
    · exact hlive

/-- A creation that fails creates nothing. -/
theorem createInit_of_ne (s : MutexState) {creation : MutexCreation} (h : creation ≠ .created) :
    (s.createInit creation).created = s.created ∧
      (s.createInit creation).released = s.released := by
  cases creation with
  | created => exact absurd rfl h
  | failed => exact ⟨rfl, rfl⟩
  | failedNull => exact ⟨rfl, rfl⟩
  | failedStray value => exact ⟨rfl, rfl⟩

theorem disciplined_begin {id : UartNum} {s : MutexState} {ph : MutexPhase}
    (h : InPhase id s ph) (creation : MutexCreation) :
    Disciplined s (.begin creation) ↔ InOrder id ph (.begin creation) := by
  unfold InOrder
  rw [← h.uartID]
  by_cases hport : s.uart.uartID.toNat ≥ 2
  · have hstep : mutexStep s (.begin creation) = (s, 0, []) := if_pos hport
    rw [disciplined_of_frame h (by rw [hstep]) (by rw [hstep]), hstep]
    exact iff_of_true (fun use huse => nomatch huse) (.inl hport)
  · have hstep : mutexStep s (.begin creation) = (s.createInit creation, 0, []) := if_neg hport
    by_cases hcreation : creation = .created
    · subst hcreation
      -- behind it all mutexes that have been created are outstanding
      have hout : (s.createInit .created).outstanding.length = s.created + 1 := by
        unfold MutexState.outstanding MutexState.createInit
        simp only [h.released, List.not_mem_nil, not_false_eq_true, decide_true,
          List.filter_true, List.length_range]
      have hreleased : (s.createInit .created).released = [] := h.released
      unfold Disciplined
      rw [hstep]
      simp only [hout, hreleased, h.created]
      cases ph with
      | none => simp
      | held => simp [hport]
      | overwritten => simp [hport]
    · obtain ⟨hcreated, hreleased⟩ := createInit_of_ne s hcreation
      rw [disciplined_of_frame h (by rw [hstep]; exact hcreated) (by rw [hstep]; exact hreleased),
        hstep]
      exact iff_of_true (fun use huse => nomatch huse) (.inr (.inl hcreation))

/-- `end` passes the address of the handle. -/
theorem not_disciplined_end (s : MutexState) : ¬Disciplined s .end := by
  rintro ⟨hlive, -⟩
  obtain ⟨n, -, hn⟩ := hlive (.release .memberAddr) (List.mem_singleton_self _)
  exact nomatch hn

theorem disciplined_iff {id : UartNum} {s : MutexState} {ph : MutexPhase}
    (h : InPhase id s ph) (c : MutexCall) : Disciplined s c ↔ InOrder id ph c := by
  cases c with
  | begin creation => exact disciplined_begin h creation
  | «end» => exact iff_of_false (not_disciplined_end s) (fun h => h)
  | available => exact disciplined_of_lock h rfl rfl rfl
  | peek => exact disciplined_of_lock h rfl rfl rfl
  | read => exact disciplined_of_lock h rfl rfl rfl

theorem inPhase_overwrite {id : UartNum} {s : MutexState} {ph : MutexPhase}
    (h : InPhase id s ph) {handle : MutexHandle} (hne : handle ≠ .mutex 0) :
    InPhase id { s with mutex := handle } (if ph = .none then .none else .overwritten) := by
  refine ⟨h.uartID, h.released, ?_, ?_⟩
  · rw [h.created]
    cases ph <;> rfl
  · apply iff_of_false hne
    split
    · exact fun h => nomatch h
    · exact fun h => nomatch h

theorem inPhase_begin {id : UartNum} {s : MutexState} {ph : MutexPhase}
    (h : InPhase id s ph) (creation : MutexCreation) (hc : InOrder id ph (.begin creation)) :
    InPhase id (mutexStep s (.begin creation)).1 (phaseStep id ph (.begin creation)).1 := by
  have hid : s.uart.uartID.toNat = id.toNat := congrArg UartNum.toNat h.uartID
  by_cases hport : id.toNat ≥ 2
  · have hstep : mutexStep s (.begin creation) = (s, 0, []) := if_pos (hid ▸ hport)
    have hphase : phaseStep id ph (.begin creation) = (ph, ()) := if_pos hport
    rw [hstep, hphase]
    exact h
  · have hstep : mutexStep s (.begin creation) = (s.createInit creation, 0, []) :=
      if_neg (hid ▸ hport)
    unfold phaseStep
    simp only [hstep, if_neg hport]
    cases creation with
    | created =>
      obtain rfl : ph = .none := by
        rcases hc with hc | hc | hc
        · exact absurd hc hport
        · exact absurd rfl hc
        · exact hc
      have hcreated : s.created = 0 := h.created
      exact ⟨h.uartID, h.released, congrArg (· + 1) hcreated,
        iff_of_true (congrArg MutexHandle.mutex hcreated) rfl⟩
    | failed => exact h
    | failedNull => exact inPhase_overwrite h (fun h => nomatch h)
    | failedStray value => exact inPhase_overwrite h (fun h => nomatch h)

theorem inPhase_step {id : UartNum} {s : MutexState} {ph : MutexPhase}
    (h : InPhase id s ph) (c : MutexCall) (hc : InOrder id ph c) :
    InPhase id (mutexStep s c).1 (phaseStep id ph c).1 := by
  cases c with
  | begin creation => exact inPhase_begin h creation hc
  | «end» => exact hc.elim
  | available => exact h
  | peek => exact h
  | read => exact ⟨h.uartID, h.released, h.created, h.mutex⟩

/-- The calls of an object pass only handles of mutexes that a `begin` has created, release none
    twice and leave at most one outstanding, if and only if they are in order: no `end`, at most
    one `begin` that creates a mutex, the other calls only behind it, and no failing creation
    that overwrites the handle before one of them. -/
theorem mutex_disciplined_iff (id : UartNum) (cs : List MutexCall) :
    Along mutexStep Disciplined (.new id) cs ↔ Along (phaseStep id) (InOrder id) .none cs := by
  apply along_agree (A := InPhase id)
  · intro s ph c h
    exact disciplined_iff h c
  · intro s ph c h hc
    exact inPhase_step h c ((disciplined_iff h c).mp hc)
  · exact inPhase_new id

/-- The object begins, reads and ends. -/
theorem mutex_not_disciplined :
    ¬ ∀ (id : UartNum) (cs : List MutexCall), Along mutexStep Disciplined (.new id) cs := by
  intro h
  have hrun := h .uartNum0 [.begin .created, .read, .end]
  exact not_disciplined_end _ hrun.2.2.1

end ArduinoT2.Serial
