import ArduinoT2.Adapter.TklSleep
import ArduinoT2.Lib.StepSys
import ArduinoT2.Wifi.StationStatus

/-
  The requests to let the CPU sleep (tkl_sleep.c) and the power save of the MCU.

  `cpu_lp_flag` remembers that sleep has been requested, and nothing clears it: a request to end
  the sleep only sends the message that switches the power save off, and returns `OPRT_OK` also
  when the queue is full and the message is dropped. The next entry of the station into `GOT_IP`
  reads the flag and switches the power save on again. `cpu_sleep_iff` says when the power save
  stays off all the same.

  The power save is off in the sense of `settled`: once the core thread has taken the messages
  that wait in the queue. `settled_drained` is what that says of `mcu_ps_on` itself.
-/

namespace ArduinoT2.Wifi

open StepSys ArduinoT2.Adapter

/-! ## Requests -/

/-- The messages that wait. -/
def waiting (s : SleepState) : List BusMsg := s.ioQueue.getD []

/-- `mcu_ps_on` behind the messages that wait. -/
def settled (s : SleepState) : Bool := (waiting s).foldl coreProcess s.mcuPsOn

theorem settled_drained {s : SleepState} (h : waiting s = []) : settled s = s.mcuPsOn := by
  unfold settled
  rw [h]
  rfl

/-- A message that is sent is not dropped: the queue is there and not full. -/
def Room (s : SleepState) : Prop := s.ioQueue ≠ none ∧ (waiting s).length < coreQitemCount

instance (s : SleepState) : Decidable (Room s) := inferInstanceAs (Decidable (_ ∧ _))

/-- The variables, with whether the last request for the CPU's sleep has been to end it. -/
structure SleepRun where
  state : SleepState
  off : Bool

/-- At reset there has been no request. -/
def SleepRun.static : SleepRun := ⟨.static, false⟩

/-- Whether the last request has been to end the sleep, with this call. A request for another
    mode is refused. -/
def offAfter (off : Bool) : SleepCall → Bool
  | .cpuSleepModeSet enable .sleep => !enable
  | _ => off

/-- One call. -/
def sleepStep (r : SleepRun) (c : SleepCall) : SleepRun × OperateRet :=
  (⟨(sleepCall r.state c).2, offAfter r.off c⟩, (sleepCall r.state c).1)

/-- If the last request has been to end the sleep, the power save is off. -/
def Honoured (r : SleepRun) : Prop := r.off = true → settled r.state = false

/-- The request is honoured behind the call. -/
def SleepOk (r : SleepRun) (c : SleepCall) : Prop := Honoured (sleepStep r c).1

/-- The poll switches the power save of the MCU on: it enters `GOT_IP` with both flags set, and
    there is room for its message behind those of the RF. -/
def McuRearms (m : Meanwhile) (s : SleepState) (type : RwEvtType) (stat : WfStationStat) : Prop :=
  Rearms s.lp type stat ∧ s.cpuLpFlag &&& s.lp.wifiLpStatus ≠ 0 ∧
    Room (atSend m (sends m s (stationMsgs m s.lp)) .mcuEnable)

/-- A request to end the sleep finds room for its message, or the power save off; and behind it a
    poll does not switch the power save on. -/
def LeavesOff (r : SleepRun) : SleepCall → Prop
  | .cpuSleepModeSet false .sleep => Room r.state ∨ settled r.state = false
  | .stationGetStatus m type stat => r.off = true → ¬McuRearms m r.state type stat
  | _ => True

/-! ## Messages -/

/-- What a message does behind those that wait, if it is not dropped. -/
theorem settled_push (s : SleepState) (msg : BusMsg) :
    settled (pushIoQueue s msg) =
      if Room s then coreProcess (settled s) msg else settled s := by
  unfold pushIoQueue
  split
  · rename_i hnone
    rw [if_neg fun hroom => hroom.1 hnone]
  · rename_i msgs hmsgs
    have hwaiting : waiting s = msgs := by
      unfold waiting
      rw [hmsgs, Option.getD_some]
    by_cases hlen : msgs.length < coreQitemCount
    · have hroom : Room s := ⟨hmsgs ▸ Option.some_ne_none msgs, hwaiting.symm ▸ hlen⟩
      rw [if_pos hlen, if_pos hroom]
      unfold settled
      rw [hwaiting]
      exact List.foldl_append
    · rw [if_neg hlen, if_neg fun hroom => hlen (hwaiting ▸ hroom.2)]

/-- A message that leaves `mcu_ps_on` leaves the switch, dropped or not. -/
theorem settled_push_idle (s : SleepState) {msg : BusMsg}
    (h : ∀ on, coreProcess on msg = on) : settled (pushIoQueue s msg) = settled s := by
  rw [settled_push, h, ite_self]

theorem settled_coreTurn (s : SleepState) (t : CoreTurn) : settled (coreTurn s t) = settled s := by
  cases t with
  | init =>
    simp only [coreTurn]
    split
    · rename_i hnone
      unfold settled waiting
      rw [hnone]
      rfl
    · rfl
  | take =>
    simp only [coreTurn]
    split
    · rename_i msg msgs hmsgs
      unfold settled waiting
      rw [hmsgs, Option.getD_some, Option.getD_some, List.foldl_cons]
    · rfl
  | send => exact settled_push_idle s fun _ => rfl

theorem settled_atSend (m : Meanwhile) (s : SleepState) (arg : PsMsg) :
    settled (atSend m s arg) = settled s := by
  unfold atSend
  induction m.turns arg generalizing s with
  | nil => rfl
  | cons t turns ih => exact (ih (coreTurn s t)).trans (settled_coreTurn s t)

/-- The messages of the RF leave the switch. -/
theorem settled_sends (m : Meanwhile) {args : List PsMsg}
    (h : ∀ arg ∈ args, ∀ on, psMsgProcess on arg = on) (s : SleepState) :
    settled (sends m s args) = settled s := by
  unfold sends
  induction args generalizing s with
  | nil => rfl
  | cons arg args ih =>
    have hidle : ∀ on, coreProcess on (.staPs arg) = on := h arg List.mem_cons_self
    have hfirst : settled (bmsgPsSender (atSend m s arg) arg) = settled s :=
      (settled_push_idle _ hidle).trans (settled_atSend m s arg)
    exact (ih (fun arg' harg => h arg' (List.mem_cons_of_mem _ harg)) _).trans hfirst

theorem rfEnableMsgs_idle : ∀ arg ∈ rfEnableMsgs, ∀ on, psMsgProcess on arg = on := by decide

theorem rfDisableMsgs_idle (m : Meanwhile) :
    ∀ arg ∈ rfDisableMsgs m, ∀ on, psMsgProcess on arg = on := by
  unfold rfDisableMsgs
  split <;> decide

theorem settled_setLpModeMsgs (m : Meanwhile) (s : SleepState) (enable : Bool) :
    settled (sends m s (setLpModeMsgs m s.lp enable)) = settled s := by
  apply settled_sends
  unfold setLpModeMsgs
  split
  · split
    · exact fun _ h => nomatch h
    · exact rfEnableMsgs_idle
  · split
    · exact rfDisableMsgs_idle m
    · exact fun _ h => nomatch h

theorem settled_stationMsgs (m : Meanwhile) (s : SleepState) :
    settled (sends m s (stationMsgs m s.lp)) = settled s := by
  apply settled_sends
  unfold stationMsgs
  split
  · exact rfDisableMsgs_idle m
  · exact rfEnableMsgs_idle

/-! ## One call -/

/-- A request to end the sleep switches the power save off, if there is room for its message. -/
theorem settled_disable (s : SleepState) :
    settled (bkWlanMcuPsModeDisable s) = false ↔ Room s ∨ settled s = false := by
  have hpush : settled (bkWlanMcuPsModeDisable s) = if Room s then false else settled s :=
    settled_push s (.staPs .mcuDisanable)
  rw [hpush]
  by_cases hroom : Room s
  · rw [if_pos hroom]
    exact iff_of_true rfl (.inl hroom)
  · rw [if_neg hroom]
    exact (or_iff_right hroom).symm

/-- A poll leaves the switch, or sends the message that sets it. -/
theorem settled_stationGetStatus (m : Meanwhile) (s : SleepState) (type : RwEvtType)
    (stat : WfStationStat) :
    (McuRearms m s type stat → settled (sleepStationGetStatus m s type stat).2.2 = true) ∧
      (¬McuRearms m s type stat →
        settled (sleepStationGetStatus m s type stat).2.2 = settled s) := by
  have hpoll : settled (sleepStationGetStatus m s type stat).2.2 =
      settled (if Rearms s.lp type stat then
        if s.cpuLpFlag &&& s.lp.wifiLpStatus ≠ 0 then
          bkWlanMcuPsModeEnable (atSend m (sends m s (stationMsgs m s.lp)) .mcuEnable)
        else sends m s (stationMsgs m s.lp)
      else s) := by
    unfold sleepStationGetStatus
    rw [stationGetStatus_eq]
    rfl
  rw [hpoll]
  have hpush := settled_push (atSend m (sends m s (stationMsgs m s.lp)) .mcuEnable)
    (.staPs .mcuEnable)
  constructor
  · intro h
    rw [if_pos h.1, if_pos h.2.1]
    refine hpush.trans ?_
    rw [if_pos h.2.2]
    rfl
  · intro h
    by_cases hrearms : Rearms s.lp type stat
    · rw [if_pos hrearms]
      by_cases hflags : s.cpuLpFlag &&& s.lp.wifiLpStatus ≠ 0
      · rw [if_pos hflags]
        refine hpush.trans ?_
        rw [if_neg fun hroom => h ⟨hrearms, hflags, hroom⟩, settled_atSend]
        exact settled_stationMsgs m s
      · rw [if_neg hflags]
        exact settled_stationMsgs m s
    · rw [if_neg hrearms]

/-- Where the request is honoured, it is so behind a call if and only if the call leaves the power
    save off. -/
theorem sleepOk_iff {r : SleepRun} (h : Honoured r) (c : SleepCall) :
    SleepOk r c ↔ LeavesOff r c := by
  cases c with
  | cpuSleepModeSet enable mode =>
    cases mode with
    | sleep =>
      cases enable with
      | true => exact iff_of_true (fun hoff => nomatch hoff) trivial
      | false => exact (forall_prop_of_true rfl).trans (settled_disable r.state)
    | deepSleep => exact iff_of_true h (by cases enable <;> trivial)
  | setLpMode m enable =>
    refine iff_of_true ?_ trivial
    exact fun hoff => (settled_setLpModeMsgs m r.state enable).trans (h hoff)
  | stationGetStatus m type stat =>
    obtain ⟨hon, hkeeps⟩ := settled_stationGetStatus m r.state type stat
    by_cases hrearms : McuRearms m r.state type stat
    · have hiff : SleepOk r (.stationGetStatus m type stat) ↔ ¬r.off = true := by
        refine forall_congr' fun _ => iff_of_false ?_ id
        intro hoff
        exact Bool.false_ne_true (hoff.symm.trans (hon hrearms))
      rw [hiff]
      exact forall_congr' fun _ => (iff_of_false (not_not.mpr hrearms) id).symm
    · refine iff_of_true ?_ (fun _ => hrearms)
      exact fun hoff => (hkeeps hrearms).trans (h hoff)
  | turn t =>
    refine iff_of_true ?_ trivial
    exact fun hoff => (settled_coreTurn r.state t).trans (h hoff)

/-! ## Runs -/

/-- In every sequence of calls and turns of the rest of the system from reset: behind a request to
    end the sleep the power save of the MCU is off until the next request to sleep, if and only if
    each request to end it finds room in the queue or the power save off, and no poll in between
    enters `GOT_IP` with `cpu_lp_flag` and `wifi_lp_status` set and room for its message. -/
theorem cpu_sleep_iff (cs : List SleepCall) :
    Along sleepStep SleepOk .static cs ↔ Along sleepStep LeavesOff .static cs := by
  apply along_congr (I := Honoured)
  · exact fun _ _ _ hok => hok
  · exact fun _ c h => sleepOk_iff h c
  · exact fun hoff => nomatch hoff

/-- The core thread runs, sleep is requested and ended, and then the station gets its address. -/
theorem cpu_sleep_rearmed : ¬Along sleepStep SleepOk .static
    [.turn .init, .setLpMode ⟨false, fun _ => []⟩ true, .cpuSleepModeSet true .sleep,
      .cpuSleepModeSet false .sleep,
      .stationGetStatus ⟨false, fun _ => []⟩ .staGotIp .idle] := by
  intro hrun
  obtain ⟨-, -, -, -, hpoll, -⟩ := hrun
  exact absurd (hpoll rfl) (by decide)

end ArduinoT2.Wifi
