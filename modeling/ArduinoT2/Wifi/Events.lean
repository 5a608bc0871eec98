import ArduinoT2.Adapter.TklWifiState
import ArduinoT2.Lib.StepSys
import Mathlib.Data.List.Induction
import Mathlib.Data.List.ReduceOption

/-
  The events of the station, as the thread of tkl_wifi.c delivers them.

  What a turn does follows from `poll_acts` and `poll_skips`: a status that is ignored or is the
  last one does nothing, any other one becomes the last one. An event always makes its status the
  last one, so the last event agrees with the status (`status_event_agrees`). The count of failures
  does not agree with the attempts: it counts changes of the status, and not every status
  between two attempts is a change (`attempts_counted`, `attempts_not_counted`).
-/

namespace ArduinoT2.Wifi

open StepSys ArduinoT2.Adapter

/-! ## One turn -/

/-- A turn with a callback. -/
abbrev poll : StateThread → RwEvtType → StateThread × Option WfEvent := statePoll true

/-- The statuses of an attempt that has failed. -/
def isFailure : RwEvtType → Bool
  | .staConnectFailed | .staNoApFound | .staAssocFull => true
  | _ => false

/-- The statuses that end the count of failures. -/
def endsCount : RwEvtType → Bool
  | .staGotIp | .staDisconnected | .staBeaconLose => true
  | _ => false

/-- The event of a status, for those that have one of their own. -/
def statEvent : RwEvtType → Option WfEvent
  | .staGotIp => some .connected
  | .staPasswordWrong | .staDhcpFailed => some .connectFailed
  | .staDisconnected | .staBeaconLose => some .disconnected
  | _ => none

/-- The statuses that the thread acts on. -/
def acts (stat : RwEvtType) : Bool :=
  isFailure stat || (statEvent stat).isSome || stat == .staScanning

/-- The count behind a status that the thread acts on. -/
def countAfter (err : UInt32) (stat : RwEvtType) : UInt32 :=
  if endsCount stat then 0 else if isFailure stat then err + 1 else err

/-- The event of a status that the thread acts on. -/
def eventOf (err : UInt32) (stat : RwEvtType) : Option WfEvent :=
  if isFailure stat then if err + 1 = wifiConnectErrorMaxCnt then some .connectFailed else none
  else statEvent stat

theorem poll_acts {s : StateThread} {stat : RwEvtType} (hacts : acts stat = true)
    (hne : stat ≠ s.lastStat) :
    poll s stat = (⟨stat, countAfter s.sConnectErr stat⟩, eventOf s.sConnectErr stat) := by
  unfold poll statePoll
  rw [if_pos ⟨hne, rfl⟩]
  cases stat with
  | staIdle | staScanOver | staConnecting | staConnected => exact nomatch hacts
  | apConnected | apDisconnected | apConnectFailed | max => exact nomatch hacts
  | staConnectFailed | staNoApFound | staAssocFull => rfl
  | _ => rfl

theorem poll_skips {s : StateThread} {stat : RwEvtType}
    (h : acts stat = false ∨ stat = s.lastStat) : poll s stat = (s, none) := by
  unfold poll statePoll
  split
  · rename_i hcb
    have hacts : acts stat = false := h.resolve_right hcb.1
    cases stat with
    | staIdle | staScanOver | staConnecting | staConnected => rfl
    | apConnected | apDisconnected | apConnectFailed | max => rfl
    | _ => exact nomatch hacts
  · rfl

/-- The events of a run, in order. -/
def events (s : StateThread) (stats : List RwEvtType) : List WfEvent :=
  (outputs poll s stats).reduceOption

theorem events_snoc (s : StateThread) (stats : List RwEvtType) (stat : RwEvtType) :
    events s (stats ++ [stat]) = events s stats ++ (poll (final poll s stats) stat).2.toList := by
  unfold events
  rw [outputs_append, List.reduceOption_append]
  rfl

/-! ## The last event and the status -/

theorem acts_of_statEvent {stat : RwEvtType} {ev : WfEvent} (h : statEvent stat = some ev) :
    acts stat = true := by
  unfold acts
  rw [h]
  simp

theorem eventOf_of_statEvent (err : UInt32) {stat : RwEvtType} {ev : WfEvent}
    (h : statEvent stat = some ev) : eventOf err stat = some ev := by
  have hfail : isFailure stat = false := by
    cases stat <;> first | rfl | cases h
  unfold eventOf
  rw [hfail]
  exact h

/-- The last event is the one of the last status, where that has one. -/
theorem lastEvent_of_lastStat (stats : List RwEvtType) {ev : WfEvent}
    (h : statEvent (final poll .start stats).lastStat = some ev) :
    (events .start stats).getLast? = some ev := by
  induction stats using List.reverseRecOn with
  | nil => exact nomatch h
  | append_singleton stats stat ih =>
    rw [final_append, final_cons, final_nil] at h
    rw [events_snoc]
    by_cases hskip : acts stat = false ∨ stat = (final poll .start stats).lastStat
    · rw [poll_skips hskip] at h ⊢
      rw [Option.toList_none, List.append_nil]
      exact ih h
    · obtain ⟨hacts, hne⟩ := not_or.mp hskip
      rw [poll_acts (Bool.not_eq_false _ ▸ hacts) hne] at h ⊢
      rw [eventOf_of_statEvent _ h, Option.toList_some, List.getLast?_concat]

/-- A status that has an event of its own is the last one behind its turn. -/
theorem poll_lastStat (s : StateThread) {stat : RwEvtType} {ev : WfEvent}
    (h : statEvent stat = some ev) : (poll s stat).1.lastStat = stat := by
  by_cases heq : stat = s.lastStat
  · rw [poll_skips (.inr heq)]
    exact heq.symm
  · rw [poll_acts (acts_of_statEvent h) heq]

/-- An event other than `WFE_CONNECT_FAILED` is the one of the status. -/
theorem statEvent_of_poll {s : StateThread} {stat : RwEvtType} {ev : WfEvent}
    (h : (poll s stat).2 = some ev) (hev : ev ≠ .connectFailed) : statEvent stat = some ev := by
  by_cases hskip : acts stat = false ∨ stat = s.lastStat
  · rw [poll_skips hskip] at h
    exact nomatch h
  · obtain ⟨hacts, hne⟩ := not_or.mp hskip
    rw [poll_acts (Bool.not_eq_false _ ▸ hacts) hne] at h
    simp only [eventOf] at h
    split at h
    · split at h
      · exact absurd (Option.some.inj h).symm hev
      · exact nomatch h
    · exact h

/-- What the events behind the turn with `stat`, which follows the turns with `stats`, must be. -/
structure EventAgrees (stats : List RwEvtType) (stat : RwEvtType) : Prop where
  connected : stat = .staGotIp →
    (events .start (stats ++ [stat])).getLast? = some .connected
  disconnected : stat = .staDisconnected ∨ stat = .staBeaconLose →
    (events .start (stats ++ [stat])).getLast? = some .disconnected
  connectFailed : stat = .staPasswordWrong ∨ stat = .staDhcpFailed →
    (events .start (stats ++ [stat])).getLast? = some .connectFailed
  connectedOnly : (poll (final poll .start stats) stat).2 = some .connected → stat = .staGotIp
  disconnectedOnly : (poll (final poll .start stats) stat).2 = some .disconnected →
    stat = .staDisconnected ∨ stat = .staBeaconLose

theorem eventAgrees (stats : List RwEvtType) (stat : RwEvtType) : EventAgrees stats stat := by
  have hlast : ∀ ev, statEvent stat = some ev →
      (events .start (stats ++ [stat])).getLast? = some ev := by
    intro ev hev
    apply lastEvent_of_lastStat
    rw [final_append, final_cons, final_nil, poll_lastStat _ hev]
    exact hev
  constructor
  · rintro rfl
    exact hlast _ rfl
  · rintro (rfl | rfl) <;> exact hlast _ rfl
  · rintro (rfl | rfl) <;> exact hlast _ rfl
  · intro h
    have hev := statEvent_of_poll h (fun heq => nomatch heq)
    cases stat <;> first | rfl | cases hev
  · intro h
    have hev := statEvent_of_poll h (fun heq => nomatch heq)
    cases stat <;> first | exact .inl rfl | exact .inr rfl | cases hev

/-- Behind every turn of a finite or infinite sequence the last event agrees with the status. -/
theorem status_event_agrees :
    (∀ (stats : List RwEvtType) (stat : RwEvtType), EventAgrees stats stat) ∧
      ∀ (seq : Nat → RwEvtType) (n : Nat), EventAgrees ((List.range n).map seq) (seq n) :=
  ⟨eventAgrees, fun _ _ => eventAgrees _ _⟩

/-! ## The count of failed attempts -/

/-- The thread, with what the statuses so far say about the attempts: how many have failed since
    the count was ended, and whether the last status is of a failure. -/
structure Attempts where
  thread : StateThread
  failed : Nat
  failing : Bool

/-- Before the first turn. -/
def Attempts.start : Attempts := ⟨.start, 0, false⟩

/-- The attempts that have failed, with this status. One that follows another failure is of the
    same attempt. -/
def failedAfter (s : Attempts) (stat : RwEvtType) : Nat :=
  if endsCount stat then 0
  else if isFailure stat ∧ s.failing = false then s.failed + 1 else s.failed

/-- One turn. -/
def attemptPoll (s : Attempts) (stat : RwEvtType) : Attempts × Option WfEvent :=
  let (thread, event) := poll s.thread stat
  ({ thread, failed := failedAfter s stat, failing := isFailure stat }, event)

/-- `WFE_CONNECT_FAILED` comes with the third attempt that fails, and no earlier one. -/
structure CountOk (s : Attempts) (stat : RwEvtType) : Prop where
  notEarlier : isFailure stat = true → failedAfter s stat < 3 →
    (attemptPoll s stat).2 ≠ some .connectFailed
  atThird : isFailure stat = true → s.failing = false → failedAfter s stat = 3 →
    (attemptPoll s stat).2 = some .connectFailed

/-- A failure is a change of the status if and only if it is the first one of its attempt. -/
def OncePerAttempt (s : Attempts) (stat : RwEvtType) : Prop :=
  isFailure stat = true → (stat ≠ s.thread.lastStat ↔ s.failing = false)

/-- The count is the number of attempts, and 0 behind a status that ends it. -/
structure Counted (s : Attempts) : Prop where
  err : s.thread.sConnectErr = UInt32.ofNat s.failed
  ended : endsCount s.thread.lastStat = true → s.failed = 0

theorem acts_of_isFailure {stat : RwEvtType} (h : isFailure stat = true) : acts stat = true := by
  unfold acts
  rw [h]
  rfl

theorem acts_of_endsCount {stat : RwEvtType} (h : endsCount stat = true) : acts stat = true := by
  cases stat <;> first | rfl | cases h

theorem not_endsCount {stat : RwEvtType} (h : isFailure stat = true) : endsCount stat = false := by
  cases stat <;> first | rfl | cases h

/-- A turn in which the thread does nothing. -/
theorem counted_skips {s : Attempts} {stat : RwEvtType} (h : Counted s)
    (hskip : acts stat = false ∨ stat = s.thread.lastStat) (honce : OncePerAttempt s stat) :
    Counted (attemptPoll s stat).1 ∧ CountOk s stat := by
  have hlast : acts stat = true → stat = s.thread.lastStat := fun hacts =>
    hskip.resolve_left fun hno => Bool.false_ne_true (hno.symm.trans hacts)
  have hfailed : failedAfter s stat = s.failed := by
    unfold failedAfter
    by_cases hends : endsCount stat = true
    · rw [if_pos hends]
      exact (h.ended (hlast (acts_of_endsCount hends) ▸ hends)).symm
    · rw [if_neg hends]
      apply if_neg
      intro hand
      obtain ⟨hfail, hfirst⟩ := hand
      exact (honce hfail).mpr hfirst (hlast (acts_of_isFailure hfail))
  have hpoll := poll_skips hskip
  refine ⟨⟨?_, ?_⟩, ⟨?_, ?_⟩⟩
  · simp only [attemptPoll, hpoll, hfailed]
    exact h.err
  · simp only [attemptPoll, hpoll, hfailed]
    exact h.ended
  · intro _ _ hev
    simp only [attemptPoll, hpoll] at hev
    exact nomatch hev
  · intro hfail hfirst
    exact absurd (hlast (acts_of_isFailure hfail)) ((honce hfail).mpr hfirst)

/-- A turn with a change of the status. -/
theorem counted_acts {s : Attempts} {stat : RwEvtType} (h : Counted s) (hacts : acts stat = true)
    (hne : stat ≠ s.thread.lastStat) (honce : OncePerAttempt s stat) :
    Counted (attemptPoll s stat).1 ∧ CountOk s stat := by
  have hpoll := poll_acts hacts hne
  by_cases hfail : isFailure stat = true
  · have hends := not_endsCount hfail
    have hfailed : failedAfter s stat = s.failed + 1 := by
      unfold failedAfter
      rw [hends, if_neg Bool.false_ne_true, if_pos ⟨hfail, (honce hfail).mp hne⟩]
    have herr : s.thread.sConnectErr + 1 = UInt32.ofNat (s.failed + 1) := by
      rw [h.err, UInt32.ofNat_add]
      rfl
    have hevent : (attemptPoll s stat).2 =
        if UInt32.ofNat (s.failed + 1) = 3 then some .connectFailed else none := by
      simp only [attemptPoll, hpoll, eventOf, hfail, if_true, herr]
      rfl
    refine ⟨⟨?_, ?_⟩, ⟨?_, ?_⟩⟩
    · simp only [attemptPoll, hpoll, hfailed, countAfter, hends, hfail, if_true, herr,
        Bool.false_eq_true, if_false]
    · intro hends'
      simp only [attemptPoll, hpoll] at hends'
      exact absurd (hends.symm.trans hends') Bool.false_ne_true
    · intro _ hlt
      rw [hfailed] at hlt
      have hcases : s.failed = 0 ∨ s.failed = 1 := by omega
      rw [hevent]
      rcases hcases with hcase | hcase <;> rw [hcase] <;> decide
    · intro _ _ hthird
      rw [hevent, ← hfailed, hthird]
      rfl
  · have hfailed : failedAfter s stat = if endsCount stat then 0 else s.failed := by
      have hno : ¬(isFailure stat = true ∧ s.failing = false) := fun hand => hfail hand.1
      unfold failedAfter
      rw [if_neg hno]
    refine ⟨⟨?_, ?_⟩, ⟨fun hf => absurd hf hfail, fun hf => absurd hf hfail⟩⟩
    · simp only [attemptPoll, hpoll, hfailed, countAfter, hfail, Bool.false_eq_true, if_false]
      split
      · rfl
      · exact h.err
    · intro hends
      simp only [attemptPoll, hpoll] at hends ⊢
      rw [hfailed, if_pos hends]

/-- In every run in which each failed attempt is one change of the status, `WFE_CONNECT_FAILED` is
    delivered with the third failed attempt, and with no earlier one. -/
theorem attempts_counted {stats : List RwEvtType}
    (h : Along attemptPoll OncePerAttempt .start stats) :
    Along attemptPoll CountOk .start stats := by
  refine along_of_inv (I := Counted) (fun s stat hinv honce => ?_) ⟨rfl, fun _ => rfl⟩ h
  by_cases hskip : acts stat = false ∨ stat = s.thread.lastStat
  · exact counted_skips hinv hskip honce
  · obtain ⟨hacts, hne⟩ := not_or.mp hskip
    exact counted_acts hinv (Bool.not_eq_false _ ▸ hacts) hne honce

/-- Three attempts with a scan before each. -/
theorem attempts_counted_scans : Along attemptPoll CountOk .start
    [.staScanning, .staNoApFound, .staScanning, .staNoApFound, .staScanning, .staNoApFound] := by
  refine attempts_counted ⟨?_, ?_, ?_, ?_, ?_, ?_, trivial⟩ <;>
    exact fun hfail => by revert hfail; decide

/-- Three attempts that fail alike, without a scan between them: the thread takes them for one. -/
theorem attempts_not_counted : ¬Along attemptPoll CountOk .start
    [.staConnectFailed, .staConnecting, .staConnectFailed, .staConnecting, .staConnectFailed] := by
  intro hrun
  obtain ⟨-, -, -, -, hlast, -⟩ := hrun
  exact absurd (hlast.atThird rfl rfl rfl) (by decide)

end ArduinoT2.Wifi
