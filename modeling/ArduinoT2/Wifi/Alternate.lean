import ArduinoT2.Lib.OnChange
import ArduinoT2.Wifi.Events

/-
  Whether the events of a connection alternate (tkl_wifi.c).

  The thread sees the statuses that it acts on, without repetitions (`seen`): `events_eq_turns`.
  Two events of one kind are next to each other if and only if two statuses of this event are,
  up to scans and at most two failures between them (`pair_iff`). `events_alternate_iff` says
  this of both kinds: a scan makes the thread forget that it has reported the status.
-/

namespace ArduinoT2.Wifi

open StepSys ArduinoT2.Adapter

/-! ## Neighbours in a list -/

/-- Between any two `a` there is something else if and only if no two of them are neighbours. -/
theorem between_iff {α : Type} (a : α) (l : List α) :
    (∀ mid, (a :: mid ++ [a]) <:+: l → ∃ e ∈ mid, e ≠ a) ↔ ¬[a, a] <:+: l := by
  constructor
  · intro h hpair
    obtain ⟨e, he, -⟩ := h [] hpair
    exact nomatch he
  · intro h mid hmid
    by_contra hall
    -- all of `mid` is `a`, so the first two entries are neighbours
    have hrep : mid = List.replicate mid.length a :=
      List.eq_replicate_of_mem fun e he => not_not.mp fun hne => hall ⟨e, he, hne⟩
    apply h
    refine List.IsInfix.trans ?_ hmid
    rw [hrep]
    cases mid.length with
    | zero => exact List.infix_refl _
    | succ n => exact ⟨[], List.replicate n a ++ [a], rfl⟩

/-! ## What the thread sees -/

/-- The statuses that the thread acts on, without repetitions. -/
def seen (stats : List RwEvtType) : List RwEvtType := (stats.filter acts).destutter (· ≠ ·)

/-- A turn with a status that is acted on. -/
def statTurn (err : UInt32) (stat : RwEvtType) : UInt32 × Option WfEvent :=
  (countAfter err stat, eventOf err stat)

/-- The events of statuses that are all acted on. -/
def turns (err : UInt32) (stats : List RwEvtType) : List WfEvent :=
  (outputs statTurn err stats).reduceOption

theorem turns_cons (err : UInt32) (stat : RwEvtType) (stats : List RwEvtType) :
    turns err (stat :: stats) = (eventOf err stat).toList ++ turns (countAfter err stat) stats := by
  unfold turns
  rw [outputs_cons]
  unfold statTurn
  cases eventOf err stat with
  | none => exact List.reduceOption_cons_of_none _
  | some ev => exact List.reduceOption_cons_of_some _ _

/-- The thread is a machine that acts on changes: `last_stat` is the last status passed on. -/
theorem poll_onChange (last : RwEvtType) (err : UInt32) (stat : RwEvtType) :
    let t := OnChange.step acts statTurn (last, err) stat
    poll ⟨last, err⟩ stat = (⟨t.1.1, t.1.2⟩, t.2) := by
  intro t
  by_cases hpass : acts stat = true ∧ stat ≠ last
  · have ht : t = ((stat, countAfter err stat), eventOf err stat) := if_pos hpass
    rw [ht]
    exact poll_acts hpass.1 hpass.2
  · have ht : t = ((last, err), none) := if_neg hpass
    rw [ht]
    rw [not_and_or, not_not, Bool.not_eq_true] at hpass
    exact poll_skips hpass

/-- From the start, a run delivers the events of the statuses that it sees. -/
theorem events_eq_turns (stats : List RwEvtType) :
    events .start stats = turns 0 (seen stats) := by
  have hsame : outputs poll .start stats =
      outputs (OnChange.step acts statTurn) (.staIdle, 0) stats := by
    refine (run_agree (A := fun s t => s = ⟨t.1, t.2⟩) (C := fun _ _ => True) ?_ rfl
      (along_of_forall (fun _ _ => trivial) _ stats)).2
    rintro _ ⟨last, err⟩ stat rfl -
    rw [poll_onChange]
    exact ⟨rfl, rfl⟩
  unfold events turns seen
  rw [hsame, OnChange.outputs_step, OnChange.seen_eq_destutter rfl]

/-! ## Pairs of events -/

/-- A status of the event `ev` is ahead, behind statuses without an event of their own, of which
    fewer than three with the `n` before are failures. -/
def Ahead (ev : WfEvent) (n : Nat) (stats : List RwEvtType) : Prop :=
  ∃ mid b, (mid ++ [b]) <+: stats ∧ statEvent b = some ev ∧
    (∀ stat ∈ mid, statEvent stat = none) ∧ n + mid.countP isFailure < 3

theorem not_ahead_nil (ev : WfEvent) (n : Nat) : ¬Ahead ev n [] := by
  intro hahead
  obtain ⟨mid, b, hpre, -⟩ := hahead
  have hnil := List.prefix_nil.mp hpre
  exact absurd hnil (List.append_ne_nil_of_right_ne_nil _ (List.cons_ne_nil _ _))

theorem ahead_of_some {ev e : WfEvent} {n : Nat} (hn : n < 3) {stat : RwEvtType}
    {stats : List RwEvtType} (h : statEvent stat = some e) :
    Ahead ev n (stat :: stats) ↔ e = ev := by
  constructor
  · intro hahead
    obtain ⟨mid, b, hpre, hb, hmid, -⟩ := hahead
    cases mid with
    | nil =>
      obtain ⟨rfl, -⟩ := List.cons_prefix_cons.mp hpre
      exact Option.some.inj (h.symm.trans hb)
    | cons a mid =>
      obtain ⟨rfl, -⟩ := List.cons_prefix_cons.mp hpre
      exact nomatch h.symm.trans (hmid a List.mem_cons_self)
  · rintro rfl
    exact ⟨[], stat, ⟨stats, rfl⟩, h, (fun a ha => nomatch ha), hn⟩

theorem ahead_of_none {ev : WfEvent} {n : Nat} {stat : RwEvtType} {stats : List RwEvtType}
    (h : statEvent stat = none) : Ahead ev n (stat :: stats) ↔
      Ahead ev (n + if isFailure stat then 1 else 0) stats := by
  constructor
  · intro hahead
    obtain ⟨mid, b, hpre, hb, hmid, hcount⟩ := hahead
    cases mid with
    | nil =>
      obtain ⟨rfl, -⟩ := List.cons_prefix_cons.mp hpre
      exact nomatch h.symm.trans hb
    | cons a mid =>
      obtain ⟨rfl, htail⟩ := List.cons_prefix_cons.mp hpre
      rw [List.countP_cons] at hcount
      exact ⟨mid, b, htail, hb, fun x hx => hmid x (List.mem_cons_of_mem _ hx), by omega⟩
  · intro hahead
    obtain ⟨mid, b, hpre, hb, hmid, hcount⟩ := hahead
    refine ⟨stat :: mid, b, List.cons_prefix_cons.mpr ⟨rfl, hpre⟩, hb, ?_, ?_⟩
    · intro x hx
      rcases List.mem_cons.mp hx with rfl | hx
      · exact h
      · exact hmid x hx
    · rw [List.countP_cons]
      omega

theorem countAfter_of_none {err : UInt32} {stat : RwEvtType} (h : statEvent stat = none) :
    countAfter err stat = if isFailure stat then err + 1 else err := by
  cases stat <;> first | rfl | cases h

theorem eventOf_of_none {err : UInt32} {stat : RwEvtType} (h : statEvent stat = none) :
    eventOf err stat = if isFailure stat ∧ err + 1 = 3 then some .connectFailed else none := by
  unfold eventOf wifiConnectErrorMaxCnt
  rw [h]
  split_ifs <;> first | rfl | tauto

/-- The first event is `ev`, with `n` failures before. -/
theorem first_iff {ev : WfEvent} (hev : ev ≠ .connectFailed) {n : Nat} (hn : n < 3)
    (stats : List RwEvtType) : [ev] <+: turns (UInt32.ofNat n) stats ↔ Ahead ev n stats := by
  induction stats generalizing n with
  | nil => exact iff_of_false (fun h => nomatch List.prefix_nil.mp h) (not_ahead_nil ev n)
  | cons stat stats ih =>
    rw [turns_cons]
    cases hstat : statEvent stat with
    | some e =>
      rw [ahead_of_some hn hstat, eventOf_of_statEvent _ hstat, Option.toList_some,
        List.singleton_append, List.cons_prefix_cons]
      exact ⟨fun h => h.1.symm, fun h => ⟨h.symm, List.nil_prefix⟩⟩
    | none =>
      rw [ahead_of_none hstat, eventOf_of_none hstat, countAfter_of_none hstat]
      by_cases hfail : isFailure stat = true
      · simp only [hfail, true_and, if_true]
        by_cases hthird : n = 2
        · -- the third failure has an event of its own
          have hno : ¬Ahead ev (n + 1) stats := by
            intro hahead
            obtain ⟨mid, b, -, -, -, hcount⟩ := hahead
            omega
          refine iff_of_false ?_ hno
          rw [hthird, if_pos (by decide), Option.toList_some, List.singleton_append,
            List.cons_prefix_cons]
          exact fun h => hev h.1
        · have hlt : n + 1 < 3 := by omega
          have hne : ¬UInt32.ofNat n + 1 = 3 := by
            have hcases : n = 0 ∨ n = 1 := by omega
            rcases hcases with rfl | rfl <;> decide
          rw [if_neg hne, Option.toList_none, List.nil_append, ← ih hlt, UInt32.ofNat_add]
          rfl
      · simp only [hfail, Bool.false_eq_true, false_and, if_false]
        exact ih hn

/-- Two statuses of the event `ev`, with statuses between them that have no event of their own, and
    of which fewer than three are failures. -/
def Repeats (ev : WfEvent) (stats : List RwEvtType) : Prop :=
  ∃ a mid b, (a :: mid ++ [b]) <:+: stats ∧ statEvent a = some ev ∧ statEvent b = some ev ∧
    (∀ stat ∈ mid, statEvent stat = none) ∧ mid.countP isFailure < 3

theorem not_repeats_nil (ev : WfEvent) : ¬Repeats ev [] := by
  intro hrepeats
  obtain ⟨a, mid, b, hinf, -⟩ := hrepeats
  exact nomatch List.infix_nil.mp hinf

theorem repeats_cons (ev : WfEvent) (stat : RwEvtType) (stats : List RwEvtType) :
    Repeats ev (stat :: stats) ↔
      (statEvent stat = some ev ∧ Ahead ev 0 stats) ∨ Repeats ev stats := by
  constructor
  · intro hrepeats
    obtain ⟨a, mid, b, hinf, ha, hb, hmid, hcount⟩ := hrepeats
    rcases List.infix_cons_iff.mp hinf with hpre | hinf
    · obtain ⟨rfl, htail⟩ := List.cons_prefix_cons.mp hpre
      exact .inl ⟨ha, mid, b, htail, hb, hmid, by omega⟩
    · exact .inr ⟨a, mid, b, hinf, ha, hb, hmid, hcount⟩
  · intro hcases
    rcases hcases with ⟨ha, mid, b, hpre, hb, hmid, hcount⟩ | ⟨a, mid, b, hinf, hrest⟩
    · refine ⟨stat, mid, b, ?_, ha, hb, hmid, by omega⟩
      exact (List.cons_prefix_cons.mpr ⟨rfl, hpre⟩ : stat :: (mid ++ [b]) <+: _).isInfix
    · exact ⟨a, mid, b, List.infix_cons hinf, hrest⟩

theorem countAfter_of_some {err : UInt32} {stat : RwEvtType} {ev : WfEvent}
    (hev : ev ≠ .connectFailed) (h : statEvent stat = some ev) : countAfter err stat = 0 := by
  cases stat <;> first | rfl | exact absurd (Option.some.inj h).symm hev | cases h

/-- Two events `ev` are neighbours if and only if two statuses of this event are, up to scans and
    at most two failures. -/
theorem pair_iff {ev : WfEvent} (hev : ev ≠ .connectFailed) (err : UInt32)
    (stats : List RwEvtType) : [ev, ev] <:+: turns err stats ↔ Repeats ev stats := by
  induction stats generalizing err with
  | nil => exact iff_of_false (fun h => nomatch List.infix_nil.mp h) (not_repeats_nil ev)
  | cons stat stats ih =>
    rw [turns_cons, repeats_cons]
    cases hevent : eventOf err stat with
    | none =>
      have hstat : statEvent stat ≠ some ev := fun h =>
        nomatch hevent.symm.trans (eventOf_of_statEvent err h)
      rw [Option.toList_none, List.nil_append, ih, or_iff_right fun h => hstat h.1]
    | some e =>
      rw [Option.toList_some, List.singleton_append, List.infix_cons_iff, List.cons_prefix_cons, ih]
      refine or_congr_left ?_
      constructor
      · intro hpair
        obtain ⟨rfl, hpre⟩ := hpair
        have hstat : statEvent stat = some ev := by
          unfold eventOf at hevent
          split at hevent
          · split at hevent
            · exact absurd (Option.some.inj hevent).symm hev
            · exact nomatch hevent
          · exact hevent
        rw [countAfter_of_some hev hstat] at hpre
        exact ⟨hstat, (first_iff hev (by decide) stats).mp hpre⟩
      · intro hpair
        obtain ⟨hstat, hahead⟩ := hpair
        have he : e = ev :=
          Option.some.inj (hevent.symm.trans (eventOf_of_statEvent err hstat))
        rw [countAfter_of_some hev hstat]
        exact ⟨he.symm, (first_iff hev (by decide) stats).mpr hahead⟩

/-! ## Runs -/

/-- Between any two `WFE_CONNECTED` there is a `WFE_DISCONNECTED` or a `WFE_CONNECT_FAILED`, and
    between any two `WFE_DISCONNECTED` there is something else. -/
structure Alternate (es : List WfEvent) : Prop where
  connected : ∀ mid, (.connected :: mid ++ [.connected]) <:+: es →
    .disconnected ∈ mid ∨ .connectFailed ∈ mid
  disconnected : ∀ mid, (.disconnected :: mid ++ [.disconnected]) <:+: es →
    ∃ ev ∈ mid, ev ≠ .disconnected

theorem alternate_iff (es : List WfEvent) : Alternate es ↔
    ¬[.connected, .connected] <:+: es ∧ ¬[.disconnected, .disconnected] <:+: es := by
  have hother : ∀ mid : List WfEvent, (.disconnected ∈ mid ∨ .connectFailed ∈ mid) ↔
      ∃ ev ∈ mid, ev ≠ .connected := by
    intro mid
    constructor
    · intro hor
      rcases hor with h | h
      · exact ⟨_, h, fun heq => nomatch heq⟩
      · exact ⟨_, h, fun heq => nomatch heq⟩
    · intro hex
      obtain ⟨ev, h, hne⟩ := hex
      cases ev with
      | connected => exact absurd rfl hne
      | disconnected => exact .inl h
      | connectFailed => exact .inr h
  rw [← between_iff, ← between_iff]
  constructor
  · exact fun h => ⟨fun mid hmid => (hother mid).mp (h.connected mid hmid), h.disconnected⟩
  · exact fun h => ⟨fun mid hmid => (hother mid).mpr (h.1 mid hmid), h.2⟩

/-- The events of a run alternate if and only if, in what the thread sees of the statuses, no
    `GOT_IP` follows another one, and neither `DISCONNECTED` nor `BEACON_LOSE` another of the two,
    with only scans and at most two failures between them. -/
theorem events_alternate_iff (stats : List RwEvtType) : Alternate (events .start stats) ↔
    ¬Repeats .connected (seen stats) ∧ ¬Repeats .disconnected (seen stats) := by
  have hconnected : WfEvent.connected ≠ .connectFailed := by decide
  have hdisconnected : WfEvent.disconnected ≠ .connectFailed := by decide
  rw [alternate_iff, events_eq_turns, pair_iff hconnected, pair_iff hdisconnected]

/-- A scan between two `GOT_IP`, and a beacon loss behind a disconnection. -/
theorem events_not_alternate :
    ¬Alternate (events .start [.staGotIp, .staScanning, .staGotIp]) ∧
      ¬Alternate (events .start [.staDisconnected, .staBeaconLose]) := by
  constructor
  · intro h
    exact absurd (h.connected [] (List.infix_refl _)) (by decide)
  · intro h
    obtain ⟨ev, hev, -⟩ := h.disconnected [] (List.infix_refl _)
    exact nomatch hev

end ArduinoT2.Wifi
