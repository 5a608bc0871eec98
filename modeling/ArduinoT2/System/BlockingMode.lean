import ArduinoT2.Adapter.TklNetwork
import ArduinoT2.Lib.StepSys

/-
  The blocking mode of sockets across calls: `tkl_net_set_block` and `tkl_net_get_nonblock`
  (tkl_network.c).

  The flag of a socket is what the last successful `tkl_net_set_block` has made it
  (`sockStep_inv`). The getter does not answer with the flag alone: of a socket that does not
  block it says so only when `errno`, which any call may have left, is `EAGAIN`.

  `nonblock_iff`: in a sequence of calls all answers are right exactly when no socket that does
  not block is asked about with another `errno`.
-/

namespace ArduinoT2.System

open ArduinoT2.Adapter StepSys

/-- A call on a socket. `setBlock` may fail in `fcntl`; `other` is any other call, which leaves
    its error number. -/
inductive SockCall where
  | setBlock (fd : Int32) (block : Bool) (fails : Option Int32)
  | getNonblock (fd : Int32)
  | other (errno : Int32)

/-- The sockets, and the mode that the last successful `tkl_net_set_block` on each has asked
    for. -/
structure SockRun where
  net : Sockets
  asked : Int32 → Option Bool

/-- One call: the return value and the state behind it. -/
def sockStep (s : SockRun) : SockCall → SockRun × Int
  | .setBlock fd block fails =>
    let r := tklNetSetBlock s.net fd block fails
    (⟨r.2, if r.1 = oprtOk then Function.update s.asked fd (some block) else s.asked⟩, r.1)
  | .getNonblock fd =>
    let r := tklNetGetNonblock s.net fd
    (⟨r.2, s.asked⟩, r.1)
  | .other errno => ({ s with net := { s.net with errno } }, 0)

/-- The call is about an open socket. -/
def OnOpen (s : SockRun) : SockCall → Prop
  | .setBlock fd _ _ => s.net.isOpen fd
  | .getNonblock fd => s.net.isOpen fd
  | .other _ => True

/-- A question about a socket whose mode has been set is answered with that mode: 1 if it is not
    blocking and 0 if it is. -/
def AnswersMode (s : SockRun) : SockCall → Prop
  | .getNonblock fd => ∀ block, s.asked fd = some block →
    (sockStep s (.getNonblock fd)).2 = if block then 0 else 1
  | _ => True

/-- The question is not about a socket set to non-blocking mode, or `errno` is `EAGAIN`. -/
def AsksWell (s : SockRun) : SockCall → Prop
  | .getNonblock fd => s.asked fd = some false → s.net.errno = eagain
  | _ => True

/-- The open sockets have numbers from 0 on, and the flag of a socket whose mode has been set
    says this mode. -/
structure SockInv (s : SockRun) : Prop where
  nonneg : ∀ fd, s.net.isOpen fd → 0 ≤ fd
  flags : ∀ fd block, s.asked fd = some block →
    s.net.flags fd &&& oNonblock = if block then 0 else oNonblock

/-! ## One call -/

theorem not_lt_zero {fd : Int32} (h : 0 ≤ fd) : ¬ fd < 0 := by
  rw [Int32.le_iff_toInt_le] at h
  rw [Int32.lt_iff_toInt_lt]
  omega

/-- Storing the flag `m` of `new` among the flags `old`. -/
theorem and_store (old new m : BitVec 32) : ((old &&& ~~~m) ||| (new &&& m)) &&& m = new &&& m := by
  ext i hi
  simp
  grind

/-- The flag behind a `tkl_net_set_block` that succeeds. -/
theorem setfl_nonblock (flags : BitVec 32) (block : Bool) :
    ((flags &&& ~~~oNonblock) ||| ((if block then flags &&& ~~~oNonblock else
      flags ||| oNonblock) &&& oNonblock)) &&& oNonblock = if block then 0 else oNonblock := by
  rw [and_store]
  cases block with
  | true =>
    ext i hi
    simp only [if_true, BitVec.getElem_and, BitVec.getElem_not]
    simp
  | false =>
    ext i hi
    simp only [Bool.false_eq_true, if_false, BitVec.getElem_and, BitVec.getElem_or]
    grind

theorem tklNetSetBlock_eq {s : Sockets} {fd : Int32} (hopen : s.isOpen fd) (hfd : 0 ≤ fd)
    (block : Bool) (fails : Option Int32) : tklNetSetBlock s fd block fails =
      match fails with
      | some errno => (oprtComError, { s with errno })
      | none => (oprtOk, { s with flags := fun fd' => if fd' = fd then
          (s.flags fd &&& ~~~oNonblock) ||| ((if block then s.flags fd &&& ~~~oNonblock else
            s.flags fd ||| oNonblock) &&& oNonblock) else s.flags fd' }) := by
  unfold tklNetSetBlock fcntlGetfl fcntlSetfl
  rw [if_neg (not_lt_zero hfd), if_pos hopen]
  dsimp only
  cases fails with
  | none =>
    dsimp only
    rw [if_pos hopen]
    rfl
  | some errno => rfl

theorem tklNetGetNonblock_eq {s : Sockets} {fd : Int32} (hopen : s.isOpen fd) (hfd : 0 ≤ fd) :
    tklNetGetNonblock s fd =
      (if s.flags fd &&& oNonblock = oNonblock ∧ s.errno = eagain then 1 else 0, s) := by
  unfold tklNetGetNonblock fcntlGetfl
  rw [if_neg (not_lt_zero hfd), if_pos hopen]
  dsimp only
  by_cases hflag : s.flags fd &&& oNonblock = oNonblock
  · by_cases he : s.errno = eagain
    · rw [if_neg (not_not_intro hflag), if_pos (.inl he), if_pos ⟨hflag, he⟩]
    · rw [if_neg (not_not_intro hflag), if_neg (fun h => h.elim he he), if_neg fun h => he h.2]
  · rw [if_pos hflag, if_neg fun h => hflag h.1]

/-- A call keeps the flags in step with the modes asked for. -/
theorem sockStep_inv {s : SockRun} (hi : SockInv s) {c : SockCall} (ho : OnOpen s c) :
    SockInv (sockStep s c).1 := by
  cases c with
  | setBlock fd block fails =>
    have hstep := tklNetSetBlock_eq ho (hi.nonneg fd ho) block fails
    unfold sockStep
    dsimp only
    rw [hstep]
    cases fails with
    | some errno => exact ⟨hi.nonneg, hi.flags⟩
    | none =>
      refine ⟨hi.nonneg, fun fd' block' hasked => ?_⟩
      dsimp only at hasked ⊢
      rw [if_pos rfl] at hasked
      by_cases hfd : fd' = fd
      · rw [hfd, Function.update_self] at hasked
        rw [if_pos hfd, setfl_nonblock, Option.some.inj hasked]
      · rw [Function.update_of_ne hfd] at hasked
        rw [if_neg hfd]
        exact hi.flags fd' block' hasked
  | getNonblock fd =>
    have hstep := tklNetGetNonblock_eq ho (hi.nonneg fd ho)
    unfold sockStep
    dsimp only
    rw [hstep]
    exact hi
  | other errno => exact ⟨hi.nonneg, hi.flags⟩

theorem answersMode_iff {s : SockRun} (hi : SockInv s) {c : SockCall} (ho : OnOpen s c) :
    AnswersMode s c ↔ AsksWell s c := by
  cases c with
  | setBlock => exact Iff.rfl
  | other => exact Iff.rfl
  | getNonblock fd =>
    have hret : (sockStep s (.getNonblock fd)).2 =
        if s.net.flags fd &&& oNonblock = oNonblock ∧ s.net.errno = eagain then 1 else 0 := by
      have hstep := tklNetGetNonblock_eq ho (hi.nonneg fd ho)
      unfold sockStep
      dsimp only
      rw [hstep]
    unfold AnswersMode AsksWell
    dsimp only
    rw [hret]
    constructor
    · intro h hasked
      have hans := h false hasked
      by_cases he : s.net.errno = eagain
      · exact he
      · rw [if_neg fun h => he h.2] at hans
        cases hans
    · intro h block hasked
      have hflag := hi.flags fd block hasked
      cases block with
      | true =>
        rw [if_neg fun h => by rw [hflag] at h; exact absurd h.1 (by decide)]
        rfl
      | false => exact if_pos ⟨hflag, h hasked⟩

/-! ## Sequences of calls -/

/-- The sockets at the start: no mode has been set yet. -/
theorem sockInv_start {net : Sockets} (h : ∀ fd, net.isOpen fd → 0 ≤ fd) :
    SockInv ⟨net, fun _ => none⟩ := ⟨h, fun _ _ hasked => nomatch hasked⟩

/-- The questions of a sequence of calls are all answered with the mode last set exactly when
    each of them that is about a socket in non-blocking mode finds `EAGAIN` in `errno`. -/
theorem nonblock_iff {net : Sockets} (h : ∀ fd, net.isOpen fd → 0 ≤ fd) (cs : List SockCall)
    (ho : Along sockStep OnOpen ⟨net, fun _ => none⟩ cs) :
    Along sockStep AnswersMode ⟨net, fun _ => none⟩ cs ↔
      Along sockStep AsksWell ⟨net, fun _ => none⟩ cs := by
  apply along_congr_of (I := SockInv) _ _ (sockInv_start h) ho
  · exact fun s c hi hoc _ => sockStep_inv hi hoc
  · exact fun s c hi hoc => answersMode_iff hi hoc

/-- One open socket. -/
def oneSocket (errno : Int32) : Sockets where
  isOpen fd := fd = 3
  flags _ := 2
  errno := errno

theorem oneSocket_nonneg (errno : Int32) :
    ∀ fd, (oneSocket errno).isOpen fd → 0 ≤ fd := by
  intro fd h
  rw [of_decide_eq_true h]
  decide

theorem nonblock_iff_eagain :
    Along sockStep AnswersMode ⟨oneSocket 0, fun _ => none⟩
      [.setBlock 3 false none, .other eagain, .getNonblock 3, .setBlock 3 true none, .other 0,
        .getNonblock 3] := by
  refine (nonblock_iff (oneSocket_nonneg 0) _ ?_).mpr ?_
  · exact ⟨rfl, trivial, rfl, rfl, trivial, rfl, trivial⟩
  · exact ⟨trivial, trivial, fun _ => rfl, trivial, trivial, (fun h => nomatch h), trivial⟩

/-- A socket set to non-blocking mode, with `errno` 0: the answer is 0. -/
theorem nonblock_unseen :
    Along sockStep OnOpen ⟨oneSocket 0, fun _ => none⟩ [.setBlock 3 false none, .getNonblock 3] ∧
    outputs sockStep ⟨oneSocket 0, fun _ => none⟩ [.setBlock 3 false none, .getNonblock 3] =
      [oprtOk, 0] ∧
    ¬ Along sockStep AnswersMode ⟨oneSocket 0, fun _ => none⟩
      [.setBlock 3 false none, .getNonblock 3] := by
  refine ⟨⟨rfl, rfl, trivial⟩, by decide, ?_⟩
  intro h
  have hans := h.2.1 false (by decide)
  revert hans
  decide

end ArduinoT2.System
