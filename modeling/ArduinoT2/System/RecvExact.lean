import ArduinoT2.Adapter.TklNetwork
import Mathlib.Algebra.Group.Nat.Defs

/-
  `tkl_net_recv_nd_size` (tkl_network.c) against a script of what `recv` meets.

  A `recv` that delivers nothing is retried when `errno` is a transient error. A closed peer
  leaves `errno` alone, so behind a transient error, or when an earlier call has left one, the
  loop takes the closed peer for it and goes on for ever (`recvNdLoop_hangs`). The translation of
  `errno` also makes two values that no error has into transient ones (`retries_iff`).

  `recv_exact_iff`: the call is exact when the bytes come before the first close or lasting
  error, or when it meets, before they have come, a close or an error that it does not retry
  (`StopsShort`); else it is not.
-/

namespace ArduinoT2.System

open ArduinoT2.Adapter ByteMem

/-- The errors that a later `recv` may not meet again. -/
def Transient (errno : Int32) : Prop :=
  errno = ewouldblock ∨ errno = eintr ∨ errno = eagain

instance (errno : Int32) : Decidable (Transient errno) := inferInstanceAs (Decidable (_ ∨ _))

/-- The bytes before the first close or error that is not transient. -/
def delivered : List RecvOutcome → List UInt8
  | [] => []
  | .data b bs :: script => b :: bs ++ delivered script
  | .error errno :: script => if Transient errno then delivered script else []
  | .closed :: _ => []

/-- With `rdSize` bytes read, the script has a close or an error, before `ndSize` bytes have
    come, at which `errno` is not one that is retried. -/
def StopsShort (ndSize : Nat) : Int32 → Nat → List RecvOutcome → Prop
  | errno, rdSize, [] => rdSize < ndSize ∧ ¬ Retries errno
  | errno, rdSize, .data b bs :: script =>
    StopsShort ndSize errno (rdSize + (b :: bs).length) script
  | _, rdSize, .error errno :: script =>
    rdSize < ndSize ∧ (¬ Retries errno ∨ StopsShort ndSize errno rdSize script)
  | errno, rdSize, .closed :: script =>
    rdSize < ndSize ∧ (¬ Retries errno ∨ StopsShort ndSize errno rdSize script)

/-- The call returns: with the first `ndSize` bytes in the buffer and nothing else changed when
    they come before the first close or lasting error, else with -2. -/
def RecvMeets (fd : Int32) (buf : Mem) (bufSize ndSize : UInt32) (s : RecvState) : Prop :=
  ∃ fuel rt buf', tklNetRecvNdSize fuel fd (some buf) bufSize ndSize s = some (rt, some buf') ∧
    if ndSize.toNat ≤ (delivered s.script).length then
      rt = ndSize.toNat ∧ (∀ i, i < ndSize.toNat → buf' i = (delivered s.script).getD i 0) ∧
        ∀ i, ndSize.toNat ≤ i → buf' i = buf i
    else rt = -2

/-! ## The error number -/

/-- What is to be checked of the table's errors one by one. -/
theorem forall_errno {P : Int32 → Prop} [DecidablePred P]
    (h : ((tklErrnorans.map Prod.fst).all fun e => decide (P e)) = true) :
    ∀ e ∈ tklErrnorans.map Prod.fst, P e :=
  fun e he => of_decide_eq_true (List.all_eq_true.mp h e he)

/-- An error that is not in the table is translated to `-100 - errno`. -/
theorem tklNetGetErrno_of_not_mem {errno : Int32} (h : errno ∉ tklErrnorans.map Prod.fst) :
    tklNetGetErrno errno = (-100 - errno).toUInt32 := by
  have hnone : tklErrnorans.find? (fun row => row.1 = errno) = none := by
    rw [List.find?_eq_none]
    intro row hrow he
    exact h (List.mem_map.mpr ⟨row, hrow, of_decide_eq_true he⟩)
  unfold tklNetGetErrno
  rw [hnone]

/-- What is retried: the transient errors, and the two numbers that the translation of an unknown
    error maps to them. -/
theorem retries_iff (errno : Int32) :
    Retries errno ↔ Transient errno ∨ errno = -104 ∨ errno = -111 := by
  by_cases hmem : errno ∈ tklErrnorans.map Prod.fst
  · have hall : ∀ e ∈ tklErrnorans.map Prod.fst,
        (Retries e ↔ Transient e ∨ e = -104 ∨ e = -111) := forall_errno (by decide)
    exact hall errno hmem
  · have hne : ¬ Transient errno := fun h => hmem (by
      obtain rfl | rfl | rfl := h <;> decide)
    have hback : ∀ e : Int32, (-100 - errno).toUInt32 = e.toUInt32 ↔ errno = -100 - e := by
      intro e
      constructor
      · intro h
        have hsub : -100 - errno = e := congrArg UInt32.toInt32 h
        rw [← hsub]
        grind
      · intro h
        have hsub : -100 - errno = e := by
          rw [h]
          grind
        rw [hsub]
    unfold Retries
    dsimp only
    rw [tklNetGetErrno_of_not_mem hmem, hback, hback]
    constructor
    · intro h
      obtain h | h | h := h
      · exact .inr (.inr h)
      · exact .inr (.inl h)
      · exact .inr (.inr h)
    · intro h
      obtain h | h | h := h
      · exact absurd h hne
      · exact .inr (.inl h)
      · exact .inl h

theorem Transient.retries {errno : Int32} (h : Transient errno) : Retries errno :=
  (retries_iff errno).mpr (.inl h)

/-! ## One round of the loop -/

section Round

variable {ndSize rdSize : Nat} {errno : Int32} {script : List RecvOutcome}

theorem recvNdLoop_done (h : ndSize ≤ rdSize) (fuel : Nat) (s : RecvState) (buf : Mem) :
    recvNdLoop ndSize (fuel + 1) rdSize s buf = some (rdSize, buf) := by
  rw [recvNdLoop, if_neg (by omega)]

theorem recvNdLoop_nil (h : rdSize < ndSize) (fuel : Nat) (buf : Mem) :
    recvNdLoop ndSize (fuel + 1) rdSize ⟨[], errno⟩ buf =
      if Retries errno then recvNdLoop ndSize fuel rdSize ⟨[], errno⟩ buf
      else some (rdSize, buf) := by
  rw [recvNdLoop, if_pos h]
  rfl

theorem recvNdLoop_closed (h : rdSize < ndSize) (fuel : Nat) (buf : Mem) :
    recvNdLoop ndSize (fuel + 1) rdSize ⟨.closed :: script, errno⟩ buf =
      if Retries errno then recvNdLoop ndSize fuel rdSize ⟨script, errno⟩ buf
      else some (rdSize, buf) := by
  rw [recvNdLoop, if_pos h]
  rfl

theorem recvNdLoop_error (h : rdSize < ndSize) (e : Int32) (fuel : Nat) (buf : Mem) :
    recvNdLoop ndSize (fuel + 1) rdSize ⟨.error e :: script, errno⟩ buf =
      if Retries e then recvNdLoop ndSize fuel rdSize ⟨script, e⟩ buf
      else some (rdSize, buf) := by
  rw [recvNdLoop, if_pos h]
  rfl

theorem recvNdLoop_data (h : rdSize < ndSize) (b : UInt8) (bs : List UInt8) (fuel : Nat)
    (buf : Mem) :
    recvNdLoop ndSize (fuel + 1) rdSize ⟨.data b bs :: script, errno⟩ buf =
      recvNdLoop ndSize fuel (rdSize + min (ndSize - rdSize) (b :: bs).length) ⟨script, errno⟩
        (store buf rdSize ((b :: bs).take (ndSize - rdSize))) := by
  have hlen : ((b :: bs).take (ndSize - rdSize)).length =
      min (ndSize - rdSize) (b :: bs).length := List.length_take
  have hpos : 0 < (b :: bs).length := Nat.succ_pos _
  rw [recvNdLoop, if_pos h, recv]
  dsimp only
  rw [if_neg (by omega), hlen]
  rfl

end Round

/-! ## The loop on a script -/

theorem StopsShort.lt {ndSize : Nat} {errno : Int32} {rdSize : Nat} {script : List RecvOutcome}
    (h : StopsShort ndSize errno rdSize script) : rdSize < ndSize := by
  induction script generalizing errno rdSize with
  | nil => exact h.1
  | cons o script ih =>
    cases o with
    | data b bs => exact Nat.lt_of_le_of_lt (Nat.le_add_right _ _) (ih h)
    | error e => exact h.1
    | closed => exact h.1

/-- When enough bytes come before the first close or lasting error, the loop ends with them. -/
theorem recvNdLoop_enough (ndSize : Nat) (script : List RecvOutcome) :
    ∀ (errno : Int32) (rdSize : Nat) (buf : Mem), rdSize ≤ ndSize →
      ndSize ≤ rdSize + (delivered script).length →
      ∃ fuel, recvNdLoop ndSize fuel rdSize ⟨script, errno⟩ buf =
        some (ndSize, store buf rdSize ((delivered script).take (ndSize - rdSize))) := by
  induction script with
  | nil =>
    intro errno rdSize buf hle hge
    have heq : rdSize = ndSize := Nat.le_antisymm hle hge
    refine ⟨1, ?_⟩
    rw [recvNdLoop_done (by omega), heq, delivered, List.take_nil, store_nil]
  | cons o script ih =>
    intro errno rdSize buf hle hge
    by_cases hlt : rdSize < ndSize
    · cases o with
      | data b bs =>
        have hchunk : (delivered (.data b bs :: script)).length =
            (b :: bs).length + (delivered script).length := List.length_append
        obtain ⟨fuel, hfuel⟩ := ih errno (rdSize + min (ndSize - rdSize) (b :: bs).length)
          (store buf rdSize ((b :: bs).take (ndSize - rdSize))) (by omega) (by omega)
        refine ⟨fuel + 1, ?_⟩
        have htake : (delivered (.data b bs :: script)).take (ndSize - rdSize) =
            (b :: bs).take (ndSize - rdSize) ++ (delivered script).take
              (ndSize - (rdSize + min (ndSize - rdSize) (b :: bs).length)) := by
          rw [delivered, List.take_append]
          congr 2
          omega
        rw [recvNdLoop_data hlt, hfuel, htake, ← store_append, List.length_take]
      | error e =>
        by_cases ht : Transient e
        · have hsame : delivered (.error e :: script) = delivered script := if_pos ht
          rw [hsame] at hge ⊢
          obtain ⟨fuel, hfuel⟩ := ih e rdSize buf hle hge
          exact ⟨fuel + 1, by rw [recvNdLoop_error hlt, if_pos ht.retries, hfuel]⟩
        · have hnil : delivered (.error e :: script) = [] := if_neg ht
          rw [hnil, List.length_nil] at hge
          omega
      | closed =>
        rw [delivered, List.length_nil] at hge
        omega
    · have heq : rdSize = ndSize := by omega
      refine ⟨1, ?_⟩
      rw [recvNdLoop_done (by omega), heq, Nat.sub_self, List.take_zero, store_nil]

/-- When the script stops short, the loop ends with too few bytes. -/
theorem recvNdLoop_short (ndSize : Nat) (script : List RecvOutcome) :
    ∀ (errno : Int32) (rdSize : Nat) (buf : Mem), StopsShort ndSize errno rdSize script →
      ∃ fuel rdSize' buf', recvNdLoop ndSize fuel rdSize ⟨script, errno⟩ buf =
        some (rdSize', buf') ∧ rdSize' < ndSize := by
  induction script with
  | nil =>
    intro errno rdSize buf h
    exact ⟨1, rdSize, buf, by rw [recvNdLoop_nil h.1, if_neg h.2], h.1⟩
  | cons o script ih =>
    intro errno rdSize buf h
    have hlt := h.lt
    cases o with
    | data b bs =>
      have hshort : rdSize + (b :: bs).length < ndSize := (show StopsShort _ _ _ script from h).lt
      obtain ⟨fuel, rdSize', buf', hfuel, hend⟩ := ih errno (rdSize + (b :: bs).length)
        (store buf rdSize ((b :: bs).take (ndSize - rdSize))) h
      refine ⟨fuel + 1, rdSize', buf', ?_, hend⟩
      rw [recvNdLoop_data hlt, Nat.min_eq_right (by omega), hfuel]
    | error e =>
      by_cases hr : Retries e
      · obtain ⟨fuel, rdSize', buf', hfuel, hend⟩ := ih e rdSize buf (h.2.resolve_left (· hr))
        exact ⟨fuel + 1, rdSize', buf', by rw [recvNdLoop_error hlt, if_pos hr, hfuel], hend⟩
      · exact ⟨1, rdSize, buf, by rw [recvNdLoop_error hlt, if_neg hr], hlt⟩
    | closed =>
      by_cases hr : Retries errno
      · obtain ⟨fuel, rdSize', buf', hfuel, hend⟩ := ih errno rdSize buf (h.2.resolve_left (· hr))
        exact ⟨fuel + 1, rdSize', buf', by rw [recvNdLoop_closed hlt, if_pos hr, hfuel], hend⟩
      · exact ⟨1, rdSize, buf, by rw [recvNdLoop_closed hlt, if_neg hr], hlt⟩

/-- The loop ends with all bytes unless the script stops short. -/
theorem recvNdLoop_ends {ndSize : Nat} (fuel : Nat) :
    ∀ {script : List RecvOutcome} {errno : Int32} {rdSize rdSize' : Nat} {buf buf' : Mem},
      rdSize ≤ ndSize → recvNdLoop ndSize fuel rdSize ⟨script, errno⟩ buf = some (rdSize', buf') →
      rdSize' = ndSize ∨ StopsShort ndSize errno rdSize script := by
  induction fuel with
  | zero =>
    intro script errno rdSize rdSize' buf buf' _ h
    cases h
  | succ fuel ih =>
    intro script errno rdSize rdSize' buf buf' hle h
    by_cases hlt : rdSize < ndSize
    · cases script with
      | nil =>
        rw [recvNdLoop_nil hlt] at h
        by_cases hr : Retries errno
        · rw [if_pos hr] at h
          exact ih hle h
        · exact .inr ⟨hlt, hr⟩
      | cons o script =>
        cases o with
        | data b bs =>
          rw [recvNdLoop_data hlt] at h
          refine (ih (by omega) h).imp_right fun hshort => ?_
          have hlt' := hshort.lt
          rwa [Nat.min_eq_right (by omega)] at hshort
        | error e =>
          rw [recvNdLoop_error hlt] at h
          by_cases hr : Retries e
          · rw [if_pos hr] at h
            exact (ih hle h).imp_right fun hshort => ⟨hlt, .inr hshort⟩
          · exact .inr ⟨hlt, .inl hr⟩
        | closed =>
          rw [recvNdLoop_closed hlt] at h
          by_cases hr : Retries errno
          · rw [if_pos hr] at h
            exact (ih hle h).imp_right fun hshort => ⟨hlt, .inr hshort⟩
          · exact .inr ⟨hlt, .inl hr⟩
    · rw [recvNdLoop_done (by omega)] at h
      have heq : rdSize = rdSize' := (Prod.mk.inj (Option.some.inj h)).1
      exact .inl (by omega)

/-- A closed peer with a retried `errno`: no number of rounds ends the loop. -/
theorem recvNdLoop_hangs {ndSize rdSize : Nat} (h : rdSize < ndSize) {errno : Int32}
    (hr : Retries errno) (fuel : Nat) (buf : Mem) :
    recvNdLoop ndSize fuel rdSize ⟨[], errno⟩ buf = none := by
  induction fuel with
  | zero => rfl
  | succ fuel ih => rw [recvNdLoop_nil h, if_pos hr, ih]

/-! ## The call -/

theorem tklNetRecvNdSize_eq {fd : Int32} {bufSize ndSize : UInt32} (hfd : 0 ≤ fd)
    (hpos : 0 < ndSize) (hle : ndSize ≤ bufSize) (fuel : Nat) (buf : Mem)
    (s : RecvState) : tklNetRecvNdSize fuel fd (some buf) bufSize ndSize s =
      match recvNdLoop ndSize.toNat fuel 0 s buf with
      | none => none
      | some (rdSize, buf) =>
        if rdSize < ndSize.toNat then some (-2, some buf)
        else some ((UInt32.ofNat rdSize).toInt32.toInt, some buf) := by
  have hargs : ¬ (fd < 0 ∨ bufSize = 0 ∨ ndSize = 0 ∨ bufSize < ndSize) := by
    rw [Int32.le_iff_toInt_le] at hfd
    rw [UInt32.lt_iff_toNat_lt] at hpos
    rw [UInt32.le_iff_toNat_le] at hle
    rw [Int32.lt_iff_toInt_lt, UInt32.lt_iff_toNat_lt, ← UInt32.toNat_inj, ← UInt32.toNat_inj]
    simp at hfd hpos ⊢
    omega
  exact if_neg hargs

/-- A size below 2^31 comes back as it is. -/
theorem toInt_ndSize {ndSize : UInt32} (h : ndSize.toNat < 2 ^ 31) :
    (UInt32.ofNat ndSize.toNat).toInt32.toInt = ndSize.toNat := by
  have hint : ndSize.toInt32.toInt = ndSize.toBitVec.toInt := rfl
  have hnat : ndSize.toBitVec.toNat = ndSize.toNat := rfl
  rw [UInt32.ofNat_toNat, hint, BitVec.toInt_eq_toNat_cond, if_pos (by omega), hnat]

section Call

variable {fd : Int32} {bufSize ndSize : UInt32}

/-- Enough bytes: the call returns with them. -/
theorem recvMeets_of_enough (hfd : 0 ≤ fd) (hpos : 0 < ndSize) (hle : ndSize ≤ bufSize)
    (hmax : ndSize.toNat < 2 ^ 31) (buf : Mem) {s : RecvState}
    (henough : ndSize.toNat ≤ (delivered s.script).length) :
    RecvMeets fd buf bufSize ndSize s := by
  obtain ⟨fuel, hfuel⟩ := recvNdLoop_enough ndSize.toNat s.script s.errno 0 buf (Nat.zero_le _)
    (by omega)
  have hrun : tklNetRecvNdSize fuel fd (some buf) bufSize ndSize s = some ((ndSize.toNat : Int),
      some (store buf 0 ((delivered s.script).take (ndSize.toNat - 0)))) := by
    rw [tklNetRecvNdSize_eq hfd hpos hle, hfuel]
    dsimp only
    rw [if_neg (Nat.lt_irrefl _), toInt_ndSize hmax]
  have hlen : ((delivered s.script).take (ndSize.toNat - 0)).length = ndSize.toNat := by
    rw [List.length_take]
    omega
  refine ⟨fuel, _, _, hrun, ?_⟩
  rw [if_pos henough]
  refine ⟨rfl, fun i hi => ?_, fun i hi => store_out (by omega)⟩
  rw [store_in (by omega) (by omega), Nat.sub_zero, Nat.sub_zero, List.getD_eq_getElem?_getD,
    List.getElem?_take_of_lt hi, ← List.getD_eq_getElem?_getD]

/-- Too few, and a close or an error that is not retried: the call returns -2. -/
theorem recvMeets_of_short (hfd : 0 ≤ fd) (hpos : 0 < ndSize) (hle : ndSize ≤ bufSize)
    (buf : Mem) {s : RecvState} (hfew : ¬ ndSize.toNat ≤ (delivered s.script).length)
    (hshort : StopsShort ndSize.toNat s.errno 0 s.script) :
    RecvMeets fd buf bufSize ndSize s := by
  obtain ⟨fuel, rdSize, buf', hfuel, hlt⟩ :=
    recvNdLoop_short ndSize.toNat s.script s.errno 0 buf hshort
  refine ⟨fuel, -2, buf', ?_, by rw [if_neg hfew]⟩
  rw [tklNetRecvNdSize_eq hfd hpos hle, hfuel]
  exact if_pos hlt

/-- A call that returns -2 has met such a close or error. -/
theorem stopsShort_of_returns (hfd : 0 ≤ fd) (hpos : 0 < ndSize) (hle : ndSize ≤ bufSize)
    (hmax : ndSize.toNat < 2 ^ 31) {fuel : Nat} {buf : Mem} {buf' : Option Mem} {s : RecvState}
    (hrun : tklNetRecvNdSize fuel fd (some buf) bufSize ndSize s = some (-2, buf')) :
    StopsShort ndSize.toNat s.errno 0 s.script := by
  rw [tklNetRecvNdSize_eq hfd hpos hle] at hrun
  cases hloop : recvNdLoop ndSize.toNat fuel 0 s buf with
  | none =>
    rw [hloop] at hrun
    cases hrun
  | some r =>
    obtain ⟨rdSize, buf''⟩ := r
    rw [hloop] at hrun
    dsimp only at hrun
    obtain heq | hshort := recvNdLoop_ends fuel (Nat.zero_le _) hloop
    · rw [if_neg (by omega), heq, toInt_ndSize hmax] at hrun
      have hret : (ndSize.toNat : Int) = -2 := (Prod.mk.inj (Option.some.inj hrun)).1
      omega
    · exact hshort

end Call

/-- The call is exact when enough bytes come before the first close or lasting error, or when it
    meets, before they have come, a close or an error at which `errno` is not retried; and it is
    not exact otherwise. -/
theorem recv_exact_iff {fd : Int32} {bufSize ndSize : UInt32} (hfd : 0 ≤ fd)
    (hpos : 0 < ndSize) (hle : ndSize ≤ bufSize) (hmax : bufSize.toNat < 2 ^ 31)
    (buf : Mem) (s : RecvState) :
    RecvMeets fd buf bufSize ndSize s ↔ ndSize.toNat ≤ (delivered s.script).length ∨
      StopsShort ndSize.toNat s.errno 0 s.script := by
  have hlt : ndSize.toNat < 2 ^ 31 := Nat.lt_of_le_of_lt (UInt32.le_iff_toNat_le.mp hle) hmax
  by_cases henough : ndSize.toNat ≤ (delivered s.script).length
  · exact iff_of_true (recvMeets_of_enough hfd hpos hle hlt buf henough) (.inl henough)
  · rw [or_iff_right henough]
    refine ⟨fun h => ?_, recvMeets_of_short hfd hpos hle buf henough⟩
    obtain ⟨fuel, rt, buf', hrun, hmeets⟩ := h
    rw [if_neg henough] at hmeets
    rw [hmeets] at hrun
    exact stopsShort_of_returns hfd hpos hle hlt hrun

/-- Five bytes in two pieces with an interruption between them, and a peer that resets. -/
theorem recv_exact_pieces :
    RecvMeets 3 (fun _ => 0) 8 5 ⟨[.data 1 [2, 3], .error eintr, .data 4 [5]], 0⟩ ∧
    RecvMeets 3 (fun _ => 0) 8 5 ⟨[.data 1 [2, 3], .error econnreset], 0⟩ :=
  ⟨(recv_exact_iff (by decide) (by decide) (by decide) (by decide) _ _).mpr (.inl (by decide)),
    (recv_exact_iff (by decide) (by decide) (by decide) (by decide) _ _).mpr
      (.inr ⟨by decide, .inl (by decide)⟩)⟩

/-- Three bytes of five, then the peer closes, with `EAGAIN` left from an earlier call: the call
    does not return. -/
theorem recv_hangs_stale :
    (∀ fuel, tklNetRecvNdSize fuel 3 (some fun _ => 0) 8 5 ⟨[.data 1 [2, 3]], eagain⟩ = none) ∧
    ¬ RecvMeets 3 (fun _ => 0) 8 5 ⟨[.data 1 [2, 3]], eagain⟩ := by
  have hhang : ∀ fuel,
      tklNetRecvNdSize fuel 3 (some fun _ => 0) 8 5 ⟨[.data 1 [2, 3]], eagain⟩ = none := by
    intro fuel
    rw [tklNetRecvNdSize_eq (by decide) (by decide) (by decide)]
    cases fuel with
    | zero => rfl
    | succ fuel =>
      rw [recvNdLoop_data (by decide), recvNdLoop_hangs (by decide) (by decide)]
  refine ⟨hhang, ?_⟩
  intro h
  obtain ⟨fuel, rt, buf', hrun, -⟩ := h
  rw [hhang] at hrun
  cases hrun

end ArduinoT2.System
