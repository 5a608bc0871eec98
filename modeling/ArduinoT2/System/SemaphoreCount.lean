import ArduinoT2.Lib.Semaphore
import ArduinoT2.Lib.StepSys
import ArduinoT2.System.TklSemaphore

/-
  The semaphores of the adapter (tkl_semaphore.c) are counting semaphores.

  `tkl_semaphore_wait` and `tkl_semaphore_release` give the handle to the kernel, and
  `tkl_semaphore_post` gives it the first word of the object behind the handle. `IsSem` carries
  why this is the same: a queue with items of size 0 is its own `pcHead`, and no call writes
  that. `semaphore_refines` compares each run with the counting semaphores of the library.
-/

namespace ArduinoT2.System

open StepSys Semaphore ArduinoT2.Adapter ArduinoT2.Vendor

/-! ## Counting semaphores -/

/-- A queue object as a semaphore: its count is the number of its messages. -/
def semOf (q : QueueT) : Sem Unit :=
  ⟨q.uxLength.toNat, List.replicate q.uxMessagesWaiting.toNat ()⟩

/-- The semaphores that exist. -/
def semsOf (k : Kernel) : Sems Unit := fun a => (k.queues a).map semOf

/-- The count of the semaphore at `a`, and its bound. -/
def countAt (k : Kernel) (a : Nat) : Option (Nat × Nat) :=
  (k.queues a).map fun q => (q.uxMessagesWaiting.toNat, q.uxLength.toNat)

/-- One call. If it accesses an object that does not exist, it gives nothing. -/
def semStep (k : Kernel) (c : SemCall) : Kernel × Option (Option OperateRet) :=
  match semCall k c with
  | none => (k, none)
  | some (ret, k) => (k, some ret)

/-- One call on counting semaphores: a wait takes a post if there is one, a post adds one if there
    is room. -/
def countStep (sems : Sems Unit) : SemCall → Sems Unit × Option OperateRet
  | .createInit malloc semCnt semMax =>
    if malloc = 0 then (sems, some oprtOsAdapterSemCreatFailed)
    else
      (createWith sems malloc semMax.toNat (List.replicate semCnt.toNat ()), some oprtOk)
  | .wait handle timeout expired =>
    match take sems handle with
    | some (_, sems) => (sems, some oprtOk)
    | none =>
      (sems, if expired ∧ timeout ≠ tklSemWaitForever then some oprtOsAdapterSemWaitFailed
        else none)
  | .post handle _ =>
    match give sems handle () with
    | some sems => (sems, some oprtOk)
    | none => (sems, some oprtOsAdapterSemPostFailed)
  | .release handle => (delete sems handle, some oprtOk)

/-- The calls of a program that keeps to the interface: a count within a bound that is not 0, and
    handles of semaphores that exist. `pvPortMalloc` returns NULL, or memory that is free. -/
def Legal (k : Kernel) : SemCall → Prop
  | .createInit malloc semCnt semMax => semCnt ≤ semMax ∧ 0 < semMax ∧ k.queues malloc = none
  | .wait handle _ _ | .post handle _ | .release handle => (k.queues handle).isSome = true

/-- The semaphore that a call is about. -/
def SemCall.handle : SemCall → Nat
  | .createInit malloc _ _ => malloc
  | .wait handle _ _ | .post handle _ | .release handle => handle

/-- What a call must do: access nothing but the semaphore of its handle, and count. -/
structure SemOk (k : Kernel) (c : SemCall) : Prop where
  accesses : (semStep k c).2 ≠ none
  own : ∀ handle isr, c = .post handle isr → semManageSem k handle = some handle
  bounded : ∀ a n max, countAt (semStep k c).1 a = some (n, max) → n ≤ max
  others : ∀ a ≠ c.handle, countAt (semStep k c).1 a = countAt k a
  created : ∀ malloc semCnt semMax, c = .createInit malloc semCnt semMax →
    (semStep k c).2 = some (some oprtOk) →
      countAt (semStep k c).1 malloc = some (semCnt.toNat, semMax.toNat)
  posted : ∀ handle isr, c = .post handle isr → ∃ n max, countAt k handle = some (n, max) ∧
    ((semStep k c).2 = some (some oprtOk) ↔ n < max) ∧
      countAt (semStep k c).1 handle = some (if n < max then n + 1 else n, max)
  waited : ∀ handle timeout expired, c = .wait handle timeout expired → ∃ n max,
    countAt k handle = some (n, max) ∧ ((semStep k c).2 = some (some oprtOk) ↔ 0 < n) ∧
      countAt (semStep k c).1 handle = some (n - 1, max)
  released : ∀ handle, c = .release handle → countAt (semStep k c).1 handle = none

/-! ## The queue objects -/

/-- A queue object at `a` that is a semaphore. -/
structure IsSem (a : Nat) (q : QueueT) : Prop where
  ne_null : a ≠ 0
  pcHead : q.pcHead = a
  itemSize : q.uxItemSize = 0
  le : q.uxMessagesWaiting ≤ q.uxLength

/-- All queue objects are semaphores. -/
def Semaphores (k : Kernel) : Prop := ∀ a q, k.queues a = some q → IsSem a q

theorem semsOf_set (k : Kernel) (a : Nat) (q : QueueT) :
    semsOf (k.set a q) = Function.update (semsOf k) a (some (semOf q)) := by
  funext b
  unfold semsOf Kernel.set
  simp only [Function.update_apply]
  split <;> rfl

theorem semaphores_set {k : Kernel} (h : Semaphores k) {a : Nat} {q : QueueT} (hq : IsSem a q) :
    Semaphores (k.set a q) := by
  intro b q' hb
  unfold Kernel.set at hb
  simp only [Function.update_apply] at hb
  split at hb
  · rename_i heq
    obtain rfl := Option.some.inj hb
    exact heq ▸ hq
  · exact h b q' hb

theorem count_semsOf (k : Kernel) (a : Nat) : count (semsOf k) a = countAt k a := by
  unfold count semsOf countAt
  cases k.queues a with
  | none => rfl
  | some q => simp [semOf]

theorem toNat_succ {n max : UInt32} (h : n < max) : (n + 1).toNat = n.toNat + 1 := by
  have hlt : n.toNat < max.toNat := h
  have hmax := max.toNat_lt
  rw [UInt32.toNat_add]
  exact Nat.mod_eq_of_lt (by have : (1 : UInt32).toNat = 1 := rfl; omega)

theorem toNat_pred {n : UInt32} (h : 0 < n) : (n - 1).toNat = n.toNat - 1 := by
  have hlt : 0 < n.toNat := h
  exact UInt32.toNat_sub_of_le _ _ (UInt32.le_iff_toNat_le.mpr hlt)

/-- The object behind a post. -/
def counted (q : QueueT) : QueueT := { q with uxMessagesWaiting := q.uxMessagesWaiting + 1 }

/-- The object behind a wait. -/
def taken (q : QueueT) : QueueT := { q with uxMessagesWaiting := q.uxMessagesWaiting - 1 }

theorem IsSem.counted {a : Nat} {q : QueueT} (h : IsSem a q)
    (hlt : q.uxMessagesWaiting < q.uxLength) : IsSem a (counted q) := by
  refine ⟨h.ne_null, h.pcHead, h.itemSize, UInt32.le_iff_toNat_le.mpr ?_⟩
  show (q.uxMessagesWaiting + 1).toNat ≤ q.uxLength.toNat
  rw [toNat_succ hlt]
  exact hlt

theorem IsSem.taken {a : Nat} {q : QueueT} (h : IsSem a q) (hpos : 0 < q.uxMessagesWaiting) :
    IsSem a (taken q) := by
  refine ⟨h.ne_null, h.pcHead, h.itemSize, UInt32.le_iff_toNat_le.mpr ?_⟩
  show (q.uxMessagesWaiting - 1).toNat ≤ q.uxLength.toNat
  rw [toNat_pred hpos]
  exact Nat.le_trans (Nat.sub_le _ _) (UInt32.le_iff_toNat_le.mp h.le)

theorem semOf_counted {q : QueueT} (hlt : q.uxMessagesWaiting < q.uxLength) :
    semOf (counted q) = { semOf q with posts := (semOf q).posts ++ [()] } := by
  unfold semOf counted
  simp only
  rw [toNat_succ hlt, List.replicate_succ']

theorem semOf_posts {q : QueueT} (hpos : 0 < q.uxMessagesWaiting) :
    (semOf q).posts = () :: (semOf (taken q)).posts := by
  unfold semOf taken
  simp only
  have hnat : 0 < q.uxMessagesWaiting.toNat := hpos
  rw [toNat_pred hpos, ← List.replicate_succ, Nat.sub_add_cancel hnat]

/-! ## The calls of the kernel -/

/-- A post gives to the object of its handle. -/
theorem post_eq {k : Kernel} (h : Semaphores k) {a : Nat} {q : QueueT} (hq : k.queues a = some q)
    (isr : Bool) : tklSemaphorePost k a isr =
      if q.uxMessagesWaiting < q.uxLength then some (some oprtOk, k.set a (counted q))
      else some (some oprtOsAdapterSemPostFailed, k) := by
  have hsem := h a q hq
  have hown : semManageSem k a = some a := by
    unfold semManageSem
    rw [hq, Option.map_some, hsem.pcHead]
  unfold tklSemaphorePost
  rw [if_neg hsem.ne_null, hown]
  simp only
  by_cases hlt : q.uxMessagesWaiting < q.uxLength
  · rw [if_pos hlt]
    cases isr with
    | true => simp [xQueueGiveFromISR, hq, hlt, counted]
    | false => simp [xQueueGenericSend, prvCopyDataToQueue, hq, hlt, hsem.itemSize, counted]
  · rw [if_neg hlt]
    cases isr with
    | true =>
      unfold xQueueGiveFromISR
      simp only [hq, if_neg hlt]
      rfl
    | false =>
      unfold xQueueGenericSend
      simp only [hq, if_neg hlt]
      rfl

/-- A wait takes from the object of its handle. -/
theorem wait_eq {k : Kernel} (h : Semaphores k) {a : Nat} {q : QueueT} (hq : k.queues a = some q)
    (timeout : UInt32) (expired : Bool) : tklSemaphoreWait k a timeout expired =
      if 0 < q.uxMessagesWaiting then some (some oprtOk, k.set a (taken q))
      else some (if expired = true ∧ timeout ≠ tklSemWaitForever then
        some oprtOsAdapterSemWaitFailed else none, k) := by
  have hsem := h a q hq
  unfold tklSemaphoreWait xQueueGenericReceive prvCopyDataFromQueue
  rw [if_neg hsem.ne_null, hq]
  simp only
  by_cases hpos : 0 < q.uxMessagesWaiting
  · rw [if_pos hpos, if_pos hpos]
    simp [hsem.itemSize, taken]
  · rw [if_neg hpos, if_neg hpos, giveUp_waitTicks]
    simp only
    split <;> rfl

theorem release_eq {k : Kernel} (h : Semaphores k) {a : Nat} {q : QueueT}
    (hq : k.queues a = some q) : tklSemaphoreRelease k a =
      some (oprtOk, { k with queues := Function.update k.queues a none }) := by
  unfold tklSemaphoreRelease vQueueDelete
  rw [if_neg (h a q hq).ne_null, hq]
  rfl

/-- The object of a new semaphore. -/
def newSem (a : Nat) (semCnt semMax : UInt32) : QueueT :=
  { prvInitialiseNewQueue semMax 0 (a + sizeofQueueT) a with uxMessagesWaiting := semCnt }

theorem isSem_newSem {a : Nat} (h : a ≠ 0) {semCnt semMax : UInt32} (hle : semCnt ≤ semMax) :
    IsSem a (newSem a semCnt semMax) := ⟨h, rfl, rfl, hle⟩

theorem createInit_eq (k : Kernel) {malloc : Nat} (h : malloc ≠ 0) (semCnt semMax : UInt32) :
    ∃ k', tklSemaphoreCreateInit k malloc semCnt semMax = (oprtOk, malloc, k') ∧
      k'.queues = (k.set malloc (newSem malloc semCnt semMax)).queues := by
  unfold tklSemaphoreCreateInit xQueueCreateCountingSemaphore xQueueGenericCreate
  rw [if_pos h]
  simp only [Kernel.set, Function.update_self, if_pos h]
  rw [if_neg h]
  exact ⟨_, rfl, Function.update_idem ..⟩

theorem createInit_failed (k : Kernel) (h : k.queues 0 = none) (semCnt semMax : UInt32) :
    tklSemaphoreCreateInit k 0 semCnt semMax = (oprtOsAdapterSemCreatFailed, 0, k) := by
  unfold tklSemaphoreCreateInit xQueueCreateCountingSemaphore xQueueGenericCreate
  simp [h]

/-! ## One call -/

theorem semsOf_eq {k : Kernel} {a : Nat} {q : QueueT} (hq : k.queues a = some q) :
    semsOf k a = some (semOf q) := by
  unfold semsOf
  rw [hq, Option.map_some]

theorem give_semsOf {k : Kernel} {a : Nat} {q : QueueT} (hq : k.queues a = some q) :
    give (semsOf k) a () =
      if q.uxMessagesWaiting < q.uxLength then some (semsOf (k.set a (counted q))) else none := by
  have hroom : (semOf q).posts.length < (semOf q).max ↔ q.uxMessagesWaiting < q.uxLength := by
    unfold semOf
    rw [List.length_replicate]
    exact Iff.rfl
  unfold give
  rw [semsOf_eq hq]
  by_cases hlt : q.uxMessagesWaiting < q.uxLength
  · rw [if_pos hlt, semsOf_set, semOf_counted hlt]
    exact if_pos (hroom.mpr hlt)
  · rw [if_neg hlt]
    exact if_neg fun h => hlt (hroom.mp h)

theorem take_semsOf {k : Kernel} {a : Nat} {q : QueueT} (hq : k.queues a = some q) :
    take (semsOf k) a =
      if 0 < q.uxMessagesWaiting then some ((), semsOf (k.set a (taken q))) else none := by
  unfold take
  rw [semsOf_eq hq]
  by_cases hpos : 0 < q.uxMessagesWaiting
  · have hsem : semOf q = ⟨(semOf q).max, () :: (semOf (taken q)).posts⟩ := by
      rw [← semOf_posts hpos]
    rw [hsem, if_pos hpos, semsOf_set]
    rfl
  · have hzero : q.uxMessagesWaiting.toNat = 0 := Nat.eq_zero_of_not_pos hpos
    have hsem : semOf q = ⟨(semOf q).max, []⟩ := by
      unfold semOf
      rw [hzero, List.replicate_zero]
    rw [hsem, if_neg hpos]

/-- The kernel answers a call as the counting semaphores do, and stands for them again. -/
structure Refines (k : Kernel) (c : SemCall) : Prop where
  semaphores : Semaphores (semStep k c).1
  sems : semsOf (semStep k c).1 = (countStep (semsOf k) c).1
  ret : (semStep k c).2 = some (countStep (semsOf k) c).2

theorem refines_createInit {k : Kernel} (h : Semaphores k) {malloc : Nat} {semCnt semMax : UInt32}
    (hle : semCnt ≤ semMax) (hfree : k.queues malloc = none) :
    Refines k (.createInit malloc semCnt semMax) := by
  by_cases hnull : malloc = 0
  · subst hnull
    have hstep : semStep k (.createInit 0 semCnt semMax) =
        (k, some (some oprtOsAdapterSemCreatFailed)) := by
      simp only [semStep, semCall, createInit_failed k hfree]
    constructor <;> rw [hstep]
    · exact h
    · rfl
    · rfl
  · obtain ⟨k', hret, hqueues⟩ := createInit_eq k hnull semCnt semMax
    have hstep : semStep k (.createInit malloc semCnt semMax) = (k', some (some oprtOk)) := by
      simp only [semStep, semCall, hret]
    have hcount : countStep (semsOf k) (.createInit malloc semCnt semMax) =
        (createWith (semsOf k) malloc semMax.toNat (List.replicate semCnt.toNat ()), some oprtOk) :=
      if_neg hnull
    have hsems : semsOf k' = semsOf (k.set malloc (newSem malloc semCnt semMax)) := by
      unfold semsOf
      rw [hqueues]
    constructor <;> rw [hstep]
    · have hnew := semaphores_set h (isSem_newSem hnull hle)
      exact fun a q hq => hnew a q (hqueues ▸ hq)
    · rw [hcount]
      exact hsems.trans (semsOf_set ..)
    · rw [hcount]

theorem refines_wait {k : Kernel} (h : Semaphores k) {a : Nat} {q : QueueT}
    (hq : k.queues a = some q) (timeout : UInt32) (expired : Bool) :
    Refines k (.wait a timeout expired) := by
  have hwait := wait_eq h hq timeout expired
  have htake := take_semsOf hq
  by_cases hpos : 0 < q.uxMessagesWaiting
  · rw [if_pos hpos] at hwait htake
    refine ⟨?_, ?_, ?_⟩ <;> simp only [semStep, semCall, countStep, hwait, htake]
    exact semaphores_set h ((h a q hq).taken hpos)
  · rw [if_neg hpos] at hwait htake
    refine ⟨?_, ?_, ?_⟩ <;> simp only [semStep, semCall, countStep, hwait, htake]
    exact h

theorem refines_post {k : Kernel} (h : Semaphores k) {a : Nat} {q : QueueT}
    (hq : k.queues a = some q) (isr : Bool) : Refines k (.post a isr) := by
  have hpost := post_eq h hq isr
  have hgive := give_semsOf hq
  by_cases hlt : q.uxMessagesWaiting < q.uxLength
  · rw [if_pos hlt] at hpost hgive
    refine ⟨?_, ?_, ?_⟩ <;> simp only [semStep, semCall, countStep, hpost, hgive]
    exact semaphores_set h ((h a q hq).counted hlt)
  · rw [if_neg hlt] at hpost hgive
    refine ⟨?_, ?_, ?_⟩ <;> simp only [semStep, semCall, countStep, hpost, hgive]
    exact h

theorem refines_release {k : Kernel} (h : Semaphores k) {a : Nat} {q : QueueT}
    (hq : k.queues a = some q) : Refines k (.release a) := by
  have hstep : semStep k (.release a) =
      ({ k with queues := Function.update k.queues a none }, some (some oprtOk)) := by
    simp only [semStep, semCall, release_eq h hq, Option.map_some]
  constructor <;> rw [hstep]
  · intro b q' hb
    simp only [Function.update_apply] at hb
    split at hb
    · exact nomatch hb
    · exact h b q' hb
  · funext b
    show ((Function.update k.queues a none) b).map semOf = delete (semsOf k) a b
    unfold semsOf delete
    simp only [Function.update_apply]
    split <;> rfl
  · rfl

theorem semStep_refines {k : Kernel} (h : Semaphores k) {c : SemCall} (hc : Legal k c) :
    Refines k c := by
  cases c with
  | createInit malloc semCnt semMax => exact refines_createInit h hc.1 hc.2.2
  | wait a timeout expired =>
    obtain ⟨q, hq⟩ := Option.isSome_iff_exists.mp hc
    exact refines_wait h hq timeout expired
  | post a isr =>
    obtain ⟨q, hq⟩ := Option.isSome_iff_exists.mp hc
    exact refines_post h hq isr
  | release a =>
    obtain ⟨q, hq⟩ := Option.isSome_iff_exists.mp hc
    exact refines_release h hq

/-- A post adds one if there is room. -/
theorem countStep_post {sems : Sems Unit} {a n max : Nat} (h : count sems a = some (n, max))
    (isr : Bool) :
    ((countStep sems (.post a isr)).2 = some oprtOk ↔ n < max) ∧
      count (countStep sems (.post a isr)).1 a = some (if n < max then n + 1 else n, max) := by
  unfold countStep
  simp only
  cases hgive : give sems a () with
  | none =>
    have hfull := (give_eq_none () h).mp hgive
    have hfailed : some oprtOsAdapterSemPostFailed ≠ some oprtOk := by decide
    rw [if_neg hfull]
    exact ⟨iff_of_false hfailed hfull, h⟩
  | some sems' =>
    obtain ⟨n', max', hlt, hcount, hcount', -⟩ := count_of_give hgive
    obtain ⟨rfl, rfl⟩ := Prod.mk.inj (Option.some.inj (hcount.symm.trans h))
    rw [if_pos hlt]
    exact ⟨iff_of_true rfl hlt, hcount'⟩

/-- A wait takes one if there is one. -/
theorem countStep_wait {sems : Sems Unit} {a n max : Nat} (h : count sems a = some (n, max))
    (timeout : UInt32) (expired : Bool) :
    ((countStep sems (.wait a timeout expired)).2 = some oprtOk ↔ 0 < n) ∧
      count (countStep sems (.wait a timeout expired)).1 a = some (n - 1, max) := by
  unfold countStep
  simp only
  cases htake : take sems a with
  | none =>
    obtain rfl := (take_eq_none h).mp htake
    refine ⟨iff_of_false ?_ (Nat.lt_irrefl 0), h⟩
    simp only
    split <;> decide
  | some r =>
    obtain ⟨n', max', hcount, hcount', -⟩ := count_of_take htake
    obtain ⟨rfl, rfl⟩ := Prod.mk.inj (Option.some.inj (hcount.symm.trans h))
    exact ⟨iff_of_true rfl n'.succ_pos, hcount'⟩

/-- A call leaves the other semaphores as they are. -/
theorem countStep_others (sems : Sems Unit) (c : SemCall) {a : Nat} (h : a ≠ c.handle) :
    (countStep sems c).1 a = sems a := by
  cases c with
  | createInit malloc semCnt semMax =>
    unfold countStep
    simp only
    split
    · rfl
    · exact Function.update_of_ne h _ _
  | wait b timeout expired =>
    unfold countStep
    simp only
    cases htake : take sems b with
    | none => rfl
    | some r =>
      obtain ⟨-, -, -, -, hothers⟩ := count_of_take htake
      exact hothers a h
  | post b isr =>
    unfold countStep
    simp only
    cases hgive : give sems b () with
    | none => rfl
    | some sems' =>
      obtain ⟨-, -, -, -, -, hothers⟩ := count_of_give hgive
      exact hothers a h
  | release b => exact delete_of_ne sems h

/-- A call on a semaphore that exists has its count to begin with. -/
theorem countAt_of_isSome {k : Kernel} {a : Nat} (h : (k.queues a).isSome = true) :
    ∃ n max, countAt k a = some (n, max) := by
  obtain ⟨q, hq⟩ := Option.isSome_iff_exists.mp h
  unfold countAt
  rw [hq]
  exact ⟨_, _, rfl⟩

theorem semOk {k : Kernel} (h : Semaphores k) {c : SemCall} (hc : Legal k c) : SemOk k c := by
  obtain ⟨hsem, hsems, hret⟩ := semStep_refines h hc
  have hcount : ∀ a, countAt (semStep k c).1 a = count (countStep (semsOf k) c).1 a := by
    intro a
    rw [← count_semsOf, hsems]
  have hok : (semStep k c).2 = some (some oprtOk) ↔
      (countStep (semsOf k) c).2 = some oprtOk := by
    rw [hret, Option.some.injEq]
  constructor
  · rw [hret]
    exact Option.some_ne_none _
  · rintro a isr rfl
    obtain ⟨q, hq⟩ := Option.isSome_iff_exists.mp hc
    unfold semManageSem
    rw [hq, Option.map_some, (h a q hq).pcHead]
  · intro a n max ha
    obtain ⟨q, hq, heq⟩ := Option.map_eq_some_iff.mp ha
    obtain ⟨rfl, rfl⟩ := Prod.mk.inj heq
    exact UInt32.le_iff_toNat_le.mp (hsem a q hq).le
  · intro a ha
    rw [hcount, ← count_semsOf]
    unfold count
    rw [countStep_others _ _ ha]
  · rintro malloc semCnt semMax rfl hcreated
    rw [hcount]
    rw [hok] at hcreated
    unfold countStep at hcreated ⊢
    simp only at hcreated ⊢
    split at hcreated
    · exact absurd (Option.some.inj hcreated) (by decide)
    · rename_i hnull
      rw [if_neg hnull]
      refine (count_of_eq (Function.update_self ..)).trans ?_
      rw [List.length_replicate]
  · rintro a isr rfl
    obtain ⟨n, max, ha⟩ := countAt_of_isSome hc
    obtain ⟨hpost, hcount'⟩ := countStep_post ((count_semsOf k a).trans ha) isr
    exact ⟨n, max, ha, hok.trans hpost, (hcount a).trans hcount'⟩
  · rintro a timeout expired rfl
    obtain ⟨n, max, ha⟩ := countAt_of_isSome hc
    obtain ⟨hwait, hcount'⟩ := countStep_wait ((count_semsOf k a).trans ha) timeout expired
    exact ⟨n, max, ha, hok.trans hwait, (hcount a).trans hcount'⟩
  · rintro a rfl
    rw [hcount]
    unfold count countStep
    simp only
    rw [delete_self, Option.map_none]

/-! ## Runs -/

/-- In every run of calls on semaphores that exist, from the first creation: each call accesses
    the semaphore of its handle only and counts it within its bound, and the run answers as one
    on counting semaphores does. -/
theorem semaphore_refines {cs : List SemCall} (h : Along semStep Legal .static cs) :
    Along semStep SemOk .static cs ∧
      outputs semStep .static cs = (outputs countStep (fun _ => none) cs).map some := by
  have hstatic : Semaphores .static := fun _ _ hq => nomatch hq
  constructor
  · exact along_of_inv (I := Semaphores)
      (fun k c hk hc => ⟨(semStep_refines hk hc).semaphores, semOk hk hc⟩) hstatic h
  · refine (run_simulates (A := fun k sems => Semaphores k ∧ sems = semsOf k) some ?_
      ⟨hstatic, rfl⟩ h).2
    rintro k sems c ⟨hk, rfl⟩ hc
    obtain ⟨hsem, hsems, hret⟩ := semStep_refines hk hc
    exact ⟨⟨hsem, hsems.symm⟩, hret⟩

/-- Two semaphores: one is posted up to its bound, the other is waited for, and deleted. -/
def twoSemaphores : List SemCall :=
  [.createInit 0x1000 0 1, .createInit 0x2000 2 3, .post 0x1000 false, .post 0x1000 true,
    .wait 0x2000 100 false, .release 0x2000, .wait 0x1000 0 true, .wait 0x1000 0 true]

theorem semaphore_refines_two : Along semStep SemOk .static twoSemaphores ∧
    outputs semStep .static twoSemaphores =
      (outputs countStep (fun _ => none) twoSemaphores).map some :=
  semaphore_refines ⟨⟨by decide, by decide, rfl⟩, ⟨by decide, by decide, rfl⟩,
    rfl, rfl, rfl, rfl, rfl, rfl, trivial⟩

end ArduinoT2.System
