import Mathlib.Data.List.GetD
import Mathlib.Tactic.Ring

/-
  NOR flash as a memory of bytes and two kinds of operation: erasing a range sets its bytes
  to `0xFF`, programming ANDs bytes into it. Sector and page sizes are parameters.

  `execAll (ops.take k) m` is the memory after a power cut behind the first `k` operations,
  so a statement about every prefix is a statement about every intermediate memory.
-/

namespace Nor

/-- Contents of a flash by byte address. -/
abbrev Mem := Nat → UInt8

/-- One operation of the chip. -/
inductive Op where
  | erase (addr len : Nat)
  | program (addr : Nat) (data : List UInt8)
deriving DecidableEq, Repr

namespace Op

/-- First address of the operation. -/
def addr : Op → Nat
  | erase a _ => a
  | program a _ => a

/-- Number of addresses of the operation. -/
def len : Op → Nat
  | erase _ n => n
  | program _ bs => bs.length

/-- The operation erases or programs address `a`. -/
def Touches (o : Op) (a : Nat) : Prop := o.addr ≤ a ∧ a < o.addr + o.len

instance (o : Op) (a : Nat) : Decidable (o.Touches a) := inferInstanceAs (Decidable (_ ∧ _))

/-- Effect of the operation on the contents. -/
def exec : Op → Mem → Mem
  | erase addr len, m => fun a => if addr ≤ a ∧ a < addr + len then 0xFF else m a
  | program addr bs, m => fun a =>
      if addr ≤ a ∧ a < addr + bs.length then m a &&& bs.getD (a - addr) 0xFF else m a

end Op

/-- Effect of a list of operations, first one first. -/
def execAll (ops : List Op) (m : Mem) : Mem := ops.foldl (fun m o => o.exec m) m

/-! ## One operation -/

theorem and_ff (x : UInt8) : x &&& 0xFF = x := by
  rw [show (0xFF : UInt8) = -1 from rfl, UInt8.and_neg_one]

theorem ff_and (x : UInt8) : 0xFF &&& x = x := by
  rw [UInt8.and_comm, and_ff]

theorem exec_of_not_touches {o : Op} {a : Nat} (h : ¬ o.Touches a) (m : Mem) :
    o.exec m a = m a := by
  cases o <;> exact if_neg h

theorem erase_exec_of_mem {addr len a : Nat} (h1 : addr ≤ a) (h2 : a < addr + len) (m : Mem) :
    (Op.erase addr len).exec m a = 0xFF := if_pos ⟨h1, h2⟩

/-- Programming reads as an AND everywhere from `addr` on: behind the data the AND is
    with `0xFF`. -/
theorem program_exec (addr : Nat) (bs : List UInt8) (m : Mem) (a : Nat) :
    (Op.program addr bs).exec m a =
      if addr ≤ a then m a &&& bs.getD (a - addr) 0xFF else m a := by
  by_cases h1 : addr ≤ a
  · by_cases h2 : a < addr + bs.length
    · simp [Op.exec, h1, h2]
    · have hd : bs.getD (a - addr) 0xFF = 0xFF := by
        rw [List.getD_eq_default]
        omega
      simp only [Op.exec, h1, h2, and_false, if_false, if_true, hd, and_ff]
  · simp [Op.exec, h1]

theorem program_exec_add (addr : Nat) (bs : List UInt8) (m : Mem) (i : Nat) :
    (Op.program addr bs).exec m (addr + i) = m (addr + i) &&& bs.getD i 0xFF := by
  rw [program_exec, if_pos (Nat.le_add_right _ _), Nat.add_sub_cancel_left]

theorem program_exec_lt {addr a : Nat} (h : a < addr) (bs : List UInt8) (m : Mem) :
    (Op.program addr bs).exec m a = m a := by
  rw [program_exec, if_neg (by omega)]

@[simp] theorem program_nil (addr : Nat) (m : Mem) : (Op.program addr []).exec m = m := by
  funext a
  rw [program_exec]
  simp [and_ff]

/-- Programming a concatenation is programming its parts one behind the other. -/
theorem program_append (addr : Nat) (xs ys : List UInt8) (m : Mem) :
    (Op.program addr (xs ++ ys)).exec m =
      (Op.program (addr + xs.length) ys).exec ((Op.program addr xs).exec m) := by
  funext a
  by_cases h1 : addr ≤ a
  · by_cases h2 : addr + xs.length ≤ a
    · have hx : xs.getD (a - addr) 0xFF = 0xFF := List.getD_eq_default _ _ (by omega)
      rw [program_exec, program_exec, program_exec, if_pos h1, if_pos h2, if_pos h1, hx, and_ff,
        List.getD_append_right _ _ _ _ (by omega)]
      congr 2
      omega
    · rw [program_exec, program_exec, program_exec, if_pos h1, if_neg h2, if_pos h1,
        List.getD_append _ _ _ _ (by omega)]
  · rw [program_exec, program_exec, program_exec, if_neg h1, if_neg (by omega), if_neg h1]

/-- Programming bytes over some of their bits programs the bytes. -/
theorem program_over (addr : Nat) {bs cs : List UInt8}
    (h : ∀ i, cs.getD i 0xFF &&& bs.getD i 0xFF = bs.getD i 0xFF) (m : Mem) :
    (Op.program addr bs).exec ((Op.program addr cs).exec m) = (Op.program addr bs).exec m := by
  funext a
  rw [program_exec, program_exec, program_exec]
  split
  · rw [UInt8.and_assoc, h]
  · rfl

/-- Programming a page whose bytes around a slice are the old contents programs the slice. -/
theorem program_merge (addr : Nat) (m : Mem) (pre bs post : List UInt8)
    (hpre : ∀ i, i < pre.length → pre.getD i 0xFF = m (addr + i))
    (hpost : ∀ i, i < post.length →
      post.getD i 0xFF = m (addr + pre.length + bs.length + i)) :
    (Op.program addr (pre ++ bs ++ post)).exec m =
      (Op.program (addr + pre.length) bs).exec m := by
  funext a
  by_cases h1 : addr ≤ a
  · obtain ⟨i, rfl⟩ := Nat.exists_eq_add_of_le h1
    rw [program_exec_add]
    by_cases h2 : i < pre.length
    · rw [program_exec_lt (by omega), List.append_assoc, List.getD_append _ _ _ _ h2, hpre i h2,
        UInt8.and_self]
    · rw [program_exec, if_pos (by omega), show addr + i - (addr + pre.length) = i - pre.length by
        omega]
      by_cases h3 : i - pre.length < bs.length
      · rw [List.append_assoc, List.getD_append_right _ _ _ _ (by omega),
          List.getD_append _ _ _ _ h3]
      · rw [List.getD_append_right _ _ _ _ (by rw [List.length_append]; omega),
          List.getD_eq_default bs _ (by omega), and_ff, List.length_append]
        by_cases h4 : i - (pre.length + bs.length) < post.length
        · rw [hpost _ h4, show addr + pre.length + bs.length + (i - (pre.length + bs.length)) =
            addr + i by omega, UInt8.and_self]
        · rw [List.getD_eq_default post _ (by omega), and_ff]
  · rw [program_exec_lt (by omega), program_exec_lt (by omega)]

/-! ## Lists of operations -/

@[simp] theorem execAll_nil (m : Mem) : execAll [] m = m := rfl

@[simp] theorem execAll_cons (o : Op) (ops : List Op) (m : Mem) :
    execAll (o :: ops) m = execAll ops (o.exec m) := rfl

theorem execAll_append (ops ops' : List Op) (m : Mem) :
    execAll (ops ++ ops') m = execAll ops' (execAll ops m) := List.foldl_append

/-! ## Reading -/

theorem getD_drop (bs : List UInt8) (k i : Nat) (x : UInt8) :
    (bs.drop k).getD i x = bs.getD (k + i) x := by
  simp only [List.getD_eq_getElem?_getD, List.getElem?_drop]

theorem getD_take (bs : List UInt8) (k i : Nat) (x : UInt8) :
    (bs.take k).getD i x = if i < k then bs.getD i x else x := by
  simp only [List.getD_eq_getElem?_getD, List.getElem?_take]
  split <;> rfl

/-- The `n` bytes from address `a` on. -/
def read (m : Mem) (a n : Nat) : List UInt8 := (List.range n).map fun i => m (a + i)

@[simp] theorem length_read (m : Mem) (a n : Nat) : (read m a n).length = n := by simp [read]

theorem getD_read {m : Mem} {a n i : Nat} (h : i < n) (x : UInt8) :
    (read m a n).getD i x = m (a + i) := by
  simp [read, List.getD_eq_getElem?_getD, h]

theorem read_add (m : Mem) (a n k : Nat) : read m a (n + k) = read m a n ++ read m (a + n) k := by
  simp [read, List.range_add, List.map_map, Function.comp_def, Nat.add_assoc]

/-- A memory that holds the bytes of a list reads as the list. -/
theorem read_eq {m : Mem} {a : Nat} {bs : List UInt8} (x : UInt8)
    (h : ∀ i, i < bs.length → m (a + i) = bs.getD i x) : read m a bs.length = bs := by
  refine List.ext_getElem (length_read _ _ _) fun i h1 h2 => ?_
  simp only [read, List.getElem_map, List.getElem_range, h i h2]
  exact List.getD_eq_getElem bs x h2

theorem drop_read (m : Mem) (a : Nat) {n k : Nat} (h : k ≤ n) :
    (read m a n).drop k = read m (a + k) (n - k) := by
  obtain ⟨j, rfl⟩ := Nat.exists_eq_add_of_le h
  rw [read_add, List.drop_left' (length_read m a k), Nat.add_sub_cancel_left]

/-! ## Memories that agree on a region -/

/-- The memories hold the same bytes in the region `R`. -/
def AgreeOn (R : Nat → Prop) (m m' : Mem) : Prop := ∀ a, R a → m a = m' a

/-- Bytes for the addresses from `addr` on that are the same in the region. -/
def BytesAgree (R : Nat → Prop) (addr : Nat) (bs bs' : List UInt8) : Prop :=
  ∀ i, R (addr + i) → bs.getD i 0xFF = bs'.getD i 0xFF

section AgreeOn

variable {R : Nat → Prop} {m m' : Mem}

theorem AgreeOn.mono {Q : Nat → Prop} (h : AgreeOn R m m') (hQ : ∀ a, Q a → R a) :
    AgreeOn Q m m' := fun a ha => h a (hQ a ha)

theorem AgreeOn.program (h : AgreeOn R m m') {addr : Nat} {bs bs' : List UInt8}
    (hbs : BytesAgree R addr bs bs') :
    AgreeOn R ((Op.program addr bs).exec m) ((Op.program addr bs').exec m') := by
  intro a ha
  rw [program_exec, program_exec, h a ha]
  split
  · rename_i hle
    rw [hbs (a - addr) (by rwa [Nat.add_sub_cancel' hle])]
  · rfl

/-- An operation looks at no other byte than the one it writes. -/
theorem AgreeOn.exec (h : AgreeOn R m m') (o : Op) : AgreeOn R (o.exec m) (o.exec m') := by
  cases o with
  | erase addr len =>
    intro a ha
    simp only [Op.exec, h a ha]
  | program addr bs => exact h.program fun _ _ => rfl

theorem AgreeOn.execAll (h : AgreeOn R m m') (ops : List Op) :
    AgreeOn R (execAll ops m) (Nor.execAll ops m') := by
  induction ops generalizing m m' with
  | nil => exact h
  | cons o ops ih => exact ih (h.exec o)

theorem AgreeOn.read (h : AgreeOn R m m') {a n : Nat} (hR : ∀ i, i < n → R (a + i)) :
    read m a n = Nor.read m' a n :=
  List.map_congr_left fun i hi => h _ (hR i (List.mem_range.mp hi))

/-- What is read from there agrees, whether or not all of it lies in the region. -/
theorem AgreeOn.bytesAgree (h : AgreeOn R m m') (a n : Nat) :
    BytesAgree R a (Nor.read m a n) (Nor.read m' a n) := by
  intro i hi
  rcases Nat.lt_or_ge i n with hlt | hge
  · rw [getD_read hlt, getD_read hlt, h _ hi]
  · rw [List.getD_eq_default _ _ (by simpa using hge),
      List.getD_eq_default _ _ (by simpa using hge)]

/-- Bytes in front and bytes behind them. -/
theorem BytesAgree.append (addr : Nat) (pre : List UInt8) {bs bs' : List UInt8}
    (h : BytesAgree R (addr + pre.length) bs bs') : BytesAgree R addr (pre ++ bs) (pre ++ bs') := by
  intro i hi
  rcases Nat.lt_or_ge i pre.length with hlt | hge
  · rw [List.getD_append _ _ _ _ hlt, List.getD_append _ _ _ _ hlt]
  · rw [List.getD_append_right _ _ _ _ hge, List.getD_append_right _ _ _ _ hge]
    exact h _ (by rwa [Nat.add_assoc, Nat.add_sub_cancel' hge])

end AgreeOn

/-! ## Erased bytes that stay erased -/

/-- The operation leaves erased bytes of the region `R` erased. -/
def Op.KeepsErased (R : Nat → Prop) (o : Op) : Prop :=
  ∀ m a, R a → m a = 0xFF → o.exec m a = 0xFF

theorem keepsErased_erase (R : Nat → Prop) (addr len : Nat) :
    (Op.erase addr len).KeepsErased R := by
  intro m a _ h
  simp only [Op.exec, h, ite_self]

theorem keepsErased_of_not_touches {R : Nat → Prop} {o : Op} (h : ∀ a, R a → ¬ o.Touches a) :
    o.KeepsErased R := by
  intro m a ha hm
  rw [exec_of_not_touches (h a ha), hm]

theorem keepsErased_program_ff (R : Nat → Prop) (addr : Nat) {bs : List UInt8}
    (h : ∀ b ∈ bs, b = 0xFF) : (Op.program addr bs).KeepsErased R := by
  intro m a _ hm
  rw [program_exec, hm]
  split
  · rw [ff_and, List.getD_eq_getElem?_getD]
    cases hg : bs[a - addr]? with
    | none => rfl
    | some b => exact h b (List.mem_of_getElem? hg)
  · rfl

/-- Operations that all keep the region erased keep it erased in every intermediate memory. -/
theorem execAll_take_keepsErased {R : Nat → Prop} {ops : List Op}
    (h : ∀ o ∈ ops, o.KeepsErased R) {m : Mem} (hm : ∀ a, R a → m a = 0xFF) (k : Nat) :
    ∀ a, R a → execAll (ops.take k) m a = 0xFF := by
  induction ops generalizing m k with
  | nil => simpa using hm
  | cons o ops ih =>
    cases k with
    | zero => simpa using hm
    | succ k =>
      exact ih (fun o' ho' => h o' (List.mem_cons_of_mem _ ho'))
        (fun a ha => h o List.mem_cons_self m a ha (hm a ha)) k

/-! ## Pages and sectors -/

/-- `k` pages of `n` bytes of `bs`, programmed in ascending order from `addr`. -/
def pages (n addr : Nat) (bs : List UInt8) (k : Nat) : List Op :=
  (List.range k).map fun j => Op.program (addr + n * j) ((bs.drop (n * j)).take n)

theorem pages_succ (n addr : Nat) (bs : List UInt8) (k : Nat) :
    pages n addr bs (k + 1) =
      Op.program addr (bs.take n) :: pages n (addr + n) (bs.drop n) k := by
  simp only [pages, List.range_succ_eq_map, List.map_cons, List.map_map, Nat.mul_zero,
    Nat.add_zero, List.drop_zero, List.cons.injEq, true_and]
  refine List.map_congr_left fun j _ => ?_
  simp only [Function.comp_apply, List.drop_drop, Nat.mul_succ]
  rw [Nat.add_comm (n * j) n, Nat.add_assoc]

theorem pages_take (n addr : Nat) (bs : List UInt8) (k j : Nat) :
    (pages n addr bs k).take j = pages n addr bs (min j k) := by
  rw [pages, ← List.map_take, List.take_range]
  rfl

/-- After `k` pages the first `n * k` bytes are programmed and nothing else. -/
theorem execAll_pages (n addr : Nat) (bs : List UInt8) (k : Nat) (m : Mem) :
    execAll (pages n addr bs k) m = (Op.program addr (bs.take (n * k))).exec m := by
  induction k generalizing addr bs m with
  | zero => simp [pages]
  | succ k ih =>
    rw [pages_succ, execAll_cons, ih, Nat.mul_succ, Nat.add_comm (n * k) n, List.take_add]
    by_cases hn : n ≤ bs.length
    · rw [program_append, List.length_take_of_le hn]
    · rw [List.drop_eq_nil_of_le (by omega), List.take_nil, List.append_nil, program_nil]

theorem mem_pages {n addr : Nat} {bs : List UInt8} {k : Nat} {o : Op}
    (h : o ∈ pages n addr bs k) :
    ∃ j, j < k ∧ o = Op.program (addr + n * j) ((bs.drop (n * j)).take n) := by
  obtain ⟨j, hj, rfl⟩ := List.mem_map.mp h
  exact ⟨j, List.mem_range.mp hj, rfl⟩

/-- The erases of the sectors `first, …, first + k - 1` of `n` bytes, in ascending order. -/
def sectors (n first k : Nat) : List Op :=
  (List.range' first k).map fun i => Op.erase (n * i) n

theorem sectors_succ (n first k : Nat) :
    sectors n first (k + 1) = Op.erase (n * first) n :: sectors n (first + 1) k := by
  simp [sectors, List.range'_succ]

/-- Erasing `k` sectors leaves `0xFF` in them and everything else alone. -/
theorem execAll_sectors (n first k : Nat) (m : Mem) (a : Nat) :
    execAll (sectors n first k) m a =
      if n * first ≤ a ∧ a < n * (first + k) then 0xFF else m a := by
  induction k generalizing first m with
  | zero =>
    rw [Nat.add_zero, if_neg (by omega)]
    rfl
  | succ k ih =>
    have h1 : n * (first + 1) = n * first + n := by ring
    have h2 : n * (first + 1 + k) = n * first + n + n * k := by ring
    have h3 : n * (first + (k + 1)) = n * first + n + n * k := by ring
    rw [sectors_succ, execAll_cons, ih, h1, h2, h3]
    by_cases hin : n * first ≤ a ∧ a < n * first + n
    · rw [erase_exec_of_mem hin.1 hin.2, ite_self, if_pos (by omega)]
    · rw [exec_of_not_touches (o := Op.erase (n * first) n) hin]
      by_cases hr : n * first + n ≤ a ∧ a < n * first + n + n * k
      · rw [if_pos hr, if_pos (by omega)]
      · rw [if_neg hr, if_neg (by omega)]

end Nor
