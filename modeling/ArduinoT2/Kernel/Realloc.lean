import ArduinoT2.Kernel.Malloc

/-
  `pvPortRealloc` of heap_4.c.

  The call puts the block into the free list, allocates, and copies. Where the allocation fails it
  takes the block out of the list again; this undoes the insertion in each of its four cases, so
  that a call that fails leaves the heap as it was (`HeapInv.realloc_none`). Where it succeeds the
  old contents lie in free memory until they are copied, and a block that was joined with the
  one before it may be split there (`HeapInv.realloc_some`).
-/

namespace ArduinoT2.Kernel

open NextList Spans

/-! ## A call that fails -/

theorem takeBack_walk {m : Mem} {link presize p : Nat} {xs ys : List Nat}
    (h : Chain m.pxNextFreeBlock p (xs ++ ys))
    (hxs : ∀ x ∈ xs, x < link ∧ x + m.xBlockSize x < link + presize) (k : Nat) :
    takeBack m link presize (xs.length + k) p (m.pxNextFreeBlock p) =
      takeBack m link presize k (xs.getLastD p) ys.head? := by
  induction xs generalizing p with
  | nil => rw [List.length_nil, Nat.zero_add, h.head]; rfl
  | cons x xs ih =>
    obtain ⟨hp, hrest⟩ := chain_cons.mp h
    obtain ⟨⟨hx, hend⟩, hxs⟩ := List.forall_mem_cons.mp hxs
    rw [hp, List.length_cons, Nat.add_right_comm, takeBack]
    dsimp only
    rw [if_neg hx.not_gt, if_neg hx.ne, if_neg hend.ne, if_neg hend.not_gt, ih hrest hxs,
      List.getLastD_cons]

section Round

variable {m : Mem} {link presize prev it : Nat} (k : Nat)

theorem takeBack_begin (hsize : ¬ presize < m.xBlockSize link) :
    takeBack m link presize (k + 1) prev (some link) =
      some (m.setNext prev (m.pxNextFreeBlock link)) := by
  rw [takeBack]
  dsimp only
  rw [if_neg (Nat.lt_irrefl link), if_pos rfl, if_neg hsize]

theorem takeBack_begin_split (hsize : presize < m.xBlockSize link) :
    takeBack m link presize (k + 1) prev (some link) =
      some (((m.setSize (link + presize) (m.xBlockSize link - presize)).setNext (link + presize)
        (m.pxNextFreeBlock link)).setNext prev (some (link + presize))) := by
  rw [takeBack]
  dsimp only
  rw [if_neg (Nat.lt_irrefl link), if_pos rfl, if_pos hsize]
  rfl

theorem takeBack_end (hlt : it < link) (hend : it + m.xBlockSize it = link + presize) :
    takeBack m link presize (k + 1) prev (some it) =
      some (m.setSize it (m.xBlockSize it - presize)) := by
  rw [takeBack]
  dsimp only
  rw [if_neg hlt.not_gt, if_neg hlt.ne, if_pos hend]

theorem takeBack_middle (hlt : it < link) (hend : link + presize < it + m.xBlockSize it) :
    takeBack m link presize (k + 1) prev (some it) =
      some ((((m.setSize (link + presize) (it + m.xBlockSize it - (link + presize))).setNext it
        (some (link + presize))).setSize it (link - it)).setNext (link + presize)
        (m.pxNextFreeBlock it)) := by
  rw [takeBack]
  dsimp only
  rw [if_neg hlt.not_gt, if_neg hlt.ne, if_neg hend.ne', if_pos hend]
  rfl

end Round

section Undo

variable {r : Region} {m m' : Mem} {pxEnd : Nat} {l₁ l₂ l xs ys : List (Span Nat)} {u t : Span Nat}

/-- The loop comes to the block that holds the memory of `u`. -/
theorem takeBack_reach (hchain : Chain m'.pxNextFreeBlock r.xStart
      ((xs ++ t :: ys).map Span.lo ++ [pxEnd]))
    (hsize : ∀ f ∈ xs ++ t :: ys, m'.xBlockSize f.lo = f.size) (hxs : ∀ f ∈ xs, f.hi ≤ u.lo)
    {rounds : Nat} (hrounds : xs.length < rounds) :
    ∃ k, takeBack m' u.lo u.size rounds r.xStart (m'.pxNextFreeBlock r.xStart) =
      takeBack m' u.lo u.size (k + 1) (lastNode r xs) (some t.lo) := by
  obtain ⟨k, rfl⟩ := Nat.exists_eq_add_of_lt hrounds
  rw [List.map_append, List.append_assoc] at hchain
  have hwalk := @takeBack_walk m' u.lo u.size _ _ _ hchain ?_ (k + 1)
  · rw [List.length_map] at hwalk
    exact ⟨k, hwalk⟩
  · intro x hx
    obtain ⟨f, hf, rfl⟩ := List.mem_map.mp hx
    have hlo := f.lo_lt_hi
    have hend := f.lo_add_size
    have hu := u.lo_add_size
    have hlu := u.lo_lt_hi
    have hle := hxs f hf
    rw [hsize f (List.mem_append_left _ hf)]
    omega

/-- Taking a block out of the free list undoes its insertion: only its own cell is not as it
    was. -/
theorem Inserted.undo (hb : Between r m pxEnd l₁ l₂ u) (h : Inserted r m pxEnd u l₁ l₂ m' l)
    {rounds : Nat} (hrounds : l₁.length < rounds) :
    ∃ m'', takeBack m' u.lo u.size rounds r.xStart (m'.pxNextFreeBlock r.xStart) = some m'' ∧
      ∀ x, x ≠ u.lo → SameCell m m'' x := by
  have hchain := h.chain hb
  have hsize := h.size hb
  have hbefore := hb.before
  have hnext := hb.list.next_last
  have hlast := hb.last_lt
  have hu := u.lo_add_size
  cases h with
  | alone h₁ h₂ =>
    obtain ⟨k, hk⟩ := takeBack_reach hchain hsize hbefore hrounds
    rw [hk, takeBack_begin k (hsize u (List.mem_append_right l₁ List.mem_cons_self)).not_gt]
    refine ⟨_, rfl, fun x hx => ⟨?_, rfl⟩⟩
    by_cases hxl : x = lastNode r l₁
    · subst hxl
      simp [Function.update_of_ne hlast.ne', hnext]
    · simp [Function.update_of_ne hxl, Function.update_of_ne hx]
  | @upper _ ys v h₁ h₂ =>
    obtain ⟨k, hk⟩ := takeBack_reach hchain hsize hbefore hrounds
    have hv : m.xBlockSize v.lo = v.size :=
      hb.list.size v (List.mem_append_right l₁ List.mem_cons_self)
    have hjoin := Span.size_join h₂
    have hend : u.lo + u.size = v.lo := hu.trans h₂
    have hvl : lastNode r l₁ ≠ v.lo := (lt_trans hlast (h₂ ▸ u.lo_lt_hi)).ne
    have hmid := hsize (u.join v h₂) (List.mem_append_right l₁ List.mem_cons_self)
    rw [Span.join_lo, hjoin] at hmid
    have hpos : 0 < v.size := Nat.sub_pos_of_lt v.lo_lt_hi
    rw [hk, Span.join_lo, takeBack_begin_split k (by omega), hmid, hend, Nat.add_sub_cancel_left]
    refine ⟨_, rfl, fun x hx => ?_⟩
    by_cases hxv : x = v.lo
    · subst hxv
      simp [SameCell, Function.update_of_ne hvl.symm, hv, Function.update_of_ne hlast.ne']
    · by_cases hxl : x = lastNode r l₁
      · subst hxl
        simp [SameCell, hnext, firstNode, Function.update_of_ne hvl, Function.update_of_ne hx]
      · simp [SameCell, Function.update_of_ne hxl, Function.update_of_ne hx,
          Function.update_of_ne hxv]
  | @lower xs _ t h₁ h₂ =>
    have hbelow : ∀ f ∈ xs, f.hi ≤ u.lo := fun f hf => hbefore f (List.mem_append_left _ hf)
    have hlen : xs.length < rounds := by
      rw [List.length_append] at hrounds
      omega
    obtain ⟨k, hk⟩ := takeBack_reach hchain hsize hbelow hlen
    have ht : m.xBlockSize t.lo = t.size :=
      hb.list.size t (List.mem_append_left l₂ List.mem_concat_self)
    have hjoin := Span.size_join h₁
    have hmid := hsize (t.join u h₁) (List.mem_append_right xs List.mem_cons_self)
    rw [Span.join_lo, hjoin] at hmid
    have htu := t.lo_add_size
    have hlt : t.lo < u.lo := h₁ ▸ t.lo_lt_hi
    rw [hk, Span.join_lo, takeBack_end k hlt (by omega), hmid, Nat.add_sub_cancel]
    refine ⟨_, rfl, fun x hx => ⟨rfl, ?_⟩⟩
    by_cases hxt : x = t.lo
    · subst hxt
      simp [ht]
    · simp [Function.update_of_ne hxt]
  | @both xs ys t v h₁ h₂ =>
    have hbelow : ∀ f ∈ xs, f.hi ≤ u.lo := fun f hf => hbefore f (List.mem_append_left _ hf)
    have hlen : xs.length < rounds := by
      rw [List.length_append] at hrounds
      omega
    obtain ⟨k, hk⟩ := takeBack_reach hchain hsize hbelow hlen
    have ht : m.xBlockSize t.lo = t.size :=
      hb.list.size t (List.mem_append_left _ List.mem_concat_self)
    have hv : m.xBlockSize v.lo = v.size :=
      hb.list.size v (List.mem_append_right _ List.mem_cons_self)
    have hjoin : ((t.join u h₁).join v h₂).size = t.size + u.size + v.size :=
      (Span.size_join h₂).trans (congrArg (· + v.size) (Span.size_join h₁))
    have hmid := hsize ((t.join u h₁).join v h₂) (List.mem_append_right xs List.mem_cons_self)
    rw [Span.join_lo, Span.join_lo, hjoin] at hmid
    have htu := t.lo_add_size
    have hvs := v.lo_add_size
    have hpos : 0 < v.size := Nat.sub_pos_of_lt v.lo_lt_hi
    have hend : u.lo + u.size = v.lo := hu.trans (h₂ : u.hi = v.lo)
    have hlt : t.lo < u.lo := h₁ ▸ t.lo_lt_hi
    have htv : t.lo ≠ v.lo := by omega
    rw [hk, Span.join_lo, Span.join_lo, takeBack_middle k hlt (by omega), hmid, hend,
      show t.lo + (t.size + u.size + v.size) - v.lo = v.size by omega,
      show u.lo - t.lo = t.size by omega]
    rw [lastNode_snoc] at hnext
    refine ⟨_, rfl, fun x hx => ?_⟩
    by_cases hxv : x = v.lo
    · subst hxv
      simp [SameCell, Function.update_of_ne htv.symm, hv]
    · by_cases hxt : x = t.lo
      · subst hxt
        simp [SameCell, hnext, firstNode, Function.update_of_ne htv, ht]
      · simp [SameCell, Function.update_of_ne hxt, Function.update_of_ne hxv]

end Undo

/-! ## The copy -/

/-- `os_memcpy` brings `bytes` bytes from `src` to `dst`: there is nothing to copy, the two do not
    overlap, or it is one that copies down. -/
def OsMemcpy.Brings (cpy : OsMemcpy) (dst src bytes : Nat) : Prop :=
  dst = src ∨ dst + bytes ≤ src ∨ src + bytes ≤ dst ∨ cpy.CopiesDown

/-- A copy of aligned cells from front to back. -/
def memcpyCells (m : Mem) (dst src : Nat) : Nat → Mem
  | 0 => m
  | cells + 1 =>
    let m := m.setNext dst (m.pxNextFreeBlock src)
    let m := m.setSize dst (m.xBlockSize src)
    memcpyCells m (dst + xHeapStructSize) (src + xHeapStructSize) cells

theorem memcpyCells_out {m : Mem} {dst src x : Nat} {k : Nat} (hx : ∀ i < k, x ≠ dst + 8 * i) :
    SameCell m (memcpyCells m dst src k) x := by
  induction k generalizing m dst src with
  | zero => exact SameCell.refl m x
  | succ k ih =>
    have hx₀ : x ≠ dst := hx 0 (Nat.succ_pos k)
    refine ((SameCell.setNext m hx₀ _).trans (SameCell.setSize _ hx₀ _)).trans (ih fun i hi => ?_)
    have hxi := hx (i + 1) (Nat.succ_lt_succ hi)
    unfold xHeapStructSize
    omega

/-- A copy from front to back is right where the source does not start below the destination
    inside of it. -/
theorem memcpyCells_in {m : Mem} {dst src k : Nat} (h : dst ≤ src ∨ src + 8 * k ≤ dst) :
    Copied m (memcpyCells m dst src k) dst src k := by
  intro i hi
  induction k generalizing m dst src i with
  | zero => exact absurd hi (Nat.not_lt_zero i)
  | succ k ih =>
    unfold memcpyCells
    cases i with
    | zero =>
      have hout := @memcpyCells_out ((m.setNext dst (m.pxNextFreeBlock src)).setSize dst
        (m.xBlockSize src)) (dst + xHeapStructSize) (src + xHeapStructSize) dst k
        fun j _ => by unfold xHeapStructSize; omega
      exact ⟨hout.1.trans (Function.update_self _ _ _), hout.2.trans (Function.update_self _ _ _)⟩
    | succ i =>
      have hne : src + 8 * (i + 1) ≠ dst := by omega
      have hcell := (SameCell.setNext m hne (m.pxNextFreeBlock src)).trans
        (SameCell.setSize _ hne (m.xBlockSize src))
      have hrest := @ih ((m.setNext dst (m.pxNextFreeBlock src)).setSize dst
        (m.xBlockSize src)) (dst + xHeapStructSize) (src + xHeapStructSize)
        (by unfold xHeapStructSize; omega) i (Nat.lt_of_succ_lt_succ hi)
      have hd : dst + 8 * (i + 1) = dst + xHeapStructSize + 8 * i := by
        unfold xHeapStructSize
        omega
      have hs : src + 8 * (i + 1) = src + xHeapStructSize + 8 * i := by
        unfold xHeapStructSize
        omega
      rw [hd]
      rw [hs] at hcell ⊢
      exact ⟨hrest.1.trans hcell.1, hrest.2.trans hcell.2⟩

/-- An `os_memcpy` that copies from front to back. -/
def forwardMemcpy : OsMemcpy where
  copy := memcpyCells
  outside := memcpyCells_out
  apart := fun h => memcpyCells_in (h.imp_left (Nat.le_trans (Nat.le_add_right _ _)))

theorem forwardMemcpy_copiesDown : forwardMemcpy.CopiesDown := fun h => memcpyCells_in (Or.inl h)

/-! ## The call -/

section Realloc

variable {cpy : OsMemcpy} {r : Region} {s : Heap} {free used : List (Span Nat)} {u : Span Nat}
  {n : UInt32}

/-- A block that is large enough stays. -/
theorem HeapInv.realloc_keep (h : HeapInv r s free (u :: used)) (hn : n.toNat ≤ u.size - 8) :
    pvPortRealloc cpy r s (some (u.lo + xHeapStructSize)) n =
      some (some (u.lo + xHeapStructSize), s) := by
  have hlt := h.size_lt (List.mem_append_right free List.mem_cons_self)
  have hkeep : n.toNat ≤ u.size - xHeapStructSize := hn
  unfold pvPortRealloc
  simp only [Nat.add_sub_cancel, (h.header u List.mem_cons_self).2, sizeBits_add h.bit hlt]
  rw [if_pos hkeep]
  rfl

/-- The call goes through the free list and the allocator. -/
theorem HeapInv.realloc_eq (h : HeapInv r s free (u :: used)) (hn : u.size - 8 < n.toNat)
    {s₂ : Heap} (hcall : prvInsertBlockIntoFreeList r (taken s u) u.lo = some s₂)
    {result : Option Nat × Heap} (hmalloc : mallocWithoutLock r s₂ n.toNat = some result) :
    pvPortRealloc cpy r s (some (u.lo + xHeapStructSize)) n =
      reallocEnd cpy r (u.lo + xHeapStructSize) u.size result := by
  have hlt := h.size_lt (List.mem_append_right free List.mem_cons_self)
  have hgrow : ¬ n.toNat ≤ u.size - xHeapStructSize := Nat.not_le_of_lt hn
  unfold pvPortRealloc
  simp only [Nat.add_sub_cancel, (h.header u List.mem_cons_self).2, sizeBits_add h.bit hlt,
    Mem.size_setSize, Function.update_self]
  rw [if_neg hgrow]
  show (prvInsertBlockIntoFreeList r (taken s u) u.lo).bind _ = _
  rw [hcall]
  show (mallocWithoutLock r s₂ n.toNat).bind _ = _
  rw [hmalloc]
  rfl

/-- A call that fails leaves the heap as it was. -/
theorem HeapInv.realloc_none (h : HeapInv r s free (u :: used)) (hn : u.size - 8 < n.toNat)
    (hfail : n.toNat < 2147483648 → ∀ t ∈ insert u free, t.size < wantedSize n.toNat) :
    pvPortRealloc cpy r s (some (u.lo + xHeapStructSize)) n = some (none, s) := by
  obtain ⟨l₁, l₂, m', hsplit, hb, hins, hcall, hinv⟩ := h.release
  have hmalloc : mallocWithoutLock r { taken s u with mem := m' } n.toNat =
      some (none, { taken s u with mem := m' }) := by
    rcases Nat.lt_or_ge n.toNat 2147483648 with hlt | hge
    · exact hinv.malloc_none (Nat.zero_lt_of_lt hn) hlt (hfail hlt)
    · exact hinv.malloc_huge n.toNat_lt hge
  have hlen : l₁.length < r.rounds := by
    have hrounds := h.rounds
    rw [hsplit, List.length_append] at hrounds
    omega
  obtain ⟨m'', hback, hsame⟩ := hins.undo hb hlen
  have hlt := h.size_lt (List.mem_append_right free List.mem_cons_self)
  obtain ⟨hnext, hsize⟩ := h.header u List.mem_cons_self
  have hbit : (taken s u).xBlockAllocatedBit = 2147483648 := h.bit
  have hmem : (m''.setSize u.lo (u.size ||| (taken s u).xBlockAllocatedBit)).setNext u.lo none =
      s.mem := by
    have hcell : ∀ x, x ≠ u.lo → SameCell s.mem m'' x := fun x hx =>
      (SameCell.setSize s.mem hx u.size).trans (hsame x hx)
    rw [hbit]
    refine Mem.ext (funext fun x => ?_) (funext fun x => ?_)
    · by_cases hx : x = u.lo
      · rw [hx, hnext]
        exact Function.update_self _ _ _
      · exact (Function.update_of_ne hx _ _).trans (hcell x hx).1
    · by_cases hx : x = u.lo
      · rw [hx, hsize, ← or_bit_of_lt hlt]
        exact Function.update_self _ _ _
      · exact (Function.update_of_ne hx _ _).trans (hcell x hx).2
  rw [h.realloc_eq hn hcall hmalloc, reallocEnd, Nat.add_sub_cancel, hback]
  show some (none, ({ taken s u with
    mem := (m''.setSize u.lo (u.size ||| (taken s u).xBlockAllocatedBit)).setNext u.lo none
    xFreeBytesRemaining := (s.xFreeBytesRemaining + u.size) - u.size } : Heap)) = some (none, s)
  rw [hmem, Nat.add_sub_cancel]
  rfl

/-- The header of the rest of a split block lies in the old contents, at cell `i`. -/
def SplitAt (t u : Span Nat) (w i : Nat) : Prop :=
  heapMinimumBlockSize < t.size - w ∧ t.lo + w = u.lo + xHeapStructSize + 8 * i

/-- What a call that has moved a block `u` to `v` has done. -/
structure Moved (cpy : OsMemcpy) (r : Region) (s : Heap) (used : List (Span Nat))
    (u t : Span Nat) (w : Nat) (s' : Heap) (v : Span Nat) (free' : List (Span Nat)) : Prop where
  inv : HeapInv r s' free' (v :: used)
  lo : v.lo = t.lo
  large : w ≤ v.size
  least : s'.xMinimumEverFreeBytesRemaining =
    min s.xMinimumEverFreeBytesRemaining s'.xFreeBytesRemaining
  same : ∀ x, Covers used x → SameCell s.mem s'.mem x
  kept : cpy.Brings (v.lo + xHeapStructSize) (u.lo + xHeapStructSize) (u.size - 8) →
    ∀ i < (u.size - 8) / 8, ¬ SplitAt t u w i →
    s'.mem.pxNextFreeBlock (v.lo + xHeapStructSize + 8 * i) =
        s.mem.pxNextFreeBlock (u.lo + xHeapStructSize + 8 * i) ∧
      s'.mem.xBlockSize (v.lo + xHeapStructSize + 8 * i) =
        s.mem.xBlockSize (u.lo + xHeapStructSize + 8 * i)
  lost : cpy.Brings (v.lo + xHeapStructSize) (u.lo + xHeapStructSize) (u.size - 8) →
    ∀ i < (u.size - 8) / 8, SplitAt t u w i →
    s'.mem.pxNextFreeBlock (v.lo + xHeapStructSize + 8 * i) =
        s'.mem.pxNextFreeBlock (t.lo + w) ∧
      s'.mem.xBlockSize (v.lo + xHeapStructSize + 8 * i) = s'.mem.xBlockSize (t.lo + w)

/-- The end of a call whose allocation succeeds: the old contents, wherever they went. -/
theorem reallocEnd_some {t : Span Nat} (s : Heap) (hplace : t.lo ≤ u.lo ∨ u.hi ≤ t.lo) :
    ∃ m, reallocEnd cpy r (u.lo + xHeapStructSize) u.size (some (t.lo + xHeapStructSize), s) =
        some (some (t.lo + xHeapStructSize), { s with mem := m }) ∧
      (cpy.Brings (t.lo + xHeapStructSize) (u.lo + xHeapStructSize) (u.size - 8) →
        Copied s.mem m (t.lo + xHeapStructSize) (u.lo + xHeapStructSize) ((u.size - 8) / 8)) ∧
      ∀ x, (∀ i < (u.size - 8) / 8, x ≠ t.lo + xHeapStructSize + 8 * i) → SameCell s.mem m x := by
  by_cases hne : t.lo + xHeapStructSize ≠ u.lo + xHeapStructSize
  · have hu := u.lo_add_size
    refine ⟨_, if_pos hne, fun hbrings => ?_, fun x hx => cpy.outside hx⟩
    rcases hplace with hdown | hup
    · rcases hbrings with heq | hdst | hsrc | hcopies
      · exact absurd heq hne
      · exact cpy.apart (Or.inl (by unfold xHeapStructSize; omega))
      · exact cpy.apart (Or.inr (by unfold xHeapStructSize; omega))
      · exact hcopies (Nat.add_le_add_right hdown _)
    · exact cpy.apart (Or.inr (by unfold xHeapStructSize; omega))
  · exact ⟨s.mem, if_neg hne, fun _ i _ => not_not.mp hne ▸ ⟨rfl, rfl⟩,
      fun x _ => SameCell.refl s.mem x⟩

/-- A block that is moved takes its contents along, up to the cell where a split has put the header
    of the rest. -/
theorem HeapInv.realloc_some (h : HeapInv r s free (u :: used)) (hn : u.size - 8 < n.toNat)
    (hlt : n.toNat < 2147483648) {l₁ l₂ : List (Span Nat)} {t : Span Nat}
    (hfree : insert u free = l₁ ++ t :: l₂) (hsmall : ∀ f ∈ l₁, f.size < wantedSize n.toNat)
    (hlarge : wantedSize n.toNat ≤ t.size) :
    ∃ s' v free', pvPortRealloc cpy r s (some (u.lo + xHeapStructSize)) n =
        some (some (t.lo + xHeapStructSize), s') ∧
      Moved cpy r s used u t (wantedSize n.toNat) s' v free' := by
  obtain ⟨k₁, k₂, m', hsplit, hb, hins, hcall, hinv⟩ := h.release
  have hmem : t ∈ insert u free := hfree ▸ List.mem_append_right l₁ List.mem_cons_self
  have hapart : ∀ f ∈ free, u.Apart f := fun f hf =>
    (h.parts.free_apart f hf u List.mem_cons_self).symm
  have hplace := apart_of_mem_insert h.list.separated hapart hmem
  rw [hfree] at hinv
  obtain ⟨s₃, v, free', hmalloc, htaken⟩ :=
    hinv.malloc_some (Nat.zero_lt_of_lt hn) hlt hsmall hlarge
  rw [← hfree] at htaken
  have huhi := u.lo_add_size
  have hublock := h.block u (List.mem_append_right free List.mem_cons_self)
  have hw : wantedSize n.toNat = (n.toNat + 15) / 8 * 8 := wantedSize_eq (Nat.zero_lt_of_lt hn)
  -- the contents of the block when they are copied
  have hold : ∀ i < (u.size - 8) / 8, ¬ SplitAt t u (wantedSize n.toNat) i →
      SameCell s.mem s₃.mem (u.lo + xHeapStructSize + 8 * i) := by
    intro i hi hnot
    have hin : u.Has (u.lo + xHeapStructSize + 8 * i) := by
      unfold xHeapStructSize Span.Has
      omega
    have hcov : Covers (u :: used) (u.lo + xHeapStructSize + 8 * i) :=
      (covers_cons u used _).mpr (Or.inl hin)
    have hne : u.lo + xHeapStructSize + 8 * i ≠ u.lo := by
      unfold xHeapStructSize
      omega
    have hnode := h.not_node hcov
    refine (h.release_same hsplit hins hcov hne).trans (htaken.same _ (hnode _ List.mem_cons_self)
      (fun f hf hfx => ?_) fun hrest hx => hnot ⟨hrest, hx.symm⟩)
    rcases apart_of_mem_insert h.list.separated hapart hf with ⟨hlo, -⟩ | hfu
    · unfold xHeapStructSize at hfx
      omega
    · exact hfu.not_has f.has_lo (hfx ▸ hin)
  obtain ⟨m₄, hend, hcopy, hout⟩ := @reallocEnd_some cpy r u t s₃
    (hplace.elim (fun hp => Or.inl hp.1) fun hp => Or.elim hp (fun hp => Or.inr hp)
      fun hp => Or.inl (Nat.le_of_lt (Nat.lt_of_lt_of_le t.lo_lt_hi hp)))
  have hvhi := v.lo_add_size
  have hv := htaken.lo
  have hvlarge := htaken.large
  -- the copy stays inside the new block
  have hinside : ∀ i < (u.size - 8) / 8, v.lo < t.lo + xHeapStructSize + 8 * i ∧
      t.lo + xHeapStructSize + 8 * i < v.hi := by
    intro i hi
    unfold xHeapStructSize
    omega
  refine ⟨{ s₃ with mem := m₄ }, v, free', ?_, htaken.inv.contents fun x hx => hout x ?_, hv,
    hvlarge, htaken.least, fun x hx => ?_, fun hbrings i hi hnot => ?_,
    fun hbrings i hi hat => ?_⟩
  · rw [h.realloc_eq hn hcall hmalloc]
    exact hend
  · rintro i hi rfl
    exact hx v List.mem_cons_self (hinside i hi)
  · have hnode := hinv.not_node hx
    have hux : x ≠ u.lo := by
      rintro rfl
      exact not_covers_of_apart (List.pairwise_cons.mp h.parts.apart).1 u.has_lo hx
    refine ((h.release_same hsplit hins ((covers_cons u used x).mpr (Or.inr hx)) hux).trans
      (htaken.same x (hnode _ List.mem_cons_self) (fun f hf => ?_) fun hrest hxt => ?_)).trans
      (hout x fun i hi hxi => ?_)
    · exact hnode f.lo (List.mem_cons_of_mem _ (List.mem_append_left _
        (List.mem_map_of_mem (hfree ▸ hf))))
    · obtain ⟨f, hf, hxf⟩ := hx
      have ht := t.lo_add_size
      unfold heapMinimumBlockSize xHeapStructSize at hrest
      exact (hinv.parts.free_apart t (List.mem_append_right l₁ List.mem_cons_self) f hf).not_has
        ⟨by omega, by omega⟩ hxf
    · have hvx : v.Has x := by
        have := hinside i hi
        exact ⟨by omega, by omega⟩
      exact not_covers_of_apart (List.pairwise_cons.mp htaken.inv.parts.apart).1 hvx hx
  · rw [hv] at hbrings ⊢
    have hcell := hold i hi hnot
    exact ⟨(hcopy hbrings i hi).1.trans hcell.1, (hcopy hbrings i hi).2.trans hcell.2⟩
  · have hrest : SameCell s₃.mem m₄ (t.lo + wantedSize n.toNat) := hout _ fun j hj => by
      unfold xHeapStructSize
      omega
    rw [hv] at hbrings ⊢
    have hcell := hcopy hbrings i hi
    rw [← hat.2] at hcell
    exact ⟨hcell.1.trans hrest.1.symm, hcell.2.trans hrest.2.symm⟩

/-- What a call on the block `u` has come to: the block is large enough, there is no room, or the
    contents are in the first block that is large enough. -/
inductive Reallocated (cpy : OsMemcpy) (r : Region) (s : Heap) (free used : List (Span Nat))
    (u : Span Nat) (n : UInt32) : Option (Option Nat × Heap) → Prop where
  | enough (hle : n.toNat ≤ u.size - 8) :
      Reallocated cpy r s free used u n (some (some (u.lo + xHeapStructSize), s))
  | failed : Reallocated cpy r s free used u n (some (none, s))
  | moved {l₁ l₂ free' : List (Span Nat)} {t v : Span Nat} {s' : Heap}
      (hgrow : u.size - 8 < n.toNat) (hfree : insert u free = l₁ ++ t :: l₂)
      (hsmall : ∀ f ∈ l₁, f.size < wantedSize n.toNat) (hlarge : wantedSize n.toNat ≤ t.size)
      (h : Moved cpy r s used u t (wantedSize n.toNat) s' v free') :
      Reallocated cpy r s free used u n (some (some (t.lo + xHeapStructSize), s'))

theorem HeapInv.reallocated (h : HeapInv r s free (u :: used)) {result : Option (Option Nat × Heap)}
    (hresult : pvPortRealloc cpy r s (some (u.lo + xHeapStructSize)) n = result) :
    Reallocated cpy r s free used u n result := by
  rw [← hresult]
  rcases Nat.lt_or_ge (u.size - 8) n.toNat with hgrow | hle
  · rcases Nat.lt_or_ge n.toNat 2147483648 with hlt | hhuge
    · rcases first_large (insert u free) (wantedSize n.toNat) with
        hsmall | ⟨l₁, t, l₂, hfree, hsmall, hlarge⟩
      · rw [h.realloc_none hgrow fun _ => hsmall]
        exact .failed
      · obtain ⟨s', v, free', hcall, hmoved⟩ := h.realloc_some hgrow hlt hfree hsmall hlarge
        rw [hcall]
        exact .moved hgrow hfree hsmall hlarge hmoved
    · rw [h.realloc_none hgrow fun hlt => absurd hlt hhuge.not_gt]
      exact .failed
  · rw [h.realloc_keep hle]
    exact .enough hle

end Realloc

end ArduinoT2.Kernel
