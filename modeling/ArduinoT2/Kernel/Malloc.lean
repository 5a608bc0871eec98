import ArduinoT2.Kernel.FreeList

/-
  What the calls of heap_4.c do to the blocks.

  `HeapInv` is the invariant: the region is split into free and used blocks, the free ones are the
  maximal free stretches and hang on `xStart`, a used one has its size and the bit of the
  application in its header, and `xFreeBytesRemaining` is what the free blocks have together.
  `HeapInv.malloc` and `HeapInv.free` are one lemma for each call that changes the blocks.
-/

namespace ArduinoT2.Kernel

open NextList Spans

/-- The heap `s` has the free blocks `free` and the blocks `used` in use. -/
structure HeapInv (r : Region) (s : Heap) (free used : List (Span Nat)) : Prop where
  pxEnd : s.pxEnd = some r.last
  bit : s.xBlockAllocatedBit = 2147483648
  list : FreeList r s.mem r.last free
  parts : Parts (fun x => r.first ≤ x ∧ x < r.last) free used
  block : ∀ u ∈ free ++ used, 16 ≤ u.size ∧ u.lo % 8 = 0 ∧ u.hi % 8 = 0
  header : ∀ u ∈ used,
    s.mem.pxNextFreeBlock u.lo = none ∧ s.mem.xBlockSize u.lo = u.size + 2147483648
  remaining : s.xFreeBytesRemaining = total free

section Facts

variable {r : Region} {s : Heap} {free used : List (Span Nat)}

theorem HeapInv.rounds (h : HeapInv r s free used) : free.length + 1 < r.rounds := by
  have hpos : ∀ u ∈ free, 8 ≤ u.size := fun u hu =>
    Nat.le_trans (by decide) (h.block u (List.mem_append_left used hu)).1
  have hlen := length_mul_le_total hpos
  have hb := r.bounds
  have htotal := total_add_le h.list.separated
    (Nat.le_trans hb.1 (Nat.le_trans (Nat.le_add_right _ 16) hb.2.1)) h.list.bounds
  unfold Region.rounds xHeapStructSize
  omega

/-- Every block lies between the first one and `pxEnd`. -/
theorem HeapInv.bounds (h : HeapInv r s free used) {u : Span Nat} (hu : u ∈ free ++ used) :
    r.first ≤ u.lo ∧ u.hi ≤ r.last := by
  have hcov : ∀ x, u.Has x → r.first ≤ x ∧ x < r.last := by
    intro x hx
    refine (h.parts.covers x).mp ?_
    rcases List.mem_append.mp hu with hu | hu
    · exact Or.inl ⟨u, hu, hx⟩
    · exact Or.inr ⟨u, hu, hx⟩
  have hlt := u.lo_lt_hi
  have hlast := (hcov (u.hi - 1) ⟨by omega, by omega⟩).2
  exact ⟨(hcov u.lo u.has_lo).1, by omega⟩

theorem HeapInv.size_lt (h : HeapInv r s free used) {u : Span Nat} (hu : u ∈ free ++ used) :
    u.size < 2147483648 := by
  have hb := r.bounds
  have hbelow := r.below_top_bit
  have hu := h.bounds hu
  unfold Span.size
  omega

theorem HeapInv.start_lt (h : HeapInv r s free used) {u : Span Nat} (hu : u ∈ free ++ used) :
    r.xStart < u.lo :=
  Nat.lt_of_lt_of_le r.start_below (Nat.le_trans r.bounds.1 (h.bounds hu).1)

/-- A cell of a block in use is none of the nodes of the free list. -/
theorem HeapInv.not_node (h : HeapInv r s free used) {x : Nat} (hx : Covers used x) :
    ∀ y ∈ r.xStart :: (free.map Span.lo ++ [r.last]), x ≠ y := by
  obtain ⟨u, hu, hxu⟩ := hx
  have hmem := List.mem_append_right free hu
  rintro y hy rfl
  rcases List.mem_cons.mp hy with rfl | hy
  · exact absurd hxu.1 (h.start_lt hmem).not_ge
  · rcases List.mem_append.mp hy with hy | hy
    · obtain ⟨t, ht, rfl⟩ := List.mem_map.mp hy
      exact (h.parts.free_apart t ht u hu).not_has t.has_lo hxu
    · exact absurd (List.mem_singleton.mp hy ▸ hxu.2) (h.bounds hmem).2.not_gt

theorem HeapInv.perm {used' : List (Span Nat)} (h : HeapInv r s free used)
    (hp : used.Perm used') : HeapInv r s free used' where
  pxEnd := h.pxEnd
  bit := h.bit
  list := h.list
  parts := h.parts.perm hp
  block := fun u hu => h.block u (((List.perm_append_left_iff free).mpr hp).mem_iff.mpr hu)
  header := fun u hu => h.header u (hp.mem_iff.mpr hu)
  remaining := h.remaining

/-- The free blocks follow from the blocks in use. -/
theorem HeapInv.free_unique {s' : Heap} {free' used' : List (Span Nat)}
    (h : HeapInv r s free used) (h' : HeapInv r s' free' used')
    (hused : ∀ u, u ∈ used ↔ u ∈ used') : free = free' := h.parts.free_unique h'.parts hused

/-- Stores to the contents of the blocks in use leave the heap as it is. -/
theorem HeapInv.contents (h : HeapInv r s free used) {m : Mem}
    (hm : ∀ x, (∀ u ∈ used, ¬ (u.lo < x ∧ x < u.hi)) → SameCell s.mem m x) :
    HeapInv r { s with mem := m } free used where
  pxEnd := h.pxEnd
  bit := h.bit
  list := h.list.congr fun x hx => hm x fun u hu hxu =>
    h.not_node ⟨u, hu, Nat.le_of_lt hxu.1, hxu.2⟩ x hx rfl
  parts := h.parts
  block := h.block
  header := fun u hu => by
    have hcell := hm u.lo fun v hv huv => by
      obtain ⟨l₁, l₂, rfl⟩ := List.append_of_mem hv
      have hap := (List.perm_middle.pairwise_iff fun h => h.symm).mp h.parts.apart
      rcases mem_middle.mp hu with rfl | hu
      · exact Nat.lt_irrefl _ huv.1
      · exact ((List.pairwise_cons.mp hap).1 u hu).not_has ⟨Nat.le_of_lt huv.1, huv.2⟩ u.has_lo
    exact ⟨hcell.1.trans (h.header u hu).1, hcell.2.trans (h.header u hu).2⟩
  remaining := h.remaining

end Facts

/-! ## Initialisation -/

theorem separated_singleton (s : Span Nat) : Separated [s] := List.pairwise_singleton _ s

theorem Region.whole_has (r : Region) (x : Nat) : r.whole.Has x ↔ r.first ≤ x ∧ x < r.last :=
  Iff.rfl

theorem heapInv_init (r : Region) (s : Heap) : HeapInv r (prvHeapInit r s) [r.whole] [] := by
  have hb := r.bounds
  have hstart := r.start_below
  have hne₁ : r.xStart ≠ r.first := by omega
  have hne₂ : r.xStart ≠ r.last := by omega
  have hne₃ : r.first ≠ r.last := by omega
  have hsize : r.whole.size = r.last - r.first := rfl
  rw [prvHeapInit_eq]
  refine ⟨rfl, rfl, ⟨?_, ?_, ?_, ?_, separated_singleton _, ?_⟩, ⟨separated_singleton _,
    List.Pairwise.nil, fun _ _ u hu => absurd hu List.not_mem_nil, fun x => ?_⟩, ?_,
    fun u hu => absurd hu List.not_mem_nil, rfl⟩
  · refine chain_cons.mpr ⟨?_, chain_cons.mpr ⟨?_, chain_nil.mpr ?_⟩⟩ <;>
      simp [Region.whole, hne₁, hne₂, hne₃.symm]
  · intro u hu
    obtain rfl := List.mem_singleton.mp hu
    exact Function.update_self _ _ _
  · simp [hne₁, hne₂]
  · simp [hne₃.symm]
  · intro u hu
    obtain rfl := List.mem_singleton.mp hu
    exact ⟨hb.1, Nat.le_refl _⟩
  · rw [or_iff_left (covers_nil x), covers_cons, or_iff_left (covers_nil x), r.whole_has]
  · intro u hu
    obtain rfl := List.mem_singleton.mp hu
    refine ⟨?_, Nat.mul_mod_left _ 8, Nat.mul_mod_left _ 8⟩
    omega

/-! ## Releasing a block -/

section Release

variable {r : Region} {s : Heap} {free used : List (Span Nat)} {u : Span Nat}

/-- The heap with the block taken from the application, before it goes into the free list. -/
def taken (s : Heap) (u : Span Nat) : Heap :=
  { s with
    mem := s.mem.setSize u.lo u.size
    xFreeBytesRemaining := s.xFreeBytesRemaining + u.size }

theorem block_join {u v : Span Nat} (h : u.hi = v.lo)
    (hu : 16 ≤ u.size ∧ u.lo % 8 = 0 ∧ u.hi % 8 = 0)
    (hv : 16 ≤ v.size ∧ v.lo % 8 = 0 ∧ v.hi % 8 = 0) :
    16 ≤ (u.join v h).size ∧ (u.join v h).lo % 8 = 0 ∧ (u.join v h).hi % 8 = 0 :=
  ⟨by rw [Span.size_join]; exact Nat.le_add_right_of_le hu.1, hu.2.1, hv.2.2⟩

/-- The nodes of the free list are cells of free blocks, or lie outside all blocks. -/
theorem Inserted.not_node {m m' : Mem} {e : Nat} {l₁ l₂ l : List (Span Nat)}
    (h : Inserted r m e u l₁ l₂ m' l) {x : Nat} (hx : x ≠ r.xStart)
    (hl : ∀ t ∈ l₁, x ≠ t.lo) (hu : x ≠ u.lo) : SameCell m m' x := by
  refine h.cell_eq ?_ hu
  rcases lastNode_cases r l₁ with ⟨-, hlast⟩ | ⟨l', t, rfl, hlast⟩
  · exact hlast ▸ hx
  · exact hlast ▸ hl t List.mem_concat_self

/-- What the insertion of a block that was in use does, to the memory and to the blocks. -/
theorem HeapInv.release (h : HeapInv r s free (u :: used)) :
    ∃ l₁ l₂ m', free = l₁ ++ l₂ ∧ Between r (taken s u).mem r.last l₁ l₂ u ∧
      Inserted r (taken s u).mem r.last u l₁ l₂ m' (insert u free) ∧
      prvInsertBlockIntoFreeList r (taken s u) u.lo = some { taken s u with mem := m' } ∧
      HeapInv r { taken s u with mem := m' } (insert u free) used := by
  have hmem : u ∈ free ++ u :: used := List.mem_append_right free List.mem_cons_self
  have hnot := h.not_node ⟨u, List.mem_cons_self, u.has_lo⟩
  have hsame : ∀ x, x ≠ u.lo → SameCell s.mem (taken s u).mem x := fun x hx =>
    SameCell.setSize s.mem hx u.size
  have hlist : FreeList r (taken s u).mem r.last free :=
    h.list.congr fun x hx => hsame x (hnot x hx).symm
  have hapart : ∀ t ∈ free, u.Apart t := fun t ht =>
    (h.parts.free_apart t ht u List.mem_cons_self).symm
  have hbounds := h.bounds hmem
  obtain ⟨l₁, l₂, m', hsplit, hb, hins, hcall⟩ := hlist.insert_spec (h := taken s u) (s := u)
    h.pxEnd (Function.update_self _ _ _) ⟨Nat.le_trans r.bounds.1 hbounds.1, hbounds.2⟩ hapart
    (Nat.lt_of_succ_lt h.rounds)
  have hparts := h.parts.release
  refine ⟨l₁, l₂, m', hsplit, hb, hins, hcall, h.pxEnd, h.bit, hb.insert hins, hparts, ?_, ?_, ?_⟩
  · intro v hv
    rcases List.mem_append.mp hv with hv | hv
    · exact forall_insert (fun t v htv => block_join htv) (h.block u hmem)
        (fun t ht => h.block t (List.mem_append_left _ ht)) v hv
    · exact h.block v (List.mem_append_right free (List.mem_cons_of_mem u hv))
  · intro v hv
    have hvu : v.lo ≠ u.lo := fun he =>
      ((List.pairwise_cons.mp h.parts.apart).1 v hv).not_has (he ▸ u.has_lo) v.has_lo
    have hvnot := h.not_node ⟨v, List.mem_cons_of_mem u hv, v.has_lo⟩
    have hcell := (hsame v.lo hvu).trans (hins.not_node
      (hvnot r.xStart List.mem_cons_self)
      (fun t ht => hvnot t.lo (List.mem_cons_of_mem _ (List.mem_append_left _
        (List.mem_map_of_mem (hsplit ▸ List.mem_append_left l₂ ht))))) hvu)
    obtain ⟨hnext, hsize⟩ := h.header v (List.mem_cons_of_mem u hv)
    exact ⟨hcell.1.trans hnext, hcell.2.trans hsize⟩
  · show s.xFreeBytesRemaining + u.size = total (insert u free)
    rw [total_insert, h.remaining, Nat.add_comm]

/-- The insertion leaves the contents of the block and of all blocks in use alone. -/
theorem HeapInv.release_same (h : HeapInv r s free (u :: used)) {l₁ l₂ : List (Span Nat)}
    {m' : Mem} {l : List (Span Nat)} (hsplit : free = l₁ ++ l₂)
    (hins : Inserted r (taken s u).mem r.last u l₁ l₂ m' l) {x : Nat}
    (hx : Covers (u :: used) x) (hne : x ≠ u.lo) : SameCell s.mem m' x := by
  have hnot := h.not_node hx
  refine (SameCell.setSize s.mem hne u.size).trans (hins.not_node (hnot _ List.mem_cons_self)
    (fun t ht => hnot t.lo (List.mem_cons_of_mem _ (List.mem_append_left _ ?_))) hne)
  exact List.mem_map_of_mem (hsplit ▸ List.mem_append_left l₂ ht)

/-- The call that gives a block back. -/
theorem HeapInv.vPortFree_spec (h : HeapInv r s free (u :: used)) :
    ∃ s', vPortFree r s (some (u.lo + xHeapStructSize)) = some s' ∧
      HeapInv r s' (insert u free) used ∧
      s'.xMinimumEverFreeBytesRemaining = s.xMinimumEverFreeBytesRemaining ∧
      ∀ x, Covers used x → SameCell s.mem s'.mem x := by
  obtain ⟨l₁, l₂, m', hsplit, -, hins, hcall, hinv⟩ := h.release
  obtain ⟨hnext, hsize⟩ := h.header u List.mem_cons_self
  have hlt := h.size_lt (List.mem_append_right free List.mem_cons_self)
  refine ⟨_, ?_, hinv, rfl, fun x hx => ?_⟩
  · have hbit : (u.size + 2147483648) &&& s.xBlockAllocatedBit ≠ 0 := h.bit ▸ add_bit_and hlt
    unfold vPortFree
    simp only [Nat.add_sub_cancel, hsize, hnext, sizeBits_add h.bit hlt, Mem.size_setSize,
      Function.update_self]
    rw [if_pos hbit, if_pos trivial]
    exact hcall
  · refine h.release_same hsplit hins ((covers_cons u used x).mpr (Or.inr hx)) ?_
    rintro rfl
    exact not_covers_of_apart (List.pairwise_cons.mp h.parts.apart).1 u.has_lo hx

end Release

/-! ## Taking a block -/

section Take

variable {r : Region} {s : Heap} {l₁ l₂ used : List (Span Nat)} {t : Span Nat} {w : Nat}

/-- What taking a block of `w` bytes from the front of the free block `t` has done: the
    application has the block `u`, and a rest of more than two cells is free again. -/
structure Taken (r : Region) (s : Heap) (free used : List (Span Nat)) (t : Span Nat) (w : Nat)
    (s' : Heap) (u : Span Nat) (free' : List (Span Nat)) : Prop where
  inv : HeapInv r s' free' (u :: used)
  lo : u.lo = t.lo
  large : w ≤ u.size
  small : u.size ≤ w + heapMinimumBlockSize
  least : s'.xMinimumEverFreeBytesRemaining =
    min s.xMinimumEverFreeBytesRemaining s'.xFreeBytesRemaining
  same : ∀ x, x ≠ r.xStart → (∀ f ∈ free, x ≠ f.lo) →
    (heapMinimumBlockSize < t.size - w → x ≠ t.lo + w) → SameCell s.mem s'.mem x
  rest : heapMinimumBlockSize < t.size - w →
    s'.mem.pxNextFreeBlock (t.lo + w) = s.mem.pxNextFreeBlock t.lo ∧
      s'.mem.xBlockSize (t.lo + w) = t.size - w

/-- The variables behind the taking of a block of `size` bytes. -/
def charged (s : Heap) (m : Mem) (size : Nat) : Heap :=
  { s with
    mem := m
    xFreeBytesRemaining := s.xFreeBytesRemaining - size
    xMinimumEverFreeBytesRemaining :=
      min s.xMinimumEverFreeBytesRemaining (s.xFreeBytesRemaining - size) }

/-- The memory behind the taking of a block: it has its size and the bit of the application. -/
def marked (m : Mem) (a size : Nat) : Mem := (m.setSize a (size ||| 2147483648)).setNext a none

theorem marked_same (m : Mem) {a x : Nat} (h : x ≠ a) (size : Nat) :
    SameCell m (marked m a size) x :=
  (SameCell.setSize m h _).trans (SameCell.setNext _ h _)

theorem marked_header (m : Mem) {a size : Nat} (h : size < 2147483648) :
    (marked m a size).pxNextFreeBlock a = none ∧
      (marked m a size).xBlockSize a = size + 2147483648 :=
  ⟨Function.update_self _ _ _, (Function.update_self _ _ _).trans (or_bit_of_lt h)⟩

theorem grantBlock_eq (hbit : s.xBlockAllocatedBit = 2147483648) {m : Mem} {a size : Nat}
    (hsize : m.xBlockSize a = size) :
    grantBlock { s with mem := m } a = charged s (marked m a size) size := by
  unfold grantBlock charged marked
  dsimp only
  rw [hsize]
  split
  · rename_i h
    rw [Nat.min_eq_right (Nat.le_of_lt h)]
    simp only [hsize, hbit]
  · rename_i h
    rw [Nat.min_eq_left (Nat.le_of_not_lt h)]
    simp only [hsize, hbit]

/-- The invariant behind the taking of a block, from the lists behind it. -/
theorem HeapInv.of_charged {free free' : List (Span Nat)} (h : HeapInv r s free used)
    {m : Mem} {u : Span Nat} (hlist : FreeList r m r.last free')
    (hparts : Parts (fun x => r.first ≤ x ∧ x < r.last) free' (u :: used))
    (hblock : ∀ v ∈ free' ++ u :: used, 16 ≤ v.size ∧ v.lo % 8 = 0 ∧ v.hi % 8 = 0)
    (hsize : u.size < 2147483648) (hsame : ∀ v ∈ used, SameCell s.mem m v.lo)
    (htotal : total free = u.size + total free') :
    HeapInv r (charged s (marked m u.lo u.size) u.size) free' (u :: used) := by
  have hnode : ∀ x ∈ r.xStart :: (free'.map Span.lo ++ [r.last]), x ≠ u.lo := by
    intro x hx
    have hlast : u.hi ≤ r.last ∧ r.first ≤ u.lo := by
      have hcov : ∀ x, u.Has x → r.first ≤ x ∧ x < r.last := fun x hx =>
        (hparts.covers x).mp (Or.inr ⟨u, List.mem_cons_self, hx⟩)
      have hlt := u.lo_lt_hi
      have := (hcov (u.hi - 1) ⟨by omega, by omega⟩).2
      exact ⟨by omega, (hcov u.lo u.has_lo).1⟩
    have hstart := r.start_below
    have hb := r.bounds
    rcases List.mem_cons.mp hx with rfl | hx
    · omega
    · rcases List.mem_append.mp hx with hx | hx
      · obtain ⟨v, hv, rfl⟩ := List.mem_map.mp hx
        exact fun he => (hparts.free_apart v hv u List.mem_cons_self).not_has v.has_lo
          (he ▸ u.has_lo)
      · have := u.lo_lt_hi
        have := List.mem_singleton.mp hx
        omega
  refine ⟨h.pxEnd, h.bit, hlist.congr fun x hx => marked_same m (hnode x hx) u.size, hparts,
    hblock, ?_, ?_⟩
  · intro v hv
    rcases List.mem_cons.mp hv with rfl | hv
    · exact marked_header m hsize
    · have hne : v.lo ≠ u.lo := fun he =>
        ((List.pairwise_cons.mp hparts.apart).1 v hv).not_has (he ▸ u.has_lo) v.has_lo
      have hcell := (hsame v hv).trans (marked_same m hne u.size)
      exact ⟨hcell.1.trans (h.header v hv).1, hcell.2.trans (h.header v hv).2⟩
  · show s.xFreeBytesRemaining - u.size = total free'
    rw [h.remaining, htotal, Nat.add_sub_cancel_left]

/-- A block that is not split. -/
theorem HeapInv.take_all (h : HeapInv r s (l₁ ++ t :: l₂) used)
    (hw : w ≤ t.size) (hrest : ¬ heapMinimumBlockSize < t.size - w) :
    ∃ s', takeBlock r s (lastNode r l₁) t.lo w = some (some (t.lo + xHeapStructSize), s') ∧
      Taken r s (l₁ ++ t :: l₂) used t w s' t (l₁ ++ l₂) := by
  have hmem : t ∈ l₁ ++ t :: l₂ := List.mem_append_right l₁ List.mem_cons_self
  have hlast : t.lo ≠ lastNode r l₁ := fun he =>
    h.list.chain_last.not_mem (he ▸ List.mem_cons_self)
  have hsize : s.mem.xBlockSize t.lo = t.size := h.list.size t hmem
  have hlt := h.size_lt (List.mem_append_left used hmem)
  have hnext : s.mem.pxNextFreeBlock (lastNode r l₁) = some t.lo := h.list.next_last
  have hsame : ∀ x, x ≠ lastNode r l₁ →
      SameCell s.mem (s.mem.setNext (lastNode r l₁) (s.mem.pxNextFreeBlock t.lo)) x :=
    fun x hx => SameCell.setNext s.mem hx _
  have hused : ∀ v ∈ used, v.lo ≠ lastNode r l₁ := by
    intro v hv
    have hnot := h.not_node ⟨v, hv, v.has_lo⟩
    rcases lastNode_cases r l₁ with ⟨-, hl⟩ | ⟨l, u, rfl, hl⟩
    · exact hl ▸ hnot _ List.mem_cons_self
    · refine hl ▸ hnot u.lo (List.mem_cons_of_mem _ (List.mem_append_left _
        (List.mem_map_of_mem (List.mem_append_left _ List.mem_concat_self))))
  have hinv := h.of_charged h.list.remove h.parts.take
    (fun v hv => h.block v (by grind)) hlt (fun v hv => hsame v.lo (hused v hv))
    (total_middle l₁ l₂ t)
  refine ⟨_, ?_, hinv, rfl, hw, by unfold heapMinimumBlockSize xHeapStructSize at *; omega,
    rfl, fun x hx hf _ => ?_, fun hlt => absurd hlt hrest⟩
  · unfold takeBlock
    simp only [hnext, Mem.size_setNext, hsize, if_neg hrest]
    exact congrArg (fun s' => some (some (t.lo + xHeapStructSize), s'))
      (grantBlock_eq h.bit hsize)
  · refine (hsame x ?_).trans (marked_same _ (hf t hmem) t.size)
    rcases lastNode_cases r l₁ with ⟨-, hl⟩ | ⟨l, u, rfl, hl⟩
    · exact hl ▸ hx
    · exact hl ▸ hf u (List.mem_append_left _ List.mem_concat_self)

/-- A block that is split: its rest goes back into the free list. -/
theorem HeapInv.take_front (h : HeapInv r s (l₁ ++ t :: l₂) used) (hw₀ : 16 ≤ w)
    (hw₈ : w % 8 = 0) (hrest : heapMinimumBlockSize < t.size - w) :
    ∃ s' u free', takeBlock r s (lastNode r l₁) t.lo w = some (some (t.lo + xHeapStructSize), s') ∧
      Taken r s (l₁ ++ t :: l₂) used t w s' u free' := by
  have hmem : t ∈ l₁ ++ t :: l₂ := List.mem_append_right l₁ List.mem_cons_self
  have hsize : s.mem.xBlockSize t.lo = t.size := h.list.size t hmem
  have hlt := h.size_lt (List.mem_append_left used hmem)
  have hnext : s.mem.pxNextFreeBlock (lastNode r l₁) = some t.lo := h.list.next_last
  have hhi := t.lo_add_size
  have hbig : w + 16 < t.size := by unfold heapMinimumBlockSize xHeapStructSize at hrest; omega
  have hblock := h.block t (List.mem_append_left used hmem)
  have hsep := separated_append.mp h.list.separated
  -- the two parts of the block
  let u : Span Nat := ⟨t.lo, t.lo + w, by omega⟩
  let v : Span Nat := ⟨t.lo + w, t.hi, by omega⟩
  have hu : u.size = w := Nat.add_sub_cancel_left t.lo w
  have hv : v.size = t.size - w := by
    show t.hi - (t.lo + w) = t.size - w
    omega
  have hjoin : u.join v rfl = t := rfl
  -- the memory when the rest goes into the free list
  let m := ((s.mem.setNext (lastNode r l₁) (s.mem.pxNextFreeBlock t.lo)).setSize v.lo
    (t.size - w)).setSize t.lo w
  have hnode : ∀ x ∈ r.xStart :: ((l₁ ++ l₂).map Span.lo ++ [r.last]), x ≠ t.lo ∧ x ≠ v.lo := by
    intro x hx
    show x ≠ t.lo ∧ x ≠ t.lo + w
    have hbounds := h.bounds (List.mem_append_left used hmem)
    have hstart := h.start_lt (List.mem_append_left used hmem)
    rcases List.mem_cons.mp hx with rfl | hx
    · omega
    rcases List.mem_append.mp hx with hx | hx
    · obtain ⟨f, hf, rfl⟩ := List.mem_map.mp hx
      have hlf := f.lo_lt_hi
      rcases List.mem_append.mp hf with hf | hf
      · have := hsep.2.2 f hf t List.mem_cons_self
        omega
      · have := (separated_cons.mp hsep.2.1).1 f hf
        omega
    · have := List.mem_singleton.mp hx
      omega
  have hstart := hnode r.xStart List.mem_cons_self
  have hlist : FreeList r m r.last (l₁ ++ l₂) := h.list.remove.congr fun x hx =>
    (SameCell.setSize _ (hnode x hx).2 _).trans (SameCell.setSize _ (hnode x hx).1 _)
  have hbelow : ∀ f ∈ l₁, f.hi < v.lo := fun f hf =>
    Nat.lt_add_right w (hsep.2.2 f hf t List.mem_cons_self)
  have habove : ∀ f ∈ l₂, v.hi < f.lo := (separated_cons.mp hsep.2.1).1
  have hne : v.lo ≠ t.lo := by
    show t.lo + w ≠ t.lo
    omega
  have hmv : m.xBlockSize v.lo = v.size := by
    rw [hv]
    exact (Function.update_of_ne hne _ _).trans (Function.update_self _ _ _)
  have hbounds := h.bounds (List.mem_append_left used hmem)
  have hlen : (l₁ ++ l₂).length < r.rounds :=
    Nat.lt_of_le_of_lt (List.Sublist.append_left (List.sublist_cons_self t l₂) l₁).length_le
      (Nat.lt_of_succ_lt h.rounds)
  obtain ⟨k₁, k₂, m', hk, hb, hins, hcall⟩ := hlist.insert_spec (h := { s with mem := m })
    (s := v) h.pxEnd hmv ⟨Nat.le_trans r.bounds.1 (Nat.le_add_right_of_le hbounds.1), hbounds.2⟩
    (fun f hf => (List.mem_append.mp hf).elim (fun hf => Or.inl (Nat.le_of_lt (hbelow f hf)))
      fun hf => Or.inr (Nat.le_of_lt (habove f hf))) hlen
  have hlist' := hb.insert hins
  rw [insert_gap hbelow habove] at hlist'
  -- the cells that the call leaves alone
  have hsame : ∀ x, x ≠ r.xStart → (∀ f ∈ l₁ ++ l₂, x ≠ f.lo) → x ≠ v.lo →
      SameCell m m' x := fun x hx hf hxv =>
    hins.not_node hx (fun f hf' => hf f (hk ▸ List.mem_append_left k₂ hf')) hxv
  have hcell : ∀ x, x ≠ r.xStart → (∀ f ∈ l₁ ++ t :: l₂, x ≠ f.lo) → x ≠ v.lo →
      SameCell s.mem m' x := by
    intro x hx hf hxv
    have hlast : x ≠ lastNode r l₁ := by
      rcases lastNode_cases r l₁ with ⟨-, hl⟩ | ⟨l, f, rfl, hl⟩
      · exact hl ▸ hx
      · exact hl ▸ hf f (List.mem_append_left _ List.mem_concat_self)
    refine (((SameCell.setNext s.mem hlast _).trans (SameCell.setSize _ hxv _)).trans
      (SameCell.setSize _ (hf t hmem) _)).trans (hsame x hx (fun f hf' => hf f ?_) hxv)
    exact mem_middle.mpr (Or.inr hf')
  have htsize : m'.xBlockSize t.lo = w :=
    (hsame t.lo hstart.1.symm (fun f hf => ((hnode f.lo (List.mem_cons_of_mem _
      (List.mem_append_left _ (List.mem_map_of_mem hf)))).1).symm) hne.symm).2.trans
      (Function.update_self _ _ _)
  have hinv := h.of_charged (u := u) hlist'
    (Parts.takeFront (s := u) (t := v) rfl h.parts) ?_ (hu.symm ▸ by omega) ?_ ?_
  · refine ⟨_, u, _, ?_, hinv, rfl, hu.ge, hu.symm ▸ Nat.le_add_right w _, rfl,
      fun x hx hf hxv => ?_, fun _ => ?_⟩
    · unfold takeBlock
      simp only [hnext, Mem.size_setNext, hsize, if_pos hrest]
      show (prvInsertBlockIntoFreeList r { s with mem := m } v.lo).bind _ = _
      rw [hcall, hu]
      exact congrArg (fun s' => some (some (t.lo + xHeapStructSize), s'))
        (grantBlock_eq h.bit htsize)
    · exact (hcell x hx hf (hxv hrest)).trans (marked_same m' (hf t hmem) u.size)
    · have hlv : FreeList r m' r.last (l₁ ++ [v] ++ l₂) := by
        rw [List.append_assoc]
        exact hlist'
      have hlt : FreeList r s.mem r.last (l₁ ++ [t] ++ l₂) := by
        rw [List.append_assoc]
        exact h.list
      have hnv := hlv.next_last
      have hnt := hlt.next_last
      rw [lastNode_snoc] at hnv hnt
      have hmark := marked_same m' hne u.size
      exact ⟨hmark.1.trans (hnv.trans hnt.symm), hmark.2.trans
        ((hlist'.size v (List.mem_append_right l₁ List.mem_cons_self)).trans hv)⟩
  · intro x hx
    rcases List.mem_append.mp hx with hx | hx
    · rcases mem_middle.mp hx with rfl | hx
      · exact ⟨by omega, by show (t.lo + w) % 8 = 0; omega, hblock.2.2⟩
      · exact h.block x (List.mem_append_left used (mem_middle.mpr (Or.inr hx)))
    · rcases List.mem_cons.mp hx with rfl | hx
      · exact ⟨by omega, hblock.2.1, by show (t.lo + w) % 8 = 0; omega⟩
      · exact h.block x (List.mem_append_right _ hx)
  · intro x hx
    have hnot := h.not_node ⟨x, hx, x.has_lo⟩
    refine hcell x.lo (hnot _ List.mem_cons_self) (fun f hf => hnot f.lo (List.mem_cons_of_mem _
      (List.mem_append_left _ (List.mem_map_of_mem hf)))) fun he => ?_
    have hxlo : x.lo = t.lo + w := he
    exact (h.parts.free_apart t hmem x hx).not_has ⟨by omega, by omega⟩ x.has_lo
  · rw [total_middle, total_middle, hu, hv]
    omega

theorem HeapInv.take (h : HeapInv r s (l₁ ++ t :: l₂) used) (hw₀ : 16 ≤ w) (hw₈ : w % 8 = 0)
    (hw : w ≤ t.size) :
    ∃ s' u free', takeBlock r s (lastNode r l₁) t.lo w = some (some (t.lo + xHeapStructSize), s') ∧
      Taken r s (l₁ ++ t :: l₂) used t w s' u free' := by
  by_cases hrest : heapMinimumBlockSize < t.size - w
  · exact h.take_front hw₀ hw₈ hrest
  · obtain ⟨s', hcall, htaken⟩ := h.take_all hw hrest
    exact ⟨s', t, l₁ ++ l₂, hcall, htaken⟩

end Take

/-! ## The calls that allocate -/

section Malloc

variable {r : Region} {s : Heap} {free used : List (Span Nat)}

/-- Where the search ends: behind all free blocks, or at the first that is large enough. -/
theorem first_large (free : List (Span Nat)) (w : Nat) :
    (∀ t ∈ free, t.size < w) ∨
      ∃ l₁ t l₂, free = l₁ ++ t :: l₂ ∧ (∀ u ∈ l₁, u.size < w) ∧ w ≤ t.size := by
  cases hfind : free.find? fun t => decide (w ≤ t.size) with
  | none =>
    refine Or.inl fun t ht => ?_
    have hsmall := List.find?_eq_none.mp hfind t ht
    exact Nat.lt_of_not_le fun hle => hsmall (decide_eq_true hle)
  | some t =>
    obtain ⟨hlarge, l₁, l₂, hsplit, hsmall⟩ := List.find?_eq_some_iff_append.mp hfind
    refine Or.inr ⟨l₁, t, l₂, hsplit, fun u hu => ?_, of_decide_eq_true hlarge⟩
    have hu := hsmall u hu
    exact Nat.lt_of_not_le fun hle => absurd (decide_eq_true hle) (by simpa using hu)

/-- A request of `2 ^ 31` bytes or more is turned down. -/
theorem HeapInv.malloc_huge (h : HeapInv r s free used) {n : Nat} (hn : n < 4294967296)
    (hhuge : 2147483648 ≤ n) : mallocWithoutLock r s n = some (none, s) := by
  unfold mallocWithoutLock
  rw [h.pxEnd]
  simp only [reduceCtorEq, if_false]
  rw [h.bit, if_neg fun hz => absurd ((and_bit_eq_zero hn).mp hz) hhuge.not_gt]
  rfl

theorem HeapInv.malloc_none (h : HeapInv r s free used) {n : Nat} (hn₀ : 0 < n)
    (hn : n < 2147483648) (hsmall : ∀ t ∈ free, t.size < wantedSize n) :
    mallocWithoutLock r s n = some (none, s) := by
  have hw : 0 < wantedSize n := by
    rw [wantedSize_eq hn₀]
    omega
  unfold mallocWithoutLock
  rw [h.pxEnd]
  simp only [reduceCtorEq, if_false]
  rw [h.bit, if_pos (and_bit_of_lt hn)]
  split
  · obtain ⟨k, hk⟩ := Nat.exists_eq_add_of_lt (Nat.lt_of_succ_lt h.rounds)
    rw [hk, Nat.add_assoc, h.list.search_failed hsmall]
    exact if_neg fun hne => hne h.pxEnd.symm
  · rfl

theorem HeapInv.malloc_some {l₁ l₂ : List (Span Nat)} {t : Span Nat}
    (h : HeapInv r s (l₁ ++ t :: l₂) used) {n : Nat} (hn₀ : 0 < n) (hn : n < 2147483648)
    (hsmall : ∀ u ∈ l₁, u.size < wantedSize n) (hlarge : wantedSize n ≤ t.size) :
    ∃ s' u free', mallocWithoutLock r s n = some (some (t.lo + xHeapStructSize), s') ∧
      Taken r s (l₁ ++ t :: l₂) used t (wantedSize n) s' u free' := by
  have hw₀ : 16 ≤ wantedSize n := by
    rw [wantedSize_eq hn₀]
    omega
  have hw₈ : wantedSize n % 8 = 0 := by
    rw [wantedSize_eq hn₀]
    exact Nat.mul_mod_left _ 8
  have htotal : t.size ≤ s.xFreeBytesRemaining :=
    h.remaining.symm ▸ size_le_total (List.mem_append_right l₁ List.mem_cons_self)
  obtain ⟨s', u, free', hcall, htaken⟩ := h.take hw₀ hw₈ hlarge
  refine ⟨s', u, free', ?_, htaken⟩
  have hlen : l₁.length < r.rounds := by
    have hrounds := h.rounds
    rw [List.length_append] at hrounds
    omega
  obtain ⟨k, hk⟩ := Nat.exists_eq_add_of_lt hlen
  have hend : some t.lo ≠ s.pxEnd := fun he =>
    h.list.ne_end (List.mem_append_right l₁ List.mem_cons_self)
      (Option.some.inj (he.trans h.pxEnd))
  unfold mallocWithoutLock
  rw [if_neg (fun hnone => absurd (h.pxEnd.symm.trans hnone) (Option.some_ne_none _))]
  dsimp only
  rw [h.bit, if_pos (and_bit_of_lt hn),
    if_pos ⟨Nat.lt_of_lt_of_le (by decide) hw₀, Nat.le_trans hlarge htotal⟩, hk, Nat.add_assoc,
    h.list.search_found hsmall hlarge]
  show (if some t.lo ≠ s.pxEnd then takeBlock r s (lastNode r l₁) t.lo (wantedSize n) else _) = _
  rw [if_pos hend, hcall]

end Malloc

end ArduinoT2.Kernel
