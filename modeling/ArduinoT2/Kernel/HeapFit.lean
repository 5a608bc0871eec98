import ArduinoT2.Kernel.HeapRuns

/-
  Which memory the calls of heap_4.c find, in every state that a legal run reaches.

  `malloc_first_fit`: an allocation gets the lowest place where its block fits between the blocks
  in use, and NULL where there is none; fragments that lie side by side count as one place.
  `free_list_of_blocks`: the free list is told by the blocks in use, whatever the calls that have
  led there. `realloc_fails_clean` and `realloc_contents` are the two outcomes of a
  `pvPortRealloc`.
-/

namespace ArduinoT2.Kernel

open Spans StepSys

/-- The bytes from the header of a block held up to its end. -/
def blockOf (s : Heap) (b : Held) : Nat × Nat :=
  (b.ptr - xHeapStructSize,
    b.ptr - xHeapStructSize + s.sizeBits (s.mem.xBlockSize (b.ptr - xHeapStructSize)))

/-- A block of `k` bytes at `a` would lie in the region and meet no block in use. -/
def Fits (r : Region) (w : World) (a k : Nat) : Prop :=
  r.first ≤ a ∧ a + k ≤ r.last ∧
    ∀ b ∈ w.held, a + k ≤ (blockOf w.heap b).1 ∨ (blockOf w.heap b).2 ≤ a

/-- The blocks of the free list: where they start and where they end. -/
def freeBlocks (m : Mem) (pxEnd : Option Nat) : Nat → Option Nat → List (Nat × Nat)
  | rounds + 1, some a =>
    if some a = pxEnd then []
    else (a, a + m.xBlockSize a) :: freeBlocks m pxEnd rounds (m.pxNextFreeBlock a)
  | _, _ => []

/-- The free list of the heap. -/
def freeList (r : Region) (s : Heap) : List (Nat × Nat) :=
  freeBlocks s.mem s.pxEnd r.rounds (s.mem.pxNextFreeBlock r.xStart)

section Fit

variable {cpy : OsMemcpy} {r : Region} {w : World} {s : Heap} {free used : List (Span Nat)}

theorem HeldAt.block {K : Prop} {b : Held} {u : Span Nat} (h : HeapInv r s free used)
    (hu : u ∈ used) (hb : HeldAt K s.mem b u) : blockOf s b = (u.lo, u.hi) := by
  unfold blockOf
  rw [hb.ptr, Nat.add_sub_cancel, (h.header u hu).2,
    sizeBits_add h.bit (h.size_lt (List.mem_append_right free hu)), u.lo_add_size]

/-- A block fits in a place exactly if the place is free. -/
theorem fits_iff {K : Prop} (h : HeapInv r s free used)
    (hheld : List.Forall₂ (HeldAt K s.mem) w.held used) (hw : w.heap = s ∨ w.held = [])
    {a k : Nat} (hk : 0 < k) : Fits r w a k ↔ ∃ t ∈ free, t.lo ≤ a ∧ a + k ≤ t.hi := by
  have hblock : ∀ b ∈ w.held, ∀ u ∈ used, HeldAt K s.mem b u →
      blockOf w.heap b = (u.lo, u.hi) := by
    intro b hb u hu hbu
    rcases hw with rfl | hnone
    · exact hbu.block h hu
    · exact absurd hb (hnone ▸ List.not_mem_nil)
  constructor
  · rintro ⟨hlo, hhi, hblocks⟩
    refine h.list.separated.exists_of_range ⟨a, a + k, Nat.lt_add_of_pos_right hk⟩ fun x hx => ?_
    have hx₁ : a ≤ x := hx.1
    have hx₂ : x < a + k := hx.2
    refine ((h.parts.covers x).mpr ⟨Nat.le_trans hlo hx₁, Nat.lt_of_lt_of_le hx₂ hhi⟩).resolve_right
      ?_
    rintro ⟨u, hu, hu₁, hu₂⟩
    obtain ⟨b, hb, hbu⟩ := exists_of_forall₂ hheld.flip hu
    have hside := hblocks b hb
    rw [hblock b hb u hu hbu] at hside
    omega
  · rintro ⟨t, ht, hlo, hhi⟩
    have hbounds := h.bounds (List.mem_append_left used ht)
    refine ⟨Nat.le_trans hbounds.1 hlo, Nat.le_trans hhi hbounds.2, fun b hb => ?_⟩
    obtain ⟨u, hu, hbu⟩ := exists_of_forall₂ hheld hb
    rw [hblock b hb u hu hbu]
    rcases h.parts.free_apart t ht u hu with hap | hap
    · exact Or.inr (Nat.le_trans hap hlo)
    · exact Or.inl (Nat.le_trans hhi hap)

/-- In every state of a legal run, an allocation gets the lowest place where its block fits between
    the blocks in use, and NULL where there is none. -/
theorem malloc_first_fit (m : Mem) (cs : List HeapCall) (hlegal : LegalRun cpy r m cs)
    (n : UInt32) : ∃ w, worldAfter cpy r m cs = some w ∧
    ∃ pv s', pvPortMalloc r w.heap n = some (pv, s') ∧
      (pv = none ↔ 2147483648 ≤ mallocBytes n ∨
        ∀ a, ¬ Fits r w a (wantedSize (mallocBytes n))) ∧
      ∀ p, pv = some p → ∃ a, p = a + xHeapStructSize ∧
        Fits r w a (wantedSize (mallocBytes n)) ∧
        ∀ a', Fits r w a' (wantedSize (mallocBytes n)) → a ≤ a' := by
  obtain ⟨w, hw, hinv⟩ := worldInv_after (K := False) hlegal fun hK => hK.elim
  obtain ⟨s, free, used, hinv, hheld, hstart, hsame⟩ := hinv.started
  have hpos := mallocBytes_pos n
  have hk : 0 < wantedSize (mallocBytes n) :=
    Nat.lt_of_lt_of_le (Nat.lt_add_right _ hpos) (wantedSize_ge hpos)
  have hcall : pvPortMalloc r w.heap n = mallocWithoutLock r s (mallocBytes n) := hsame _
  refine ⟨w, hw, ?_⟩
  rcases hinv.malloc_cases hpos (mallocBytes_lt n) with
    ⟨hnone, hsmall⟩ | ⟨t, ht, s', u, free', hsome, htaken, hlt, hlarge, hfirst⟩
  · refine ⟨none, s, hcall.trans hnone, iff_of_true rfl ?_, fun p hp => by cases hp⟩
    rcases Nat.lt_or_ge (mallocBytes n) 2147483648 with hlt | hge
    · refine Or.inr fun a hfits => ?_
      obtain ⟨t, ht, hlo, hhi⟩ := (fits_iff hinv hheld hstart hk).mp hfits
      have hend := t.lo_add_size
      have hsize := hsmall hlt t ht
      omega
    · exact Or.inl hge
  · have hend := t.lo_add_size
    have hfits : Fits r w t.lo (wantedSize (mallocBytes n)) :=
      (fits_iff hinv hheld hstart hk).mpr ⟨t, ht, Nat.le_refl _, by omega⟩
    refine ⟨_, s', hcall.trans hsome, iff_of_false (Option.some_ne_none _) ?_, fun p hp => ?_⟩
    · rintro (hge | hno)
      · exact absurd hlt hge.not_gt
      · exact hno _ hfits
    · obtain rfl := Option.some.inj hp
      refine ⟨t.lo, by rw [htaken.lo], hfits, fun a' ha' => ?_⟩
      obtain ⟨f, hf, hlo, hhi⟩ := (fits_iff hinv hheld hstart hk).mp ha'
      have hfend := f.lo_add_size
      exact Nat.le_trans (hfirst f hf (by omega)) hlo

theorem malloc_first_fit_small : ∃ w,
    worldAfter forwardMemcpy smallRegion zeroMem smallRun = some w ∧
      ∃ pv s', pvPortMalloc smallRegion w.heap 100 = some (pv, s') ∧
        (pv = none ↔ 2147483648 ≤ mallocBytes 100 ∨
          ∀ a, ¬ Fits smallRegion w a (wantedSize (mallocBytes 100))) ∧
        ∀ p, pv = some p → ∃ a, p = a + xHeapStructSize ∧
          Fits smallRegion w a (wantedSize (mallocBytes 100)) ∧
          ∀ a', Fits smallRegion w a' (wantedSize (mallocBytes 100)) → a ≤ a' :=
  malloc_first_fit _ smallRun smallRun_legal 100

end Fit

/-! ## The free list -/

section FreeList

variable {cpy : OsMemcpy} {r : Region} {w : World} {s : Heap} {free used : List (Span Nat)}

theorem freeBlocks_eq {m : Mem} {p : Nat} {l : List (Span Nat)}
    (hchain : NextList.Chain m.pxNextFreeBlock p (l.map Span.lo ++ [r.last]))
    (hsize : ∀ t ∈ l, m.xBlockSize t.lo = t.size) (hend : ∀ t ∈ l, t.lo ≠ r.last) (k : Nat) :
    freeBlocks m (some r.last) (l.length + 1 + k) (m.pxNextFreeBlock p) =
      l.map fun t => (t.lo, t.hi) := by
  induction l generalizing p with
  | nil =>
    have hp : m.pxNextFreeBlock p = some r.last := hchain.head
    rw [hp, List.length_nil, Nat.zero_add, Nat.add_comm, freeBlocks, if_pos rfl]
    rfl
  | cons t l ih =>
    obtain ⟨hp, hrest⟩ := NextList.chain_cons.mp hchain
    obtain ⟨ht, hsize⟩ := List.forall_mem_cons.mp hsize
    obtain ⟨hte, hend⟩ := List.forall_mem_cons.mp hend
    rw [hp, List.length_cons, show l.length + 1 + 1 + k = (l.length + 1 + k) + 1 by omega,
      freeBlocks, if_neg fun he => hte (Option.some.inj he), ih hrest hsize hend, ht,
      t.lo_add_size, List.map_cons]

theorem HeapInv.freeList_eq (h : HeapInv r s free used) :
    freeList r s = free.map fun t => (t.lo, t.hi) := by
  obtain ⟨k, hk⟩ := Nat.exists_eq_add_of_lt (Nat.lt_of_succ_lt h.rounds)
  unfold freeList
  rw [h.pxEnd, hk, Nat.add_right_comm]
  exact freeBlocks_eq h.list.chain h.list.size (fun t ht => h.list.ne_end ht) k

/-- Once the heap is initialised, its blocks in use are those held. -/
theorem WorldInv.inited {K : Prop} (h : WorldInv K r w) (hstart : w.heap.pxEnd ≠ none) :
    ∃ free used, HeapInv r w.heap free used ∧ List.Forall₂ (HeldAt K w.heap.mem) w.held used := by
  rcases h with ⟨⟨m, hm⟩, -⟩ | hinv
  · exact absurd (hm ▸ rfl) hstart
  · exact hinv

theorem mem_used_iff {K : Prop} (h : HeapInv r w.heap free used)
    (hheld : List.Forall₂ (HeldAt K w.heap.mem) w.held used) (u : Span Nat) :
    u ∈ used ↔ (u.lo, u.hi) ∈ w.held.map (blockOf w.heap) := by
  constructor
  · intro hu
    obtain ⟨b, hb, hbu⟩ := exists_of_forall₂ hheld.flip hu
    exact List.mem_map.mpr ⟨b, hb, HeldAt.block h hu hbu⟩
  · intro hu
    obtain ⟨b, hb, hblock⟩ := List.mem_map.mp hu
    obtain ⟨v, hv, hbv⟩ := exists_of_forall₂ hheld hb
    have huv := (hbv.block h hv).symm.trans hblock
    obtain rfl : v = u := Span.ext (congrArg Prod.fst huv) (congrArg Prod.snd huv)
    exact hv

/-- The free list is told by the blocks in use: two runs that end with the same blocks in use end
    with the same free list, whatever was allocated, split, given back and joined before. -/
theorem free_list_of_blocks {m m' : Mem} {cs cs' : List HeapCall} (hlegal : LegalRun cpy r m cs)
    (hlegal' : LegalRun cpy r m' cs') {w w' : World} (hw : worldAfter cpy r m cs = some w)
    (hw' : worldAfter cpy r m' cs' = some w') (hstart : w.heap.pxEnd ≠ none)
    (hstart' : w'.heap.pxEnd ≠ none)
    (hblocks : ∀ x, x ∈ w.held.map (blockOf w.heap) ↔ x ∈ w'.held.map (blockOf w'.heap)) :
    freeList r w.heap = freeList r w'.heap ∧
      w.heap.xFreeBytesRemaining = w'.heap.xFreeBytesRemaining := by
  obtain ⟨v, hv, hinv⟩ := worldInv_after (K := False) hlegal fun hK => hK.elim
  obtain ⟨v', hv', hinv'⟩ := worldInv_after (K := False) hlegal' fun hK => hK.elim
  obtain rfl : v = w := Option.some.inj (hv.symm.trans hw)
  obtain rfl : v' = w' := Option.some.inj (hv'.symm.trans hw')
  obtain ⟨free, used, h, hheld⟩ := hinv.inited hstart
  obtain ⟨free', used', h', hheld'⟩ := hinv'.inited hstart'
  have hfree : free = free' := h.free_unique h' fun u => by
    rw [mem_used_iff h hheld, mem_used_iff h' hheld', hblocks]
  rw [h.freeList_eq, h'.freeList_eq, h.remaining, h'.remaining, hfree]
  exact ⟨rfl, rfl⟩

/-- The same blocks in use with and without a third one that was given back. -/
theorem free_list_of_blocks_small : ∃ w w',
    worldAfter forwardMemcpy smallRegion zeroMem
        [.malloc 20, .malloc 30, .free (some 1016)] = some w ∧
      worldAfter forwardMemcpy smallRegion zeroMem
        [.malloc 20, .malloc 30, .malloc 5, .free (some 1016), .free (some 1088)] = some w' ∧
      freeList smallRegion w.heap = freeList smallRegion w'.heap ∧
      w.heap.xFreeBytesRemaining = w'.heap.xFreeBytesRemaining := by
  refine ⟨_, _, rfl, rfl, @free_list_of_blocks forwardMemcpy smallRegion zeroMem zeroMem
    [.malloc 20, .malloc 30, .free (some 1016)]
    [.malloc 20, .malloc 30, .malloc 5, .free (some 1016), .free (some 1088)]
    ?_ ?_ _ _ rfl rfl ?_ ?_ ?_⟩
  · refine ⟨fun w _ => trivial, fun w _ => trivial, ?_, trivial⟩
    rintro w ⟨⟩ p ⟨⟩
    exact ⟨_, List.mem_cons_of_mem _ List.mem_cons_self, rfl⟩
  · refine ⟨fun w _ => trivial, fun w _ => trivial, fun w _ => trivial, ?_, ?_, trivial⟩
    · rintro w ⟨⟩ p ⟨⟩
      exact ⟨_, List.mem_cons_of_mem _ (List.mem_cons_of_mem _ List.mem_cons_self), rfl⟩
    · rintro w ⟨⟩ p ⟨⟩
      exact ⟨_, List.mem_cons_self, rfl⟩
  · exact Option.some_ne_none _
  · exact Option.some_ne_none _
  · exact fun x => Iff.rfl

end FreeList

/-! ## Reallocation -/

section Realloc

variable {cpy : OsMemcpy} {r : Region} {w : World}

theorem WorldInv.realloc_of {K : Prop} (h : WorldInv K r w) {b : Held} (hb : b ∈ w.held) :
    ∃ free u rest, HeapInv r w.heap free (u :: rest) ∧ HeldAt K w.heap.mem b u := by
  rcases h with ⟨-, hnone⟩ | ⟨free, used, hinv, hheld⟩
  · exact absurd hb (hnone ▸ List.not_mem_nil)
  · obtain ⟨u, hu, hbu⟩ := exists_of_forall₂ hheld hb
    obtain ⟨l₁, l₂, rfl⟩ := List.append_of_mem hu
    exact ⟨free, u, l₁ ++ l₂, hinv.perm List.perm_middle, hbu⟩

/-- In every state of a legal run, a `pvPortRealloc` of a block held comes to its end, and one that
    returns NULL leaves the heap as it was, to the last cell. -/
theorem realloc_fails_clean (m : Mem) (cs : List HeapCall) (hlegal : LegalRun cpy r m cs) :
    ∃ w, worldAfter cpy r m cs = some w ∧ ∀ b ∈ w.held, ∀ n, ∃ pv s',
      pvPortRealloc cpy r w.heap (some b.ptr) n = some (pv, s') ∧ (pv = none → s' = w.heap) := by
  obtain ⟨w, hw, hinv⟩ := worldInv_after (K := False) hlegal fun hK => hK.elim
  refine ⟨w, hw, fun b hb n => ?_⟩
  obtain ⟨free, u, rest, h, hbu⟩ := hinv.realloc_of hb
  obtain ⟨result, hresult⟩ : ∃ result, pvPortRealloc cpy r w.heap (some b.ptr) n = result :=
    ⟨_, rfl⟩
  rw [hresult]
  rw [hbu.ptr] at hresult
  cases h.reallocated hresult with
  | enough hle => exact ⟨_, _, rfl, fun _ => rfl⟩
  | failed => exact ⟨_, _, rfl, fun _ => rfl⟩
  | moved => exact ⟨_, _, rfl, fun hnone => absurd hnone (Option.some_ne_none _)⟩

/-- In every state of a legal run, a `pvPortRealloc` that succeeds, where `os_memcpy` brings the
    contents to the new place, has all cells of the block there if its split does not lie in the
    block. If it does, the header of the rest behind the new block was put into one of the cells
    before they were copied, and all but that one are kept. -/
theorem realloc_contents (m : Mem) (cs : List HeapCall) (hlegal : LegalRun cpy r m cs) :
    ∃ w, worldAfter cpy r m cs = some w ∧ ∀ b ∈ w.held, ∀ n p s',
      pvPortRealloc cpy r w.heap (some b.ptr) n = some (some p, s') →
      cpy.Brings p b.ptr (datasize w.heap b.ptr) →
      (splitsContents r w.heap b.ptr n = false →
        ∀ x, b.ptr + 8 * x < (blockOf w.heap b).2 →
          s'.mem.pxNextFreeBlock (p + 8 * x) = w.heap.mem.pxNextFreeBlock (b.ptr + 8 * x) ∧
            s'.mem.xBlockSize (p + 8 * x) = w.heap.mem.xBlockSize (b.ptr + 8 * x)) ∧
      (splitsContents r w.heap b.ptr n = true →
        ∃ i, b.ptr + 8 * i < (blockOf w.heap b).2 ∧
          b.ptr + 8 * i = p - xHeapStructSize + wantedSize n.toNat ∧
          s'.mem.pxNextFreeBlock (p + 8 * i) = s'.mem.pxNextFreeBlock (b.ptr + 8 * i) ∧
          s'.mem.xBlockSize (p + 8 * i) = s'.mem.xBlockSize (b.ptr + 8 * i) ∧
          ∀ x, x ≠ i → b.ptr + 8 * x < (blockOf w.heap b).2 →
            s'.mem.pxNextFreeBlock (p + 8 * x) = w.heap.mem.pxNextFreeBlock (b.ptr + 8 * x) ∧
              s'.mem.xBlockSize (p + 8 * x) = w.heap.mem.xBlockSize (b.ptr + 8 * x)) := by
  obtain ⟨w, hw, hinv⟩ := worldInv_after (K := False) hlegal fun hK => hK.elim
  refine ⟨w, hw, fun b hb n p s' hcall hbrings => ?_⟩
  obtain ⟨free, u, rest, h, hbu⟩ := hinv.realloc_of hb
  have hblock := HeldAt.block h List.mem_cons_self hbu
  have hptr := hbu.ptr
  have hublock := h.block u (List.mem_append_right free List.mem_cons_self)
  have huend := u.lo_add_size
  rw [hptr] at hcall hbrings ⊢
  rw [h.datasize_eq] at hbrings
  rw [hblock]
  -- the cells of the block
  have hcells : ∀ x, u.lo + xHeapStructSize + 8 * x < u.hi ↔ x < (u.size - 8) / 8 := fun x => by
    unfold xHeapStructSize
    omega
  simp only [hcells]
  cases h.reallocated hcall with
  | enough hle =>
    refine ⟨fun _ x _ => ⟨rfl, rfl⟩, fun hyes => ?_⟩
    have hno := splitsContents_keep h hle
    rw [hyes] at hno
    cases hno
  | moved hgrow hfree hsmall hlarge hmoved =>
    have hiff := splitsContents_iff h hgrow hfree hsmall hlarge
    rw [← hmoved.lo] at hbrings
    have hkept := hmoved.kept hbrings
    have hlost := hmoved.lost hbrings
    rw [hmoved.lo] at hkept hlost
    constructor
    · intro hno x hx
      refine hkept x hx fun hat => ?_
      rw [hiff.mpr ⟨x, hx, hat⟩] at hno
      cases hno
    · intro hyes
      obtain ⟨i, hi, hat⟩ := hiff.mp hyes
      have hcopied := hlost i hi hat
      have hplace := hat.2
      rw [hplace] at hcopied
      refine ⟨i, hi, ?_, hcopied.1, hcopied.2, fun x hxi hx => hkept x hx fun hxat => hxi ?_⟩
      · rw [Nat.add_sub_cancel, hplace]
      · have hxplace := hxat.2
        omega

theorem realloc_fails_clean_small : ∃ w,
    worldAfter forwardMemcpy smallRegion zeroMem smallRun = some w ∧
      ∀ b ∈ w.held, ∀ n, ∃ pv s',
        pvPortRealloc forwardMemcpy smallRegion w.heap (some b.ptr) n = some (pv, s') ∧
          (pv = none → s' = w.heap) :=
  realloc_fails_clean _ smallRun smallRun_legal

/-- A block that was joined with the one before it and is split inside its old contents. -/
def splitRun : List HeapCall :=
  [.malloc 20, .malloc 80, .store 1048 5 (some 7) 9, .free (some 1016)]

theorem splitRun_legal : LegalRun forwardMemcpy smallRegion zeroMem splitRun := by
  refine ⟨fun w _ => trivial, fun w _ => trivial, ?_, ?_, trivial⟩
  · rintro w ⟨⟩
    exact ⟨_, rfl, by decide⟩
  · rintro w ⟨⟩ p ⟨⟩
    exact ⟨_, List.mem_cons_of_mem _ List.mem_cons_self, rfl⟩

theorem realloc_contents_small : ∃ w,
    worldAfter forwardMemcpy smallRegion zeroMem splitRun = some w ∧ ∀ b ∈ w.held, ∀ n p s',
      pvPortRealloc forwardMemcpy smallRegion w.heap (some b.ptr) n = some (some p, s') →
      forwardMemcpy.Brings p b.ptr (datasize w.heap b.ptr) →
      (splitsContents smallRegion w.heap b.ptr n = false →
        ∀ x, b.ptr + 8 * x < (blockOf w.heap b).2 →
          s'.mem.pxNextFreeBlock (p + 8 * x) = w.heap.mem.pxNextFreeBlock (b.ptr + 8 * x) ∧
            s'.mem.xBlockSize (p + 8 * x) = w.heap.mem.xBlockSize (b.ptr + 8 * x)) ∧
      (splitsContents smallRegion w.heap b.ptr n = true →
        ∃ i, b.ptr + 8 * i < (blockOf w.heap b).2 ∧
          b.ptr + 8 * i = p - xHeapStructSize + wantedSize n.toNat ∧
          s'.mem.pxNextFreeBlock (p + 8 * i) = s'.mem.pxNextFreeBlock (b.ptr + 8 * i) ∧
          s'.mem.xBlockSize (p + 8 * i) = s'.mem.xBlockSize (b.ptr + 8 * i) ∧
          ∀ x, x ≠ i → b.ptr + 8 * x < (blockOf w.heap b).2 →
            s'.mem.pxNextFreeBlock (p + 8 * x) = w.heap.mem.pxNextFreeBlock (b.ptr + 8 * x) ∧
              s'.mem.xBlockSize (p + 8 * x) = w.heap.mem.xBlockSize (b.ptr + 8 * x)) :=
  realloc_contents zeroMem splitRun splitRun_legal

/-- The application of `splitRun` loses contents when it asks for 88 bytes. -/
example : (worldAfter forwardMemcpy smallRegion zeroMem splitRun).map (fun w =>
    splitsContents smallRegion w.heap 1048 88) = some true := by decide

end Realloc

end ArduinoT2.Kernel
