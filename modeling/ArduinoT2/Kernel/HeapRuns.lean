import ArduinoT2.Kernel.Realloc
import ArduinoT2.Lib.StepSys

/-
  Runs of the application over the heap.

  The application holds the blocks it was given and knows what it has stored in them. A run is a
  list of calls and stores from the start of the system on; it is legal when the application
  gives back and stores to what it holds (`Legal`). `WorldInv` says that every block held is a
  block in use whose cells have what was stored last, `WorldInv.step` that every call keeps this,
  and `heap_runs` that so does every run.

  A `pvPortRealloc` whose block is joined with the free one before it moves the contents down, onto
  themselves where that one is smaller than they are: what `memcpy` does there is open, and only
  one that copies down brings them over (`OsMemcpy.Brings`). It can also put the header of a rest
  into the contents before they are copied; `splitsContents` tells when. `Keeps` shuts out both,
  and `realloc_contents` tells what is left of the contents.
-/

namespace ArduinoT2.Kernel

open Spans StepSys

/-! ## The application -/

/-- A block that the application holds: its address, the bytes that were asked for, and what was
    stored last in each of its cells. -/
structure Held where
  ptr : Nat
  asked : Nat
  known : Nat → Option (Option Nat × Nat)

/-- The heap and the application. -/
structure World where
  heap : Heap
  held : List Held

/-- A call, or a store to cell `i` of a block. -/
inductive HeapCall where
  | malloc (n : UInt32)
  | free (pv : Option Nat)
  | realloc (pv : Option Nat) (n : UInt32)
  | store (pv i : Nat) (next : Option Nat) (size : Nat)

/-- The variables before the first call: only `pxEnd` and the bit are read before they are set. -/
def bootHeap (m : Mem) : Heap := ⟨m, none, 0, 0, 0⟩

def bootWorld (m : Mem) : World := ⟨bootHeap m, []⟩

/-- The block at `pv` is no longer held. -/
def dropHeld (held : List Held) (pv : Nat) : List Held := held.eraseP fun b => b.ptr = pv

def findHeld (held : List Held) (pv : Nat) : Option Held := held.find? fun b => b.ptr = pv

/-- What the application knows of a block behind a `pvPortRealloc` to `n` bytes. -/
def Held.resized (b : Held) (ptr n : Nat) : Held :=
  ⟨ptr, n, fun i => if 8 * i < n then b.known i else none⟩

/-- A call. -/
def heapCall (cpy : OsMemcpy) (r : Region) (w : World) : HeapCall → Option World
  | .malloc n => (pvPortMalloc r w.heap n).map fun result =>
    match result.1 with
    | some pv => ⟨result.2, ⟨pv, n.toNat, fun _ => none⟩ :: w.held⟩
    | none => ⟨result.2, w.held⟩
  | .free pv => (vPortFree r w.heap pv).map fun heap =>
    match pv with
    | some pv => ⟨heap, dropHeld w.held pv⟩
    | none => ⟨heap, w.held⟩
  | .realloc pv n => (pvPortRealloc cpy r w.heap pv n).map fun result =>
    match result.1, pv.bind (findHeld w.held) with
    | some pv', some b => ⟨result.2, b.resized pv' n.toNat :: dropHeld w.held b.ptr⟩
    | some pv', none => ⟨result.2, ⟨pv', n.toNat, fun _ => none⟩ :: w.held⟩
    | none, _ => ⟨result.2, w.held⟩
  | .store pv i next size =>
    let m := (w.heap.mem.setNext (pv + 8 * i) next).setSize (pv + 8 * i) size
    match findHeld w.held pv with
    | some b => some ⟨{ w.heap with mem := m },
        { b with known := Function.update b.known i (some (next, size)) } :: dropHeld w.held pv⟩
    | none => none

/-- The application gives back what it holds and stores to cells that it asked for. -/
def Legal (w : World) : HeapCall → Prop
  | .malloc _ => True
  | .free pv => ∀ p, pv = some p → ∃ b ∈ w.held, b.ptr = p
  | .realloc pv _ => ∀ p, pv = some p → ∃ b ∈ w.held, b.ptr = p
  | .store pv i _ _ => ∃ b, findHeld w.held pv = some b ∧ 8 * i < b.asked

/-- The block that `malloc_without_lock` finds for `pvPortRealloc` is split inside the old contents
    of the block. -/
def splitsContents (r : Region) (s : Heap) (pv : Nat) (n : UInt32) : Bool :=
  let pxLink := pv - xHeapStructSize
  let presize := s.sizeBits (s.mem.xBlockSize pxLink)
  let w := wantedSize n.toNat
  let s := { s with
    mem := s.mem.setSize pxLink presize
    xFreeBytesRemaining := s.xFreeBytesRemaining + presize }
  match prvInsertBlockIntoFreeList r s pxLink with
  | none => false
  | some s =>
    match searchBlock s.mem w r.rounds r.xStart with
    | none => false
    | some (_, pxBlock) =>
      presize - xHeapStructSize < n.toNat &&
        heapMinimumBlockSize < s.mem.xBlockSize pxBlock - w &&
        pv ≤ pxBlock + w && pxBlock + w < pxLink + presize

/-- `datasize` of `pvPortRealloc`: the bytes of a block behind its header. -/
def datasize (s : Heap) (pv : Nat) : Nat :=
  s.sizeBits (s.mem.xBlockSize (pv - xHeapStructSize)) - xHeapStructSize

/-- No `pvPortRealloc` that goes through the allocator splits the contents it is to keep, and
    `os_memcpy` brings them to the new block. -/
def Keeps (cpy : OsMemcpy) (r : Region) (w : World) : HeapCall → Prop
  | .realloc (some pv) n => splitsContents r w.heap pv n = false ∧
    ∀ pv' s', pvPortRealloc cpy r w.heap (some pv) n = some (some pv', s') →
      cpy.Brings pv' pv (datasize w.heap pv)
  | _ => True

/-! ## The invariant -/

/-- The block held is the block in use, and where `K` holds, its cells have what was stored
    last. -/
structure HeldAt (K : Prop) (m : Mem) (b : Held) (u : Span Nat) : Prop where
  ptr : b.ptr = u.lo + xHeapStructSize
  asked : b.asked + xHeapStructSize ≤ u.size
  known : K → ∀ i v, b.known i = some v → 8 * i < b.asked ∧
    (m.pxNextFreeBlock (b.ptr + 8 * i), m.xBlockSize (b.ptr + 8 * i)) = v

/-- Nothing was called yet, or the blocks held are the blocks in use. -/
def WorldInv (K : Prop) (r : Region) (w : World) : Prop :=
  ((∃ m, w.heap = bootHeap m) ∧ w.held = []) ∨
    ∃ free used, HeapInv r w.heap free used ∧ List.Forall₂ (HeldAt K w.heap.mem) w.held used

variable {K : Prop}

theorem HeldAt.congr {m m' : Mem} {b : Held} {u : Span Nat} (h : HeldAt K m b u)
    (hsame : ∀ x, u.Has x → SameCell m m' x) : HeldAt K m' b u where
  ptr := h.ptr
  asked := h.asked
  known := fun hK i v hv => by
    obtain ⟨hi, hcell⟩ := h.known hK i v hv
    have hasked := h.asked
    have hptr := h.ptr
    have hend := u.lo_add_size
    have hx : u.Has (b.ptr + 8 * i) := by
      unfold Span.Has
      omega
    exact ⟨hi, by rw [(hsame _ hx).1, (hsame _ hx).2, hcell]⟩

/-- The block behind a call that keeps what is known of it. -/
theorem HeldAt.resized {m m' : Mem} {b : Held} {u v : Span Nat} (h : HeldAt K m b u) {n : Nat}
    (hsize : n + xHeapStructSize ≤ v.size)
    (hcells : K → ∀ i, 8 * i < b.asked → 8 * i < n →
      m'.pxNextFreeBlock (v.lo + xHeapStructSize + 8 * i) = m.pxNextFreeBlock (b.ptr + 8 * i) ∧
        m'.xBlockSize (v.lo + xHeapStructSize + 8 * i) = m.xBlockSize (b.ptr + 8 * i)) :
    HeldAt K m' (b.resized (v.lo + xHeapStructSize) n) v := by
  refine ⟨rfl, hsize, fun hK i x hx => ?_⟩
  have hx : (if 8 * i < n then b.known i else none) = some x := hx
  split at hx
  · rename_i hi
    obtain ⟨hia, hcell⟩ := h.known hK i x hx
    have hm := hcells hK i hia hi
    exact ⟨hi, hcell ▸ Prod.ext hm.1 hm.2⟩
  · cases hx

theorem heldAt_congr {m m' : Mem} {held : List Held} {used : List (Span Nat)}
    (h : List.Forall₂ (HeldAt K m) held used) (hsame : ∀ x, Covers used x → SameCell m m' x) :
    List.Forall₂ (HeldAt K m') held used := by
  induction h with
  | nil => exact .nil
  | @cons b u held used hb _ ih =>
    refine .cons (hb.congr fun x hx => hsame x ((covers_cons u used x).mpr (Or.inl hx)))
      (ih fun x hx => hsame x ((covers_cons u used x).mpr (Or.inr hx)))

theorem findHeld_some {held : List Held} {p : Nat} {b : Held} (h : findHeld held p = some b) :
    b ∈ held ∧ b.ptr = p := by
  unfold findHeld at h
  exact ⟨List.mem_of_find?_eq_some h, by simpa using List.find?_some h⟩

/-- The block that is held at an address, and the others. -/
theorem heldAt_split {m : Mem} {held : List Held} {used : List (Span Nat)}
    (h : List.Forall₂ (HeldAt K m) held used) {p : Nat} (hp : ∃ b ∈ held, b.ptr = p) :
    ∃ b u rest, findHeld held p = some b ∧ b.ptr = p ∧ HeldAt K m b u ∧ used.Perm (u :: rest) ∧
      List.Forall₂ (HeldAt K m) (dropHeld held p) rest := by
  induction h with
  | nil =>
    obtain ⟨b, hb, -⟩ := hp
    cases hb
  | @cons b u held used hb hrest ih =>
    by_cases hbp : b.ptr = p
    · have hfind : findHeld (b :: held) p = some b :=
        List.find?_cons_of_pos (by simpa using hbp)
      have hdrop : dropHeld (b :: held) p = held := List.eraseP_cons_of_pos (by simpa using hbp)
      exact ⟨b, u, used, hfind, hbp, hb, .refl _, by rwa [hdrop]⟩
    · obtain ⟨c, hc, hcp⟩ := hp
      have hmem : c ∈ held := (List.mem_cons.mp hc).resolve_left fun he => hbp (he ▸ hcp)
      obtain ⟨d, v, rest, hfind, hdp, hd, hperm, hdrop⟩ := ih ⟨c, hmem, hcp⟩
      refine ⟨d, v, u :: rest, ?_, hdp, hd, (hperm.cons u).trans (.swap v u rest), ?_⟩
      · exact (List.find?_cons_of_neg (by simpa using hbp)).trans hfind
      · have hcons : dropHeld (b :: held) p = b :: dropHeld held p :=
          List.eraseP_cons_of_neg (by simpa using hbp)
        exact hcons ▸ .cons hb hdrop

/-! ## What a call does -/

section Calls

variable {cpy : OsMemcpy} {r : Region} {s : Heap} {free used : List (Span Nat)}

/-- Taking a block leaves the blocks in use alone. -/
theorem Taken.frame {t u : Span Nat} {w : Nat} {s' : Heap} {free' : List (Span Nat)}
    (h : HeapInv r s free used) (ht : t ∈ free) (htaken : Taken r s free used t w s' u free')
    {x : Nat} (hx : Covers used x) : SameCell s.mem s'.mem x := by
  have hnode := h.not_node hx
  refine htaken.same x (hnode _ List.mem_cons_self) (fun f hf => hnode f.lo (List.mem_cons_of_mem _
    (List.mem_append_left _ (List.mem_map_of_mem hf)))) fun hrest hxt => ?_
  obtain ⟨v, hv, hxv⟩ := hx
  have hend := t.lo_add_size
  unfold heapMinimumBlockSize xHeapStructSize at hrest
  exact (h.parts.free_apart t ht v hv).not_has ⟨by omega, by omega⟩ hxv

/-- The two outcomes of `malloc_without_lock`. -/
theorem HeapInv.malloc_cases (h : HeapInv r s free used) {n : Nat} (hn₀ : 0 < n)
    (hn : n < 4294967296) :
    mallocWithoutLock r s n = some (none, s) ∧
        (n < 2147483648 → ∀ t ∈ free, t.size < wantedSize n) ∨
      ∃ t ∈ free, ∃ s' u free',
        mallocWithoutLock r s n = some (some (u.lo + xHeapStructSize), s') ∧
        Taken r s free used t (wantedSize n) s' u free' ∧ n < 2147483648 ∧
        wantedSize n ≤ t.size ∧ ∀ f ∈ free, wantedSize n ≤ f.size → t.lo ≤ f.lo := by
  rcases Nat.lt_or_ge n 2147483648 with hlt | hge
  · rcases first_large free (wantedSize n) with hsmall | ⟨l₁, t, l₂, rfl, hsmall, hlarge⟩
    · exact Or.inl ⟨h.malloc_none hn₀ hlt hsmall, fun _ => hsmall⟩
    · obtain ⟨s', u, free', hcall, htaken⟩ := h.malloc_some hn₀ hlt hsmall hlarge
      refine Or.inr ⟨t, List.mem_append_right l₁ List.mem_cons_self, s', u, free', ?_, htaken, hlt,
        hlarge, fun f hf hflarge => ?_⟩
      · rw [htaken.lo]
        exact hcall
      · rcases List.mem_append.mp hf with hf | hf
        · exact absurd (hsmall f hf) hflarge.not_gt
        · rcases List.mem_cons.mp hf with rfl | hf
          · exact Nat.le_refl _
          · have hsep := separated_append.mp h.list.separated
            exact Nat.le_of_lt (Nat.lt_trans t.lo_lt_hi ((separated_cons.mp hsep.2.1).1 f hf))
  · exact Or.inl ⟨h.malloc_huge hn hge, fun hlt => absurd hge hlt.not_ge⟩

/-- The first call to the allocator initialises the heap; afterwards it goes on from there. -/
theorem malloc_boot (m : Mem) (n : Nat) :
    mallocWithoutLock r (bootHeap m) n = mallocWithoutLock r (prvHeapInit r (bootHeap m)) n := by
  have hinit := (heapInv_init r (bootHeap m)).pxEnd
  unfold mallocWithoutLock
  rw [if_pos (show (bootHeap m).pxEnd = none from rfl),
    if_neg fun hnone => absurd (hinit.symm.trans hnone) (Option.some_ne_none _)]

theorem WorldInv.started {w : World} (h : WorldInv K r w) :
    ∃ s free used, HeapInv r s free used ∧ List.Forall₂ (HeldAt K s.mem) w.held used ∧
      (w.heap = s ∨ w.held = []) ∧
      ∀ n, mallocWithoutLock r w.heap n = mallocWithoutLock r s n := by
  rcases h with ⟨⟨m, hm⟩, hnone⟩ | ⟨free, used, hinv, hheld⟩
  · rw [hm, hnone]
    exact ⟨_, _, _, heapInv_init r (bootHeap m), .nil, Or.inr rfl, malloc_boot m⟩
  · exact ⟨w.heap, free, used, hinv, hheld, Or.inl rfl, fun _ => rfl⟩

/-- The bytes that `pvPortMalloc` asks `malloc_without_lock` for. -/
def mallocBytes (n : UInt32) : Nat := (if n = 0 then 4 else n).toNat

theorem mallocBytes_pos (n : UInt32) : 0 < mallocBytes n := by
  unfold mallocBytes
  split
  · decide
  · rename_i h
    exact Nat.pos_of_ne_zero fun hz => h (UInt32.toNat_inj.mp hz)

theorem mallocBytes_lt (n : UInt32) : mallocBytes n < 4294967296 := UInt32.toNat_lt _

theorem le_mallocBytes (n : UInt32) : n.toNat ≤ mallocBytes n := by
  unfold mallocBytes
  split
  · rename_i h
    rw [h]
    exact Nat.zero_le _
  · exact Nat.le_refl _

theorem wantedSize_ge {n : Nat} (hn : 0 < n) : n + xHeapStructSize ≤ wantedSize n := by
  rw [wantedSize_eq hn]
  unfold xHeapStructSize
  omega

theorem WorldInv.step_malloc {w : World} (h : WorldInv K r w) (n : UInt32) :
    ∃ w', heapCall cpy r w (.malloc n) = some w' ∧ WorldInv K r w' := by
  obtain ⟨s, free, used, hinv, hheld, -, hsame⟩ := h.started
  have hcall : pvPortMalloc r w.heap n = mallocWithoutLock r s (mallocBytes n) := hsame _
  rw [heapCall, hcall]
  rcases hinv.malloc_cases (mallocBytes_pos n) (mallocBytes_lt n) with
    ⟨hnone, -⟩ | ⟨t, ht, s', u, free', hsome, htaken, -⟩
  · rw [hnone]
    exact ⟨_, rfl, Or.inr ⟨free, used, hinv, hheld⟩⟩
  · rw [hsome]
    refine ⟨_, rfl, Or.inr ⟨free', u :: used, htaken.inv, .cons ⟨rfl, ?_, fun _ i v hv => ?_⟩
      (heldAt_congr hheld fun x hx => htaken.frame hinv ht hx)⟩⟩
    · have hn := le_mallocBytes n
      have hw := wantedSize_ge (mallocBytes_pos n)
      have hlarge := htaken.large
      show n.toNat + xHeapStructSize ≤ u.size
      omega
    · cases hv

theorem WorldInv.step_free {w : World} (h : WorldInv K r w) {pv : Option Nat}
    (hlegal : Legal w (.free pv)) :
    ∃ w', heapCall cpy r w (.free pv) = some w' ∧ WorldInv K r w' := by
  cases pv with
  | none => exact ⟨w, rfl, h⟩
  | some p =>
    have hp := hlegal p rfl
    rcases h with ⟨-, hnone⟩ | ⟨free, used, hinv, hheld⟩
    · obtain ⟨b, hb, -⟩ := hp
      exact absurd hb (hnone ▸ List.not_mem_nil)
    · obtain ⟨b, u, rest, -, hbp, hb, hperm, hdrop⟩ := heldAt_split hheld hp
      obtain ⟨s', hcall, hinv', -, hframe⟩ := (hinv.perm hperm).vPortFree_spec
      rw [← hb.ptr, hbp] at hcall
      rw [heapCall, hcall]
      exact ⟨_, rfl, Or.inr ⟨_, rest, hinv', heldAt_congr hdrop hframe⟩⟩

theorem WorldInv.step_store {w : World} (h : WorldInv K r w) {pv i : Nat} {next : Option Nat}
    {size : Nat} (hlegal : Legal w (.store pv i next size)) :
    ∃ w', heapCall cpy r w (.store pv i next size) = some w' ∧ WorldInv K r w' := by
  obtain ⟨c, hc, hci⟩ := hlegal
  have hmem := findHeld_some hc
  rcases h with ⟨-, hnone⟩ | ⟨free, used, hinv, hheld⟩
  · exact absurd hmem.1 (hnone ▸ List.not_mem_nil)
  · obtain ⟨b, u, rest, hfind, hbp, hb, hperm, hdrop⟩ := heldAt_split hheld ⟨c, hmem⟩
    obtain rfl : b = c := Option.some.inj (hfind.symm.trans hc)
    have hinv := hinv.perm hperm
    have hend := u.lo_add_size
    have hptr := hb.ptr
    have hasked := hb.asked
    have hsame : ∀ x, x ≠ pv + 8 * i → SameCell w.heap.mem
        ((w.heap.mem.setNext (pv + 8 * i) next).setSize (pv + 8 * i) size) x := fun x hx =>
      (SameCell.setNext _ hx next).trans (SameCell.setSize _ hx size)
    have hin : u.lo < pv + 8 * i ∧ pv + 8 * i < u.hi := by
      unfold xHeapStructSize at hptr hasked
      omega
    have hcall : heapCall cpy r w (.store pv i next size) = some
        ⟨{ w.heap with mem :=
            (w.heap.mem.setNext (pv + 8 * i) next).setSize (pv + 8 * i) size },
          { b with known := Function.update b.known i (some (next, size)) } ::
            dropHeld w.held pv⟩ := by
      rw [heapCall, hfind]
    refine ⟨_, hcall, Or.inr ⟨free, u :: rest, hinv.contents fun x hx => hsame x ?_,
      .cons ⟨hptr, hasked, fun hK j v hv => ?_⟩ (heldAt_congr hdrop fun x hx => hsame x ?_)⟩⟩
    · rintro rfl
      exact hx u List.mem_cons_self hin
    · by_cases hj : j = i
      · subst hj
        have hval : (next, size) = v := by
          have hself := (Function.update_self j (some (next, size)) b.known).symm.trans hv
          exact Option.some.inj hself
        refine ⟨hci, ?_⟩
        rw [← hval, hbp]
        exact Prod.ext (Function.update_self _ _ _) (Function.update_self _ _ _)
      · have hold : b.known j = some v := (Function.update_of_ne hj _ _).symm.trans hv
        obtain ⟨hlt, hcell⟩ := hb.known hK j v hold
        have hne : b.ptr + 8 * j ≠ pv + 8 * i := by
          rw [hbp]
          omega
        refine ⟨hlt, ?_⟩
        rw [← hcell]
        exact Prod.ext (hsame _ hne).1 (hsame _ hne).2
    · rintro rfl
      exact not_covers_of_apart (List.pairwise_cons.mp hinv.parts.apart).1
        ⟨Nat.le_of_lt hin.1, hin.2⟩ hx

theorem HeapInv.datasize_eq {u : Span Nat} (h : HeapInv r s free (u :: used)) :
    datasize s (u.lo + xHeapStructSize) = u.size - 8 := by
  unfold datasize
  rw [Nat.add_sub_cancel, (h.header u List.mem_cons_self).2,
    sizeBits_add h.bit (h.size_lt (List.mem_append_right free List.mem_cons_self))]
  rfl

/-- A block that stays is not split. -/
theorem splitsContents_keep {u : Span Nat} {n : UInt32} (h : HeapInv r s free (u :: used))
    (hn : n.toNat ≤ u.size - 8) : splitsContents r s (u.lo + xHeapStructSize) n = false := by
  have hlt := h.size_lt (List.mem_append_right free List.mem_cons_self)
  have hkeep : ¬ u.size - xHeapStructSize < n.toNat := Nat.not_lt_of_le hn
  unfold splitsContents
  simp only [Nat.add_sub_cancel, (h.header u List.mem_cons_self).2, sizeBits_add h.bit hlt, hkeep]
  split
  · rfl
  · split
    · rfl
    · simp

/-- What `splitsContents` computes, for the block that the search finds. -/
theorem splitsContents_iff {u t : Span Nat} {n : UInt32} (h : HeapInv r s free (u :: used))
    (hn : u.size - 8 < n.toNat) {l₁ l₂ : List (Span Nat)} (hfree : insert u free = l₁ ++ t :: l₂)
    (hsmall : ∀ f ∈ l₁, f.size < wantedSize n.toNat) (hlarge : wantedSize n.toNat ≤ t.size) :
    splitsContents r s (u.lo + xHeapStructSize) n = true ↔
      ∃ i < (u.size - 8) / 8, SplitAt t u (wantedSize n.toNat) i := by
  obtain ⟨k₁, k₂, m', hsplit, hb, hins, hcall, hinv⟩ := h.release
  have hlt := h.size_lt (List.mem_append_right free List.mem_cons_self)
  have hublock := h.block u (List.mem_append_right free List.mem_cons_self)
  have hend := u.lo_add_size
  rw [hfree] at hinv
  have htblock := hinv.block t (List.mem_append_left used
    (List.mem_append_right l₁ List.mem_cons_self))
  have hw : wantedSize n.toNat = (n.toNat + 15) / 8 * 8 := wantedSize_eq (Nat.zero_lt_of_lt hn)
  have hlen : l₁.length < r.rounds := by
    have hrounds := hinv.rounds
    rw [List.length_append] at hrounds
    omega
  obtain ⟨k, hk⟩ := Nat.exists_eq_add_of_lt hlen
  have hsearch : searchBlock m' (wantedSize n.toNat) r.rounds r.xStart =
      some (lastNode r l₁, t.lo) := by
    rw [hk, Nat.add_assoc]
    exact hinv.list.search_found hsmall hlarge k
  have htsize : m'.xBlockSize t.lo = t.size :=
    hinv.list.size t (List.mem_append_right l₁ List.mem_cons_self)
  have hgrow : u.size - xHeapStructSize < n.toNat := hn
  have hinsert : prvInsertBlockIntoFreeList r { s with
      mem := s.mem.setSize u.lo u.size
      xFreeBytesRemaining := s.xFreeBytesRemaining + u.size } u.lo = _ := hcall
  unfold splitsContents
  simp only [Nat.add_sub_cancel, (h.header u List.mem_cons_self).2, sizeBits_add h.bit hlt,
    hinsert, hsearch, htsize, Bool.and_eq_true, decide_eq_true_eq]
  unfold SplitAt xHeapStructSize at *
  constructor
  · rintro ⟨⟨⟨-, hrest⟩, hlo⟩, hhi⟩
    exact ⟨(t.lo + wantedSize n.toNat - (u.lo + 8)) / 8, by omega, hrest, by omega⟩
  · rintro ⟨i, hi, hrest, hat⟩
    exact ⟨⟨⟨hgrow, hrest⟩, by omega⟩, by omega⟩

theorem WorldInv.step_realloc {w : World} (h : WorldInv K r w) {pv : Option Nat} {n : UInt32}
    (hlegal : Legal w (.realloc pv n)) (hkeeps : K → Keeps cpy r w (.realloc pv n)) :
    ∃ w', heapCall cpy r w (.realloc pv n) = some w' ∧ WorldInv K r w' := by
  cases pv with
  | none =>
    obtain ⟨w', hcall, hinv⟩ := @WorldInv.step_malloc K cpy r w h n
    refine ⟨w', Eq.trans ?_ hcall, hinv⟩
    show (pvPortMalloc r w.heap n).map _ = (pvPortMalloc r w.heap n).map _
    refine congrArg (fun f => Option.map f _) (funext fun result => ?_)
    dsimp only [Option.bind_none]
    cases result.1 <;> rfl
  | some p =>
    have hp := hlegal p rfl
    rcases h with ⟨-, hnone⟩ | ⟨free, used, hinv, hheld⟩
    · obtain ⟨b, hb, -⟩ := hp
      exact absurd hb (hnone ▸ List.not_mem_nil)
    obtain ⟨b, u, rest, hfind, hbp, hb, hperm, hdrop⟩ := heldAt_split hheld hp
    have hinv' := hinv.perm hperm
    have hpu : p = u.lo + xHeapStructSize := hbp ▸ hb.ptr
    have hbind : (some p).bind (findHeld w.held) = some b := hfind
    have hstep : heapCall cpy r w (.realloc (some p) n) =
        (pvPortRealloc cpy r w.heap (some (u.lo + xHeapStructSize)) n).map fun result =>
          match result.1 with
          | some pv' => ⟨result.2, b.resized pv' n.toNat :: dropHeld w.held b.ptr⟩
          | none => ⟨result.2, w.held⟩ := by
      rw [← hpu]
      show (pvPortRealloc cpy r w.heap (some p) n).map _ = _
      refine congrArg (fun f => Option.map f _) (funext fun result => ?_)
      rw [hbind]
      cases result.1 <;> rfl
    rw [hstep]
    have hublock := hinv'.block u (List.mem_append_right free List.mem_cons_self)
    have hend := u.lo_add_size
    obtain ⟨result, hcall⟩ : ∃ result,
        pvPortRealloc cpy r w.heap (some (u.lo + xHeapStructSize)) n = result := ⟨_, rfl⟩
    rw [hcall]
    cases hinv'.reallocated hcall with
    | enough hle =>
      refine ⟨_, rfl, Or.inr ⟨free, u :: rest, hinv', .cons
        (hb.resized (by unfold xHeapStructSize; omega) fun _ i _ _ => ?_) ?_⟩⟩
      · rw [hb.ptr]
        exact ⟨rfl, rfl⟩
      · rw [hbp]
        exact hdrop
    | failed => exact ⟨_, rfl, Or.inr ⟨free, used, hinv, hheld⟩⟩
    | @moved l₁ l₂ free' t v s' hgrow hfree hsmall hlarge hmoved =>
      have hnot : K → ¬ ∃ i < (u.size - 8) / 8, SplitAt t u (wantedSize n.toNat) i := by
        intro hK hex
        have hsplits := (splitsContents_iff hinv' hgrow hfree hsmall hlarge).mpr hex
        rw [← hpu] at hsplits
        exact absurd (hkeeps hK).1 (by rw [hsplits]; decide)
      have hbrings : K → cpy.Brings (v.lo + xHeapStructSize) (u.lo + xHeapStructSize)
          (u.size - 8) := fun hK => by
        have hcopy := (hkeeps hK).2 (t.lo + xHeapStructSize) s' (hpu ▸ hcall)
        rw [hpu, hinv'.datasize_eq] at hcopy
        rwa [hmoved.lo]
      have hw := wantedSize_ge (Nat.zero_lt_of_lt hgrow)
      have hvlarge := hmoved.large
      rw [← hmoved.lo]
      refine ⟨_, rfl, Or.inr ⟨free', v :: rest, hmoved.inv, .cons
        (hb.resized (Nat.le_trans hw hvlarge) fun hK i hia _ => ?_) ?_⟩⟩
      · rw [hb.ptr]
        have hasked := hb.asked
        unfold xHeapStructSize at hasked
        have hi : i < (u.size - 8) / 8 := by omega
        exact hmoved.kept (hbrings hK) i hi fun hat => hnot hK ⟨i, hi, hat⟩
      · rw [hbp]
        exact heldAt_congr hdrop hmoved.same

end Calls

/-! ## Runs -/

/-- A step of a run; behind a call that does not come to its end there is no state. -/
def heapStep (cpy : OsMemcpy) (r : Region) : Option World → HeapCall → Option World × Unit
  | some w, c => (heapCall cpy r w c, ())
  | none, _ => (none, ())

/-- The heap and the application behind the calls `cs`. -/
def worldAfter (cpy : OsMemcpy) (r : Region) (m : Mem) (cs : List HeapCall) : Option World :=
  final (heapStep cpy r) (some (bootWorld m)) cs

/-- Every call of the run is legal. -/
def LegalRun (cpy : OsMemcpy) (r : Region) (m : Mem) (cs : List HeapCall) : Prop :=
  Along (heapStep cpy r) (fun o c => ∀ w, o = some w → Legal w c) (some (bootWorld m)) cs

/-- No call of the run splits contents or copies them wrongly. -/
def KeepsRun (cpy : OsMemcpy) (r : Region) (m : Mem) (cs : List HeapCall) : Prop :=
  Along (heapStep cpy r) (fun o c => ∀ w, o = some w → Keeps cpy r w c) (some (bootWorld m)) cs

/-- The blocks held are aligned places of the region that do not overlap, and they have what was
    stored in them last. -/
structure Safe (r : Region) (w : World) : Prop where
  aligned : ∀ b ∈ w.held, b.ptr % 8 = 0
  inside : ∀ b ∈ w.held, r.ucHeap ≤ b.ptr ∧ b.ptr + b.asked ≤ r.ucHeap + r.xTotalHeapSize
  apart : w.held.Pairwise fun b c => b.ptr + b.asked ≤ c.ptr ∨ c.ptr + c.asked ≤ b.ptr
  stored : ∀ b ∈ w.held, ∀ i v, b.known i = some v →
    (w.heap.mem.pxNextFreeBlock (b.ptr + 8 * i), w.heap.mem.xBlockSize (b.ptr + 8 * i)) = v

section Runs

variable {cpy : OsMemcpy} {r : Region}

theorem WorldInv.step {w : World} (h : WorldInv K r w) {c : HeapCall} (hlegal : Legal w c)
    (hkeeps : K → Keeps cpy r w c) : ∃ w', heapCall cpy r w c = some w' ∧ WorldInv K r w' := by
  cases c with
  | malloc n => exact h.step_malloc n
  | free pv => exact h.step_free hlegal
  | realloc pv n => exact h.step_realloc hlegal hkeeps
  | store pv i next size => exact h.step_store hlegal

theorem worldInv_boot (m : Mem) : WorldInv K r (bootWorld m) := Or.inl ⟨⟨m, rfl⟩, rfl⟩

/-- A legal run comes to its end with the invariant. -/
theorem worldInv_after {m : Mem} {cs : List HeapCall} (hlegal : LegalRun cpy r m cs)
    (hkeeps : K → KeepsRun cpy r m cs) : ∃ w, worldAfter cpy r m cs = some w ∧ WorldInv K r w := by
  have hall : Along (heapStep cpy r)
      (fun o c => ∀ w, o = some w → Legal w c ∧ (K → Keeps cpy r w c)) (some (bootWorld m)) cs := by
    by_cases hK : K
    · refine along_imp (C := fun o c => (∀ w, o = some w → Legal w c) ∧
        ∀ w, o = some w → Keeps cpy r w c) (fun o c hoc w hw => ⟨hoc.1 w hw, fun _ => hoc.2 w hw⟩)
        ((along_and _ _ _ _).mpr ⟨hlegal, hkeeps hK⟩)
    · exact along_imp (fun o c hoc w hw => ⟨hoc w hw, fun h => absurd h hK⟩) hlegal
  refine final_of_along (I := fun o => ∃ w, o = some w ∧ WorldInv K r w) ?_
    ⟨_, rfl, worldInv_boot m⟩ hall
  rintro o c ⟨w, rfl, hinv⟩ hoc
  obtain ⟨hl, hk⟩ := hoc w rfl
  exact hinv.step hl hk

theorem exists_of_forall₂ {α β : Type} {R : α → β → Prop} {l : List α} {l' : List β}
    (h : List.Forall₂ R l l') {a : α} (ha : a ∈ l) : ∃ b ∈ l', R a b := by
  induction h with
  | nil => cases ha
  | cons hab _ ih =>
    rcases List.mem_cons.mp ha with rfl | ha
    · exact ⟨_, List.mem_cons_self, hab⟩
    · obtain ⟨b, hb, h⟩ := ih ha
      exact ⟨b, List.mem_cons_of_mem _ hb, h⟩

theorem heldAt_apart {m : Mem} {held : List Held} {used : List (Span Nat)}
    (h : List.Forall₂ (HeldAt K m) held used) (hap : used.Pairwise Span.Apart) :
    held.Pairwise fun b c => b.ptr + b.asked ≤ c.ptr ∨ c.ptr + c.asked ≤ b.ptr := by
  induction h with
  | nil => exact .nil
  | @cons b u held used hbu hrest ih =>
    obtain ⟨hu, hap⟩ := List.pairwise_cons.mp hap
    refine List.pairwise_cons.mpr ⟨fun c hc => ?_, ih hap⟩
    obtain ⟨v, hv, hcv⟩ := exists_of_forall₂ hrest hc
    have hbptr := hbu.ptr
    have hbask := hbu.asked
    have hcptr := hcv.ptr
    have hcask := hcv.asked
    have huend := u.lo_add_size
    have hvend := v.lo_add_size
    unfold xHeapStructSize at *
    rcases hu v hv with huv | huv
    · right; omega
    · left; omega

theorem WorldInv.safe {w : World} (h : WorldInv True r w) : Safe r w := by
  rcases h with ⟨-, hnone⟩ | ⟨free, used, hinv, hheld⟩
  · have hempty : ∀ b, b ∉ w.held := fun b => hnone ▸ List.not_mem_nil
    exact ⟨fun b hb => absurd hb (hempty b), fun b hb => absurd hb (hempty b),
      hnone ▸ List.Pairwise.nil, fun b hb => absurd hb (hempty b)⟩
  · refine ⟨fun b hb => ?_, fun b hb => ?_, heldAt_apart hheld hinv.parts.apart,
      fun b hb i v hv => ?_⟩
    · obtain ⟨u, hu, hbu⟩ := exists_of_forall₂ hheld hb
      have hblock := hinv.block u (List.mem_append_right free hu)
      have hptr := hbu.ptr
      unfold xHeapStructSize at hptr
      omega
    · obtain ⟨u, hu, hbu⟩ := exists_of_forall₂ hheld hb
      have hbounds := hinv.bounds (List.mem_append_right free hu)
      have hregion := r.bounds
      have hend := u.lo_add_size
      have hptr := hbu.ptr
      have hasked := hbu.asked
      unfold xHeapStructSize at hptr hasked
      omega
    · obtain ⟨u, -, hbu⟩ := exists_of_forall₂ hheld hb
      exact (hbu.known trivial i v hv).2

/-- A run of legal calls comes to its end, its blocks are the application's own, and as long as no
    `pvPortRealloc` splits the contents of its block or copies them onto themselves with a
    `memcpy` that is not made for it, every cell has what was stored in it last. -/
theorem heap_runs (cpy : OsMemcpy) (m : Mem) (cs : List HeapCall) (hlegal : LegalRun cpy r m cs)
    (hkeeps : KeepsRun cpy r m cs) : ∃ w, worldAfter cpy r m cs = some w ∧ Safe r w := by
  obtain ⟨w, hw, hinv⟩ := worldInv_after (K := True) hlegal fun _ => hkeeps
  exact ⟨w, hw, hinv.safe⟩

/-- A region of 300 bytes that does not start at a multiple of eight. -/
def smallRegion : Region := ⟨16, 1003, 300, by decide, by decide, by decide⟩

/-- A memory of zeros. -/
def zeroMem : Mem := ⟨fun _ => none, fun _ => 0⟩

/-- Two blocks, of which the second one moves to where the first one was. -/
def smallRun : List HeapCall :=
  [.malloc 20, .malloc 30, .store 1048 2 (some 7) 9, .free (some 1016), .realloc (some 1048) 60]

theorem smallRun_legal : LegalRun forwardMemcpy smallRegion zeroMem smallRun := by
  refine ⟨fun w _ => trivial, fun w _ => trivial, ?_, ?_, ?_, trivial⟩
  · rintro w ⟨⟩
    exact ⟨_, rfl, by decide⟩
  · rintro w ⟨⟩ p ⟨⟩
    exact ⟨_, List.mem_cons_of_mem _ List.mem_cons_self, rfl⟩
  · rintro w ⟨⟩ p ⟨⟩
    exact ⟨_, List.mem_cons_self, rfl⟩

theorem smallRun_keeps : KeepsRun forwardMemcpy smallRegion zeroMem smallRun := by
  refine ⟨fun w _ => trivial, fun w _ => trivial, fun w _ => trivial, fun w _ => trivial, ?_,
    trivial⟩
  rintro w ⟨⟩
  exact ⟨rfl, fun pv' s' _ => Or.inr (Or.inr (Or.inr forwardMemcpy_copiesDown))⟩

theorem heap_runs_small : ∃ w, worldAfter forwardMemcpy smallRegion zeroMem smallRun = some w ∧
    Safe smallRegion w :=
  heap_runs forwardMemcpy zeroMem smallRun smallRun_legal smallRun_keeps

end Runs

end ArduinoT2.Kernel
