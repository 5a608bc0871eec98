import ArduinoT2.Kernel.Heap

/-
  The free list of heap_4.c as a list of spans.

  `FreeList r m pxEnd l` says that the blocks linked behind `xStart` are the spans of `l`, up to
  `pxEnd`. `prvInsertBlockIntoFreeList` is `Spans.insert` on it, whether the block is joined with
  the block before it, the one behind it, both or none (`FreeList.insert`), and the search of
  `malloc_without_lock` stops at the first span that is large enough, or at `pxEnd`
  (`FreeList.search_found`, `FreeList.search_failed`).
-/

namespace ArduinoT2.Kernel

open NextList Spans

/-- The blocks behind `xStart` are the spans of `l`, in the order of their addresses. -/
structure FreeList (r : Region) (m : Mem) (pxEnd : Nat) (l : List (Span Nat)) : Prop where
  chain : Chain m.pxNextFreeBlock r.xStart (l.map Span.lo ++ [pxEnd])
  size : ∀ s ∈ l, m.xBlockSize s.lo = s.size
  size_start : m.xBlockSize r.xStart = 0
  size_end : m.xBlockSize pxEnd = 0
  separated : Separated l
  bounds : ∀ s ∈ l, r.ucHeap ≤ s.lo ∧ s.hi ≤ pxEnd

/-- The node before the blocks `l` end. -/
def lastNode (r : Region) (l : List (Span Nat)) : Nat := (l.map Span.lo).getLastD r.xStart

@[simp] theorem lastNode_nil (r : Region) : lastNode r [] = r.xStart := rfl

@[simp] theorem lastNode_snoc (r : Region) (l : List (Span Nat)) (s : Span Nat) :
    lastNode r (l ++ [s]) = s.lo := by
  unfold lastNode
  rw [List.map_append, List.map_singleton, List.getLastD_concat]

/-- The node behind which the blocks `l` start. -/
def firstNode (pxEnd : Nat) (l : List (Span Nat)) : Nat := (l.map Span.lo).headD pxEnd

/-- `lastNode` is `xStart` or the last of the blocks. -/
theorem lastNode_cases (r : Region) (l : List (Span Nat)) :
    (l = [] ∧ lastNode r l = r.xStart) ∨ ∃ l' t, l = l' ++ [t] ∧ lastNode r l = t.lo := by
  rcases List.eq_nil_or_concat l with rfl | ⟨l', t, rfl⟩
  · exact Or.inl ⟨rfl, rfl⟩
  · exact Or.inr ⟨l', t, List.concat_eq_append, by rw [List.concat_eq_append, lastNode_snoc]⟩

section Facts

variable {r : Region} {m : Mem} {pxEnd : Nat} {l l₁ l₂ : List (Span Nat)}

theorem FreeList.next_last (h : FreeList r m pxEnd (l₁ ++ l₂)) :
    m.pxNextFreeBlock (lastNode r l₁) = some (firstNode pxEnd l₂) := by
  have hc := h.chain
  rw [List.map_append, List.append_assoc] at hc
  have hhead := (chain_append.mp hc).2.head
  cases l₂ <;> exact hhead

/-- The chain behind the blocks `l₁`. -/
theorem FreeList.chain_last (h : FreeList r m pxEnd (l₁ ++ l₂)) :
    Chain m.pxNextFreeBlock (lastNode r l₁) (l₂.map Span.lo ++ [pxEnd]) := by
  have hc := h.chain
  rw [List.map_append, List.append_assoc] at hc
  exact (chain_append.mp hc).2

theorem FreeList.next_end (h : FreeList r m pxEnd l) : m.pxNextFreeBlock pxEnd = none :=
  chain_nil.mp h.chain.rest

/-- A memory with the same free blocks. -/
theorem FreeList.congr {m' : Mem} (h : FreeList r m pxEnd l)
    (hnext : ∀ x ∈ r.xStart :: (l.map Span.lo ++ [pxEnd]),
      m'.pxNextFreeBlock x = m.pxNextFreeBlock x ∧ m'.xBlockSize x = m.xBlockSize x) :
    FreeList r m' pxEnd l := by
  obtain ⟨hstart, hrest⟩ := List.forall_mem_cons.mp hnext
  obtain ⟨hblocks, hend⟩ := List.forall_mem_append.mp hrest
  obtain ⟨hend, -⟩ := List.forall_mem_cons.mp hend
  refine ⟨h.chain.move hstart.1 fun x hx => (hrest x hx).1, fun s hs => ?_,
    hstart.2.trans h.size_start, hend.2.trans h.size_end, h.separated, h.bounds⟩
  rw [(hblocks s.lo (List.mem_map_of_mem hs)).2, h.size s hs]

/-- A block taken out of the list. -/
theorem FreeList.remove {s : Span Nat} (h : FreeList r m pxEnd (l₁ ++ s :: l₂)) :
    FreeList r (m.setNext (lastNode r l₁) (m.pxNextFreeBlock s.lo)) pxEnd (l₁ ++ l₂) := by
  have hsub : (l₁ ++ l₂).Sublist (l₁ ++ s :: l₂) :=
    List.Sublist.append_left (List.sublist_cons_self s l₂) l₁
  have hc := h.chain
  rw [List.map_append, List.append_assoc] at hc
  refine ⟨?_, fun t ht => h.size t (hsub.subset ht), h.size_start, h.size_end,
    h.separated.sublist hsub, fun t ht => h.bounds t (hsub.subset ht)⟩
  rw [List.map_append, List.append_assoc,
    hc.splice_iff fun x _ hx => Function.update_of_ne hx _ _]
  have hrest := chain_cons.mp h.chain_last
  refine hrest.2.move (Function.update_self _ _ _) fun x hx => Function.update_of_ne ?_ _ _
  rintro rfl
  refine h.chain_last.not_mem (List.mem_cons_of_mem s.lo hx)

theorem FreeList.mem_ne_start (h : FreeList r m pxEnd l) {s : Span Nat} (hs : s ∈ l) :
    s.lo ≠ r.xStart := fun he =>
  absurd (lt_of_lt_of_le r.start_below (he ▸ (h.bounds s hs).1)) (lt_irrefl _)

end Facts

/-! ## The loops -/

theorem insertPlace_walk {m : Mem} {b p y : Nat} {xs ys : List Nat}
    (h : Chain m.pxNextFreeBlock p (xs ++ y :: ys)) (hxs : ∀ x ∈ xs, x < b) (hy : ¬ y < b)
    (k : Nat) : insertPlace m b (xs.length + 1 + k) p = some (xs.getLastD p) := by
  induction xs generalizing p with
  | nil =>
    have hp : m.pxNextFreeBlock p = some y := h.head
    rw [List.length_nil, Nat.zero_add, Nat.add_comm, insertPlace, hp]
    exact if_neg hy
  | cons x xs ih =>
    obtain ⟨hp, hrest⟩ := chain_cons.mp h
    obtain ⟨hx, hxs⟩ := List.forall_mem_cons.mp hxs
    rw [List.length_cons, show xs.length + 1 + 1 + k = (xs.length + 1 + k) + 1 by omega,
      insertPlace, hp]
    show (if x < b then insertPlace m b (xs.length + 1 + k) x else _) = _
    rw [if_pos hx, ih hrest hxs, List.getLastD_cons]

theorem searchBlock_walk {m : Mem} {w p : Nat} {xs ys : List Nat}
    (h : Chain m.pxNextFreeBlock p (xs ++ ys)) (hys : ys ≠ [])
    (hxs : ∀ x ∈ xs, m.xBlockSize x < w) (k : Nat) :
    searchBlock m w (xs.length + k) p = searchBlock m w k (xs.getLastD p) := by
  induction xs generalizing p with
  | nil => rw [List.length_nil, Nat.zero_add]; rfl
  | cons x xs ih =>
    obtain ⟨hp, hrest⟩ := chain_cons.mp h
    obtain ⟨hx, hxs⟩ := List.forall_mem_cons.mp hxs
    have hnext : m.pxNextFreeBlock x ≠ none := by
      rw [hrest.head]
      intro hnone
      exact hys (List.append_eq_nil_iff.mp (List.head?_eq_none_iff.mp hnone)).2
    rw [List.length_cons, Nat.add_right_comm, searchBlock, hp]
    show (if m.xBlockSize x < w ∧ m.pxNextFreeBlock x ≠ none then
      searchBlock m w (xs.length + k) x else _) = _
    rw [if_pos ⟨hx, hnext⟩, ih hrest hxs, List.getLastD_cons]

section Search

variable {r : Region} {m : Mem} {pxEnd : Nat} {l₁ l₂ : List (Span Nat)}

/-- The search ends at the first block that is large enough. -/
theorem FreeList.search_found {s : Span Nat} {w : Nat} (h : FreeList r m pxEnd (l₁ ++ s :: l₂))
    (hl₁ : ∀ t ∈ l₁, t.size < w) (hs : w ≤ s.size) (k : Nat) :
    searchBlock m w (l₁.length + (k + 1)) r.xStart = some (lastNode r l₁, s.lo) := by
  have hc := h.chain
  rw [List.map_append, List.append_assoc] at hc
  have hxs : ∀ x ∈ l₁.map Span.lo, m.xBlockSize x < w := by
    intro x hx
    obtain ⟨t, ht, rfl⟩ := List.mem_map.mp hx
    rw [h.size t (List.mem_append_left _ ht)]
    exact hl₁ t ht
  have hwalk := searchBlock_walk hc (List.append_ne_nil_of_right_ne_nil _ (List.cons_ne_nil _ _))
    hxs (k + 1)
  rw [List.length_map] at hwalk
  rw [hwalk, searchBlock, show (l₁.map Span.lo).getLastD r.xStart = lastNode r l₁ from rfl,
    h.next_last]
  show (if m.xBlockSize s.lo < w ∧ m.pxNextFreeBlock s.lo ≠ none then _ else _) = _
  rw [if_neg]
  · rfl
  · rw [h.size s (List.mem_append_right l₁ List.mem_cons_self)]
    exact fun hlt => absurd hs (not_le_of_gt hlt.1)

/-- Where no block is large enough, it ends at `pxEnd`. -/
theorem FreeList.search_failed {w : Nat} (h : FreeList r m pxEnd l₁)
    (hl₁ : ∀ t ∈ l₁, t.size < w) (k : Nat) :
    searchBlock m w (l₁.length + (k + 1)) r.xStart = some (lastNode r l₁, pxEnd) := by
  have hxs : ∀ x ∈ l₁.map Span.lo, m.xBlockSize x < w := by
    intro x hx
    obtain ⟨t, ht, rfl⟩ := List.mem_map.mp hx
    rw [h.size t ht]
    exact hl₁ t ht
  have hwalk := searchBlock_walk h.chain (List.cons_ne_nil _ _) hxs (k + 1)
  rw [List.length_map] at hwalk
  have hnext : m.pxNextFreeBlock (lastNode r l₁) = some pxEnd := by
    have hl : FreeList r m pxEnd (l₁ ++ []) := (List.append_nil l₁).symm ▸ h
    exact hl.next_last
  rw [hwalk, searchBlock, show (l₁.map Span.lo).getLastD r.xStart = lastNode r l₁ from rfl, hnext]
  show (if m.xBlockSize pxEnd < w ∧ m.pxNextFreeBlock pxEnd ≠ none then _ else _) = _
  rw [if_neg fun hlt => hlt.2 h.next_end]

end Search

/-! ## Inserting a block -/

section Behind

variable {m : Mem} {pxEnd it b y : Nat}

/-- Neither of the neighbours touches the block. -/
theorem insertBehind_alone (hnext : m.pxNextFreeBlock it = some y)
    (hlower : it + m.xBlockSize it ≠ b) (hupper : b + m.xBlockSize b = y → y = pxEnd)
    (hne : it ≠ b) :
    insertBehind m (some pxEnd) it b = (m.setNext b (some y)).setNext it (some b) := by
  unfold insertBehind
  rw [if_neg hlower]
  simp only [hnext]
  rw [if_pos hne]
  by_cases hy : b + m.xBlockSize b = y
  · rw [if_pos hy, if_neg (not_not.mpr (congrArg some (hupper hy))), hupper hy]
  · rw [if_neg hy]

/-- The block behind it touches it. -/
theorem insertBehind_upper (hnext : m.pxNextFreeBlock it = some y)
    (hlower : it + m.xBlockSize it ≠ b) (hupper : b + m.xBlockSize b = y) (hend : y ≠ pxEnd)
    (hne : it ≠ b) :
    insertBehind m (some pxEnd) it b =
      ((m.setSize b (m.xBlockSize b + m.xBlockSize y)).setNext b
        (m.pxNextFreeBlock y)).setNext it (some b) := by
  unfold insertBehind
  rw [if_neg hlower]
  simp only [hnext]
  rw [if_pos hne, if_pos hupper, if_pos fun he => hend (Option.some.inj he)]
  rfl

/-- The block before it touches it. -/
theorem insertBehind_lower (hnext : m.pxNextFreeBlock it = some y)
    (hlower : it + m.xBlockSize it = b) (hupper : b + m.xBlockSize b = y → y = pxEnd) :
    insertBehind m (some pxEnd) it b = m.setSize it (m.xBlockSize it + m.xBlockSize b) := by
  have hsame : (m.setSize it (m.xBlockSize it + m.xBlockSize b)).setNext it (some y) =
      m.setSize it (m.xBlockSize it + m.xBlockSize b) := by
    rw [Mem.setNext, Mem.next_setSize, ← hnext, Function.update_eq_self]
    rfl
  unfold insertBehind
  rw [if_pos hlower]
  simp only [Mem.next_setSize, Mem.size_setSize, Function.update_self, hnext, ne_eq,
    not_true_eq_false, if_false]
  by_cases hy : it + (m.xBlockSize it + m.xBlockSize b) = y
  · have hend : y = pxEnd := hupper (by omega)
    rw [if_pos hy, if_neg (not_not.mpr (congrArg some hend)), ← hend, hsame]
  · rw [if_neg hy, hsame]

/-- Both neighbours touch it. -/
theorem insertBehind_both (hnext : m.pxNextFreeBlock it = some y)
    (hlower : it + m.xBlockSize it = b) (hupper : b + m.xBlockSize b = y) (hend : y ≠ pxEnd)
    (hne : y ≠ it) :
    insertBehind m (some pxEnd) it b =
      (m.setSize it (m.xBlockSize it + m.xBlockSize b + m.xBlockSize y)).setNext it
        (m.pxNextFreeBlock y) := by
  unfold insertBehind
  rw [if_pos hlower]
  simp only [Mem.next_setSize, Mem.size_setSize, Function.update_self, hnext, ne_eq,
    not_true_eq_false, if_false]
  rw [if_pos (by rw [← Nat.add_assoc, hlower, hupper]), if_pos fun he => hend (Option.some.inj he),
    Function.update_of_ne hne]
  rw [Mem.setSize, Mem.size_setSize, Function.update_idem]
  rfl

end Behind

section Insert

variable {r : Region} {m : Mem} {pxEnd : Nat} {l₁ l₂ : List (Span Nat)} {s : Span Nat}

/-- A block of the region between those of the free list before it and those behind it. -/
structure Between (r : Region) (m : Mem) (pxEnd : Nat) (l₁ l₂ : List (Span Nat))
    (s : Span Nat) : Prop where
  list : FreeList r m pxEnd (l₁ ++ l₂)
  size : m.xBlockSize s.lo = s.size
  bounds : r.ucHeap ≤ s.lo ∧ s.hi ≤ pxEnd
  before : ∀ t ∈ l₁, t.hi ≤ s.lo
  behind : ∀ t ∈ l₂, s.hi ≤ t.lo

theorem Between.apart (h : Between r m pxEnd l₁ l₂ s) : ∀ t ∈ l₁ ++ l₂, s.Apart t := by
  intro t ht
  rcases List.mem_append.mp ht with ht | ht
  · exact Or.inl (h.before t ht)
  · exact Or.inr (h.behind t ht)

theorem Between.start_lt (h : Between r m pxEnd l₁ l₂ s) : r.xStart < s.lo :=
  lt_of_lt_of_le r.start_below h.bounds.1

theorem Between.last_lt (h : Between r m pxEnd l₁ l₂ s) : lastNode r l₁ < s.lo := by
  rcases lastNode_cases r l₁ with ⟨rfl, hlast⟩ | ⟨l, t, rfl, hlast⟩
  · exact hlast ▸ h.start_lt
  · rw [hlast]
    exact lt_of_lt_of_le t.lo_lt_hi (h.before t List.mem_concat_self)

/-- The nodes behind the block. -/
theorem Between.lt_of_mem (h : Between r m pxEnd l₁ l₂ s) :
    ∀ x ∈ l₂.map Span.lo ++ [pxEnd], s.lo < x := by
  intro x hx
  rcases List.mem_append.mp hx with hx | hx
  · obtain ⟨t, ht, rfl⟩ := List.mem_map.mp hx
    exact lt_of_lt_of_le s.lo_lt_hi (h.behind t ht)
  · exact List.mem_singleton.mp hx ▸ lt_of_lt_of_le s.lo_lt_hi h.bounds.2

/-- The block before it touches it where it ends where the block starts; `xStart` never does. -/
theorem Between.lower_iff (h : Between r m pxEnd l₁ l₂ s) :
    lastNode r l₁ + m.xBlockSize (lastNode r l₁) = s.lo ↔ ∃ l t, l₁ = l ++ [t] ∧ t.hi = s.lo := by
  rcases lastNode_cases r l₁ with ⟨rfl, hlast⟩ | ⟨l, t, rfl, hlast⟩
  · rw [hlast, h.list.size_start]
    constructor
    · exact fun he => absurd he h.start_lt.ne
    · rintro ⟨l, t, hl, -⟩
      exact absurd hl (List.append_ne_nil_of_right_ne_nil l (List.cons_ne_nil t [])).symm
  · rw [hlast, h.list.size t (List.mem_append_left l₂ List.mem_concat_self), Span.lo_add_size]
    constructor
    · exact fun he => ⟨l, t, rfl, he⟩
    · rintro ⟨l', t', hl, ht⟩
      obtain ⟨-, rfl⟩ := List.append_singleton_inj.mp hl
      exact ht

/-- The loop of `prvInsertBlockIntoFreeList` stops before the block. -/
theorem Between.insertPlace_eq (h : Between r m pxEnd l₁ l₂ s) {rounds : Nat}
    (hrounds : l₁.length < rounds) :
    insertPlace m s.lo rounds r.xStart = some (lastNode r l₁) := by
  have hbefore : ∀ x ∈ l₁.map Span.lo, x < s.lo := by
    intro x hx
    obtain ⟨t, ht, rfl⟩ := List.mem_map.mp hx
    exact lt_of_lt_of_le t.lo_lt_hi (h.before t ht)
  have hc := h.list.chain
  rw [List.map_append, List.append_assoc] at hc
  obtain ⟨k, rfl⟩ := Nat.exists_eq_add_of_lt hrounds
  have hlen : l₁.length + k + 1 = (l₁.map Span.lo).length + 1 + k := by
    rw [List.length_map, Nat.add_right_comm]
  rw [hlen]
  cases hl₂ : l₂.map Span.lo ++ [pxEnd] with
  | nil => exact absurd hl₂ (List.append_ne_nil_of_right_ne_nil _ (List.cons_ne_nil _ _))
  | cons y ys =>
    rw [hl₂] at hc
    have hy : s.lo < y := h.lt_of_mem y (hl₂ ▸ List.mem_cons_self)
    exact insertPlace_walk hc hbefore hy.not_gt k

/-- What an insertion does to the memory and to the free list: the block stays alone, or is joined
    with the block behind it, the block before it or both. -/
inductive Inserted (r : Region) (m : Mem) (pxEnd : Nat) (s : Span Nat) :
    List (Span Nat) → List (Span Nat) → Mem → List (Span Nat) → Prop
  | alone {xs ys : List (Span Nat)} (below : ∀ t ∈ xs, t.hi < s.lo)
      (above : ∀ t ∈ ys, s.hi < t.lo) :
    Inserted r m pxEnd s xs ys
      ((m.setNext s.lo (some (firstNode pxEnd ys))).setNext (lastNode r xs) (some s.lo))
      (xs ++ s :: ys)
  | upper {xs ys : List (Span Nat)} {u : Span Nat} (below : ∀ t ∈ xs, t.hi < s.lo)
      (above : s.hi = u.lo) :
    Inserted r m pxEnd s xs (u :: ys)
      (((m.setSize s.lo (s.size + u.size)).setNext s.lo (m.pxNextFreeBlock u.lo)).setNext
        (lastNode r xs) (some s.lo))
      (xs ++ s.join u above :: ys)
  | lower {xs ys : List (Span Nat)} {t : Span Nat} (below : t.hi = s.lo)
      (above : ∀ t ∈ ys, s.hi < t.lo) :
    Inserted r m pxEnd s (xs ++ [t]) ys (m.setSize t.lo (t.size + s.size))
      (xs ++ t.join s below :: ys)
  | both {xs ys : List (Span Nat)} {t u : Span Nat} (below : t.hi = s.lo)
      (above : (t.join s below).hi = u.lo) :
    Inserted r m pxEnd s (xs ++ [t]) (u :: ys)
      ((m.setSize t.lo (t.size + s.size + u.size)).setNext t.lo (m.pxNextFreeBlock u.lo))
      (xs ++ (t.join s below).join u above :: ys)

/-- The list behind an insertion is that of the spans. -/
theorem Inserted.list_eq {m' : Mem} {l : List (Span Nat)}
    (h : Inserted r m pxEnd s l₁ l₂ m' l) (hl : Separated (l₁ ++ l₂)) :
    l = Spans.insert s (l₁ ++ l₂) := by
  cases h with
  | alone h₁ h₂ => exact (insert_gap h₁ h₂).symm
  | upper h₁ h₂ =>
    rw [insert_append h₁, insert_front, insertFront, dif_pos h₂]
    refine List.forall_mem_cons.mpr ⟨le_of_eq h₂, fun v hv => ?_⟩
    have hv := (separated_cons.mp (separated_append.mp hl).2.1).1 v hv
    exact le_of_lt (h₂ ▸ lt_trans (Span.lo_lt_hi _) hv)
  | @lower xs ys t h₁ h₂ =>
    rw [List.append_assoc, List.singleton_append] at hl ⊢
    have ht : ∀ v ∈ xs, v.hi < t.lo := fun v hv =>
      (separated_append.mp hl).2.2 v hv t List.mem_cons_self
    have hgap : ∀ v ∈ l₂, (t.join s h₁).hi < v.lo := h₂
    rw [insert_append fun v hv => h₁ ▸ lt_trans (ht v hv) t.lo_lt_hi, insert_touch h₁,
      insert_before hgap]
  | @both xs ys t u h₁ h₂ =>
    rw [List.append_assoc, List.singleton_append] at hl ⊢
    have ht : ∀ v ∈ xs, v.hi < t.lo := fun v hv =>
      (separated_append.mp hl).2.2 v hv t List.mem_cons_self
    have hu : ∀ v ∈ ys, u.hi < v.lo :=
      (separated_cons.mp (separated_cons.mp (separated_append.mp hl).2.1).2).1
    rw [insert_append fun v hv => h₁ ▸ lt_trans (ht v hv) t.lo_lt_hi, insert_touch h₁,
      insert_front, insertFront, dif_pos (show (t.join s h₁).hi = u.lo from h₂)]
    exact List.forall_mem_cons.mpr ⟨le_of_eq h₂, fun v hv =>
      le_of_lt (h₂ ▸ lt_trans u.lo_lt_hi (hu v hv) : s.hi < v.lo)⟩

/-- A block that touches no block behind it touches `pxEnd` at most. -/
theorem firstNode_eq_end (h₂ : ∀ t ∈ l₂, s.hi < t.lo) (hy : s.hi = firstNode pxEnd l₂) :
    firstNode pxEnd l₂ = pxEnd := by
  cases l₂ with
  | nil => rfl
  | cons u l₂ => exact absurd (h₂ u List.mem_cons_self) (hy ▸ lt_irrefl _)

theorem FreeList.ne_end {l : List (Span Nat)} (h : FreeList r m pxEnd l) {u : Span Nat}
    (hu : u ∈ l) : u.lo ≠ pxEnd := fun he =>
  absurd (he ▸ (h.bounds u hu).2) u.lo_lt_hi.not_ge

/-- Every insertion is one of the four. -/
theorem Between.inserted (h : Between r m pxEnd l₁ l₂ s) :
    ∃ l, Inserted r m pxEnd s l₁ l₂ (insertBehind m (some pxEnd) (lastNode r l₁) s.lo) l := by
  have hnext := h.list.next_last
  have hsep := separated_append.mp h.list.separated
  have hend : s.lo + m.xBlockSize s.lo = s.hi := by rw [h.size, Span.lo_add_size]
  rcases hsep.1.below_cases h.before with h₁ | ⟨xs, t, rfl, ht⟩
  · have hnot : lastNode r l₁ + m.xBlockSize (lastNode r l₁) ≠ s.lo := by
      rw [Ne, h.lower_iff]
      rintro ⟨l, t, rfl, ht⟩
      exact absurd (h₁ t List.mem_concat_self) (ht ▸ lt_irrefl _)
    rcases hsep.2.1.above_cases h.behind with h₂ | ⟨u, ys, rfl, hu⟩
    · refine ⟨l₁ ++ s :: l₂, ?_⟩
      rw [insertBehind_alone hnext hnot (fun hy => firstNode_eq_end h₂ (hend ▸ hy)) h.last_lt.ne]
      exact .alone h₁ h₂
    · refine ⟨l₁ ++ s.join u hu :: ys, ?_⟩
      have hmem : u ∈ l₁ ++ u :: ys := List.mem_append_right l₁ List.mem_cons_self
      rw [insertBehind_upper (y := u.lo) hnext hnot (hend.trans hu) (h.list.ne_end hmem)
        h.last_lt.ne, h.size, h.list.size u hmem]
      exact .upper h₁ hu
  · have htouch := h.lower_iff.mpr ⟨xs, t, rfl, ht⟩
    have htsize := h.list.size t (List.mem_append_left l₂ List.mem_concat_self)
    rcases hsep.2.1.above_cases h.behind with h₂ | ⟨u, ys, rfl, hu⟩
    · refine ⟨xs ++ t.join s ht :: l₂, ?_⟩
      rw [insertBehind_lower hnext htouch fun hy => firstNode_eq_end h₂ (hend ▸ hy), lastNode_snoc,
        htsize, h.size]
      exact .lower ht h₂
    · refine ⟨xs ++ (t.join s ht).join u hu :: ys, ?_⟩
      have hmem : u ∈ xs ++ [t] ++ u :: ys := List.mem_append_right _ List.mem_cons_self
      rw [insertBehind_both (y := u.lo) hnext htouch (hend.trans hu) (h.list.ne_end hmem)
        (lt_trans h.last_lt (hu ▸ s.lo_lt_hi)).ne', lastNode_snoc, htsize, h.size,
        h.list.size u hmem]
      exact .both ht hu

/-- The nodes up to the block stay linked by an edit of the last of them and of the block. -/
theorem Between.splice (h : Between r m pxEnd l₁ l₂ s) {next : NextList.Heap Nat}
    (hnext : ∀ x, x ≠ lastNode r l₁ → x ≠ s.lo → next x = m.pxNextFreeBlock x) {zs : List Nat} :
    Chain next r.xStart (l₁.map Span.lo ++ zs) ↔ Chain next (lastNode r l₁) zs := by
  have hc := h.list.chain
  rw [List.map_append, List.append_assoc] at hc
  refine hc.splice_iff fun x hx hlast => hnext x hlast ?_
  rcases List.mem_cons.mp hx with rfl | hx
  · exact h.start_lt.ne
  · obtain ⟨t, ht, rfl⟩ := List.mem_map.mp hx
    exact (lt_of_lt_of_le t.lo_lt_hi (h.before t ht)).ne

/-- The nodes behind the block, hung on another node. -/
theorem Between.hang (h : Between r m pxEnd l₁ l₂ s) {next : NextList.Heap Nat}
    (hnext : ∀ x, x ≠ lastNode r l₁ → x ≠ s.lo → next x = m.pxNextFreeBlock x) {p q : Nat}
    {ys : List (Span Nat)} (hys : ∀ x ∈ ys.map Span.lo ++ [pxEnd], s.lo < x)
    (hp : Chain m.pxNextFreeBlock p (ys.map Span.lo ++ [pxEnd]))
    (hq : next q = m.pxNextFreeBlock p) : Chain next q (ys.map Span.lo ++ [pxEnd]) :=
  hp.move hq fun x hx => hnext x (lt_trans h.last_lt (hys x hx)).ne' (hys x hx).ne'

/-- An insertion leaves all cells but two alone. -/
theorem Inserted.cell_eq {m' : Mem} {l : List (Span Nat)} (h : Inserted r m pxEnd s l₁ l₂ m' l)
    {x : Nat} (hlast : x ≠ lastNode r l₁) (hlo : x ≠ s.lo) :
    m'.pxNextFreeBlock x = m.pxNextFreeBlock x ∧ m'.xBlockSize x = m.xBlockSize x := by
  cases h with
  | alone => simp [Function.update_of_ne hlast, Function.update_of_ne hlo]
  | upper => simp [Function.update_of_ne hlast, Function.update_of_ne hlo]
  | lower =>
    rw [lastNode_snoc] at hlast
    simp [Function.update_of_ne hlast]
  | both =>
    rw [lastNode_snoc] at hlast
    simp [Function.update_of_ne hlast]

/-- The blocks behind an insertion are linked behind `xStart`. -/
theorem Inserted.chain {m' : Mem} {l : List (Span Nat)} (hb : Between r m pxEnd l₁ l₂ s)
    (h : Inserted r m pxEnd s l₁ l₂ m' l) :
    Chain m'.pxNextFreeBlock r.xStart (l.map Span.lo ++ [pxEnd]) := by
  have hcell := fun x hx hx' => (h.cell_eq (x := x) hx hx').1
  have hne := hb.last_lt.ne
  have hlast := hb.list.chain_last
  have hnext := hb.list.next_last
  have hbehind := hb.lt_of_mem
  cases h with
  | alone h₁ h₂ =>
    rw [List.map_append, List.append_assoc, hb.splice hcell]
    refine chain_cons.mpr ⟨Function.update_self _ _ _, hb.hang hcell hbehind hlast ?_⟩
    rw [Mem.next_setNext, Function.update_of_ne hne.symm, Mem.next_setNext, Function.update_self,
      hnext]
  | @upper _ ys u h₁ h₂ =>
    rw [List.map_append, List.append_assoc, hb.splice hcell]
    refine chain_cons.mpr ⟨Function.update_self _ _ _, hb.hang hcell
      (fun x hx => hbehind x (List.mem_cons_of_mem u.lo hx)) (chain_cons.mp hlast).2 ?_⟩
    rw [Mem.next_setNext, Span.join_lo, Function.update_of_ne hne.symm, Mem.next_setNext,
      Function.update_self]
  | @lower xs ys t h₁ h₂ =>
    have hsame : (xs ++ t.join s h₁ :: l₂).map Span.lo = (xs ++ [t] ++ l₂).map Span.lo := by
      simp [Span.join]
    rw [hsame, Mem.next_setSize]
    exact hb.list.chain
  | @both xs ys t u h₁ h₂ =>
    have hsame : (xs ++ (t.join s h₁).join u h₂ :: ys).map Span.lo ++ [pxEnd] =
        (xs ++ [t]).map Span.lo ++ (ys.map Span.lo ++ [pxEnd]) := by
      simp [Span.join]
    rw [hsame, hb.splice hcell]
    refine hb.hang hcell (fun x hx => hbehind x (List.mem_cons_of_mem u.lo hx))
      (chain_cons.mp hlast).2 ?_
    rw [lastNode_snoc, Mem.next_setNext, Function.update_self]

theorem Between.lo_ne (h : Between r m pxEnd l₁ l₂ s) {t : Span Nat} (ht : t ∈ l₁ ++ l₂) :
    t.lo ≠ s.lo := by
  rcases List.mem_append.mp ht with ht | ht
  · exact (lt_of_lt_of_le t.lo_lt_hi (h.before t ht)).ne
  · exact (lt_of_lt_of_le s.lo_lt_hi (h.behind t ht)).ne'

/-- Blocks of a separated list with one start are one block. -/
theorem lo_ne_of_separated {xs ys : List (Span Nat)} {t u : Span Nat}
    (h : Separated (xs ++ t :: ys)) (hu : u ∈ xs ++ ys) : u.lo ≠ t.lo := by
  obtain ⟨-, hys, hxs⟩ := separated_append.mp h
  rcases List.mem_append.mp hu with hu | hu
  · exact (lt_trans u.lo_lt_hi (hxs u hu t List.mem_cons_self)).ne
  · exact (lt_trans t.lo_lt_hi ((separated_cons.mp hys).1 u hu)).ne'

/-- The blocks behind an insertion have the sizes of their spans. -/
theorem Inserted.size {m' : Mem} {l : List (Span Nat)} (hb : Between r m pxEnd l₁ l₂ s)
    (h : Inserted r m pxEnd s l₁ l₂ m' l) : ∀ t ∈ l, m'.xBlockSize t.lo = t.size := by
  have hsize := hb.list.size
  have hne := fun t ht => hb.lo_ne (t := t) ht
  have hsep := hb.list.separated
  cases h with
  | alone h₁ h₂ =>
    intro t ht
    rcases mem_middle.mp ht with rfl | ht
    · exact hb.size
    · exact hsize t ht
  | @upper _ ys u h₁ h₂ =>
    intro t ht
    rcases mem_middle.mp ht with rfl | ht
    · exact (Function.update_self _ _ _).trans (Span.size_join h₂).symm
    · have hmem : t ∈ l₁ ++ u :: ys := mem_middle.mpr (Or.inr ht)
      exact (Function.update_of_ne (hne t hmem) _ _).trans (hsize t hmem)
  | @lower xs ys t h₁ h₂ =>
    rw [List.append_assoc, List.singleton_append] at hsize hsep
    intro v hv
    rcases mem_middle.mp hv with rfl | hv
    · exact (Function.update_self _ _ _).trans (Span.size_join h₁).symm
    · exact (Function.update_of_ne (lo_ne_of_separated hsep hv) _ _).trans
        (hsize v (mem_middle.mpr (Or.inr hv)))
  | @both xs ys t u h₁ h₂ =>
    rw [List.append_assoc, List.singleton_append] at hsize hsep
    intro v hv
    rcases mem_middle.mp hv with rfl | hv
    · have hjoin : ((t.join s h₁).join u h₂).size = t.size + s.size + u.size :=
        (Span.size_join (s := t.join s h₁) h₂).trans (congrArg (· + u.size) (Span.size_join h₁))
      exact (Function.update_self _ _ _).trans hjoin.symm
    · have hmem : v ∈ xs ++ u :: ys := mem_middle.mpr (Or.inr hv)
      exact (Function.update_of_ne (lo_ne_of_separated hsep hmem) _ _).trans
        (hsize v (mem_middle.mpr (Or.inr hmem)))

theorem Between.insert (hb : Between r m pxEnd l₁ l₂ s) {m' : Mem} {l : List (Span Nat)}
    (h : Inserted r m pxEnd s l₁ l₂ m' l) : FreeList r m' pxEnd l where
  chain := h.chain hb
  size := h.size hb
  size_start := by
    have hne := hb.start_lt.ne
    have hblock : ∀ t ∈ l₁ ++ l₂, r.xStart ≠ t.lo := fun t ht => (hb.list.mem_ne_start ht).symm
    rw [← hb.list.size_start]
    cases h with
    | alone => rfl
    | upper => exact Function.update_of_ne hne _ _
    | lower =>
      exact Function.update_of_ne (hblock _ (List.mem_append_left _ List.mem_concat_self)) _ _
    | both =>
      exact Function.update_of_ne (hblock _ (List.mem_append_left _ List.mem_concat_self)) _ _
  size_end := by
    have hend : s.lo < pxEnd := lt_of_lt_of_le s.lo_lt_hi hb.bounds.2
    rw [(h.cell_eq (lt_trans hb.last_lt hend).ne' hend.ne').2, hb.list.size_end]
  separated := h.list_eq hb.list.separated ▸ separated_insert hb.list.separated hb.apart
  bounds := h.list_eq hb.list.separated ▸
    forall_insert (P := fun u => r.ucHeap ≤ u.lo ∧ u.hi ≤ pxEnd)
    (fun _ _ _ ht hu => ⟨ht.1, hu.2⟩) hb.bounds hb.list.bounds

/-- The block goes into the free list, whatever touches it. -/
theorem FreeList.insert_spec {h : Heap} {l : List (Span Nat)}
    (hlist : FreeList r h.mem pxEnd l) (hend : h.pxEnd = some pxEnd)
    (hsize : h.mem.xBlockSize s.lo = s.size) (hbounds : r.ucHeap ≤ s.lo ∧ s.hi ≤ pxEnd)
    (hs : ∀ t ∈ l, s.Apart t) (hrounds : l.length < r.rounds) :
    ∃ l₁ l₂ m', l = l₁ ++ l₂ ∧ Between r h.mem pxEnd l₁ l₂ s ∧
      Inserted r h.mem pxEnd s l₁ l₂ m' (Spans.insert s l) ∧
      prvInsertBlockIntoFreeList r h s.lo = some { h with mem := m' } := by
  obtain ⟨l₁, l₂, rfl, h₁, h₂⟩ := hlist.separated.exists_split hs
  have hb : Between r h.mem pxEnd l₁ l₂ s := ⟨hlist, hsize, hbounds, h₁, h₂⟩
  obtain ⟨l, hl⟩ := hb.inserted
  have hplace := hb.insertPlace_eq
    (Nat.lt_of_le_of_lt (List.sublist_append_left l₁ l₂).length_le hrounds)
  refine ⟨l₁, l₂, _, rfl, hb, hl.list_eq hlist.separated ▸ hl, ?_⟩
  unfold prvInsertBlockIntoFreeList
  rw [hplace, hend]
  rfl

end Insert

end ArduinoT2.Kernel
