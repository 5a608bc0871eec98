import ArduinoT2.Kernel.Lists
import Mathlib.Data.List.TakeWhile

/-
  Runs of calls of the lists of the kernel.

  `Rep m a` says that the memory `m` holds the lists `a`: from the end marker of a list its items
  follow each other in a ring. Every function of list.c puts a node into a ring or takes one out
  (`rep_put`, `rep_take`); the places are those behind the items `as` when the list is `as ++ bs`.
-/

namespace ArduinoT2.Kernel

open Ring StepSys

variable {L I : Type} [DecidableEq L] [DecidableEq I]

/-! ## The lists as sequences -/

section Sequences

variable {x c : I} {xs : List I}

theorem upTo_append_onFrom (x : I) (xs : List I) : upTo x xs ++ onFrom x xs = xs :=
  List.takeWhile_append_dropWhile

/-- A list is split at one of its members. -/
theorem onFrom_of_mem (h : x ∈ xs) : onFrom x xs = x :: (onFrom x xs).tail := by
  induction xs with
  | nil => cases h
  | cons y ys ih =>
    by_cases hy : y = x
    · simp [onFrom, hy]
    · have hmem : x ∈ ys := (List.mem_cons.1 h).resolve_left fun he => hy he.symm
      have hdrop : onFrom x (y :: ys) = onFrom x ys := by simp [onFrom, hy]
      rw [hdrop]
      exact ih hmem

theorem split_of_mem (h : x ∈ xs) : upTo x xs ++ x :: (onFrom x xs).tail = xs := by
  have hon := onFrom_of_mem h
  rw [← hon, upTo_append_onFrom]

theorem not_mem_upTo (x : I) (xs : List I) : x ∉ upTo x xs := fun h => by
  simpa using List.mem_takeWhile_imp h

theorem erase_eq_split (h : x ∈ xs) : xs.erase x = upTo x xs ++ (onFrom x xs).tail := by
  have hsplit := split_of_mem h
  calc xs.erase x = (upTo x xs ++ x :: (onFrom x xs).tail).erase x := by rw [hsplit]
    _ = upTo x xs ++ (onFrom x xs).tail := by
      rw [List.erase_append_right _ (not_mem_upTo x xs), List.erase_cons_head]

/-- Where `insertEnd` puts an item. -/
theorem insertEnd_split {index : Option I} (x : I) (h : ∀ c, index = some c → c ∈ xs) :
    ∃ as bs, xs = as ++ bs ∧ bs.head? = index ∧ insertEnd index x xs = as ++ x :: bs := by
  cases index with
  | none => exact ⟨xs, [], (List.append_nil _).symm, rfl, rfl⟩
  | some c =>
    refine ⟨upTo c xs, onFrom c xs, (upTo_append_onFrom c xs).symm, ?_, rfl⟩
    have hon := onFrom_of_mem (h c rfl)
    rw [hon]
    rfl

theorem insertEnd_perm (index : Option I) (x : I) (xs : List I) :
    (insertEnd index x xs).Perm (x :: xs) := by
  cases index with
  | none => exact List.perm_append_singleton x xs
  | some c =>
    have hmiddle : (insertEnd (some c) x xs).Perm (x :: (upTo c xs ++ onFrom c xs)) :=
      List.perm_middle
    rwa [upTo_append_onFrom] at hmiddle

omit [DecidableEq I] in
theorem insertSorted_perm (value : I → UInt32) (x : I) (xs : List I) :
    (insertSorted value x xs).Perm (x :: xs) := by
  have hmiddle : (insertSorted value x xs).Perm (x :: (_ ++ _)) := List.perm_middle
  rwa [List.takeWhile_append_dropWhile] at hmiddle

theorem itemsBehind_subset (index : Option I) (xs : List I) : itemsBehind index xs ⊆ xs := by
  cases index with
  | none => exact fun y hy => hy
  | some c => exact fun y hy => (List.dropWhile_suffix _).subset (List.mem_of_mem_tail hy)

theorem nextEntry_mem {index : Option I} (h : nextEntry index xs = some x) : x ∈ xs := by
  obtain h | ⟨-, h⟩ := Option.or_eq_some_iff.1 h
  · exact itemsBehind_subset index xs (List.mem_of_mem_head? h)
  · exact List.mem_of_mem_head? h

theorem indexWithout_mem {index : Option I} (hin : ∀ c, index = some c → c ∈ xs)
    (h : indexWithout index x xs = some c) : c ∈ xs ∧ c ≠ x := by
  unfold indexWithout at h
  split_ifs at h with hx
  · have hmem : c ∈ upTo x xs := List.mem_of_getLast? h
    exact ⟨(List.takeWhile_prefix _).subset hmem, fun he => not_mem_upTo x xs (he ▸ hmem)⟩
  · exact ⟨hin c h, fun he => hx (he ▸ h)⟩

end Sequences

/-! ## What the calls keep -/

namespace Lists

variable {a : Lists L I} {l : L} {x : I}

theorem Ok.put (h : a.Ok) (hl : a.made l = true) (hk : a.known x = true)
    (hx : a.container x = none) {xs : List I} (hxs : xs.Perm (x :: a.items l)) :
    (a.put l x xs).Ok := by
  have hout : ∀ l', x ∉ a.items l' := fun l' hmem => by
    have hin := (h.container l' x).2 hmem
    rw [hx] at hin
    cases hin
  have hitems : ∀ l' y, y ∈ (a.put l x xs).items l' ↔ y = x ∧ l' = l ∨ y ∈ a.items l' := by
    intro l' y
    by_cases hl' : l' = l
    · have hmem := hxs.mem_iff (a := y)
      simp only [Lists.put, Lists.setContainer, Lists.setItems, hl', Function.update_self, hmem,
        List.mem_cons, and_true]
    · simp only [Lists.put, Lists.setContainer, Lists.setItems, ne_eq, hl', not_false_eq_true,
        Function.update_of_ne, and_false, false_or]
  constructor
  · intro l' y hy
    obtain ⟨-, rfl⟩ | hy := (hitems l' y).1 hy
    · exact hl
    · exact h.made l' y hy
  · intro l' y hy
    obtain ⟨rfl, -⟩ | hy := (hitems l' y).1 hy
    · exact hk
    · exact h.known l' y hy
  · intro l' y
    rw [hitems]
    by_cases hyx : y = x
    · subst hyx
      simp [Lists.put, Lists.setContainer, hout, eq_comm]
    · have hold := h.container l' y
      simp [Lists.put, Lists.setContainer, Lists.setItems, hyx, hold]
  · intro l'
    by_cases hl' : l' = l
    · subst hl'
      have hnd : xs.Nodup := hxs.nodup_iff.2 (List.nodup_cons.2 ⟨hout l', h.nodup l'⟩)
      simpa [Lists.put, Lists.setContainer, Lists.setItems] using hnd
    · simpa [Lists.put, Lists.setContainer, Lists.setItems, hl'] using h.nodup l'
  · intro l' c hc
    exact (hitems l' c).2 (.inr (h.index l' c hc))

theorem Ok.take (h : a.Ok) (hx : a.container x = some l) :
    (a.take l x).Ok := by
  have hin : ∀ l', x ∈ a.items l' → l' = l := fun l' hmem => by
    have hl' := (h.container l' x).2 hmem
    rw [hx] at hl'
    exact (Option.some.inj hl').symm
  have hitems : ∀ l' y, y ∈ (a.take l x).items l' ↔ y ≠ x ∧ y ∈ a.items l' := by
    intro l' y
    by_cases hl' : l' = l
    · have hmem := (h.nodup l).mem_erase_iff (a := y) (b := x)
      simp only [Lists.take, Lists.setContainer, Lists.setItems, Lists.setIndex, hl',
        Function.update_self, hmem]
    · have hne : y ∈ a.items l' → y ≠ x := fun hy he => hl' (hin l' (he ▸ hy))
      simp only [Lists.take, Lists.setContainer, Lists.setItems, Lists.setIndex, ne_eq, hl',
        not_false_eq_true, Function.update_of_ne]
      exact ⟨fun hy => ⟨hne hy, hy⟩, And.right⟩
  constructor
  · exact fun l' y hy => h.made l' y ((hitems l' y).1 hy).2
  · exact fun l' y hy => h.known l' y ((hitems l' y).1 hy).2
  · intro l' y
    rw [hitems]
    by_cases hyx : y = x
    · subst hyx
      simp [Lists.take, Lists.setContainer]
    · have hold := h.container l' y
      simp [Lists.take, Lists.setContainer, Lists.setItems, Lists.setIndex, hyx, hold]
  · intro l'
    by_cases hl' : l' = l
    · subst hl'
      simpa [Lists.take, Lists.setContainer, Lists.setItems, Lists.setIndex] using
        (h.nodup l').erase x
    · simpa [Lists.take, Lists.setContainer, Lists.setItems, Lists.setIndex, hl'] using h.nodup l'
  · intro l' c hc
    by_cases hl' : l' = l
    · subst hl'
      have hc' : indexWithout (a.index l') x (a.items l') = some c := by
        simpa [Lists.take, Lists.setContainer, Lists.setItems, Lists.setIndex] using hc
      exact (hitems l' c).2 (indexWithout_mem (h.index l') hc').symm
    · have hc' : a.index l' = some c := by
        simpa [Lists.take, Lists.setContainer, Lists.setItems, Lists.setIndex, hl'] using hc
      have hmem := h.index l' c hc'
      exact (hitems l' c).2 ⟨fun he => hl' (hin l' (he ▸ hmem)), hmem⟩

omit [DecidableEq I] in
theorem Ok.setIndex (h : a.Ok) {index : Option I} (hin : ∀ c, index = some c → c ∈ a.items l) :
    (a.setIndex l index).Ok := by
  refine ⟨h.made, h.known, h.container, h.nodup, fun l' c hc => ?_⟩
  by_cases hl' : l' = l
  · subst hl'
    exact hin c (by simpa [Lists.setIndex] using hc)
  · exact h.index l' c (by simpa [Lists.setIndex, hl'] using hc)

/-- A call keeps the lists in order. -/
theorem Ok.call (h : a.Ok) {c : ListCall L I} (hc : a.Legal c) : (a.call c).1.Ok := by
  cases c with
  | initialise l =>
    have hidx : (a.setIndex l none).Ok := h.setIndex fun c hc => by cases hc
    refine ⟨fun l' y hy => ?_, hidx.known, hidx.container, hidx.nodup, hidx.index⟩
    have hl' : l' ≠ l := fun he => by
      have hmem : y ∈ a.items l := he ▸ hy
      rw [hc] at hmem
      cases hmem
    simpa [Lists.call, hl'] using h.made l' y hy
  | initialiseItem x =>
    refine ⟨h.made, fun l' y hy => ?_, h.container, h.nodup, h.index⟩
    by_cases hyx : y = x
    · simp [Lists.call, hyx]
    · simpa [Lists.call, hyx] using h.known l' y hy
  | setValue x v => exact ⟨h.made, h.known, h.container, h.nodup, h.index⟩
  | insertEnd l x => exact h.put hc.1 hc.2.1 hc.2.2 (insertEnd_perm _ _ _)
  | insert l x => exact h.put hc.1 hc.2.1 hc.2.2 (insertSorted_perm _ _ _)
  | remove x =>
    obtain ⟨l, hl⟩ := Option.ne_none_iff_exists'.1 hc
    simpa only [Lists.call, hl] using h.take hl
  | nextEntry l => exact h.setIndex fun c hc => nextEntry_mem hc
  | headEntry | headValue | length | contains => exact h

end Lists

/-! ## What the memory holds -/

/-- The fields `pxNext` and `pxPrevious`. -/
def ListMem.links (m : ListMem L I) : Links (Node L I) := ⟨m.pxNext, m.pxPrevious⟩

/-- The ring of list `l` with the items `xs`. -/
def nodes (l : L) (xs : List I) : List (Node L I) := .xListEnd l :: xs.map .item

/-- The node behind which a list goes on with the items that follow `as`. -/
def tailNode (l : L) (as : List I) : Node L I := (as.getLast?.map .item).getD (.xListEnd l)

/-- The node that the items `bs` start with when they are the end of a list. -/
def headNode (l : L) (bs : List I) : Node L I := (bs.head?.map .item).getD (.xListEnd l)

/-- The memory holds the lists. -/
structure Rep (m : ListMem L I) (a : Lists L I) : Prop where
  ok : a.Ok
  ring : ∀ l, a.made l = true → IsRing m.links (nodes l (a.items l))
  mark : ∀ l, a.made l = true → m.xItemValue (.xListEnd l) = portMaxDelay
  count : ∀ l, a.made l = true → m.uxNumberOfItems l = (a.items l).length
  index : ∀ l, a.made l = true → m.pxIndex l = ((a.index l).map .item).getD (.xListEnd l)
  container : ∀ x, a.known x = true → m.pvContainer x = a.container x
  value : ∀ x, m.xItemValue (.item x) = a.value x

section Rings

omit [DecidableEq L] [DecidableEq I]

variable {s : Links (Node L I)} {l : L} {as bs : List I} {x : I}

/-- A list is a ring of a front that ends with `tailNode` and the rest. -/
theorem nodes_split (l : L) (as bs : List I) :
    ∃ front, nodes l (as ++ bs) = front ++ tailNode l as :: bs.map .item := by
  obtain rfl | ⟨ys, y, rfl⟩ : as = [] ∨ ∃ ys y, as = ys ++ [y] :=
    (List.eq_nil_or_concat as).imp_right fun ⟨ys, y, h⟩ => ⟨ys, y, by simpa using h⟩
  · exact ⟨[], rfl⟩
  · exact ⟨.xListEnd l :: ys.map .item, by simp [nodes, tailNode]⟩

theorem ring_next (h : IsRing s (nodes l (as ++ bs))) :
    s.next (tailNode l as) = headNode l bs ∧ s.prev (headNode l bs) = tailNode l as := by
  obtain rfl | ⟨ys, y, rfl⟩ : as = [] ∨ ∃ ys y, as = ys ++ [y] :=
    (List.eq_nil_or_concat as).imp_right fun ⟨ys, y, h⟩ => ⟨ys, y, by simpa using h⟩
  · match bs, h with
    | [], h => exact h.alone_eq
    | b :: bs, h => exact IsRing.next_eq [] _ h
  · have hlast : tailNode l (ys ++ [y]) = .item y := by simp [tailNode]
    rw [hlast]
    match bs, h with
    | [], h =>
      refine IsRing.last_eq (ys.map .item) ?_
      simpa [nodes, headNode] using h
    | b :: bs, h =>
      refine IsRing.next_eq (.xListEnd l :: ys.map .item) (bs.map .item) ?_
      simpa [nodes, headNode] using h

section Edits

variable [DecidableEq L] [DecidableEq I]

theorem ring_put (h : IsRing s (nodes l (as ++ bs))) (hx : x ∉ as ++ bs) :
    IsRing (s.insertAfter (tailNode l as) (.item x)) (nodes l (as ++ x :: bs)) := by
  obtain ⟨front, hfront⟩ := nodes_split l as bs
  have hins : nodes l (as ++ x :: bs) = front ++ tailNode l as :: .item x :: bs.map .item := by
    have hold : nodes l as = front ++ [tailNode l as] := by
      refine (List.append_left_inj (bs.map Node.item)).1 ?_
      simpa [nodes] using hfront
    calc nodes l (as ++ x :: bs) = nodes l as ++ .item x :: bs.map .item := by simp [nodes]
      _ = front ++ tailNode l as :: .item x :: bs.map .item := by simp [hold]
  rw [hfront] at h
  rw [hins]
  refine isRing_insertAfter h ?_
  rw [← hfront]
  simpa [nodes] using hx

theorem ring_take (h : IsRing s (nodes l (as ++ x :: bs))) :
    IsRing (s.unlink (.item x)) (nodes l (as ++ bs)) := by
  have hsplit : nodes l (as ++ x :: bs) = nodes l as ++ .item x :: bs.map .item := by simp [nodes]
  have hrest : nodes l (as ++ bs) = nodes l as ++ bs.map .item := by simp [nodes]
  rw [hsplit] at h
  rw [hrest]
  exact isRing_unlink h (by simp [nodes])

end Edits

theorem lastNode_mem (l : L) (as bs : List I) : tailNode l as ∈ nodes l (as ++ bs) := by
  obtain ⟨front, hfront⟩ := nodes_split l as bs
  simp [hfront]

theorem firstNode_mem (l : L) (as bs : List I) : headNode l bs ∈ nodes l (as ++ bs) := by
  cases bs with
  | nil => simp [headNode, nodes]
  | cons b bs => simp [headNode, nodes]

end Rings

section Edits

variable {m m' : ListMem L I} {a : Lists L I} {l : L} {x : I} {as bs : List I}

omit [DecidableEq L] [DecidableEq I] in
theorem Lists.Ok.not_mem (h : a.Ok) (hx : a.container x = none) (l : L) :
    x ∉ a.items l := fun hmem => by
  have hin := (h.container l x).2 hmem
  rw [hx] at hin
  cases hin

omit [DecidableEq L] [DecidableEq I] in
/-- The rings of two lists have no node in common. -/
theorem Lists.Ok.apart (h : a.Ok) {l' : L} (hl : l' ≠ l) {n : Node L I}
    (hn : n ∈ nodes l (a.items l)) : n ∉ nodes l' (a.items l') := fun hn' => by
  cases n with
  | xListEnd k =>
    have hk : k = l := by simpa [nodes] using hn
    have hk' : k = l' := by simpa [nodes] using hn'
    exact hl (hk'.symm.trans hk)
  | item y =>
    have hy : y ∈ a.items l := by simpa [nodes] using hn
    have hy' : y ∈ a.items l' := by simpa [nodes] using hn'
    have hin := (h.container l y).2 hy
    rw [(h.container l' y).2 hy'] at hin
    exact hl (Option.some.inj hin)

/-- An item that is put behind the items `as` of a list. -/
theorem rep_put (h : Rep m a) (hl : a.made l = true) (hk : a.known x = true)
    (hx : a.container x = none) (hsplit : a.items l = as ++ bs)
    (hlinks : m'.links = m.links.insertAfter (tailNode l as) (.item x))
    (hvalue : m'.xItemValue = m.xItemValue) (hindex : m'.pxIndex = m.pxIndex)
    (hcont : m'.pvContainer = Function.update m.pvContainer x (some l))
    (hcount : m'.uxNumberOfItems =
      Function.update m.uxNumberOfItems l (m.uxNumberOfItems l + 1)) :
    Rep m' (a.put l x (as ++ x :: bs)) := by
  have hring := h.ring l hl
  rw [hsplit] at hring
  have hout := h.ok.not_mem hx
  refine ⟨h.ok.put hl hk hx (hsplit ▸ List.perm_middle), fun l' hl' => ?_, ?_, fun l' hl' => ?_,
    ?_, fun y hy => ?_, ?_⟩
  · rw [hlinks]
    by_cases he : l' = l
    · subst he
      have hnew := ring_put hring (hsplit ▸ hout l')
      simpa [Lists.put, Lists.setContainer, Lists.setItems] using hnew
    · have hframe := (h.ring l' hl').insertAfter_frame (p := tailNode l as) (x := .item x)
        (h.ok.apart he (hsplit ▸ lastNode_mem l as bs)) (by simpa [nodes] using hout l')
        ((ring_next hring).1 ▸ h.ok.apart he (hsplit ▸ firstNode_mem l as bs))
      simpa [Lists.put, Lists.setContainer, Lists.setItems, he] using hframe
  · rw [hvalue]
    exact h.mark
  · rw [hcount]
    by_cases he : l' = l
    · subst he
      have hold := h.count l' hl
      simp [Lists.put, Lists.setContainer, Lists.setItems, hold, hsplit]
      omega
    · simpa [Lists.put, Lists.setContainer, Lists.setItems, he] using h.count l' hl'
  · rw [hindex]
    exact h.index
  · rw [hcont]
    by_cases he : y = x
    · simp [Lists.put, Lists.setContainer, he]
    · simpa [Lists.put, Lists.setContainer, Lists.setItems, he] using h.container y hy
  · rw [hvalue]
    exact h.value

theorem vListInsertEnd_rep (h : Rep m a) (hl : a.made l = true) (hk : a.known x = true)
    (hx : a.container x = none) :
    Rep (vListInsertEnd m l x) (a.put l x (insertEnd (a.index l) x (a.items l))) := by
  obtain ⟨as, bs, hsplit, hhead, hins⟩ := insertEnd_split x (h.ok.index l)
  have hring := h.ring l hl
  rw [hsplit] at hring
  have hnext : m.pxNext (tailNode l as) = headNode l bs := (ring_next hring).1
  have hprev : m.pxPrevious (headNode l bs) = tailNode l as := (ring_next hring).2
  have hidx : m.pxIndex l = headNode l bs := by rw [h.index l hl, headNode, hhead]
  have hfirst : headNode l bs ≠ .item x := fun he => by
    have hmem := firstNode_mem l as bs
    rw [he] at hmem
    exact h.ok.not_mem hx l (by simpa [nodes, hsplit] using hmem)
  rw [hins]
  refine rep_put h hl hk hx hsplit (Links.ext ?_ ?_) rfl rfl rfl rfl
  · simp [vListInsertEnd, ListMem.links, ListMem.setNext, ListMem.setPrevious,
      ListMem.setContainer, ListMem.setCount, Links.insertAfter, hidx, hfirst, hprev, hnext]
  · simp [vListInsertEnd, ListMem.links, ListMem.setNext, ListMem.setPrevious,
      ListMem.setContainer, ListMem.setCount, Links.insertAfter, hidx, hprev, hnext,
      Function.update_comm hfirst]

omit [DecidableEq L] [DecidableEq I] in
/-- The loop of `vListInsert` ends behind the items with no greater value. -/
theorem iterateTo_eq {v : UInt32} (hv : v ≠ portMaxDelay)
    (hmark : m.xItemValue (.xListEnd l) = portMaxDelay)
    (hvalue : ∀ x, m.xItemValue (.item x) = a.value x)
    (hring : IsRing m.links (nodes l (as ++ bs))) {rounds : Nat} (hr : bs.length < rounds) :
    iterateTo m v rounds (tailNode l as) =
      some (tailNode l (as ++ bs.takeWhile fun y => a.value y ≤ v)) := by
  induction bs generalizing as rounds with
  | nil =>
    have hnext : m.pxNext (tailNode l as) = .xListEnd l := (ring_next hring).1
    have hlt : ¬ portMaxDelay ≤ v := fun hle => by
      have hmax := v.toNat_lt
      rw [UInt32.le_iff_toNat_le] at hle
      rw [← UInt32.toNat_inj.ne] at hv
      simp only [portMaxDelay, UInt32.reduceToNat] at hle hv
      omega
    cases rounds with
    | zero => cases hr
    | succ rounds => simp [iterateTo, hnext, hmark, hlt]
  | cons b bs ih =>
    have hnext : m.pxNext (tailNode l as) = .item b := (ring_next hring).1
    have hlast : tailNode l (as ++ [b]) = .item b := by simp [tailNode]
    cases rounds with
    | zero => cases hr
    | succ rounds =>
      by_cases hb : a.value b ≤ v
      · have hring' : IsRing m.links (nodes l ((as ++ [b]) ++ bs)) := by simpa using hring
        have hrest := ih hring' (Nat.lt_of_succ_lt_succ hr)
        rw [hlast] at hrest
        simp [iterateTo, hnext, hvalue, hb, hrest]
      · simp [iterateTo, hnext, hvalue, hb]

omit [DecidableEq I] in
/-- No value is greater than `portMAX_DELAY`. -/
theorem takeWhile_of_max {value : I → UInt32} {xs : List I} (hx : value x = portMaxDelay) :
    (xs.takeWhile fun y => decide (value y ≤ value x)) = xs := by
  refine List.takeWhile_eq_self_iff.2 fun y _ => decide_eq_true ?_
  have hmax := (value y).toNat_lt
  rw [hx, UInt32.le_iff_toNat_le]
  simp only [portMaxDelay, UInt32.reduceToNat]
  omega

theorem insertBehindNode_rep (h : Rep m a) (hl : a.made l = true) (hk : a.known x = true)
    (hx : a.container x = none) (hsplit : a.items l = as ++ bs) :
    Rep (insertBehindNode m l x (tailNode l as)) (a.put l x (as ++ x :: bs)) := by
  have hring := h.ring l hl
  rw [hsplit] at hring
  have hnext : m.pxNext (tailNode l as) = headNode l bs := (ring_next hring).1
  refine rep_put h hl hk hx hsplit (Links.ext ?_ ?_) rfl rfl rfl rfl
  · simp [insertBehindNode, ListMem.links, ListMem.setNext, ListMem.setPrevious,
      ListMem.setContainer, ListMem.setCount, Links.insertAfter]
  · simp [insertBehindNode, ListMem.links, ListMem.setNext, ListMem.setPrevious,
      ListMem.setContainer, ListMem.setCount, Links.insertAfter]

omit [DecidableEq L] [DecidableEq I] in
theorem insertionPosition_eq (h : Rep m a) (hl : a.made l = true) (x : I) :
    insertionPosition m l (a.value x) =
      some (tailNode l ((a.items l).takeWhile fun y => a.value y ≤ a.value x)) := by
  have hring := h.ring l hl
  unfold insertionPosition
  by_cases hmax : a.value x = portMaxDelay
  · have hend : m.pxPrevious (.xListEnd l) = tailNode l (a.items l) := by
      rw [← List.append_nil (a.items l)] at hring
      exact (ring_next hring).2
    rw [if_pos hmax, hend, takeWhile_of_max hmax]
  · rw [if_neg hmax, h.count l hl]
    have hring' : IsRing m.links (nodes l ([] ++ a.items l)) := hring
    have hloop := iterateTo_eq hmax (h.mark l hl) h.value hring' (Nat.lt_succ_self _)
    exact hloop

theorem vListInsert_rep (h : Rep m a) (hl : a.made l = true) (hk : a.known x = true)
    (hx : a.container x = none) :
    ∃ m', vListInsert m l x = some m' ∧
      Rep m' (a.put l x (insertSorted a.value x (a.items l))) := by
  have hplace := insertionPosition_eq h hl x
  refine ⟨_, ?_, insertBehindNode_rep h hl hk hx List.takeWhile_append_dropWhile.symm⟩
  rw [vListInsert, h.value, hplace]
  rfl

/-! ## Taking out -/

omit [DecidableEq L] in
theorem Rep.neighbours (h : Rep m a) (hl : a.made l = true) (hmem : x ∈ a.items l) :
    m.pxPrevious (.item x) = tailNode l (upTo x (a.items l)) ∧
      m.pxNext (.item x) = headNode l (onFrom x (a.items l)).tail := by
  have hring := h.ring l hl
  rw [← split_of_mem hmem] at hring
  refine ⟨(ring_next hring).2, ?_⟩
  have hback : IsRing m.links
      (nodes l ((upTo x (a.items l) ++ [x]) ++ (onFrom x (a.items l)).tail)) := by
    simpa using hring
  have hlast : tailNode l (upTo x (a.items l) ++ [x]) = .item x := by simp [tailNode]
  have hnext := (ring_next hback).1
  rwa [hlast] at hnext

/-- What `uxListRemove` does to the fields. -/
theorem removeFrom_eq (m : ListMem L I) (l : L) (x : I) :
    removeFrom m l x = (m.uxNumberOfItems l - 1,
      { m with
        pxNext := (m.links.unlink (.item x)).next
        pxPrevious := (m.links.unlink (.item x)).prev
        pvContainer := Function.update m.pvContainer x none
        uxNumberOfItems := Function.update m.uxNumberOfItems l (m.uxNumberOfItems l - 1)
        pxIndex := Function.update m.pxIndex l
          (if m.pxIndex l = .item x then m.pxPrevious (.item x) else m.pxIndex l) }) := by
  have hself : Function.update m.pxPrevious (m.pxNext (.item x)) (m.pxPrevious (.item x))
      (.item x) = m.pxPrevious (.item x) := by
    by_cases he : m.pxNext (.item x) = .item x
    · rw [he, Function.update_self]
    · rw [Function.update_of_ne (Ne.symm he)]
  by_cases hidx : m.pxIndex l = .item x
  · simp [removeFrom, ListMem.links, ListMem.setPrevious, ListMem.setNext, ListMem.setIndex,
      ListMem.setContainer, ListMem.setCount, Links.unlink, hself, hidx]
  · simp [removeFrom, ListMem.links, ListMem.setPrevious, ListMem.setNext, ListMem.setContainer,
      ListMem.setCount, Links.unlink, hself, hidx]

theorem removeFrom_rep (h : Rep m a) (hl : a.made l = true) (hx : a.container x = some l) :
    (removeFrom m l x).1 = (a.items l).length - 1 ∧ Rep (removeFrom m l x).2 (a.take l x) := by
  have hmem := (h.ok.container l x).1 hx
  have hsplit := split_of_mem hmem
  have herase := erase_eq_split hmem
  have hcount := h.count l hl
  rw [removeFrom_eq]
  refine ⟨by rw [hcount], h.ok.take hx, fun l' hl' => ?_, h.mark, fun l' hl' => ?_,
    fun l' hl' => ?_, fun y hy => ?_, h.value⟩
  · change IsRing (m.links.unlink (.item x)) _
    by_cases he : l' = l
    · subst he
      have hring := h.ring l' hl
      rw [← hsplit] at hring
      have hnew := ring_take hring
      rw [← herase] at hnew
      simpa [Lists.take, Lists.setContainer, Lists.setItems, Lists.setIndex] using hnew
    · have hin : ∀ n ∈ nodes l (a.items l), n ∉ nodes l' (a.items l') := fun n => h.ok.apart he
      have hxin : Node.item x ∈ nodes l (a.items l) := by simpa [nodes] using hmem
      obtain ⟨hnin, hpin⟩ := (h.ring l hl).mem hxin
      have hframe := (h.ring l' hl').unlink_frame (hin _ hnin) (hin _ hpin)
      simpa [Lists.take, Lists.setContainer, Lists.setItems, Lists.setIndex, he] using hframe
  · by_cases he : l' = l
    · subst he
      simp [Lists.take, Lists.setContainer, Lists.setItems, Lists.setIndex, hcount,
        List.length_erase_of_mem hmem]
    · simpa [Lists.take, Lists.setContainer, Lists.setItems, Lists.setIndex, he] using
        h.count l' hl'
  · by_cases he : l' = l
    · subst he
      have hidx := h.index l' hl
      have hprev := (h.neighbours hl hmem).1
      have hiff : m.pxIndex l' = .item x ↔ a.index l' = some x := by
        rw [hidx]
        cases a.index l' with
        | none => simp
        | some c => simp
      by_cases hc : a.index l' = some x
      · simp [Lists.take, Lists.setContainer, Lists.setIndex, indexWithout, hiff.2 hc, hc, hprev,
          tailNode]
      · have hnot := mt hiff.1 hc
        rw [hidx] at hnot
        simp [Lists.take, Lists.setContainer, Lists.setIndex, indexWithout, hc, hidx, hnot]
    · simpa [Lists.take, Lists.setContainer, Lists.setItems, Lists.setIndex, he] using
        h.index l' hl'
  · by_cases he : y = x
    · simp [Lists.take, Lists.setContainer, he]
    · simpa [Lists.take, Lists.setContainer, Lists.setItems, Lists.setIndex, he] using
        h.container y hy

/-! ## Calls -/

theorem vListInitialise_rep (h : Rep m a) (hl : a.items l = []) :
    Rep (vListInitialise m l) (a.call (.initialise l)).1 := by
  refine ⟨h.ok.call (c := .initialise l) hl, fun l' hl' => ?_, fun l' hl' => ?_,
    fun l' hl' => ?_, fun l' hl' => ?_, h.container, fun x => ?_⟩
  · by_cases he : l' = l
    · subst he
      have hitems : (a.call (.initialise l')).1.items l' = [] := hl
      rw [hitems]
      refine ⟨⟨?_, ?_⟩, by simp⟩
      · simp [vListInitialise, ListMem.links, ListMem.setIndex, ListMem.setValue, ListMem.setNext,
          ListMem.setPrevious, ListMem.setCount]
      · simp [vListInitialise, ListMem.links, ListMem.setIndex, ListMem.setValue, ListMem.setNext,
          ListMem.setPrevious, ListMem.setCount]
    · have hmade : a.made l' = true := by simpa [Lists.call, he] using hl'
      have hin : Node.xListEnd l ∈ nodes l (a.items l) := List.mem_cons_self
      have hout := h.ok.apart he hin
      refine (h.ring l' hmade).congr (fun z hz => ?_) fun z hz => ?_
      · have hne : z ≠ .xListEnd l := fun hzl => hout (hzl ▸ hz)
        simp [vListInitialise, ListMem.links, ListMem.setIndex, ListMem.setValue, ListMem.setNext,
          ListMem.setPrevious, ListMem.setCount, hne]
      · have hne : z ≠ .xListEnd l := fun hzl => hout (hzl ▸ hz)
        simp [vListInitialise, ListMem.links, ListMem.setIndex, ListMem.setValue, ListMem.setNext,
          ListMem.setPrevious, ListMem.setCount, hne]
  · by_cases he : l' = l
    · simp [vListInitialise, ListMem.setIndex, ListMem.setValue, ListMem.setNext,
        ListMem.setPrevious, ListMem.setCount, he]
    · have hmade : a.made l' = true := by simpa [Lists.call, he] using hl'
      simpa [vListInitialise, ListMem.setIndex, ListMem.setValue, ListMem.setNext,
        ListMem.setPrevious, ListMem.setCount, he] using h.mark l' hmade
  · by_cases he : l' = l
    · simp [vListInitialise, ListMem.setIndex, ListMem.setValue, ListMem.setNext,
        ListMem.setPrevious, ListMem.setCount, Lists.call, Lists.setIndex, he, hl]
    · have hmade : a.made l' = true := by simpa [Lists.call, he] using hl'
      simpa [vListInitialise, ListMem.setIndex, ListMem.setValue, ListMem.setNext,
        ListMem.setPrevious, ListMem.setCount, Lists.call, Lists.setIndex, he] using
        h.count l' hmade
  · by_cases he : l' = l
    · simp [vListInitialise, ListMem.setIndex, ListMem.setValue, ListMem.setNext,
        ListMem.setPrevious, ListMem.setCount, Lists.call, Lists.setIndex, he]
    · have hmade : a.made l' = true := by simpa [Lists.call, he] using hl'
      simpa [vListInitialise, ListMem.setIndex, ListMem.setValue, ListMem.setNext,
        ListMem.setPrevious, ListMem.setCount, Lists.call, Lists.setIndex, he] using
        h.index l' hmade
  · simpa [vListInitialise, ListMem.setIndex, ListMem.setValue, ListMem.setNext,
      ListMem.setPrevious, ListMem.setCount, Lists.call, Lists.setIndex] using h.value x

omit [DecidableEq I] in
theorem Rep.setIndex (h : Rep m a) {n : Node L I} {index : Option I}
    (hin : ∀ c, index = some c → c ∈ a.items l) (hn : n = (index.map .item).getD (.xListEnd l)) :
    Rep (m.setIndex l n) (a.setIndex l index) := by
  refine ⟨h.ok.setIndex hin, h.ring, h.mark, h.count, fun l' hl' => ?_, h.container, h.value⟩
  by_cases he : l' = l
  · subst he
    simp [ListMem.setIndex, Lists.setIndex, hn]
  · simpa [ListMem.setIndex, Lists.setIndex, he] using h.index l' hl'

omit [DecidableEq L] [DecidableEq I] in
theorem Rep.next_mark (h : Rep m a) (hl : a.made l = true) :
    m.pxNext (.xListEnd l) = headNode l (a.items l) := by
  have hring : IsRing m.links (nodes l ([] ++ a.items l)) := h.ring l hl
  exact (ring_next hring).1

omit [DecidableEq L] in
/-- The node behind `pxIndex`. -/
theorem Rep.next_index (h : Rep m a) (hl : a.made l = true) :
    m.pxNext (m.pxIndex l) = headNode l (itemsBehind (a.index l) (a.items l)) := by
  have hidx := h.index l hl
  cases hc : a.index l with
  | none =>
    rw [hc] at hidx
    rw [hidx]
    exact h.next_mark hl
  | some c =>
    rw [hc] at hidx
    rw [hidx]
    exact (h.neighbours hl (h.ok.index l c hc)).2

theorem listGetOwnerOfNextEntry_rep (h : Rep m a) (hne : a.items l ≠ []) :
    ∃ x m', listGetOwnerOfNextEntry m l = some (x, m') ∧
      nextEntry (a.index l) (a.items l) = some x ∧ Rep m' (a.setIndex l (some x)) := by
  obtain ⟨y, ys, hitems⟩ := List.exists_cons_of_ne_nil hne
  have hl := h.ok.made l y (by simp [hitems])
  have hnext := h.next_index hl
  have hmark : m.pxNext (.xListEnd l) = .item y := by rw [h.next_mark hl, hitems]; rfl
  have hset : ∀ x, x ∈ a.items l → Rep (m.setIndex l (.item x)) (a.setIndex l (some x)) :=
    fun x hx => h.setIndex (fun c hc => by cases hc; exact hx) rfl
  cases hb : itemsBehind (a.index l) (a.items l) with
  | nil =>
    rw [hb] at hnext
    have hnext' : m.pxNext (m.pxIndex l) = .xListEnd l := hnext
    refine ⟨y, m.setIndex l (.item y), ?_, by rw [nextEntry, hb, hitems]; rfl,
      hset y (by simp [hitems])⟩
    simp [listGetOwnerOfNextEntry, ListMem.setIndex, hnext', hmark, pvOwner]
  | cons b bs =>
    rw [hb] at hnext
    have hnext' : m.pxNext (m.pxIndex l) = .item b := hnext
    refine ⟨b, m.setIndex l (.item b), ?_, by simp [nextEntry, hb],
      hset b (itemsBehind_subset _ _ (hb ▸ List.mem_cons_self))⟩
    simp [listGetOwnerOfNextEntry, ListMem.setIndex, hnext', pvOwner]

/-- A legal call does to the memory what it does to the lists and returns the same. -/
theorem listCall_rep (h : Rep m a) {c : ListCall L I} (hc : a.Legal c) :
    ∃ m', listCall m c = some (m', (a.call c).2) ∧ Rep m' (a.call c).1 := by
  cases c with
  | initialise l => exact ⟨_, rfl, vListInitialise_rep h hc⟩
  | initialiseItem x =>
    refine ⟨_, rfl, h.ok.call (c := .initialiseItem x) hc, h.ring, h.mark, h.count, h.index,
      fun y hy => ?_, h.value⟩
    have hc' : a.container x = none := hc
    by_cases he : y = x
    · simp [vListInitialiseItem, ListMem.setContainer, Lists.call, he, hc']
    · have hk : a.known y = true := by simpa [Lists.call, he] using hy
      simpa [vListInitialiseItem, ListMem.setContainer, Lists.call, he] using h.container y hk
  | setValue x v =>
    refine ⟨_, rfl, h.ok.call (c := .setValue x v) hc, h.ring, fun l hl => ?_, h.count, h.index,
      h.container, fun y => ?_⟩
    · simpa [listSetListItemValue, ListMem.setValue] using h.mark l hl
    · by_cases he : y = x
      · simp [listSetListItemValue, ListMem.setValue, Lists.call, he]
      · simpa [listSetListItemValue, ListMem.setValue, Lists.call, he] using h.value y
  | insertEnd l x => exact ⟨_, rfl, vListInsertEnd_rep h hc.1 hc.2.1 hc.2.2⟩
  | insert l x =>
    obtain ⟨m', hm', hrep⟩ := vListInsert_rep h hc.1 hc.2.1 hc.2.2
    exact ⟨m', by simp [listCall, hm', Lists.call], hrep⟩
  | remove x =>
    obtain ⟨l, hl⟩ := Option.ne_none_iff_exists'.1 hc
    have hmem := (h.ok.container l x).1 hl
    obtain ⟨hcount, hrep⟩ := removeFrom_rep h (h.ok.made l x hmem) hl
    have hcont := h.container x (h.ok.known l x hmem)
    refine ⟨(removeFrom m l x).2, ?_, by simpa [Lists.call, hl] using hrep⟩
    simp [listCall, uxListRemove, hcont, hl, hcount, Lists.call]
  | nextEntry l =>
    obtain ⟨x, m', hm', hx, hrep⟩ := listGetOwnerOfNextEntry_rep h hc
    exact ⟨m', by simp [listCall, hm', Lists.call, hx], by simpa [Lists.call, hx] using hrep⟩
  | headEntry l =>
    obtain ⟨y, ys, hitems⟩ := List.exists_cons_of_ne_nil hc
    have hmark := h.next_mark (h.ok.made l y (by simp [hitems]))
    refine ⟨m, ?_, h⟩
    simp [listCall, listGetOwnerOfHeadEntry, hmark, hitems, headNode, pvOwner, Lists.call]
  | headValue l =>
    have hmark := h.next_mark hc
    refine ⟨m, ?_, h⟩
    cases hitems : a.items l with
    | nil =>
      simp [listCall, listGetItemValueOfHeadEntry, hmark, hitems, headNode, Lists.call,
        h.mark l hc]
    | cons y ys =>
      simp [listCall, listGetItemValueOfHeadEntry, hmark, hitems, headNode, Lists.call, h.value y]
  | length l =>
    refine ⟨m, ?_, h⟩
    simp [listCall, listCurrentListLength, Lists.call, h.count l hc]
  | contains l x =>
    refine ⟨m, ?_, h⟩
    have hcont := h.container x hc.2
    have hin := h.ok.container l x
    simp [listCall, listIsContainedWithin, Lists.call, hcont, hin]

/-! ## Runs -/

/-- The lists before the first call, when none is initialised. -/
def bootLists (m : ListMem L I) : Lists L I where
  made := fun _ => false
  known := fun _ => false
  items := fun _ => []
  index := fun _ => none
  container := fun _ => none
  value := fun x => m.xItemValue (.item x)

omit [DecidableEq L] [DecidableEq I] in
theorem bootLists_rep (m : ListMem L I) : Rep m (bootLists m) := by
  refine ⟨⟨?_, ?_, ?_, ?_, ?_⟩, ?_, ?_, ?_, ?_, fun x hx => ?_, fun x => rfl⟩ <;>
    simp_all [bootLists]

/-- The calls of a list of calls, one after the other, with what they return. -/
def listCalls (m : ListMem L I) : List (ListCall L I) → Option (ListMem L I × List (ListOut I))
  | [] => some (m, [])
  | c :: cs => do
    let (m, out) ← listCall m c
    let (m, outs) ← listCalls m cs
    return (m, out :: outs)

theorem listCalls_rep (cs : List (ListCall L I)) (h : Rep m a)
    (hcs : Along Lists.call Lists.Legal a cs) :
    ∃ m', listCalls m cs = some (m', outputs Lists.call a cs) ∧
      Rep m' (final Lists.call a cs) := by
  induction cs generalizing m a with
  | nil => exact ⟨m, rfl, h⟩
  | cons c cs ih =>
    obtain ⟨m₁, hm₁, hrep⟩ := listCall_rep h hcs.1
    obtain ⟨m₂, hm₂, hrest⟩ := ih hrep hcs.2
    exact ⟨m₂, by simp [listCalls, hm₁, hm₂], hrest⟩

/-- A run of legal calls does to the memory what it does to the lists: the loops end, what is
    returned is what the lists have, and each list is a ring of its items, with their number, its
    index and the list of each item. -/
theorem list_runs (m : ListMem L I) (cs : List (ListCall L I))
    (hcs : Along Lists.call Lists.Legal (bootLists m) cs) :
    ∃ m', listCalls m cs = some (m', outputs Lists.call (bootLists m) cs) ∧
      Rep m' (final Lists.call (bootLists m) cs) :=
  listCalls_rep cs (bootLists_rep m) hcs

end Edits

/-- Memory that nothing was written to. -/
def freshListMem : ListMem L I where
  xItemValue := fun _ => 0
  pxNext := id
  pxPrevious := id
  pvContainer := fun _ => none
  uxNumberOfItems := fun _ => 0
  pxIndex := .xListEnd

/-- The second item is put before the first one, which is taken out and put in again. -/
theorem list_runs_two :
    let cs : List (ListCall Unit Bool) := [.initialise (), .initialiseItem true,
      .initialiseItem false, .setValue true 5, .setValue false 3, .insert () true,
      .insert () false, .nextEntry (), .remove true, .insertEnd () true, .nextEntry ()]
    ∃ m', listCalls freshListMem cs =
        some (m', outputs Lists.call (bootLists freshListMem) cs) ∧
      Rep m' (final Lists.call (bootLists freshListMem) cs) :=
  list_runs freshListMem _ ⟨rfl, rfl, rfl, trivial, trivial, ⟨rfl, rfl, rfl⟩, ⟨rfl, rfl, rfl⟩,
    List.cons_ne_nil _ _, (fun h => by cases h), ⟨rfl, rfl, rfl⟩, List.cons_ne_nil _ _, trivial⟩

end ArduinoT2.Kernel
