import ArduinoT2.Lib.NextList
import ArduinoT2.Lib.StepSys

/-
  The singly linked list of tuya_slist.h.

  A call that walks the list takes the number of rounds the walk may have, and `none` is a walk
  that is still on its way after them. `slistDocStep` is what the comments of the header say a
  call does to the list; `SlistLegal` is when it may be made.

  Every call does what its comment says, with one exception: `tuya_slist_add_tail` writes the
  `next` of the last node and not the one of the new node, which `tuya_slist_add_head` and
  `tuya_slist_del` both set. Whatever hangs behind the new node is then in the list as well
  (`addTail_takes_rest`), and where that is a node of the list, every later walk to the end of the
  list goes round for ever (`addTail_cyclic`). The call does what its comment says exactly when
  the new node holds NULL (`slistFollows_iff_endsNull`).
-/

namespace ArduinoT2.System

open NextList StepSys

universe u

variable {A : Type u} [DecidableEq A]

/-! ## The functions of the header -/

/-- `tuya_init_slist_node`. -/
def tuyaInitSlistNode (s : Heap A) (node : A) : Heap A := Function.update s node none

/-- `tuya_slist_empty`. -/
def tuyaSlistEmpty (s : Heap A) (list : A) : Bool := !(s list).isSome

/-- `tuya_slist_del`. -/
def tuyaSlistDel (fuel : Nat) (s : Heap A) (list node : A) : Option (Heap A) :=
  (forEach (fun pos (s, last) =>
    if pos ≠ node then .yield (s, pos)
    else
      let s := Function.update s last (s pos)
      let s := Function.update s node none
      .done (s, last)) fuel (s list) (s, list)).map Prod.fst

/-- `tuya_slist_add_head`. -/
def tuyaSlistAddHead (s : Heap A) (list n : A) : Heap A :=
  let s := Function.update s n (s list)
  Function.update s list (some n)

/-- `tuya_slist_add_tail`. -/
def tuyaSlistAddTail (fuel : Nat) (s : Heap A) (list n : A) : Option (Heap A) :=
  (forEach (fun pos (s, _last) => .yield (s, pos)) fuel (s list) (s, list)).map
    fun (s, last) => Function.update s last (some n)

/-! ## What the calls are said to do -/

/-- A call, or the owner of a node that is not in the list writing its `next`. -/
inductive SlistOp (A : Type u) where
  | addHead (n : A)
  | addTail (n : A)
  | del (node : A)
  | fill (node : A) (next : Option A)

/-- The call on the heap. -/
def slistCall (fuel : Nat) (s : Heap A) (list : A) : SlistOp A → Option (Heap A)
  | .addHead n => some (tuyaSlistAddHead s list n)
  | .addTail n => tuyaSlistAddTail fuel s list n
  | .del node => tuyaSlistDel fuel s list node
  | .fill node next => some (Function.update s node next)

/-- What the call does to the list according to its comment. -/
def slistDocStep (l : List A) : SlistOp A → List A
  | .addHead n => n :: l
  | .addTail n => l ++ [n]
  | .del node => l.erase node
  | .fill _ _ => l

/-- A node that is added or filled is neither the head nor in the list. -/
def SlistLegal (list : A) (l : List A) : SlistOp A → Prop
  | .addHead n => n ∉ list :: l
  | .addTail n => n ∉ list :: l
  | .del _ => True
  | .fill node _ => node ∉ list :: l

/-- One call on the heap, beside the list it is said to leave. -/
def slistStep (fuel : Nat) (list : A) (t : Option (Heap A) × List A) (op : SlistOp A) :
    (Option (Heap A) × List A) × Unit :=
  ((t.1.bind fun s => slistCall fuel s list op, slistDocStep t.2 op), ())

/-- The call comes to an end and leaves the list it is said to leave, finite and without
    repetition; removing a node that is not in the list changes nothing. -/
def SlistFollows (fuel : Nat) (list : A) (t : Option (Heap A) × List A) (op : SlistOp A) : Prop :=
  ∃ s', (slistStep fuel list t op).1.1 = some s' ∧
    Chain s' list (slistStep fuel list t op).1.2 ∧
    (list :: (slistStep fuel list t op).1.2).Nodup ∧
    ∀ node, op = .del node → node ∉ t.2 → t.1 = some s'

/-- An owner that writes to its node only sets it up, as `tuya_init_slist_node` does. -/
def SlistOp.Inits : SlistOp A → Prop
  | .fill _ next => next = none
  | _ => True

/-- A node that is added at the end holds NULL. -/
def EndsNull (t : Option (Heap A) × List A) : SlistOp A → Prop
  | .addTail n => ∃ s, t.1 = some s ∧ s n = none
  | _ => True

/-! ## The functions on a list -/

variable {s : Heap A} {list : A} {l : List A}

omit [DecidableEq A] in
theorem tuyaSlistEmpty_iff (h : Chain s list l) : tuyaSlistEmpty s list ↔ l = [] := by
  unfold tuyaSlistEmpty
  rw [h.head]
  cases l <;> simp

omit [DecidableEq A] in
/-- The `last` of the loops: the node of the round before. -/
theorem foldl_last (p : A) (xs : List A) : xs.foldl (fun _ pos => pos) p = xs.getLastD p := by
  induction xs generalizing p with
  | nil => rfl
  | cons x xs ih => rw [List.foldl_cons, ih, List.getLastD_cons]

/-- The loop of `tuya_slist_add_tail` ends at the last node. -/
theorem tuyaSlistAddTail_eq (h : Chain s list l) {fuel : Nat} (hfuel : l.length ≤ fuel) (n : A) :
    tuyaSlistAddTail fuel s list n = some (Function.update s (l.getLastD list) (some n)) := by
  unfold tuyaSlistAddTail
  rw [forEach_chain (f := fun _ pos => pos) _ h hfuel list, foldl_last]
  · rfl
  · exact fun _ _ _ => rfl

/-- The walk comes to an end exactly on a finite list. -/
theorem tuyaSlistAddTail_returns_iff (s : Heap A) (list n : A) :
    (∃ fuel s', tuyaSlistAddTail fuel s list n = some s') ↔ ∃ l, Chain s list l := by
  constructor
  · intro hret
    obtain ⟨fuel, s', hs'⟩ := hret
    obtain ⟨r, hr, -⟩ := Option.map_eq_some_iff.mp hs'
    exact exists_chain_of_forEach (f := fun _ pos => pos) (fun _ _ => rfl) hr
  · intro hl
    obtain ⟨l, h⟩ := hl
    exact ⟨l.length, _, tuyaSlistAddTail_eq h le_rfl n⟩

/-- The loop of `tuya_slist_del` goes past a list without the node. -/
theorem tuyaSlistDel_absent (h : Chain s list l) {fuel : Nat} (hfuel : l.length ≤ fuel)
    {node : A} (hn : node ∉ l) : tuyaSlistDel fuel s list node = some s := by
  unfold tuyaSlistDel
  rw [forEach_chain (f := fun _ pos => pos) _ h hfuel list]
  · rfl
  · intro pos hpos last
    exact if_pos fun he : pos = node => hn (he ▸ hpos)

/-- The loop of `tuya_slist_del` breaks at the node, with the node in front of it in `last`. -/
theorem tuyaSlistDel_present {node : A} {xs ys : List A} (h : Chain s list (xs ++ node :: ys))
    {fuel : Nat} (hfuel : xs.length < fuel) :
    tuyaSlistDel fuel s list node =
      some (Function.update (Function.update s (xs.getLastD list) (s node)) node none) := by
  obtain ⟨k, rfl⟩ := Nat.exists_eq_add_of_lt hfuel
  unfold tuyaSlistDel
  rw [Nat.add_assoc, forEach_walk (f := fun _ pos => pos) _ h (k + 1) list, foldl_last,
    List.head?_cons, forEach_done (if_neg fun hne => hne rfl)]
  · rfl
  · intro pos hpos last
    have hin : pos ∈ (list :: xs) ++ ys :=
      List.mem_append_left ys (List.mem_cons_of_mem list hpos)
    exact if_pos fun he : pos = node => h.not_mem_split (he ▸ hin)

theorem tuyaSlistDel_of_mem (h : Chain s list l) {node : A} (hmem : node ∈ l) {fuel : Nat}
    (hfuel : l.length ≤ fuel) :
    ∃ xs ys, l = xs ++ node :: ys ∧ l.erase node = xs ++ ys ∧
      tuyaSlistDel fuel s list node =
        some (Function.update (Function.update s (xs.getLastD list) (s node)) node none) := by
  obtain ⟨xs, ys, -, rfl, herase⟩ := List.exists_erase_eq hmem
  have hlen : xs.length < fuel := by
    rw [List.length_append, List.length_cons] at hfuel
    omega
  exact ⟨xs, ys, rfl, herase, tuyaSlistDel_present h hlen⟩

/-! ## The list behind a call -/

theorem chain_addHead (h : Chain s list l) {n : A} (hn : n ∉ list :: l) :
    Chain (tuyaSlistAddHead s list n) list (n :: l) := by
  have hne := List.ne_of_not_mem_cons hn
  have hmem := List.not_mem_of_not_mem_cons hn
  have hnext : tuyaSlistAddHead s list n n = s list := by
    rw [tuyaSlistAddHead, Function.update_of_ne hne, Function.update_self]
  refine chain_cons.mpr ⟨Function.update_self _ _ _, h.move hnext fun x hx => ?_⟩
  have hxn : x ≠ n := fun he => hmem (he ▸ hx)
  have hxl : x ≠ list := fun he => h.not_mem (he ▸ hx)
  rw [tuyaSlistAddHead, Function.update_of_ne hxl, Function.update_of_ne hxn]

/-- Hanging `n` behind the last node also brings what hangs behind `n`, as long as that does not
    come back to the list. -/
theorem chain_addTail_iff (h : Chain s list l) {n : A} (hn : n ∉ list :: l) {l' : List A} :
    Chain (Function.update s (l.getLastD list) (some n)) list (l ++ n :: l') ↔
      Chain s n l' ∧ ∀ x ∈ l', x ∉ list :: l := by
  have hoff : ∀ x, x ∉ list :: l → Function.update s (l.getLastD list) (some n) x = s x :=
    fun x hx => update_last hx s (some n)
  constructor
  · intro htail
    have hdisj : List.Disjoint (list :: l) (n :: l') := List.disjoint_of_nodup_append htail.nodup
    have hmeet : ∀ x ∈ l', x ∉ list :: l := fun x hx hxl => hdisj hxl (List.mem_cons_of_mem n hx)
    exact ⟨htail.rest.move (hoff n hn).symm fun x hx => (hoff x (hmeet x hx)).symm, hmeet⟩
  · intro hrest
    obtain ⟨hrest, hmeet⟩ := hrest
    refine (h.append_nil.splice_iff fun x _ hx => Function.update_of_ne hx _ _).mpr ?_
    have hmove := hrest.move (hoff n hn) fun x hx => hoff x (hmeet x hx)
    exact chain_cons.mpr ⟨Function.update_self _ _ _, hmove⟩

/-- What is a list behind the head after the call has the old nodes in front. -/
theorem chain_addTail_starts (h : Chain s list l) {n : A} {l' : List A}
    (h' : Chain (Function.update s (l.getLastD list) (some n)) list l') :
    ∃ ys, l' = l ++ n :: ys := by
  have hlinks := h.append_nil.splice_links fun x _ hx => Function.update_of_ne hx (some n) s
  obtain ⟨zs, rfl⟩ := h'.starts hlinks
  have hhead := (chain_append.mp h').2.head
  rw [Function.update_self] at hhead
  obtain ⟨ys, rfl⟩ := List.head?_eq_some_iff.mp hhead.symm
  exact ⟨ys, rfl⟩

theorem chain_del {node : A} {xs ys : List A} (h : Chain s list (xs ++ node :: ys)) :
    Chain (Function.update (Function.update s (xs.getLastD list) (s node)) node none) list
      (xs ++ ys) := by
  have hlast : xs.getLastD list ∈ list :: xs := List.getLastD_mem_cons
  have hdisj : List.Disjoint (list :: xs) (node :: ys) := List.disjoint_of_nodup_append h.nodup
  have hne : ∀ x ∈ list :: xs, x ≠ node := fun x hx he =>
    h.not_mem_split (he ▸ List.mem_append_left ys hx)
  refine (h.splice_iff fun x hx hxl => ?_).mpr (h.rest.move ?_ fun x hx => ?_)
  · rw [Function.update_of_ne (hne x hx), Function.update_of_ne hxl]
  · rw [Function.update_of_ne (hne _ hlast), Function.update_self]
  · have hxn : x ≠ node := fun he => h.not_mem_split (he ▸ List.mem_append_right _ hx)
    have hxl : x ∉ list :: xs := fun hm => hdisj hm (List.mem_cons_of_mem node hx)
    rw [Function.update_of_ne hxn, update_last hxl]

/-- A node that is not in the list may hold anything. -/
theorem chain_fill (h : Chain s list l) {node : A} (hn : node ∉ list :: l) (next : Option A) :
    Chain (Function.update s node next) list l := by
  have hne : ∀ x ∈ list :: l, x ≠ node := fun x hx he => hn (he ▸ hx)
  exact h.move (Function.update_of_ne (hne list List.mem_cons_self) _ _) fun x hx =>
    Function.update_of_ne (hne x (List.mem_cons_of_mem list hx)) _ _

/-! ## A new node that does not hold NULL -/

/-- The call appends the node with everything that hangs behind it. -/
theorem addTail_takes_rest (h : Chain s list l) {n : A} (hn : n ∉ list :: l) {l' : List A}
    (hrest : Chain s n l') (hmeet : ∀ x ∈ l', x ∉ list :: l) {fuel : Nat}
    (hfuel : l.length ≤ fuel) :
    ∃ s', tuyaSlistAddTail fuel s list n = some s' ∧ Chain s' list (l ++ n :: l') :=
  ⟨_, tuyaSlistAddTail_eq h hfuel n, (chain_addTail_iff h hn).mpr ⟨hrest, hmeet⟩⟩

/-- The list stays finite exactly when what hangs behind the node is, and keeps off the list. -/
theorem finite_addTail_iff (h : Chain s list l) {n : A} (hn : n ∉ list :: l) :
    (∃ l', Chain (Function.update s (l.getLastD list) (some n)) list l') ↔
      ∃ l', Chain s n l' ∧ ∀ x ∈ l', x ∉ list :: l := by
  constructor
  · intro hfin
    obtain ⟨l', h'⟩ := hfin
    obtain ⟨ys, rfl⟩ := chain_addTail_starts h h'
    exact ⟨ys, (chain_addTail_iff h hn).mp h'⟩
  · intro hrest
    obtain ⟨l', hrest⟩ := hrest
    exact ⟨l ++ n :: l', (chain_addTail_iff h hn).mpr hrest⟩

/-- A node that points at a node of the list closes a ring, and no walk to the end of the list
    comes to an end any more. -/
theorem addTail_cyclic (h : Chain s list l) {n y : A} (hn : n ∉ list :: l) (hy : s n = some y)
    (hmem : y ∈ list :: l) {fuel : Nat} (hfuel : l.length ≤ fuel) :
    ∃ s', tuyaSlistAddTail fuel s list n = some s' ∧
      ∀ fuel m, tuyaSlistAddTail fuel s' list m = none := by
  refine ⟨_, tuyaSlistAddTail_eq h hfuel n, fun fuel m => ?_⟩
  refine Option.eq_none_iff_forall_ne_some.mpr fun s'' hs'' => ?_
  have hfin := (tuyaSlistAddTail_returns_iff _ list m).mp ⟨fuel, s'', hs''⟩
  obtain ⟨l', hrest, hmeet⟩ := (finite_addTail_iff h hn).mp hfin
  have hhead : l'.head? = some y := hrest.head.symm.trans hy
  exact hmeet y (List.mem_of_mem_head? hhead) hmem

/-! ## One call -/

/-- On a list, a call that may be made does what its comment says exactly when a node that is
    added at the end holds NULL. -/
theorem slistFollows_iff_endsNull (h : Chain s list l) {op : SlistOp A}
    (hl : SlistLegal list l op) {fuel : Nat} (hfuel : l.length ≤ fuel) :
    SlistFollows fuel list (some s, l) op ↔ EndsNull (some s, l) op := by
  cases op with
  | addHead n =>
    refine iff_of_true ⟨_, rfl, ?_⟩ trivial
    have h' := chain_addHead h hl
    exact ⟨h', h'.nodup, fun _ he => nomatch he⟩
  | addTail n =>
    constructor
    · intro hf
      obtain ⟨s', hs', h', -⟩ := hf
      obtain rfl := Option.some.inj ((tuyaSlistAddTail_eq h hfuel n).symm.trans hs')
      exact ⟨s, rfl, chain_nil.mp ((chain_addTail_iff h hl).mp h').1⟩
    · intro hnull
      obtain ⟨s', hs', hnull⟩ := hnull
      obtain rfl := Option.some.inj hs'
      have h' := (chain_addTail_iff h hl).mpr ⟨chain_nil.mpr hnull, fun _ hx => nomatch hx⟩
      exact ⟨_, tuyaSlistAddTail_eq h hfuel n, h', h'.nodup, fun _ he => nomatch he⟩
  | del node =>
    refine iff_of_true ?_ trivial
    by_cases hmem : node ∈ l
    · obtain ⟨xs, ys, rfl, herase, hcall⟩ := tuyaSlistDel_of_mem h hmem hfuel
      have h' := chain_del h
      rw [← herase] at h'
      refine ⟨_, hcall, h', h'.nodup, fun node' he hnot => ?_⟩
      exact absurd (SlistOp.del.inj he ▸ hmem) hnot
    · have h' : Chain s list (l.erase node) := by rwa [List.erase_of_not_mem hmem]
      exact ⟨s, tuyaSlistDel_absent h hfuel hmem, h', h'.nodup, fun _ _ _ => rfl⟩
  | fill node next =>
    refine iff_of_true ⟨_, rfl, ?_⟩ trivial
    have h' := chain_fill h hl next
    exact ⟨h', h'.nodup, fun _ he => nomatch he⟩

/-- `tuya_init_slist_node` makes a node fit for the end of the list. -/
theorem slistFollows_init_addTail (h : Chain s list l) {n : A} (hn : n ∉ list :: l) {fuel : Nat}
    (hfuel : l.length ≤ fuel) :
    SlistFollows fuel list (some (tuyaInitSlistNode s n), l) (.addTail n) := by
  have hlegal : SlistLegal list l (.addTail n) := hn
  have hnull : tuyaInitSlistNode s n n = none := Function.update_self _ _ _
  exact (slistFollows_iff_endsNull (chain_fill h hn none) hlegal hfuel).mpr ⟨_, rfl, hnull⟩

theorem slistFollows_next {fuel : Nat} {t : Option (Heap A) × List A} {op : SlistOp A}
    (hf : SlistFollows fuel list t op) :
    ∃ s', (slistStep fuel list t op).1.1 = some s' ∧
      Chain s' list (slistStep fuel list t op).1.2 := by
  obtain ⟨s', hs', h', -⟩ := hf
  exact ⟨s', hs', h'⟩

/-- Where all nodes that are not in the list hold NULL, they still do after the call: it only
    sets the `next` of nodes of the list, and clears the one of a node it removes. -/
theorem slistCall_outside (h : Chain s list l) (hout : ∀ x, x ∉ list :: l → s x = none)
    {op : SlistOp A} (hop : op.Inits) {fuel : Nat} (hfuel : l.length ≤ fuel) {s' : Heap A}
    (hs' : slistCall fuel s list op = some s') :
    ∀ x, x ∉ list :: slistDocStep l op → s' x = none := by
  intro x hx
  cases op with
  | addHead n =>
    obtain rfl := Option.some.inj hs'
    obtain ⟨hxl, hx⟩ := List.ne_and_not_mem_of_not_mem_cons hx
    obtain ⟨hxn, hx⟩ := List.ne_and_not_mem_of_not_mem_cons hx
    rw [tuyaSlistAddHead, Function.update_of_ne hxl, Function.update_of_ne hxn]
    exact hout x (List.not_mem_cons_of_ne_of_not_mem hxl hx)
  | addTail n =>
    obtain rfl := Option.some.inj ((tuyaSlistAddTail_eq h hfuel n).symm.trans hs')
    have hxl : x ∉ list :: l := fun hm => hx (List.mem_append_left [n] hm)
    rw [update_last hxl]
    exact hout x hxl
  | del node =>
    by_cases hmem : node ∈ l
    · obtain ⟨xs, ys, rfl, herase, hcall⟩ := tuyaSlistDel_of_mem h hmem hfuel
      obtain rfl := Option.some.inj (hcall.symm.trans hs')
      rw [slistDocStep, herase] at hx
      by_cases hxn : x = node
      · rw [hxn, Function.update_self]
      · have hxl : x ∉ list :: xs := fun hm => hx (List.mem_append_left ys hm)
        rw [Function.update_of_ne hxn, update_last hxl]
        refine hout x fun hm => hx ?_
        obtain hm | hm := List.mem_append.mp (show x ∈ (list :: xs) ++ node :: ys from hm)
        · exact List.mem_append_left ys hm
        · exact List.mem_append_right (list :: xs) (List.mem_of_ne_of_mem hxn hm)
    · obtain rfl := Option.some.inj ((tuyaSlistDel_absent h hfuel hmem).symm.trans hs')
      rw [slistDocStep, List.erase_of_not_mem hmem] at hx
      exact hout x hx
  | fill node next =>
    obtain rfl := Option.some.inj hs'
    by_cases hxn : x = node
    · rw [hxn, Function.update_self]
      exact hop
    · rw [Function.update_of_ne hxn]
      exact hout x hx

theorem length_slistDocStep (l : List A) (op : SlistOp A) :
    (slistDocStep l op).length ≤ l.length + 1 := by
  cases op with
  | addHead n => exact le_rfl
  | addTail n => exact List.length_append.le
  | del node => exact List.length_erase_le.trans (Nat.le_succ _)
  | fill node next => exact Nat.le_succ _

/-! ## Sequences of calls -/

/-- With one round for each node that the list may get, no walk runs out of rounds. -/
theorem along_length_le (list : A) {fuel : Nat} {t : Option (Heap A) × List A}
    {ops : List (SlistOp A)} (hfuel : t.2.length + ops.length ≤ fuel) :
    Along (slistStep fuel list) (fun t _ => t.2.length ≤ fuel) t ops := by
  induction ops generalizing t with
  | nil => trivial
  | cons op ops ih =>
    rw [List.length_cons] at hfuel
    have hlen : (slistDocStep t.2 op).length ≤ t.2.length + 1 := length_slistDocStep t.2 op
    have hrest : (slistDocStep t.2 op).length + ops.length ≤ fuel := by omega
    exact ⟨by omega, ih hrest⟩

theorem along_rounds_legal {fuel : Nat} {t : Option (Heap A) × List A} {ops : List (SlistOp A)}
    (hfuel : t.2.length + ops.length ≤ fuel)
    (hl : Along (slistStep fuel list) (fun t op => SlistLegal list t.2 op) t ops) :
    Along (slistStep fuel list) (fun t op => t.2.length ≤ fuel ∧ SlistLegal list t.2 op) t ops := by
  rw [along_and]
  exact ⟨along_length_le list hfuel, hl⟩

/-- In every sequence of calls that may be made on a finite list, with one round of the walks for
    each node that the list may get, each call does what its comment says exactly when every node
    that is added at the end holds NULL. -/
theorem slist_follows_iff (h : Chain s list l) (ops : List (SlistOp A)) {fuel : Nat}
    (hfuel : l.length + ops.length ≤ fuel)
    (hl : Along (slistStep fuel list) (fun t op => SlistLegal list t.2 op) (some s, l) ops) :
    Along (slistStep fuel list) (SlistFollows fuel list) (some s, l) ops ↔
      Along (slistStep fuel list) EndsNull (some s, l) ops := by
  refine along_congr_of (I := fun t => ∃ s, t.1 = some s ∧ Chain s list t.2)
    (fun _ _ _ _ hf => slistFollows_next hf) (fun t op ht hc => ?_) ⟨s, rfl, h⟩
    (along_rounds_legal hfuel hl)
  obtain ⟨s, l⟩ := t
  obtain ⟨s, rfl, h⟩ := ht
  exact slistFollows_iff_endsNull h hc.2 hc.1

/-- A node with a stale `next` added at the front, and a node removed and added again at the
    end. -/
theorem slist_follows_iff_readd :
    Along (slistStep 6 0) (SlistFollows 6 0) (some (fun _ => none : Heap Nat), [])
      [.addTail 1, .fill 2 (some 1), .addHead 2, .del 1, .addTail 1] :=
  (slist_follows_iff (chain_nil.mpr rfl) _ (by decide) (by
    simp [slistStep, slistDocStep, SlistLegal])).mpr
    ⟨⟨_, rfl, rfl⟩, trivial, trivial, trivial, ⟨_, rfl, rfl⟩, trivial⟩

/-- Node 2, which still points at node 1, added behind node 1: the list is a ring. -/
theorem slist_addTail_stale :
    let s : Heap Nat := fun x => if x = 0 ∨ x = 2 then some 1 else none
    let ops : List (SlistOp Nat) := [.addTail 2]
    Chain s 0 [1] ∧
    (∀ fuel, Along (slistStep fuel 0) (fun t op => SlistLegal 0 t.2 op) (some s, [1]) ops) ∧
    (∀ fuel, 1 ≤ fuel → ¬ Along (slistStep fuel 0) (SlistFollows fuel 0) (some s, [1]) ops) ∧
    ∃ s', tuyaSlistAddTail 1 s 0 2 = some s' ∧
      ∀ fuel m, tuyaSlistAddTail fuel s' 0 m = none := by
  intro s ops
  have h : Chain s 0 [1] := chain_cons.mpr ⟨rfl, chain_nil.mpr rfl⟩
  have hlegal : SlistLegal 0 [1] (.addTail 2) := by simp [SlistLegal]
  refine ⟨h, fun fuel => ⟨hlegal, trivial⟩, fun fuel hfuel hf => ?_, ?_⟩
  · obtain ⟨s', hs', hnull⟩ := (slistFollows_iff_endsNull h hlegal hfuel).mp hf.1
    obtain rfl := Option.some.inj hs'
    cases hnull
  · exact addTail_cyclic h hlegal rfl (by decide) le_rfl

/-- Where every other node holds NULL and owners only set nodes up, each call does what its
    comment says, also for a node that is added again after it has been removed. -/
theorem slistFollows_of_inits (h : Chain s list l) (hout : ∀ x, x ∉ list :: l → s x = none)
    {ops : List (SlistOp A)} {fuel : Nat} (hfuel : l.length + ops.length ≤ fuel)
    (hl : Along (slistStep fuel list) (fun t op => SlistLegal list t.2 op) (some s, l) ops)
    (hops : ∀ op ∈ ops, op.Inits) :
    Along (slistStep fuel list) (SlistFollows fuel list) (some s, l) ops := by
  have hinit : Along (slistStep fuel list) (fun _ op => op.Inits) (some s, l) ops :=
    (along_inputs _ _ _).mpr hops
  have hc := (along_and _ _ _ _).mpr ⟨along_rounds_legal hfuel hl, hinit⟩
  refine along_of_inv (I := fun t => ∃ s, t.1 = some s ∧ Chain s list t.2 ∧
    ∀ x, x ∉ list :: t.2 → s x = none) (fun t op ht hc => ?_) ⟨s, rfl, h, hout⟩ hc
  obtain ⟨s, l⟩ := t
  obtain ⟨s, rfl, h, hout⟩ := ht
  obtain ⟨⟨hlen, hlegal⟩, hop⟩ := hc
  have hnull : EndsNull (some s, l) op := by
    cases op with
    | addTail n => exact ⟨s, rfl, hout n hlegal⟩
    | _ => trivial
  have hf := (slistFollows_iff_endsNull h hlegal hlen).mpr hnull
  obtain ⟨s', hs', h'⟩ := slistFollows_next hf
  exact ⟨⟨s', hs', h', slistCall_outside h hout hop hlen hs'⟩, hf⟩

end ArduinoT2.System
