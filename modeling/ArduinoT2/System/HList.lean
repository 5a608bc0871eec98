import ArduinoT2.Lib.PprevList
import ArduinoT2.Lib.StepSys

/-
  The hash list of tuya_hlist.h.

  A call is an `Option` of the heap behind it: `none` is the dereference of NULL. `docStep` is
  what the comments of the header say a call does to the lists; `OpLegal` is when it may be made.

  Every call does what its comment says, with one exception: `tuya_hlist_add_after(n, next)` puts
  `next` behind `n` and not, as its comment has it, `n` behind `next`. With the roles the comment
  gives them, no call of it leaves well-formed lists behind (`not_follows_addAfter`); with the
  roles exchanged, every call does (`addAfter_exchanged`).
-/

namespace ArduinoT2.System

open PprevList StepSys

universe u v

variable {N : Type u} {H : Type v} [DecidableEq N] [DecidableEq H]

/-! ## The functions of the header -/

/-- `tuya_init_hlist_node`. -/
def tuyaInitHlistNode (s : Heap N H) (h : N) : Heap N H :=
  let s := s.store (.next h) none
  s.setPprev h none

/-- `tuya_hlist_unhashed`. -/
def tuyaHlistUnhashed (s : Heap N H) (h : N) : Bool := (s.pprev h).isNone

/-- `tuya_hlist_empty`. -/
def tuyaHlistEmpty (s : Heap N H) (h : H) : Bool := (s.first h).isNone

/-- `__tuya_hlist_del`. -/
def tuyaHlistDel' (s : Heap N H) (n : N) : Option (Heap N H) :=
  let next := s.next n
  match s.pprev n with
  | none => none
  | some pprev =>
    let s := s.store pprev next
    match next with
    | some next => some (s.setPprev next (some pprev))
    | none => some s

/-- `tuya_hlist_del`: the fields of the node stay as they are. -/
def tuyaHlistDel (s : Heap N H) (n : N) : Option (Heap N H) := tuyaHlistDel' s n

/-- `tuya_hlist_del_init`. -/
def tuyaHlistDelInit (s : Heap N H) (n : N) : Option (Heap N H) :=
  if tuyaHlistUnhashed s n then some s
  else (tuyaHlistDel' s n).map fun s => tuyaInitHlistNode s n

/-- `tuya_hlist_add_head`. -/
def tuyaHlistAddHead (s : Heap N H) (n : N) (h : H) : Heap N H :=
  let first := s.first h
  let s := s.store (.next n) first
  let s := match first with
    | some first => s.setPprev first (some (.next n))
    | none => s
  let s := s.store (.first h) (some n)
  s.setPprev n (some (.first h))

/-- `tuya_hlist_add_before`. -/
def tuyaHlistAddBefore (s : Heap N H) (n next : N) : Option (Heap N H) :=
  let s := s.setPprev n (s.pprev next)
  let s := s.store (.next n) (some next)
  let s := s.setPprev next (some (.next n))
  match s.pprev n with
  | none => none
  | some pprev => some (s.store pprev (some n))

/-- `tuya_hlist_add_after`. -/
def tuyaHlistAddAfter (s : Heap N H) (n next : N) : Heap N H :=
  let s := s.store (.next next) (s.next n)
  let s := s.store (.next n) (some next)
  let s := s.setPprev next (some (.next n))
  match s.next next with
  | some next' => s.setPprev next' (some (.next next))
  | none => s

/-! ## What the calls are said to do -/

/-- A call, or the owner of a node in no list filling its fields. -/
inductive HlistOp (N : Type u) (H : Type v) where
  | addHead (n : N) (h : H)
  | addBefore (n next : N)
  | addAfter (n next : N)
  | del (n : N)
  | delInit (n : N)
  | fill (n : N) (next : Option N) (pprev : Option (Slot N H))

/-- The call on the heap. -/
def hlistCall (s : Heap N H) : HlistOp N H → Option (Heap N H)
  | .addHead n h => some (tuyaHlistAddHead s n h)
  | .addBefore n next => tuyaHlistAddBefore s n next
  | .addAfter n next => some (tuyaHlistAddAfter s n next)
  | .del n => tuyaHlistDel s n
  | .delInit n => tuyaHlistDelInit s n
  | .fill n next pprev => some ((s.store (.next n) next).setPprev n pprev)

/-- The list with `next` replaced by the nodes `l'`. -/
def replaceNode (next : N) (l' l : List N) : List N :=
  l.flatMap fun x => if x = next then l' else [x]

/-- `n` directly before `next`. -/
def insertBefore (n next : N) (l : List N) : List N := replaceNode next [n, next] l

/-- `n` directly after `next`. -/
def insertAfter (n next : N) (l : List N) : List N := replaceNode next [next, n] l

/-- What the call does to the lists according to its comment. -/
def docStep (L : H → List N) : HlistOp N H → H → List N
  | .addHead n h => Function.update L h (n :: L h)
  | .addBefore n next => fun h => insertBefore n next (L h)
  | .addAfter n next => fun h => insertAfter n next (L h)
  | .del n => fun h => (L h).erase n
  | .delInit n => fun h => (L h).erase n
  | .fill _ _ _ => L

/-- A node that is added or filled is in no list, a position or a victim is in one. -/
def OpLegal (L : H → List N) : HlistOp N H → Prop
  | .addHead n _ => ¬ Linked L n
  | .addBefore n next => ¬ Linked L n ∧ Linked L next
  | .addAfter n next => ¬ Linked L n ∧ Linked L next
  | .del n => Linked L n
  | .delInit n => Linked L n
  | .fill n _ _ => ¬ Linked L n

/-- The calls of `tuya_hlist_add_after`. -/
def HlistOp.AddsAfter : HlistOp N H → Prop
  | .addAfter _ _ => True
  | _ => False

/-- One call on the heap, beside the lists it is said to leave. -/
def hlistStep (t : Option (Heap N H) × (H → List N)) (op : HlistOp N H) :
    (Option (Heap N H) × (H → List N)) × Unit :=
  ((t.1.bind fun s => hlistCall s op, docStep t.2 op), ())

/-- The call dereferences no NULL and leaves the lists it is said to leave, well-formed. -/
def Follows (t : Option (Heap N H) × (H → List N)) (op : HlistOp N H) : Prop :=
  ∃ s', (hlistStep t op).1.1 = some s' ∧ Represents s' (hlistStep t op).1.2

/-! ## The functions as edits at a slot -/

omit [DecidableEq H] in
theorem setPprev_match (s : Heap N H) (p : Slot N H) (y : Option N) :
    (match y with
      | some y => s.setPprev y (some p)
      | none => s) = s.backlink p y := by cases y <;> rfl

theorem tuyaHlistAddHead_eq (s : Heap N H) (n : N) (h : H) :
    tuyaHlistAddHead s n h = s.insertAt (.first h) n := by
  unfold tuyaHlistAddHead
  dsimp only
  rw [setPprev_match]
  rfl

theorem tuyaHlistDel_eq {s : Heap N H} {n : N} {p : Slot N H} (hp : s.pprev n = some p) :
    tuyaHlistDel' s n = some (s.removeAt p n) := by
  unfold tuyaHlistDel' Heap.removeAt
  rw [hp]
  cases hnext : s.next n <;> rfl

theorem tuyaHlistAddBefore_eq {s : Heap N H} {n next : N} {p : Slot N H} (hne : n ≠ next)
    (hp : s.pprev next = some p) (hload : s.load p = some next) :
    tuyaHlistAddBefore s n next = some (s.insertAt p n) := by
  have hread : (((s.setPprev n (s.pprev next)).store (.next n) (some next)).setPprev next
      (some (.next n))).pprev n = some p := by
    rw [pprev_setPprev, if_neg hne, pprev_store, pprev_setPprev, if_pos rfl, hp]
  unfold tuyaHlistAddBefore
  dsimp only
  rw [hread]
  refine congrArg some (heap_ext (fun q => ?_) fun x => ?_)
  · rw [load_store, load_setPprev, load_store, load_setPprev, load_insertAt, hload]
  · rw [pprev_store, pprev_setPprev, pprev_store, pprev_setPprev, pprev_insertAt, hload, hp]
    by_cases hx : x = n
    · rw [hx, if_neg hne, if_pos rfl, if_pos rfl]
    · rw [if_neg hx, if_neg hx]
      by_cases hxn : x = next
      · rw [if_pos hxn, if_pos (congrArg some hxn.symm)]
      · rw [if_neg hxn, if_neg fun h => hxn (Option.some.inj h).symm]

/-- `tuya_hlist_add_after` puts its second argument behind the first one. -/
theorem tuyaHlistAddAfter_eq {s : Heap N H} {n next : N} (hne : n ≠ next)
    (hnext : s.next n ≠ some next) :
    tuyaHlistAddAfter s n next = s.insertAt (.next n) next := by
  have hread : (((s.store (.next next) (s.next n)).store (.next n) (some next)).setPprev next
      (some (.next n))).next next = s.next n := by
    have h1 : Slot.next (H := H) next ≠ .next n := fun he => hne (Slot.next.inj he).symm
    rw [← load_next, load_setPprev, load_store, if_neg h1, load_store, if_pos rfl]
  unfold tuyaHlistAddAfter
  dsimp only
  rw [hread, setPprev_match]
  refine heap_ext (fun q => ?_) fun x => ?_
  · rw [load_backlink, load_setPprev, load_store, load_store, load_insertAt, load_next]
  · rw [pprev_backlink, pprev_setPprev, pprev_store, pprev_store, pprev_insertAt, load_next]
    by_cases hx : x = next
    · rw [hx, if_neg hnext, if_pos rfl, if_pos rfl]
    · rw [if_neg hx, if_neg hx]

/-! ## The lists behind a call -/

theorem replaceNode_of_not_mem {next : N} {l : List N} (h : next ∉ l) (l' : List N) :
    replaceNode next l' l = l := by
  induction l with
  | nil => rfl
  | cons x xs ih =>
    have hx : x ≠ next := fun he => h (he ▸ List.mem_cons_self)
    have hxs := ih fun hm => h (List.mem_cons_of_mem _ hm)
    unfold replaceNode at hxs ⊢
    rw [List.flatMap_cons, if_neg hx, hxs]
    rfl

theorem replaceNode_split {next : N} {xs ys : List N} (h : (xs ++ next :: ys).Nodup)
    (l' : List N) : replaceNode next l' (xs ++ next :: ys) = xs ++ l' ++ ys := by
  obtain ⟨hnotin, -⟩ := List.nodup_cons.mp (List.nodup_middle.mp h)
  have hx := replaceNode_of_not_mem (fun hm => hnotin (List.mem_append_left ys hm)) l'
  have hy := replaceNode_of_not_mem (fun hm => hnotin (List.mem_append_right xs hm)) l'
  unfold replaceNode at hx hy ⊢
  rw [List.flatMap_append, List.flatMap_cons, if_pos rfl, hx, hy, List.append_assoc]

theorem erase_split {n : N} {xs ys : List N} (h : (xs ++ n :: ys).Nodup) :
    (xs ++ n :: ys).erase n = xs ++ ys := by
  obtain ⟨hnotin, -⟩ := List.nodup_cons.mp (List.nodup_middle.mp h)
  rw [List.erase_append_right _ fun hm => hnotin (List.mem_append_left ys hm),
    List.erase_cons_head]

variable {s : Heap N H} {L : H → List N}

omit [DecidableEq N] in
/-- A change that only affects lists with `n` in them affects the one list with `n` in it. -/
theorem lists_update (hr : Represents s L) {h : H} {n : N} (hn : n ∈ L h)
    {f : List N → List N} (hf : ∀ l, n ∉ l → f l = l) :
    (fun h' => f (L h')) = Function.update L h (f (L h)) := by
  refine funext fun h' => ?_
  by_cases hh : h' = h
  · rw [hh, Function.update_self]
  · rw [Function.update_of_ne hh]
    exact hf _ fun hn' => hh (hr.disjoint h' h n hn' hn)

theorem lists_replace (hr : Represents s L) {h : H} {next : N} {xs ys : List N}
    (hsplit : L h = xs ++ next :: ys) (l' : List N) :
    (fun h' => replaceNode next l' (L h')) = Function.update L h (xs ++ l' ++ ys) := by
  have hmem : next ∈ L h := hsplit ▸ List.mem_append_right _ List.mem_cons_self
  rw [lists_update hr hmem fun l hl => replaceNode_of_not_mem hl l', hsplit,
    replaceNode_split (hsplit ▸ hr.nodup h)]

omit [DecidableEq N] [DecidableEq H] in
theorem tuyaHlistEmpty_iff (hr : Represents s L) (h : H) : tuyaHlistEmpty s h ↔ L h = [] := by
  have hhead : s.first h = (L h).head? := hr.load_split (show L h = [] ++ L h from rfl)
  unfold tuyaHlistEmpty
  rw [hhead]
  cases L h <;> simp

omit [DecidableEq N] [DecidableEq H] in
theorem tuyaHlistUnhashed_of_linked (hr : Represents s L) {n : N} (hn : Linked L n) :
    tuyaHlistUnhashed s n = false := by
  obtain ⟨h, hmem⟩ := hn
  obtain ⟨xs, ys, hsplit⟩ := exists_split hmem
  unfold tuyaHlistUnhashed
  rw [(hr.split hsplit).1]
  rfl

/-- A node in no list may hold anything. -/
theorem represents_fill (hr : Represents s L) {n : N} (hn : ¬ Linked L n) (next : Option N)
    (pprev : Option (Slot N H)) :
    Represents ((s.store (.next n) next).setPprev n pprev) L := by
  have hne : ∀ x, Linked L x → x ≠ n := fun x hx he => hn (he ▸ hx)
  refine represents_congr hr (fun h => rfl) (fun x hx => ?_) fun x hx => ?_
  · have hslot : Slot.next (H := H) x ≠ .next n := fun he => hne x hx (Slot.next.inj he)
    rw [← load_next, load_setPprev, load_store, if_neg hslot, load_next]
  · rw [pprev_setPprev, if_neg (hne x hx), pprev_store]

/-- Removing a linked node from the list it is in. -/
theorem represents_del (hr : Represents s L) {n : N} (hn : Linked L n) :
    ∃ s', tuyaHlistDel' s n = some s' ∧ Represents s' fun h => (L h).erase n := by
  obtain ⟨h, hmem⟩ := hn
  obtain ⟨xs, ys, hsplit⟩ := exists_split hmem
  have hnd := hr.nodup h
  refine ⟨_, tuyaHlistDel_eq (hr.split hsplit).1, ?_⟩
  rw [lists_update hr hmem fun l hl => List.erase_of_not_mem hl, hsplit,
    erase_split (hsplit ▸ hnd)]
  exact represents_removeAt hr hsplit

omit [DecidableEq H] in
theorem not_linked_erase (hr : Represents s L) (n : N) :
    ¬ Linked (fun h => (L h).erase n) n := by
  intro hn
  obtain ⟨h, hmem⟩ := hn
  exact (hr.nodup h).not_mem_erase hmem

/-! ## One call -/

/-- Every other call than `tuya_hlist_add_after` does what its comment says. -/
theorem follows_of_legal (hr : Represents s L) {op : HlistOp N H} (hl : OpLegal L op)
    (hop : ¬ op.AddsAfter) : Follows (some s, L) op := by
  cases op with
  | addHead n h =>
    refine ⟨_, congrArg some (tuyaHlistAddHead_eq s n h), ?_⟩
    exact represents_insertAt hr (show L h = [] ++ L h from rfl) hl
  | addBefore n next =>
    obtain ⟨hn, h, hmem⟩ := hl
    obtain ⟨xs, ys, hsplit⟩ := exists_split hmem
    obtain ⟨hp, hload⟩ := hr.split hsplit
    have hne : n ≠ next := fun he => hn ⟨h, he ▸ hmem⟩
    refine ⟨_, tuyaHlistAddBefore_eq hne hp hload, ?_⟩
    have hdoc : docStep L (.addBefore n next) = Function.update L h (xs ++ n :: next :: ys) :=
      (lists_replace hr hsplit [n, next]).trans (by rw [List.append_assoc]; rfl)
    have hins := represents_insertAt hr hsplit hn
    rwa [← hdoc] at hins
  | addAfter n next => exact absurd trivial hop
  | del n => exact represents_del hr hl
  | delInit n =>
    obtain ⟨s', hs', hr'⟩ := represents_del hr hl
    refine ⟨tuyaInitHlistNode s' n, ?_, represents_fill hr' (not_linked_erase hr n) none none⟩
    have hcall : tuyaHlistDelInit s n = some (tuyaInitHlistNode s' n) := by
      unfold tuyaHlistDelInit
      rw [tuyaHlistUnhashed_of_linked hr hl, hs']
      rfl
    exact hcall
  | fill n next pprev => exact ⟨_, rfl, represents_fill hr hl next pprev⟩

/-- With the roles of its comment, `tuya_hlist_add_after` leaves the node in the list with a
    `pprev` that no slot in front of it can be. -/
theorem not_follows_addAfter (hr : Represents s L) {n next : N}
    (hl : OpLegal L (.addAfter n next)) : ¬ Follows (some s, L) (.addAfter n next) := by
  obtain ⟨hn, h, hmem⟩ := hl
  obtain ⟨xs, ys, hsplit⟩ := exists_split hmem
  intro hf
  obtain ⟨s', hs', hr'⟩ := hf
  have hs : tuyaHlistAddAfter s n next = s' := Option.some.inj hs'
  have hsplit' : insertAfter n next (L h) = xs ++ next :: n :: ys := by
    rw [hsplit, insertAfter, replaceNode_split (hsplit ▸ hr.nodup h), List.append_assoc]
    rfl
  have hback := (hr'.split hsplit').1
  have hxs : ∀ x, slotAfter (Slot.first h) xs = .next x → x ≠ n ∧ x ≠ next := by
    intro x hx
    have hin := slotAfter_next hx
    refine ⟨fun he => hn ⟨h, ?_⟩, fun he => ?_⟩
    · rw [hsplit, ← he]
      exact List.mem_append_left _ hin
    · have hnd := hr.nodup h
      rw [hsplit] at hnd
      exact List.disjoint_of_nodup_append hnd hin (he ▸ List.mem_cons_self)
  -- the call has made `next` point back at the new node, or at itself
  have hcall : (tuyaHlistAddAfter s n next).pprev next = some (.next n) ∨
      (tuyaHlistAddAfter s n next).pprev next = some (.next next) := by
    unfold tuyaHlistAddAfter
    dsimp only
    rw [setPprev_match, pprev_backlink, pprev_setPprev, if_pos rfl]
    split
    · exact .inr rfl
    · exact .inl rfl
  rw [hs, hback] at hcall
  obtain hcall | hcall := hcall
  · exact (hxs n (Option.some.inj hcall)).1 rfl
  · exact (hxs next (Option.some.inj hcall)).2 rfl

/-- With the roles of its arguments exchanged, it does what its comment says. -/
theorem addAfter_exchanged (hr : Represents s L) {n next : N}
    (hl : OpLegal L (.addAfter next n)) :
    Represents (tuyaHlistAddAfter s n next) (docStep L (.addAfter next n)) := by
  obtain ⟨hnext, h, hmem⟩ := hl
  obtain ⟨xs, ys, hsplit⟩ := exists_split hmem
  have hsplit' : L h = (xs ++ [n]) ++ ys := by rw [hsplit, List.append_assoc]; rfl
  have hslot : slotAfter (Slot.first h) (xs ++ [n]) = .next n := slotAfter_append _ _ _
  have hne : n ≠ next := fun he => hnext ⟨h, he ▸ hmem⟩
  have hhead : s.next n ≠ some next := by
    have hload := hr.load_split hsplit'
    rw [hslot, load_next] at hload
    intro he
    refine hnext ⟨h, ?_⟩
    rw [hsplit']
    exact List.mem_append_right _ (List.mem_of_mem_head? (hload ▸ he))
  have hdoc : docStep L (.addAfter next n) = Function.update L h ((xs ++ [n]) ++ next :: ys) :=
    (lists_replace hr hsplit [n, next]).trans (by simp only [List.append_assoc]; rfl)
  have hins := represents_insertAt hr hsplit' hnext
  rwa [hslot, ← hdoc, ← tuyaHlistAddAfter_eq hne hhead] at hins

/-! ## Sequences of calls -/

/-- In every sequence of calls that may be made, each call does what its comment says exactly
    when none of them is `tuya_hlist_add_after`. -/
theorem follows_iff (hr : Represents s L) (ops : List (HlistOp N H))
    (hl : Along hlistStep (fun t op => OpLegal t.2 op) (some s, L) ops) :
    Along hlistStep Follows (some s, L) ops ↔ ∀ op ∈ ops, ¬ op.AddsAfter := by
  have hinputs : Along hlistStep (fun _ op => ¬ op.AddsAfter) (some s, L) ops ↔
      ∀ op ∈ ops, ¬ op.AddsAfter := along_inputs _ _ _
  rw [← hinputs]
  refine along_congr_of (I := fun t => ∃ s, t.1 = some s ∧ Represents s t.2)
    (fun _ _ _ _ hf => hf) (fun t op ht hlegal => ?_) ⟨s, rfl, hr⟩ hl
  obtain ⟨s, L⟩ := t
  obtain ⟨s, rfl, hr⟩ := ht
  refine ⟨fun hf hop => ?_, follows_of_legal hr hlegal⟩
  cases op with
  | addAfter n next => exact not_follows_addAfter hr hlegal hf
  | _ => exact hop

/-- Two nodes put in a list, and the first one taken out and put in again. -/
theorem follows_iff_readd :
    Along hlistStep Follows (some (⟨fun _ => none, fun _ => none, fun _ => none⟩ : Heap Nat Unit),
      fun _ => []) [.addHead 0 (), .addBefore 1 0, .del 1, .fill 1 (some 0) none, .addHead 1 ()] :=
  (follows_iff (represents_nil fun _ => rfl) _ (by
    simp [hlistStep, OpLegal, Linked, docStep, insertBefore, replaceNode])).mpr
    (by simp [HlistOp.AddsAfter])

/-- Node 1 added after node 0: the head's list is still node 0 alone. -/
theorem addAfter_loses_node :
    let s : Heap Nat Unit := ⟨fun _ => none, fun _ => none, fun _ => none⟩
    let ops : List (HlistOp Nat Unit) := [.addHead 0 (), .addAfter 1 0]
    Represents s (fun _ => []) ∧
    Along hlistStep (fun t op => OpLegal t.2 op) (some s, fun _ => []) ops ∧
    docStep (docStep (fun _ => []) (.addHead 0 ())) (.addAfter 1 0) () = [0, 1] ∧
    (tuyaHlistAddAfter (tuyaHlistAddHead s 0 ()) 1 0).first () = some 0 ∧
    (tuyaHlistAddAfter (tuyaHlistAddHead s 0 ()) 1 0).next 0 = none ∧
    ¬ Along hlistStep Follows (some s, fun _ => []) ops := by
  have hnil : Represents (⟨fun _ => none, fun _ => none, fun _ => none⟩ : Heap Nat Unit)
      fun _ => [] := represents_nil fun _ => rfl
  have hlegal : Along hlistStep (fun t op => OpLegal t.2 op)
      (some (⟨fun _ => none, fun _ => none, fun _ => none⟩ : Heap Nat Unit), fun _ => [])
      [.addHead 0 (), .addAfter 1 0] := by
    simp [hlistStep, OpLegal, Linked, docStep]
  refine ⟨hnil, hlegal, by decide, by decide, by decide, ?_⟩
  intro hf
  obtain ⟨s', hs', hr'⟩ := hf.1
  have hlast := hf.2.1
  rw [show (hlistStep (some _, fun _ => []) (HlistOp.addHead 0 ())).1 = (some s', _) from
    Prod.ext hs' rfl] at hlast
  exact not_follows_addAfter hr' hlegal.2.1 hlast

end ArduinoT2.System
