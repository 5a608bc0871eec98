import Mathlib.Data.List.Chain
import Mathlib.Data.List.Nodup
import Mathlib.Logic.Function.Basic

/-
  Singly linked lists: every node holds one pointer, to the next node or NULL, and a list hangs
  on a node of its own, its head.

  `Chain s p l` says that the nodes behind `p` in the heap `s` are `l`, the last one with NULL.
  The heap leaves no choice of `l` (`Chain.unique`), so a chain meets no node twice
  (`Chain.nodup`). Every edit of a list changes what hangs behind one of its nodes and keeps the
  links up to there, so the new list is told by its new rest (`Chain.splice_iff`), which is often
  an old one, hung on another node (`Chain.move`).

  `forEach` is the loop over the nodes behind a node whose body may edit the heap, with at most
  `fuel` rounds. Rounds that only look go along the chain (`forEach_walk`) and to its end
  (`forEach_chain`), and a loop that only looks and comes to an end has a chain in front of it
  (`exists_chain_of_forEach`).
-/

namespace NextList

universe u v

variable {A : Type u}

/-- The `next` of every node. -/
abbrev Heap (A : Type u) := A → Option A

/-- The nodes `l` follow each other behind `p`. -/
def Links (s : Heap A) (p : A) (l : List A) : Prop := (p :: l).IsChain fun x y => s x = some y

/-- The nodes behind `p` are `l`. -/
structure Chain (s : Heap A) (p : A) (l : List A) : Prop where
  links : Links s p l
  last : s (l.getLastD p) = none

/-! ## Links and chains -/

@[simp] theorem links_nil (s : Heap A) (p : A) : Links s p [] := List.isChain_singleton p

@[simp] theorem links_cons {s : Heap A} {p x : A} {xs : List A} :
    Links s p (x :: xs) ↔ s p = some x ∧ Links s x xs := List.isChain_cons_cons

theorem chain_nil {s : Heap A} {p : A} : Chain s p [] ↔ s p = none :=
  ⟨fun h => h.last, fun h => ⟨links_nil s p, h⟩⟩

theorem chain_cons {s : Heap A} {p x : A} {xs : List A} :
    Chain s p (x :: xs) ↔ s p = some x ∧ Chain s x xs := by
  constructor
  · intro h
    obtain ⟨hx, hxs⟩ := links_cons.mp h.links
    have hlast := h.last
    rw [List.getLastD_cons] at hlast
    exact ⟨hx, hxs, hlast⟩
  · intro h
    refine ⟨links_cons.mpr ⟨h.1, h.2.links⟩, ?_⟩
    rw [List.getLastD_cons]
    exact h.2.last

theorem chain_append {s : Heap A} {p : A} {xs ys : List A} :
    Chain s p (xs ++ ys) ↔ Links s p xs ∧ Chain s (xs.getLastD p) ys := by
  induction xs generalizing p with
  | nil => exact (and_iff_right (links_nil s p)).symm
  | cons x xs ih =>
    rw [List.cons_append, chain_cons, ih, links_cons, List.getLastD_cons, and_assoc]

theorem Chain.append_nil {s : Heap A} {p : A} {l : List A} (h : Chain s p l) :
    Chain s p (l ++ []) := (List.append_nil l).symm ▸ h

/-- The node behind `p` is the first one of its chain. -/
theorem Chain.head {s : Heap A} {p : A} {l : List A} (h : Chain s p l) : s p = l.head? := by
  cases l with
  | nil => exact chain_nil.mp h
  | cons x xs => exact (chain_cons.mp h).1

theorem Chain.unique {s : Heap A} {p : A} {l l' : List A} (h : Chain s p l) (h' : Chain s p l') :
    l = l' := by
  induction l generalizing p l' with
  | nil =>
    have hhead := h'.head
    rw [chain_nil.mp h] at hhead
    exact (List.head?_eq_none_iff.mp hhead.symm).symm
  | cons x xs ih =>
    obtain ⟨hx, hxs⟩ := chain_cons.mp h
    cases l' with
    | nil => rw [chain_nil.mp h'] at hx; cases hx
    | cons y ys =>
      obtain ⟨hy, hys⟩ := chain_cons.mp h'
      obtain rfl : x = y := Option.some.inj (hx.symm.trans hy)
      rw [ih hxs hys]

/-- What hangs behind a member of a chain is the rest of it. -/
theorem Chain.rest {s : Heap A} {p n : A} {xs ys : List A} (h : Chain s p (xs ++ n :: ys)) :
    Chain s n ys := (chain_cons.mp (chain_append.mp h).2).2

/-- A chain starts with the nodes that are linked behind the node it hangs on. -/
theorem Chain.starts {s : Heap A} {p : A} {xs l : List A} (h : Chain s p l)
    (hxs : Links s p xs) : ∃ ys, l = xs ++ ys := by
  induction xs generalizing p l with
  | nil => exact ⟨l, rfl⟩
  | cons x xs ih =>
    obtain ⟨hx, hrest⟩ := links_cons.mp hxs
    obtain ⟨l', rfl⟩ := List.head?_eq_some_iff.mp (h.head.symm.trans hx)
    obtain ⟨ys, rfl⟩ := ih (chain_cons.mp h).2 hrest
    exact ⟨ys, rfl⟩

/-- A chain does not come back to the node it hangs on: the rest behind that node would be the
    chain itself. -/
theorem Chain.not_mem {s : Heap A} {p : A} {l : List A} (h : Chain s p l) : p ∉ l := by
  intro hp
  obtain ⟨xs, ys, rfl⟩ := List.append_of_mem hp
  have hlen := congrArg List.length (h.unique h.rest)
  rw [List.length_append, List.length_cons] at hlen
  omega

theorem Chain.nodup {s : Heap A} {p : A} {l : List A} (h : Chain s p l) : (p :: l).Nodup := by
  induction l generalizing p with
  | nil => exact List.nodup_singleton p
  | cons x xs ih => exact List.nodup_cons.mpr ⟨h.not_mem, ih (chain_cons.mp h).2⟩

/-- A member of a chain is in it once, and is not the node it hangs on. -/
theorem Chain.not_mem_split {s : Heap A} {p n : A} {xs ys : List A}
    (h : Chain s p (xs ++ n :: ys)) : n ∉ (p :: xs) ++ ys :=
  (List.nodup_cons.mp (List.nodup_middle.mp
    (show ((p :: xs) ++ n :: ys).Nodup from h.nodup))).1

/-! ## Edits -/

/-- A store to the last node of a list leaves all nodes that are not in it alone. -/
theorem update_last [DecidableEq A] {p x : A} {l : List A} (hx : x ∉ p :: l) (s : Heap A)
    (next : Option A) : Function.update s (l.getLastD p) next x = s x := by
  have hne : x ≠ l.getLastD p := fun he => hx (he ▸ List.getLastD_mem_cons)
  exact Function.update_of_ne hne next s

theorem links_congr {s s' : Heap A} {p : A} {xs : List A} (h : Links s p xs)
    (hnd : (p :: xs).Nodup) (hs : ∀ x ∈ p :: xs, x ≠ xs.getLastD p → s' x = s x) :
    Links s' p xs := by
  induction xs generalizing p with
  | nil => exact links_nil s' p
  | cons x xs ih =>
    obtain ⟨hx, hrest⟩ := links_cons.mp h
    obtain ⟨hp, hxs⟩ := List.nodup_cons.mp hnd
    rw [List.getLastD_cons] at hs
    have hne : p ≠ xs.getLastD x := fun he => hp (he ▸ List.getLastD_mem_cons)
    exact links_cons.mpr ⟨(hs p List.mem_cons_self hne).trans hx,
      ih hrest hxs fun y hy => hs y (List.mem_cons_of_mem p hy)⟩

/-- A chain hung on another node. -/
theorem Chain.move {s s' : Heap A} {p q : A} {l : List A} (h : Chain s p l) (hq : s' q = s p)
    (hl : ∀ x ∈ l, s' x = s x) : Chain s' q l := by
  induction l generalizing p q with
  | nil => exact chain_nil.mpr (hq.trans (chain_nil.mp h))
  | cons x xs ih =>
    obtain ⟨hx, hxs⟩ := chain_cons.mp h
    have hrest := ih hxs (hl x List.mem_cons_self) fun y hy => hl y (List.mem_cons_of_mem x hy)
    exact chain_cons.mpr ⟨hq.trans hx, hrest⟩

section Splice

variable {s s' : Heap A} {p : A} {xs ys : List A}

/-- An edit of what hangs behind the last one of the nodes `xs` keeps the links up to there. -/
theorem Chain.splice_links (h : Chain s p (xs ++ ys))
    (hs : ∀ x ∈ p :: xs, x ≠ xs.getLastD p → s' x = s x) : Links s' p xs := by
  have hsub : (p :: xs).Sublist (p :: (xs ++ ys)) :=
    List.cons_sublist_cons.mpr (List.sublist_append_left xs ys)
  exact links_congr (chain_append.mp h).1 (h.nodup.sublist hsub) hs

/-- It leaves the nodes `xs` and what then hangs behind the last one of them. -/
theorem Chain.splice_iff (h : Chain s p (xs ++ ys))
    (hs : ∀ x ∈ p :: xs, x ≠ xs.getLastD p → s' x = s x) {zs : List A} :
    Chain s' p (xs ++ zs) ↔ Chain s' (xs.getLastD p) zs :=
  chain_append.trans (and_iff_right (h.splice_links hs))

end Splice

/-! ## The loop -/

section Loop

variable {B : Type v}

/-- `for (pos = list->next; pos; pos = pos->next)` over a body that may break, with at most
    `fuel` rounds. -/
def forEach (body : A → Heap A × B → ForInStep (Heap A × B)) :
    Nat → Option A → Heap A × B → Option (Heap A × B)
  | _, none, st => some st
  | 0, some _, _ => none
  | fuel + 1, some pos, st =>
    match body pos st with
    | .done st => some st
    | .yield st => forEach body fuel (st.1 pos) st

variable {body : A → Heap A × B → ForInStep (Heap A × B)}

@[simp] theorem forEach_none (fuel : Nat) (st : Heap A × B) :
    forEach body fuel none st = some st := by
  cases fuel <;> rfl

theorem forEach_done {pos : A} {st st' : Heap A × B} (h : body pos st = .done st') (fuel : Nat) :
    forEach body (fuel + 1) (some pos) st = some st' := by
  unfold forEach
  rw [h]

theorem forEach_yield {pos : A} {st st' : Heap A × B} (h : body pos st = .yield st')
    (fuel : Nat) :
    forEach body (fuel + 1) (some pos) st = forEach body fuel (st'.1 pos) st' := by
  rw [forEach, h]

/-- Rounds that leave the heap as it is go along the nodes of the chain. -/
theorem forEach_walk {s : Heap A} {p : A} {xs ys : List A} {f : B → A → B}
    (hbody : ∀ x ∈ xs, ∀ b, body x (s, b) = .yield (s, f b x)) (h : Chain s p (xs ++ ys))
    (fuel : Nat) (b : B) :
    forEach body (xs.length + fuel) (s p) (s, b) =
      forEach body fuel ys.head? (s, xs.foldl f b) := by
  induction xs generalizing p b with
  | nil => rw [h.head, List.length_nil, Nat.zero_add]; rfl
  | cons x xs ih =>
    obtain ⟨hx, hxs⟩ := chain_cons.mp h
    rw [hx, List.length_cons, Nat.add_right_comm,
      forEach_yield (hbody x List.mem_cons_self b),
      ih (fun y hy => hbody y (List.mem_cons_of_mem x hy)) hxs]
    rfl

/-- With a round for each node, a loop of such rounds comes to the end of the chain. -/
theorem forEach_chain {s : Heap A} {p : A} {l : List A} {f : B → A → B}
    (hbody : ∀ x ∈ l, ∀ b, body x (s, b) = .yield (s, f b x)) (h : Chain s p l) {fuel : Nat}
    (hfuel : l.length ≤ fuel) (b : B) :
    forEach body fuel (s p) (s, b) = some (s, l.foldl f b) := by
  obtain ⟨k, rfl⟩ := Nat.exists_eq_add_of_le hfuel
  rw [forEach_walk hbody h.append_nil, List.head?_nil, forEach_none]

/-- A loop that leaves the heap as it is, never breaks and ends has met the nodes of a chain. -/
theorem exists_chain_of_forEach {s : Heap A} {p : A} {f : B → A → B}
    (hbody : ∀ x b, body x (s, b) = .yield (s, f b x)) {fuel : Nat} {b : B} {r : Heap A × B}
    (hr : forEach body fuel (s p) (s, b) = some r) : ∃ l, Chain s p l := by
  induction fuel generalizing p b with
  | zero =>
    cases hp : s p with
    | none => exact ⟨[], chain_nil.mpr hp⟩
    | some x => rw [hp] at hr; cases hr
  | succ fuel ih =>
    cases hp : s p with
    | none => exact ⟨[], chain_nil.mpr hp⟩
    | some x =>
      rw [hp, forEach_yield (hbody x b)] at hr
      obtain ⟨l, hl⟩ := ih hr
      exact ⟨x :: l, chain_cons.mpr ⟨hp, hl⟩⟩

end Loop

end NextList
