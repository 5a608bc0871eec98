import Mathlib.Logic.Function.Basic
import Mathlib.Data.List.Nodup

/-
  Singly linked lists whose nodes point back at the pointer that points at them.

  A list hangs on a head, and a slot is a place that holds a pointer to a node: the `first` of a
  head or the `next` of a node. A node's `pprev` is the slot that holds it, so a node is inserted
  at a slot and removed from its slot without a walk from the head.

  `Represents s L` says that the heap `s` holds the lists `L`, one for each head, disjoint and
  without repetition. An edit of one list is a `Splice`, and `represents_splice` its rule; the two
  edits are `insertAt` and `removeAt`, with the rules `represents_insertAt` and
  `represents_removeAt`. A node that is in no list may hold anything (`represents_congr`).
-/

namespace PprevList

universe u v

/-- A place that holds a pointer to a node. -/
inductive Slot (N : Type u) (H : Type v) where
  | first (h : H)
  | next (n : N)
deriving DecidableEq

/-- The fields of the heads and of the nodes. -/
@[ext] structure Heap (N : Type u) (H : Type v) where
  first : H → Option N
  next : N → Option N
  pprev : N → Option (Slot N H)

variable {N : Type u} {H : Type v}

/-- What a slot holds. -/
def Heap.load (s : Heap N H) : Slot N H → Option N
  | .first h => s.first h
  | .next n => s.next n

@[simp] theorem load_first (s : Heap N H) (h : H) : s.load (.first h) = s.first h := rfl
@[simp] theorem load_next (s : Heap N H) (n : N) : s.load (.next n) = s.next n := rfl

/-- Heaps are equal when their slots and their `pprev` fields are. -/
theorem heap_ext {s s' : Heap N H} (hload : ∀ q, s.load q = s'.load q)
    (hpprev : ∀ x, s.pprev x = s'.pprev x) : s = s' :=
  Heap.ext (funext fun h => hload (.first h)) (funext fun n => hload (.next n)) (funext hpprev)

/-- The slot behind the nodes `xs` that start at slot `p`. -/
def slotAfter (p : Slot N H) : List N → Slot N H
  | [] => p
  | x :: xs => slotAfter (.next x) xs

/-- The nodes `xs` follow each other from slot `p` on, linked both ways. -/
def Links (s : Heap N H) (p : Slot N H) : List N → Prop
  | [] => True
  | x :: xs => s.load p = some x ∧ s.pprev x = some p ∧ Links s (.next x) xs

/-- The heap holds the list `L h` at each head `h`. -/
structure Represents (s : Heap N H) (L : H → List N) : Prop where
  links : ∀ h, Links s (.first h) (L h)
  last : ∀ h, s.load (slotAfter (.first h) (L h)) = none
  nodup : ∀ h, (L h).Nodup
  disjoint : ∀ h h' n, n ∈ L h → n ∈ L h' → h = h'

/-- The node is in one of the lists. -/
def Linked (L : H → List N) (n : N) : Prop := ∃ h, n ∈ L h

/-! ## Slots and links -/

@[simp] theorem slotAfter_nil (p : Slot N H) : slotAfter p [] = p := rfl

theorem slotAfter_append (p : Slot N H) (xs ys : List N) :
    slotAfter p (xs ++ ys) = slotAfter (slotAfter p xs) ys := by
  induction xs generalizing p with
  | nil => rfl
  | cons x xs ih => exact ih _

/-- The slot behind a list is the one it starts at or the `next` of a member. -/
theorem slotAfter_cases (p : Slot N H) (xs : List N) :
    slotAfter p xs = p ∨ ∃ x ∈ xs, slotAfter p xs = .next x := by
  induction xs generalizing p with
  | nil => exact .inl rfl
  | cons x xs ih =>
    refine .inr ?_
    obtain hself | ⟨z, hz, hlast⟩ := ih (.next x)
    · exact ⟨x, List.mem_cons_self, hself⟩
    · exact ⟨z, List.mem_cons_of_mem _ hz, hlast⟩

variable {s s' : Heap N H} {L : H → List N}

theorem links_append (p : Slot N H) (xs ys : List N) :
    Links s p (xs ++ ys) ↔ Links s p xs ∧ Links s (slotAfter p xs) ys := by
  induction xs generalizing p with
  | nil => simp [Links]
  | cons x xs ih =>
    have hrest := ih (.next x)
    simp only [List.cons_append, Links, slotAfter, hrest, and_assoc]

/-- Links carry over to a heap that keeps each of them. -/
theorem Links.transport {p : Slot N H} {xs : List N} (hl : Links s p xs)
    (hag : ∀ q x, x ∈ xs → (q = p ∨ ∃ z ∈ xs, q = .next z) → s.load q = some x →
      s.pprev x = some q → s'.load q = some x ∧ s'.pprev x = some q) : Links s' p xs := by
  induction xs generalizing p with
  | nil => trivial
  | cons x xs ih =>
    obtain ⟨hload, hpprev, hrest⟩ := hl
    obtain ⟨hload', hpprev'⟩ := hag p x List.mem_cons_self (.inl rfl) hload hpprev
    refine ⟨hload', hpprev', ih hrest fun q z hz hq => ?_⟩
    refine hag q z (List.mem_cons_of_mem _ hz) (.inr ?_)
    obtain hself | ⟨w, hw, hnext⟩ := hq
    · exact ⟨x, List.mem_cons_self, hself⟩
    · exact ⟨w, List.mem_cons_of_mem _ hw, hnext⟩

/-- A heap that keeps the first slot and the fields of the members keeps the links and what is
    behind them. -/
theorem Links.congr {p : Slot N H} {xs : List N} (hl : Links s p xs)
    (hp : s'.load p = s.load p) (hnext : ∀ x ∈ xs, s'.next x = s.next x)
    (hpprev : ∀ x ∈ xs, s'.pprev x = s.pprev x) :
    Links s' p xs ∧ s'.load (slotAfter p xs) = s.load (slotAfter p xs) := by
  have hslot : ∀ q : Slot N H, (q = p ∨ ∃ z ∈ xs, q = .next z) → s'.load q = s.load q := by
    intro q hq
    obtain hq | ⟨z, hz, hq⟩ := hq
    · rw [hq, hp]
    · rw [hq]
      exact hnext z hz
  refine ⟨hl.transport fun q x hx hq hload hback => ?_, hslot _ (slotAfter_cases p xs)⟩
  exact ⟨(hslot q hq).trans hload, (hpprev x hx).trans hback⟩

/-- Where a member of a list is: the slot that its `pprev` names holds it. -/
theorem Represents.split (hr : Represents s L) {h : H} {n : N} {xs ys : List N}
    (hsplit : L h = xs ++ n :: ys) : s.pprev n = some (slotAfter (.first h) xs) ∧
      s.load (slotAfter (.first h) xs) = some n := by
  have hl := hr.links h
  rw [hsplit, links_append] at hl
  exact ⟨hl.2.2.1, hl.2.1⟩

/-- What the slot behind `xs` holds: the first node of the rest of the list. -/
theorem Represents.load_split (hr : Represents s L) {h : H} {xs ys : List N}
    (hsplit : L h = xs ++ ys) : s.load (slotAfter (.first h) xs) = ys.head? := by
  cases ys with
  | nil =>
    have hlast := hr.last h
    rwa [hsplit, List.append_nil] at hlast
  | cons y ys => exact (hr.split hsplit).2

theorem exists_split {h : H} {n : N} (hn : n ∈ L h) : ∃ xs ys, L h = xs ++ n :: ys :=
  List.append_of_mem hn

/-- Only the fields of linked nodes matter. -/
theorem represents_congr (hr : Represents s L) (hfirst : ∀ h, s'.first h = s.first h)
    (hnext : ∀ x, Linked L x → s'.next x = s.next x)
    (hpprev : ∀ x, Linked L x → s'.pprev x = s.pprev x) : Represents s' L := by
  have hkeep : ∀ h, Links s' (.first h) (L h) ∧
      s'.load (slotAfter (.first h) (L h)) = s.load (slotAfter (.first h) (L h)) := fun h =>
    (hr.links h).congr (hfirst h) (fun x hx => hnext x ⟨h, hx⟩) (fun x hx => hpprev x ⟨h, hx⟩)
  exact ⟨fun h => (hkeep h).1, fun h => (hkeep h).2.trans (hr.last h), hr.nodup, hr.disjoint⟩

/-- Heads that hold nothing hold empty lists, whatever the nodes hold. -/
theorem represents_nil (h : ∀ h, s.first h = none) : Represents s fun _ => [] :=
  ⟨fun _ => trivial, h, fun _ => List.nodup_nil, fun _ _ _ hn => nomatch hn⟩

/-! ## The slot at a split -/

/-- The slot behind `xs` belongs to the list of `xs`. -/
theorem slotAfter_first (h h' : H) (xs : List N) (he : slotAfter (.first h) xs = .first h') :
    h' = h := by
  obtain hself | ⟨z, -, hnext⟩ := slotAfter_cases (Slot.first h) xs
  · rw [hself] at he
    exact (Slot.first.inj he).symm
  · rw [hnext] at he
    cases he

theorem slotAfter_next {h : H} {x : N} {xs : List N} (he : slotAfter (.first h) xs = .next x) :
    x ∈ xs := by
  obtain hself | ⟨z, hz, hnext⟩ := slotAfter_cases (Slot.first h) xs
  · rw [hself] at he
    cases he
  · rw [hnext] at he
    rwa [← Slot.next.inj he]

/-- The members of another list have other slots. -/
theorem Represents.slot_other (hr : Represents s L) {h h' : H} {x : N} {xs ys : List N}
    (hsplit : L h = xs ++ ys) (hh : h' ≠ h) (hx : x ∈ L h') :
    Slot.next x ≠ slotAfter (.first h) xs := by
  intro he
  have hmem : x ∈ L h := by
    rw [hsplit]
    exact List.mem_append_left _ (slotAfter_next he.symm)
  exact hh (hr.disjoint h' h x hx hmem)

/-- So have the members behind the split. -/
theorem Represents.slot_behind (hr : Represents s L) {h : H} {x : N} {xs ys : List N}
    (hsplit : L h = xs ++ ys) (hx : x ∈ ys) : Slot.next x ≠ slotAfter (.first h) xs := by
  intro he
  have hnd := hr.nodup h
  rw [hsplit] at hnd
  exact List.disjoint_of_nodup_append hnd (slotAfter_next he.symm) hx

/-- The nodes in front of the slot `p` at which a heap is edited keep their links, if the edit
    writes `p`, slots that are not theirs, and the `pprev` of nodes that are not among them. -/
theorem Represents.links_front (hr : Represents s L) {h : H} {xs ys : List N}
    (hsplit : L h = xs ++ ys)
    (hload : ∀ q, q ≠ slotAfter (.first h) xs → (∀ x, q = .next x → x ∈ xs) →
      s'.load q = s.load q)
    (hpprev : ∀ x ∈ xs, s'.pprev x = s.pprev x) : Links s' (.first h) xs := by
  have hl := hr.links h
  have hnd := hr.nodup h
  rw [hsplit] at hnd
  rw [hsplit, links_append] at hl
  refine hl.1.transport fun q x hx hq hqx hback => ⟨?_, (hpprev x hx).trans hback⟩
  rw [hload q ?_ ?_, hqx]
  · intro he
    -- the slot of the edit holds the first node behind the split
    have hhead := hr.load_split hsplit
    rw [← he, hqx] at hhead
    exact List.disjoint_of_nodup_append hnd hx (List.mem_of_mem_head? hhead.symm)
  · intro z hz
    obtain hq | ⟨w, hw, hq⟩ := hq
    · rw [hq] at hz
      cases hz
    · rw [hq] at hz
      rwa [← Slot.next.inj hz]

/-- The nodes behind node `y` keep their links, if the edit keeps their fields. -/
theorem Represents.links_behind (hr : Represents s L) {h : H} {y : N} {xs ys : List N}
    (hsplit : L h = xs ++ y :: ys) (hnext : ∀ x ∈ y :: ys, s'.next x = s.next x)
    (hpprev : ∀ x ∈ ys, s'.pprev x = s.pprev x) :
    Links s' (.next y) ys ∧ s'.load (slotAfter (.next y) ys) = none := by
  have hl := hr.links h
  have hlast := hr.last h
  rw [hsplit, links_append] at hl
  rw [hsplit, slotAfter_append] at hlast
  obtain ⟨hlinks, hsame⟩ := hl.2.2.2.congr (hnext y List.mem_cons_self)
    (fun x hx => hnext x (List.mem_cons_of_mem _ hx)) hpprev
  exact ⟨hlinks, hsame.trans hlast⟩

/-- One list of the heap replaced, the fields of the others kept. -/
theorem Represents.replace [DecidableEq H] (hr : Represents s L) {h : H} {l : List N}
    (hlinks : Links s' (.first h) l) (hlast : s'.load (slotAfter (.first h) l) = none)
    (hnodup : l.Nodup) (hmem : ∀ x ∈ l, x ∈ L h ∨ ¬ Linked L x)
    (hfirst : ∀ h', h' ≠ h → s'.first h' = s.first h')
    (hnext : ∀ h', h' ≠ h → ∀ x ∈ L h', s'.next x = s.next x ∧ s'.pprev x = s.pprev x) :
    Represents s' (Function.update L h l) := by
  have hother : ∀ h', h' ≠ h → Links s' (.first h') (L h') ∧
      s'.load (slotAfter (.first h') (L h')) = s.load (slotAfter (.first h') (L h')) :=
    fun h' hh => (hr.links h').congr (hfirst h' hh) (fun x hx => (hnext h' hh x hx).1)
      (fun x hx => (hnext h' hh x hx).2)
  have hout : ∀ h' x, h' ≠ h → x ∈ L h' → x ∉ l := by
    intro h' x hh hx hxl
    obtain hin | hfree := hmem x hxl
    · exact hh (hr.disjoint h' h x hx hin)
    · exact hfree ⟨h', hx⟩
  refine ⟨fun h' => ?_, fun h' => ?_, fun h' => ?_, fun h₁ h₂ x h1 h2 => ?_⟩
  · by_cases hh : h' = h
    · rw [hh, Function.update_self]
      exact hlinks
    · rw [Function.update_of_ne hh]
      exact (hother h' hh).1
  · by_cases hh : h' = h
    · rw [hh, Function.update_self]
      exact hlast
    · rw [Function.update_of_ne hh]
      exact (hother h' hh).2.trans (hr.last h')
  · by_cases hh : h' = h
    · rw [hh, Function.update_self]
      exact hnodup
    · rw [Function.update_of_ne hh]
      exact hr.nodup h'
  · by_cases hh1 : h₁ = h <;> by_cases hh2 : h₂ = h
    · rw [hh1, hh2]
    · rw [hh1, Function.update_self] at h1
      rw [Function.update_of_ne hh2] at h2
      exact absurd h1 (hout h₂ x hh2 h2)
    · rw [Function.update_of_ne hh1] at h1
      rw [hh2, Function.update_self] at h2
      exact absurd h2 (hout h₁ x hh1 h1)
    · rw [Function.update_of_ne hh1] at h1
      rw [Function.update_of_ne hh2] at h2
      exact hr.disjoint h₁ h₂ x h1 h2

/-! ## Splicing -/

/-- In `s'` the stretch `mid` of the list of `h` is replaced by `mid'`, between the slot behind
    `xs` and the nodes `ys`: written are that slot, the nodes of `mid'`, and the `pprev` of the
    first of `ys`. -/
structure Splice (s s' : Heap N H) (L : H → List N) (h : H) (xs mid mid' ys : List N) : Prop where
  split : L h = xs ++ (mid ++ ys)
  new : ∀ x ∈ mid', x ∈ mid ∨ ¬ Linked L x
  nodup : mid'.Nodup
  load : ∀ q, q ≠ slotAfter (.first h) xs → (∀ x ∈ mid', q ≠ .next x) → s'.load q = s.load q
  pprev : ∀ x, x ∉ mid' → ys.head? ≠ some x → s'.pprev x = s.pprev x
  links : Links s' (slotAfter (.first h) xs) mid'
  next : s'.load (slotAfter (slotAfter (.first h) xs) mid') = ys.head?
  back : ∀ y, ys.head? = some y → s'.pprev y = some (slotAfter (slotAfter (.first h) xs) mid')

section Splice

variable {h : H} {xs mid mid' ys : List N}

theorem Splice.mem (sp : Splice s s' L h xs mid mid' ys) {x : N} (hx : x ∈ xs ∨ x ∈ mid ∨ x ∈ ys) :
    x ∈ L h := by
  rw [sp.split, List.mem_append, List.mem_append]
  exact hx

/-- The new nodes are no other nodes of the list, -/
theorem Splice.apart (hr : Represents s L) (sp : Splice s s' L h xs mid mid' ys) {x : N}
    (hx : x ∈ xs ∨ x ∈ ys) : x ∉ mid' := by
  intro hxm
  have hnd := hr.nodup h
  rw [sp.split] at hnd
  obtain hold | hfree := sp.new x hxm
  · obtain hx | hx := hx
    · exact List.disjoint_of_nodup_append hnd hx (List.mem_append_left _ hold)
    · exact List.disjoint_of_nodup_append (List.nodup_append.mp hnd).2.1 hold hx
  · exact hfree ⟨h, sp.mem (hx.imp_right .inr)⟩

/-- nor nodes of another list. -/
theorem Splice.apart_other (hr : Represents s L) (sp : Splice s s' L h xs mid mid' ys) {h' : H}
    {x : N} (hh : h' ≠ h) (hx : x ∈ L h') : x ∉ mid' := by
  intro hxm
  obtain hold | hfree := sp.new x hxm
  · exact hh (hr.disjoint h' h x hx (sp.mem (.inr (.inl hold))))
  · exact hfree ⟨h', hx⟩

theorem Splice.front (hr : Represents s L) (sp : Splice s s' L h xs mid mid' ys) :
    Links s' (.first h) xs := by
  have hnd := hr.nodup h
  rw [sp.split] at hnd
  refine hr.links_front sp.split (fun q hq hx => sp.load q hq fun x hxm he => ?_) fun x hx => ?_
  · exact sp.apart hr (.inl (hx x he)) hxm
  · refine sp.pprev x (sp.apart hr (.inl hx)) fun hy => ?_
    exact List.disjoint_of_nodup_append hnd hx
      (List.mem_append_right _ (List.mem_of_mem_head? hy))

theorem Splice.behind (hr : Represents s L) (sp : Splice s s' L h xs mid mid' ys) :
    Links s' (slotAfter (slotAfter (.first h) xs) mid') ys ∧
      s'.load (slotAfter (slotAfter (slotAfter (.first h) xs) mid') ys) = none := by
  have hnd := hr.nodup h
  rw [sp.split] at hnd
  cases ys with
  | nil => exact ⟨trivial, sp.next⟩
  | cons y ys =>
    have hys := (List.nodup_append.mp (List.nodup_append.mp hnd).2.1).2.1
    obtain ⟨hlinks, hlast⟩ : Links s' (.next y) ys ∧ s'.load (slotAfter (.next y) ys) = none := by
      refine hr.links_behind (by rw [sp.split, List.append_assoc]) (fun x hx => ?_) fun x hx => ?_
      · exact sp.load _ (hr.slot_behind sp.split (List.mem_append_right _ hx)) fun z hz he =>
          sp.apart hr (.inr (Slot.next.inj he ▸ hx)) hz
      · refine sp.pprev x (sp.apart hr (.inr (List.mem_cons_of_mem _ hx))) fun hy => ?_
        have hxy : y = x := Option.some.inj hy
        rw [hxy] at hys
        exact (List.nodup_cons.mp hys).1 hx
    exact ⟨⟨sp.next, sp.back y rfl, hlinks⟩, hlast⟩

theorem Splice.nodup_append (hr : Represents s L) (sp : Splice s s' L h xs mid mid' ys) :
    (xs ++ (mid' ++ ys)).Nodup := by
  have hnd := hr.nodup h
  rw [sp.split] at hnd
  obtain ⟨hxs, hrest, -⟩ := List.nodup_append.mp hnd
  refine List.nodup_append.mpr ⟨hxs, List.nodup_append.mpr
    ⟨sp.nodup, (List.nodup_append.mp hrest).2.1, fun a ha b hb he => ?_⟩, fun a ha b hb he => ?_⟩
  · exact sp.apart hr (.inr hb) (he ▸ ha)
  · obtain hb | hb := List.mem_append.mp hb
    · exact sp.apart hr (.inl ha) (he ▸ hb)
    · exact List.disjoint_of_nodup_append hnd ha (List.mem_append_right _ (he ▸ hb))

/-- A splice replaces the stretch in the list and keeps the other lists. -/
theorem represents_splice [DecidableEq H] (hr : Represents s L)
    (sp : Splice s s' L h xs mid mid' ys) :
    Represents s' (Function.update L h (xs ++ (mid' ++ ys))) := by
  obtain ⟨hbehind, hlast⟩ := sp.behind hr
  refine hr.replace ?_ ?_ (sp.nodup_append hr) ?_ ?_ ?_
  · exact (links_append _ _ _).mpr ⟨sp.front hr, (links_append _ _ _).mpr ⟨sp.links, hbehind⟩⟩
  · rw [slotAfter_append, slotAfter_append]
    exact hlast
  · intro x hx
    obtain hx | hx := List.mem_append.mp hx
    · exact .inl (sp.mem (.inl hx))
    obtain hx | hx := List.mem_append.mp hx
    · exact (sp.new x hx).imp_left fun hold => sp.mem (.inr (.inl hold))
    · exact .inl (sp.mem (.inr (.inr hx)))
  · intro h' hh
    exact sp.load (.first h') (fun he => hh (slotAfter_first h h' xs he.symm))
      (fun x _ he => nomatch he)
  · intro h' hh x hx
    refine ⟨sp.load _ (hr.slot_other sp.split hh hx) fun z hz he =>
      sp.apart_other hr hh hx (Slot.next.inj he ▸ hz),
      sp.pprev x (sp.apart_other hr hh hx) fun hy => ?_⟩
    exact hh (hr.disjoint h' h x hx (sp.mem (.inr (.inr (List.mem_of_mem_head? hy)))))

end Splice

/-! ## The edits -/

section Edits

variable [DecidableEq N]

/-- Writing the `pprev` of a node. -/
def Heap.setPprev (s : Heap N H) (n : N) (p : Option (Slot N H)) : Heap N H :=
  { s with pprev := Function.update s.pprev n p }

/-- Writing the `pprev` of the node that a slot holds, if it holds one. -/
def Heap.backlink (s : Heap N H) (p : Slot N H) : Option N → Heap N H
  | some y => s.setPprev y (some p)
  | none => s

@[simp] theorem load_setPprev (s : Heap N H) (n : N) (p : Option (Slot N H)) (q : Slot N H) :
    (s.setPprev n p).load q = s.load q := by cases q <;> rfl

theorem pprev_setPprev (s : Heap N H) (n x : N) (p : Option (Slot N H)) :
    (s.setPprev n p).pprev x = if x = n then p else s.pprev x := Function.update_apply _ _ _ _

@[simp] theorem load_backlink (s : Heap N H) (p q : Slot N H) (y : Option N) :
    (s.backlink p y).load q = s.load q := by
  cases y
  · rfl
  · exact load_setPprev _ _ _ _

theorem pprev_backlink (s : Heap N H) (p : Slot N H) (y : Option N) (x : N) :
    (s.backlink p y).pprev x = if y = some x then some p else s.pprev x := by
  cases y with
  | none => rfl
  | some y => simp [Heap.backlink, pprev_setPprev, eq_comm]

variable [DecidableEq H]

/-- Writing a slot. -/
def Heap.store (s : Heap N H) : Slot N H → Option N → Heap N H
  | .first h, v => { s with first := Function.update s.first h v }
  | .next n, v => { s with next := Function.update s.next n v }

/-- Node `n` between slot `p` and the node that it holds. -/
def Heap.insertAt (s : Heap N H) (p : Slot N H) (n : N) : Heap N H :=
  let y := s.load p
  (((s.store (.next n) y).backlink (.next n) y).store p (some n)).setPprev n (some p)

/-- Node `n` taken out of slot `p`. -/
def Heap.removeAt (s : Heap N H) (p : Slot N H) (n : N) : Heap N H :=
  let y := s.next n
  (s.store p y).backlink p y

theorem load_store (s : Heap N H) (p q : Slot N H) (v : Option N) :
    (s.store p v).load q = if q = p then v else s.load q := by
  cases p with
  | first h =>
    cases q with
    | first h' => simp [Heap.store, Function.update_apply]
    | next n' => rfl
  | next n =>
    cases q with
    | first h' => rfl
    | next n' => simp [Heap.store, Function.update_apply]

@[simp] theorem pprev_store (s : Heap N H) (p : Slot N H) (v : Option N) :
    (s.store p v).pprev = s.pprev := by cases p <;> rfl

theorem load_insertAt (s : Heap N H) (p q : Slot N H) (n : N) : (s.insertAt p n).load q =
    if q = p then some n else if q = .next n then s.load p else s.load q := by
  simp [Heap.insertAt, load_store]

theorem pprev_insertAt (s : Heap N H) (p : Slot N H) (n x : N) : (s.insertAt p n).pprev x =
    if x = n then some p else if s.load p = some x then some (.next n) else s.pprev x := by
  simp [Heap.insertAt, pprev_setPprev, pprev_backlink]

theorem load_removeAt (s : Heap N H) (p q : Slot N H) (n : N) :
    (s.removeAt p n).load q = if q = p then s.next n else s.load q := by
  simp [Heap.removeAt, load_store]

theorem pprev_removeAt (s : Heap N H) (p : Slot N H) (n x : N) : (s.removeAt p n).pprev x =
    if s.next n = some x then some p else s.pprev x := by
  simp [Heap.removeAt, pprev_backlink]

/-- Inserting a node that is in no list, at the slot behind `xs`. -/
theorem represents_insertAt (hr : Represents s L) {h : H} {n : N} {xs ys : List N}
    (hsplit : L h = xs ++ ys) (hn : ¬ Linked L n) :
    Represents (s.insertAt (slotAfter (.first h) xs) n)
      (Function.update L h (xs ++ n :: ys)) := by
  have hhead := hr.load_split hsplit
  have hfree : ∀ x ∈ L h, x ≠ n := fun x hx he => hn ⟨h, he ▸ hx⟩
  have hslot : Slot.next n ≠ slotAfter (.first h) xs := fun he =>
    hfree n (hsplit ▸ List.mem_append_left _ (slotAfter_next he.symm)) rfl
  have sp : Splice s (s.insertAt (slotAfter (.first h) xs) n) L h xs [] [n] ys → _ :=
    represents_splice hr
  refine sp ⟨hsplit, ?_, List.nodup_singleton n, ?_, ?_, ⟨?_, ?_, trivial⟩, ?_, ?_⟩
  · intro x hx
    exact .inr (List.mem_singleton.mp hx ▸ hn)
  · intro q hq hqn
    rw [load_insertAt, if_neg hq, if_neg (hqn n List.mem_cons_self)]
  · intro x hx hy
    rw [pprev_insertAt, if_neg (fun he => hx (List.mem_singleton.mpr he)), hhead, if_neg hy]
  · rw [load_insertAt, if_pos rfl]
  · rw [pprev_insertAt, if_pos rfl]
  · show (s.insertAt _ n).load (.next n) = _
    rw [load_insertAt, if_neg hslot, if_pos rfl, hhead]
  · intro y hy
    have hyn := hfree y (hsplit ▸ List.mem_append_right _ (List.mem_of_mem_head? hy))
    rw [pprev_insertAt, if_neg hyn, hhead, if_pos hy]
    rfl

/-- Removing the node behind `xs`. -/
theorem represents_removeAt (hr : Represents s L) {h : H} {n : N} {xs ys : List N}
    (hsplit : L h = xs ++ n :: ys) :
    Represents (s.removeAt (slotAfter (.first h) xs) n) (Function.update L h (xs ++ ys)) := by
  have hhead : s.next n = ys.head? := by
    have hl := hr.load_split (show L h = (xs ++ [n]) ++ ys by rw [hsplit, List.append_assoc]; rfl)
    rwa [slotAfter_append] at hl
  have sp : Splice s (s.removeAt (slotAfter (.first h) xs) n) L h xs [n] [] ys → _ :=
    represents_splice hr
  refine sp ⟨hsplit, (fun x hx => nomatch hx), List.nodup_nil, ?_, ?_, trivial, ?_, ?_⟩
  · intro q hq _
    rw [load_removeAt, if_neg hq]
  · intro x _ hy
    rw [pprev_removeAt, hhead, if_neg hy]
  · show (s.removeAt _ n).load (slotAfter (.first h) xs) = _
    rw [load_removeAt, if_pos rfl, hhead]
  · intro y hy
    rw [pprev_removeAt, hhead, if_pos hy]
    rfl

end Edits

end PprevList
