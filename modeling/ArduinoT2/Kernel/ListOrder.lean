import ArduinoT2.Kernel.ListRuns
import Mathlib.Data.List.Chain

/-
  In which order the lists of the kernel hold and serve their items.

  A list that is filled by `vListInsert` alone is sorted, and items of one value are in the order
  in which they came (`list_sorted`): the delayed tasks and the tasks that wait for an event.
  A list that is filled by `vListInsertEnd` alone is served by `listGET_OWNER_OF_NEXT_ENTRY` in
  turns: any two items that stay in it are served alternately, whatever else comes and goes
  (`list_alternates`): the ready tasks of one priority. For that the items are read from the one
  behind `pxIndex` on (`turns`): serving moves the first to the end.
-/

namespace ArduinoT2.Kernel

open Ring StepSys

variable {L I : Type} [DecidableEq L] [DecidableEq I]

/-! ## Sorted lists -/

/-- The items of list `l` in the order in which they came, behind a call. -/
def arrive (l : L) (queue : List I) : ListCall L I → List I
  | .insert l' x => if l' = l then queue ++ [x] else queue
  | .remove x => queue.erase x
  | _ => queue

def arrived (l : L) (cs : List (ListCall L I)) : List I := cs.foldl (arrive l) []

/-- List `l` is filled by `vListInsert`, and an item keeps its value while it is in the list. -/
def SortedUse (l : L) (a : Lists L I) : ListCall L I → Prop
  | .insertEnd l' _ => l' ≠ l
  | .setValue x _ => x ∉ a.items l
  | _ => True

/-- The items `xs` are sorted by `value`, those of one value in the order of `queue`. -/
structure SortedAs (value : I → UInt32) (xs queue : List I) : Prop where
  sorted : xs.Pairwise fun x y => value x ≤ value y
  stable : ∀ v, xs.filter (fun x => value x = v) = queue.filter fun x => value x = v

section Sorted

variable {value : I → UInt32} {xs queue : List I} {x : I}

omit [DecidableEq I] in
theorem SortedAs.mem_iff (h : SortedAs value xs queue) (x : I) : x ∈ xs ↔ x ∈ queue := by
  have hfilter := h.stable (value x)
  constructor
  · intro hx
    have hmem : x ∈ xs.filter fun y => value y = value x := List.mem_filter.2 ⟨hx, by simp⟩
    rw [hfilter] at hmem
    exact (List.mem_filter.1 hmem).1
  · intro hx
    have hmem : x ∈ queue.filter fun y => value y = value x := List.mem_filter.2 ⟨hx, by simp⟩
    rw [← hfilter] at hmem
    exact (List.mem_filter.1 hmem).1

omit [DecidableEq I] in
/-- What is behind the items with no greater value has a greater one. -/
theorem lt_of_mem_dropWhile (h : xs.Pairwise fun x y => value x ≤ value y) {v : UInt32} {y : I}
    (hy : y ∈ xs.dropWhile fun z => decide (value z ≤ v)) : v < value y := by
  induction xs with
  | nil => cases hy
  | cons z zs ih =>
    obtain ⟨hz, hzs⟩ := List.pairwise_cons.1 h
    by_cases hle : value z ≤ v
    · rw [List.dropWhile_cons_of_pos (by simpa using hle)] at hy
      exact ih hzs hy
    · rw [List.dropWhile_cons_of_neg (by simpa using hle)] at hy
      have hlt : v < value z := UInt32.not_le.1 hle
      obtain rfl | hy := List.mem_cons.1 hy
      · exact hlt
      · exact UInt32.lt_of_lt_of_le hlt (hz y hy)

omit [DecidableEq I] in
theorem SortedAs.insert (h : SortedAs value xs queue) (x : I) :
    SortedAs value (insertSorted value x xs) (queue ++ [x]) := by
  have hsplit : xs.takeWhile (fun y => decide (value y ≤ value x)) ++
      xs.dropWhile (fun y => decide (value y ≤ value x)) = xs := List.takeWhile_append_dropWhile
  have hsorted := h.sorted
  rw [← hsplit] at hsorted
  obtain ⟨hfront, hback, hacross⟩ := List.pairwise_append.1 hsorted
  have hle : ∀ y ∈ xs.takeWhile (fun y => decide (value y ≤ value x)), value y ≤ value x :=
    fun y hy => by simpa using List.mem_takeWhile_imp hy
  have hlt : ∀ y ∈ xs.dropWhile (fun y => decide (value y ≤ value x)), value x < value y :=
    fun y hy => lt_of_mem_dropWhile h.sorted hy
  constructor
  · refine List.pairwise_append.2 ⟨hfront, List.pairwise_cons.2 ⟨?_, hback⟩, ?_⟩
    · exact fun y hy => UInt32.le_of_lt (hlt y hy)
    · intro y hy z hz
      obtain rfl | hz := List.mem_cons.1 hz
      · exact hle y hy
      · exact hacross y hy z hz
  · intro v
    have hold := h.stable v
    rw [← hsplit, List.filter_append] at hold
    rw [insertSorted, List.filter_append, List.filter_append, ← hold]
    by_cases hv : value x = v
    · have hnone : (xs.dropWhile fun y => decide (value y ≤ value x)).filter
          (fun y => decide (value y = v)) = [] := by
        refine List.filter_eq_nil_iff.2 fun y hy heq => ?_
        have hyx : value y = value x := (of_decide_eq_true heq).trans hv.symm
        exact UInt32.lt_irrefl _ (hyx ▸ hlt y hy)
      rw [List.filter_cons_of_pos (by simpa using hv), hnone, List.append_nil]
      simp [hv]
    · rw [List.filter_cons_of_neg (by simpa using hv)]
      simp [hv]

theorem SortedAs.erase (h : SortedAs value xs queue) (x : I) :
    SortedAs value (xs.erase x) (queue.erase x) := by
  refine ⟨h.sorted.sublist List.erase_sublist, fun v => ?_⟩
  rw [← List.erase_filter, ← List.erase_filter, h.stable v]

omit [DecidableEq I] in
/-- The order is that of the values of the items alone. -/
theorem SortedAs.congr (h : SortedAs value xs queue) {value' : I → UInt32}
    (heq : ∀ x ∈ xs, value' x = value x) : SortedAs value' xs queue := by
  refine ⟨h.sorted.imp_of_mem fun hx hy hle => ?_, fun v => ?_⟩
  · rwa [heq _ hx, heq _ hy]
  · have hxs : xs.filter (fun x => value' x = v) = xs.filter fun x => value x = v :=
      List.filter_congr fun x hx => by rw [heq x hx]
    have hqueue : queue.filter (fun x => value' x = v) = queue.filter fun x => value x = v :=
      List.filter_congr fun x hx => by rw [heq x ((h.mem_iff x).2 hx)]
    rw [hxs, hqueue, h.stable v]

end Sorted

section SortedRuns

variable {a : Lists L I} {l : L} {queue : List I}

/-- A call keeps a list that is filled by `vListInsert` sorted. -/
theorem SortedAs.call (h : SortedAs a.value (a.items l) queue) (hok : a.Ok) {c : ListCall L I}
    (hc : a.Legal c) (huse : SortedUse l a c) :
    SortedAs (a.call c).1.value ((a.call c).1.items l) (arrive l queue c) := by
  cases c with
  | initialise | initialiseItem | nextEntry | headEntry | headValue | length | contains => exact h
  | setValue x v =>
    refine h.congr fun y hy => ?_
    have hyx : y ≠ x := fun he => huse (he ▸ hy)
    simp [Lists.call, hyx]
  | insertEnd l' x =>
    have hne : l ≠ l' := fun he => huse he.symm
    simpa [Lists.call, Lists.put, Lists.setContainer, Lists.setItems, hne, arrive] using h
  | insert l' x =>
    by_cases hl : l' = l
    · subst hl
      simpa [Lists.call, Lists.put, Lists.setContainer, Lists.setItems, arrive] using h.insert x
    · have hne : l ≠ l' := fun he => hl he.symm
      simpa [Lists.call, Lists.put, Lists.setContainer, Lists.setItems, arrive, hl, hne] using h
  | remove x =>
    obtain ⟨l', hl'⟩ := Option.ne_none_iff_exists'.1 hc
    by_cases hl : l = l'
    · subst hl
      simpa [Lists.call, hl', Lists.take, Lists.setContainer, Lists.setItems, Lists.setIndex,
        arrive] using h.erase x
    · have hout : x ∉ a.items l := fun hmem => by
        have hin := (hok.container l x).2 hmem
        rw [hl'] at hin
        exact hl (Option.some.inj hin).symm
      have hqueue : queue.erase x = queue :=
        List.erase_of_not_mem fun hmem => hout ((h.mem_iff x).2 hmem)
      simpa [Lists.call, hl', Lists.take, Lists.setContainer, Lists.setItems, Lists.setIndex,
        arrive, hl, hqueue] using h

end SortedRuns

/-- In every run of legal calls a list that is filled by `vListInsert` is a ring of its items in the
    order of their values, those of one value in the order in which they came. -/
theorem list_sorted (m : ListMem L I) (l : L) (cs : List (ListCall L I))
    (hcs : Along Lists.call Lists.Legal (bootLists m) cs)
    (huse : Along Lists.call (SortedUse l) (bootLists m) cs) :
    ∃ m' outs, listCalls m cs = some (m', outs) ∧
      Rep m' (final Lists.call (bootLists m) cs) ∧
      SortedAs (fun x => m'.xItemValue (.item x))
        ((final Lists.call (bootLists m) cs).items l) (arrived l cs) := by
  have hrun : ∀ (cs : List (ListCall L I)) (a : Lists L I) (queue : List I), a.Ok →
      SortedAs a.value (a.items l) queue → Along Lists.call Lists.Legal a cs →
      Along Lists.call (SortedUse l) a cs →
      SortedAs (final Lists.call a cs).value ((final Lists.call a cs).items l)
        (cs.foldl (arrive l) queue) := by
    intro cs
    induction cs with
    | nil => exact fun a queue _ h _ _ => h
    | cons c cs ih =>
      intro a queue hok h hcs huse
      exact ih _ _ (hok.call hcs.1) (h.call hok hcs.1 huse.1) hcs.2 huse.2
  obtain ⟨m', hm', hrep⟩ := listCalls_rep cs (bootLists_rep m) hcs
  have hboot : SortedAs (bootLists m).value ((bootLists m).items l) [] := ⟨.nil, fun _ => rfl⟩
  have hsorted := hrun cs _ [] (bootLists_rep m).ok hboot hcs huse
  refine ⟨m', _, hm', hrep, ?_⟩
  have hvalue : (fun x => m'.xItemValue (.item x)) = (final Lists.call (bootLists m) cs).value :=
    funext hrep.value
  rw [hvalue]
  exact hsorted

theorem list_sorted_two :
    let cs : List (ListCall Unit Bool) := [.initialise (), .initialiseItem true,
      .initialiseItem false, .setValue true 5, .insert () true, .insert () false]
    ∃ m' outs, listCalls freshListMem cs = some (m', outs) ∧
      Rep m' (final Lists.call (bootLists freshListMem) cs) ∧
      SortedAs (fun x => m'.xItemValue (.item x))
        ((final Lists.call (bootLists freshListMem) cs).items ()) [true, false] :=
  list_sorted freshListMem () _
    ⟨rfl, rfl, rfl, trivial, ⟨rfl, rfl, rfl⟩, ⟨rfl, rfl, rfl⟩, trivial⟩
    ⟨trivial, trivial, trivial, List.not_mem_nil, trivial, trivial, trivial⟩

/-! ## Turns -/

/-- The items in the order in which they will be served. -/
def turns (index : Option I) (xs : List I) : List I :=
  itemsBehind index xs ++
    match index with
    | none => []
    | some c => upTo c xs ++ [c]

section Turns

variable {index : Option I} {xs us ds : List I} {x c : I}

/-- A list is split behind the item that was served last. -/
theorem split_at_index (h : ∀ c, index = some c → c ∈ xs) :
    ∃ us ds, xs = us ++ ds ∧ index = us.getLast? := by
  cases index with
  | none => exact ⟨[], xs, rfl, rfl⟩
  | some c =>
    refine ⟨upTo c xs ++ [c], (onFrom c xs).tail, ?_, by simp⟩
    have hsplit := split_of_mem (h c rfl)
    simpa using hsplit.symm

theorem upTo_split (hc : c ∉ us) : upTo c (us ++ c :: ds) = us := by
  have hall : ∀ y ∈ us, decide (y ≠ c) = true := fun y hy =>
    decide_eq_true fun he => hc (he ▸ hy)
  rw [upTo, List.takeWhile_append_of_pos hall]
  simp

theorem onFrom_split (hc : c ∉ us) : onFrom c (us ++ c :: ds) = c :: ds := by
  have hsplit := upTo_append_onFrom c (us ++ c :: ds)
  rw [upTo_split hc] at hsplit
  exact List.append_cancel_left hsplit

omit [DecidableEq I] in
theorem not_mem_front {ys : List I} (hnd : (ys ++ [c] ++ ds).Nodup) : c ∉ ys := fun hmem =>
  (List.nodup_append.1 (List.nodup_append.1 hnd).1).2.2 c hmem c (by simp) rfl

theorem itemsBehind_split (hnd : (us ++ ds).Nodup) :
    itemsBehind us.getLast? (us ++ ds) = ds := by
  obtain rfl | ⟨ys, c, rfl⟩ : us = [] ∨ ∃ ys c, us = ys ++ [c] :=
    (List.eq_nil_or_concat us).imp_right fun ⟨ys, c, h⟩ => ⟨ys, c, by simpa using h⟩
  · rfl
  · have hlist : ys ++ [c] ++ ds = ys ++ c :: ds := by simp
    rw [hlist, List.getLast?_concat, itemsBehind, onFrom_split (not_mem_front hnd), List.tail_cons]

/-- The items behind the one that was served last come first. -/
theorem turns_split (hnd : (us ++ ds).Nodup) : turns us.getLast? (us ++ ds) = ds ++ us := by
  unfold turns
  rw [itemsBehind_split hnd]
  obtain rfl | ⟨ys, c, rfl⟩ : us = [] ∨ ∃ ys c, us = ys ++ [c] :=
    (List.eq_nil_or_concat us).imp_right fun ⟨ys, c, h⟩ => ⟨ys, c, by simpa using h⟩
  · rfl
  · have hlist : ys ++ [c] ++ ds = ys ++ c :: ds := by simp
    rw [hlist, List.getLast?_concat]
    simp [upTo_split (not_mem_front hnd)]

theorem turns_perm (h : ∀ c, index = some c → c ∈ xs) (hnd : xs.Nodup) :
    (turns index xs).Perm xs := by
  obtain ⟨us, ds, rfl, rfl⟩ := split_at_index h
  rw [turns_split hnd]
  exact List.perm_append_comm

/-- A new item does not change the order of the others. -/
theorem turns_insertEnd (h : ∀ c, index = some c → c ∈ xs) (hnd : xs.Nodup) (hx : x ∉ xs) :
    (turns index xs).Sublist (turns index (insertEnd index x xs)) := by
  obtain ⟨us, ds, rfl, rfl⟩ := split_at_index h
  rw [turns_split hnd]
  obtain rfl | ⟨ys, c, rfl⟩ : us = [] ∨ ∃ ys c, us = ys ++ [c] :=
    (List.eq_nil_or_concat us).imp_right fun ⟨ys, c, h⟩ => ⟨ys, c, by simpa using h⟩
  · simp [turns, itemsBehind, insertEnd]
  · have hc := not_mem_front hnd
    have hlist : ys ++ [c] ++ ds = ys ++ c :: ds := by simp
    have hins : insertEnd (ys ++ [c]).getLast? x (ys ++ [c] ++ ds) =
        (ys ++ [x] ++ [c]) ++ ds := by
      rw [hlist, List.getLast?_concat, insertEnd, upTo_split hc, onFrom_split hc]
      simp
    have hperm : ((ys ++ [x] ++ [c]) ++ ds).Perm (x :: (ys ++ [c] ++ ds)) := by
      simp
    have hnd' : ((ys ++ [x] ++ [c]) ++ ds).Nodup :=
      hperm.nodup_iff.2 (List.nodup_cons.2 ⟨hx, hnd⟩)
    have hlast : (ys ++ [c]).getLast? = (ys ++ [x] ++ [c]).getLast? := by
      rw [List.getLast?_concat, List.getLast?_concat]
    rw [hins, hlast, turns_split hnd']
    refine List.Sublist.append_left ?_ ds
    exact (List.sublist_append_left ys [x]).append_right [c]

/-- Taking an item out does not change the order of the others. -/
theorem turns_erase (h : ∀ c, index = some c → c ∈ xs) (hnd : xs.Nodup) (hx : x ∈ xs) :
    turns (indexWithout index x xs) (xs.erase x) = (turns index xs).erase x := by
  obtain ⟨us, ds, rfl, rfl⟩ := split_at_index h
  rw [turns_split hnd]
  have hndx := hnd.erase x
  by_cases hus : x ∈ us
  · have hds : x ∉ ds := fun hmem => (List.nodup_append.1 hnd).2.2 x hus x hmem rfl
    obtain rfl | ⟨ys, c, rfl⟩ : us = [] ∨ ∃ ys c, us = ys ++ [c] :=
      (List.eq_nil_or_concat us).imp_right fun ⟨ys, c, h⟩ => ⟨ys, c, by simpa using h⟩
    · cases hus
    · have hc := not_mem_front hnd
      rw [List.erase_append_left _ hus] at hndx ⊢
      rw [List.erase_append_right _ hds]
      by_cases hxc : x = c
      · subst hxc
        have hys : (ys ++ [x]).erase x = ys := by
          rw [List.erase_append_right _ hc, List.erase_cons_head, List.append_nil]
        have hlist : ys ++ [x] ++ ds = ys ++ x :: ds := by simp
        have hidx : indexWithout (ys ++ [x]).getLast? x (ys ++ [x] ++ ds) = ys.getLast? := by
          rw [List.getLast?_concat, indexWithout, if_pos rfl, hlist, upTo_split hc]
        rw [hys] at hndx ⊢
        rw [hidx, turns_split hndx]
      · have hys : x ∈ ys := by
          obtain h | h := List.mem_append.1 hus
          · exact h
          · exact absurd (List.mem_singleton.1 h) hxc
        have hidx : indexWithout (ys ++ [c]).getLast? x (ys ++ [c] ++ ds) =
            ((ys ++ [c]).erase x).getLast? := by
          have hne : c ≠ x := fun he => hxc he.symm
          rw [List.getLast?_concat, indexWithout, if_neg (by simpa using hne),
            List.erase_append_left _ hys, List.getLast?_concat]
        rw [hidx, turns_split hndx]
  · have hds : x ∈ ds := (List.mem_append.1 hx).resolve_left hus
    have hidx : indexWithout us.getLast? x (us ++ ds) = us.getLast? :=
      if_neg fun hlast => hus (List.mem_of_getLast? hlast)
    rw [List.erase_append_right _ hus] at hndx ⊢
    rw [hidx, List.erase_append_left _ hds, turns_split hndx]

/-- Serving moves the first item to the end. -/
theorem turns_nextEntry (h : ∀ c, index = some c → c ∈ xs) (hnd : xs.Nodup)
    (hx : nextEntry index xs = some x) :
    ∃ rest, turns index xs = x :: rest ∧ turns (some x) xs = rest ++ [x] := by
  obtain ⟨us, ds, rfl, rfl⟩ := split_at_index h
  rw [nextEntry, itemsBehind_split hnd] at hx
  rw [turns_split hnd]
  cases ds with
  | cons d ds =>
    obtain rfl : d = x := by simpa using hx
    refine ⟨ds ++ us, rfl, ?_⟩
    have hlist : us ++ d :: ds = (us ++ [d]) ++ ds := by simp
    have hlast : some d = (us ++ [d]).getLast? := by simp
    rw [hlist] at hnd
    rw [hlist, hlast, turns_split hnd, List.append_assoc]
  | nil =>
    cases us with
    | nil => cases hx
    | cons u us =>
      obtain rfl : u = x := by simpa using hx
      refine ⟨us, rfl, ?_⟩
      have hnd' : ([u] ++ us).Nodup := by simpa using hnd
      simpa using turns_split hnd'

end Turns

/-! ## Runs -/

/-- List `l` is filled by `vListInsertEnd`. -/
def TurnUse (l : L) : ListCall L I → Prop
  | .insert l' _ => l' ≠ l
  | _ => True

/-- The entry of list `l` that a call returns. -/
def servedBy (l : L) : ListCall L I → ListOut I → List I
  | .nextEntry l', .entry (some x) => if l' = l then [x] else []
  | _, _ => []

/-- The entries of list `l` that the calls return. -/
def served (l : L) : List (ListCall L I) → List (ListOut I) → List I
  | c :: cs, out :: outs => servedBy l c out ++ served l cs outs
  | _, _ => []

section TurnRuns

variable {a : Lists L I} {l : L} {x y : I}

def Lists.turns (a : Lists L I) (l : L) : List I := Kernel.turns (a.index l) (a.items l)

/-- A call keeps the order of two items that stay, unless it serves one. -/
theorem turns_call (hok : a.Ok) {c : ListCall L I} (hc : a.Legal c) (huse : TurnUse l c)
    (hx : c ≠ .remove x) (hy : c ≠ .remove y) (hnext : c ≠ .nextEntry l)
    (h : [x, y].Sublist (a.turns l)) : [x, y].Sublist ((a.call c).1.turns l) := by
  cases c with
  | initialiseItem | setValue | headEntry | headValue | length | contains => exact h
  | initialise l' =>
    have hne : l ≠ l' := fun he => by
      subst he
      have hperm := turns_perm (hok.index l) (hok.nodup l)
      have hmem : x ∈ a.items l := hperm.subset (h.subset List.mem_cons_self)
      rw [hc] at hmem
      cases hmem
    simpa [Lists.turns, Lists.call, Lists.setIndex, hne] using h
  | insertEnd l' z =>
    by_cases hl : l = l'
    · subst hl
      have hz := hok.not_mem hc.2.2 l
      have hins := turns_insertEnd (hok.index l) (hok.nodup l) hz
      simpa [Lists.turns, Lists.call, Lists.put, Lists.setContainer, Lists.setItems] using
        h.trans hins
    · simpa [Lists.turns, Lists.call, Lists.put, Lists.setContainer, Lists.setItems, hl] using h
  | insert l' z =>
    have hne : l ≠ l' := fun he => huse he.symm
    simpa [Lists.turns, Lists.call, Lists.put, Lists.setContainer, Lists.setItems, hne] using h
  | remove z =>
    obtain ⟨l', hl'⟩ := Option.ne_none_iff_exists'.1 hc
    by_cases hl : l = l'
    · subst hl
      have hmem := (hok.container l z).1 hl'
      have hturns := turns_erase (hok.index l) (hok.nodup l) hmem
      have hxz : z ≠ x := fun he => hx (he ▸ rfl)
      have hyz : z ≠ y := fun he => hy (he ▸ rfl)
      have herase : [x, y].erase z = [x, y] := List.erase_of_not_mem (by simp [hxz, hyz])
      have hsub := h.erase z
      rw [herase, Lists.turns, ← hturns] at hsub
      simpa [Lists.turns, Lists.call, hl', Lists.take, Lists.setContainer, Lists.setItems,
        Lists.setIndex] using hsub
    · simpa [Lists.turns, Lists.call, hl', Lists.take, Lists.setContainer, Lists.setItems,
        Lists.setIndex, hl] using h
  | nextEntry l' =>
    have hne : l ≠ l' := fun he => hnext (he ▸ rfl)
    simpa [Lists.turns, Lists.call, Lists.setIndex, hne] using h

omit [DecidableEq I] in
theorem servedBy_of_ne {c : ListCall L I} (hc : c ≠ .nextEntry l) (out : ListOut I) :
    servedBy l c out = [] := by
  cases c with
  | nextEntry l' =>
    have hne : l' ≠ l := fun he => hc (he ▸ rfl)
    cases out with
    | entry z =>
      cases z with
      | none => rfl
      | some z => exact if_neg hne
    | done | number | value | contained => rfl
  | initialise | initialiseItem | setValue | insertEnd | insert | remove | headEntry | headValue
  | length | contains => rfl

omit [DecidableEq I] in
/-- In a list without repetition what comes before another item is not behind it. -/
theorem not_before_head {ys : List I} (hnd : (y :: ys).Nodup) : ¬ [x, y].Sublist (y :: ys) := by
  intro h
  obtain ⟨hy, hys⟩ := List.nodup_cons.1 hnd
  cases h with
  | cons _ h => exact hy (h.subset (by simp))
  | cons_cons _ h => exact hy (h.subset List.mem_cons_self)

omit [DecidableEq L] in
/-- A call serves an entry of the list. -/
theorem exists_nextEntry (h : a.items l ≠ []) :
    ∃ z, nextEntry (a.index l) (a.items l) = some z := by
  obtain ⟨w, ws, hw⟩ := List.exists_cons_of_ne_nil h
  rw [nextEntry, hw]
  cases (itemsBehind (a.index l) (w :: ws)).head? with
  | none => exact ⟨w, rfl⟩
  | some z => exact ⟨z, rfl⟩

/-- The call asks for an entry of list `l`. -/
def asksFor (l : L) : ListCall L I → Bool
  | .nextEntry l' => l' = l
  | _ => false

omit [DecidableEq I] in
theorem asksFor_iff (c : ListCall L I) : asksFor l c = true ↔ c = .nextEntry l := by
  cases c <;> simp [asksFor]

theorem length_served (cs : List (ListCall L I)) (hcs : Along Lists.call Lists.Legal a cs) :
    (served l cs (outputs Lists.call a cs)).length = cs.countP (asksFor l) := by
  induction cs generalizing a with
  | nil => rfl
  | cons c cs ih =>
    have hrest := ih hcs.2
    rw [outputs_cons, served, List.length_append, hrest, List.countP_cons]
    by_cases hnext : c = .nextEntry l
    · subst hnext
      obtain ⟨z, hz⟩ := exists_nextEntry hcs.1
      simp [servedBy, Lists.call, hz, asksFor, Nat.add_comm]
    · rw [servedBy_of_ne hnext, if_neg (mt (asksFor_iff c).1 hnext)]
      exact Nat.zero_add _

/-- When `x` is to be served before `y`, the two are served alternately, `x` first. -/
theorem alternates_from (cs : List (ListCall L I)) (hok : a.Ok)
    (hcs : Along Lists.call Lists.Legal a cs) (huse : ∀ c ∈ cs, TurnUse l c)
    (hx : ListCall.remove x ∉ cs) (hy : ListCall.remove y ∉ cs)
    (h : [x, y].Sublist (a.turns l)) :
    (y :: (served l cs (outputs Lists.call a cs)).filter
      fun z => z = x ∨ z = y).IsChain (· ≠ ·) := by
  induction cs generalizing a x y with
  | nil => exact .singleton y
  | cons c cs ih =>
    have hperm := turns_perm (hok.index l) (hok.nodup l)
    have hnd : (a.turns l).Nodup := hperm.nodup_iff.2 (hok.nodup l)
    have hxy : x ≠ y := fun he => by simpa [he] using hnd.sublist h
    obtain ⟨hxc, hxcs⟩ := not_or.1 (mt List.mem_cons.2 hx)
    obtain ⟨hyc, hycs⟩ := not_or.1 (mt List.mem_cons.2 hy)
    have hrest := fun c hc => huse c (List.mem_cons_of_mem _ hc)
    have hok' := hok.call hcs.1
    by_cases hnext : c = .nextEntry l
    · subst hnext
      obtain ⟨z, hz⟩ := exists_nextEntry hcs.1
      obtain ⟨rest, hturns, hturns'⟩ := turns_nextEntry (hok.index l) (hok.nodup l) hz
      have hserved : served l (.nextEntry l :: cs)
          (outputs Lists.call a (.nextEntry l :: cs)) =
          z :: served l cs (outputs Lists.call (a.call (.nextEntry l)).1 cs) := by
        simp [outputs_cons, served, servedBy, Lists.call, hz]
      have hnew : (a.call (.nextEntry l)).1.turns l = rest ++ [z] := by
        simpa [Lists.turns, Lists.call, Lists.setIndex, hz] using hturns'
      have hzrest : z :: rest = a.turns l := hturns.symm
      rw [← hzrest] at h hnd
      rw [hserved]
      by_cases hzx : z = x
      · subst hzx
        have hyrest : y ∈ rest := by
          have hmem := h.subset (a := y) (by simp)
          exact (List.mem_cons.1 hmem).resolve_left (Ne.symm hxy)
        have hswap : [y, z].Sublist ((a.call (.nextEntry l)).1.turns l) := by
          rw [hnew]
          exact (List.singleton_sublist.2 hyrest).append (List.Sublist.refl [z])
        have hturn := ih hok' hcs.2 hrest hycs hxcs hswap
        rw [List.filter_cons_of_pos (by simp)]
        refine List.isChain_cons_cons.2 ⟨Ne.symm hxy, ?_⟩
        simpa only [or_comm] using hturn
      · have hzy : z ≠ y := fun he => not_before_head (he ▸ hnd) (he ▸ h)
        have hkeep : [x, y].Sublist ((a.call (.nextEntry l)).1.turns l) := by
          rw [hnew]
          cases h with
          | cons _ h => exact h.trans (List.sublist_append_left rest [z])
          | cons_cons _ h => exact absurd rfl hzx
        rw [List.filter_cons_of_neg (by simp [hzx, hzy])]
        exact ih hok' hcs.2 hrest hxcs hycs hkeep
    · have hkeep := turns_call hok hcs.1 (huse c List.mem_cons_self) (Ne.symm hxc) (Ne.symm hyc)
        hnext h
      rw [outputs_cons, served, servedBy_of_ne hnext, List.nil_append]
      exact ih hok' hcs.2 hrest hxcs hycs hkeep

end TurnRuns

omit [DecidableEq I] in
/-- Two items of a list without repetition come one before the other. -/
theorem before_or_before {xs : List I} {x y : I} (hx : x ∈ xs) (hy : y ∈ xs) (hxy : x ≠ y) :
    [x, y].Sublist xs ∨ [y, x].Sublist xs := by
  obtain ⟨us, ds, rfl⟩ := List.append_of_mem hx
  obtain hus | hds := List.mem_append.1 hy
  · exact .inr ((List.singleton_sublist.2 hus).append
      ((List.nil_sublist ds).cons_cons x))
  · have hmem : y ∈ ds := (List.mem_cons.1 hds).resolve_left (Ne.symm hxy)
    exact .inl (((List.singleton_sublist.2 hmem).cons_cons x).trans
      (List.sublist_append_right us _))

/-- Two items that stay in a list that is filled by `vListInsertEnd` are served alternately by the
    calls `cs'` behind any run `cs`, whatever other items come and go; and each call that asks for
    an entry is served. -/
theorem list_alternates (m : ListMem L I) (l : L) (x y : I) (cs cs' : List (ListCall L I))
    (hcs : Along Lists.call Lists.Legal (bootLists m) (cs ++ cs')) (hxy : x ≠ y)
    (hx : x ∈ (final Lists.call (bootLists m) cs).items l)
    (hy : y ∈ (final Lists.call (bootLists m) cs).items l) (huse : ∀ c ∈ cs', TurnUse l c)
    (hxcs : ListCall.remove x ∉ cs') (hycs : ListCall.remove y ∉ cs') :
    ∃ m' outs outs', listCalls m (cs ++ cs') = some (m', outs ++ outs') ∧
      outs.length = cs.length ∧ (served l cs' outs').length = cs'.countP (asksFor l) ∧
      ((served l cs' outs').filter fun z => z = x ∨ z = y).IsChain (· ≠ ·) := by
  obtain ⟨m', hm', -⟩ := listCalls_rep (cs ++ cs') (bootLists_rep m) hcs
  obtain ⟨hfront, hback⟩ := (along_append _ _ _ _).1 hcs
  have hok : (final Lists.call (bootLists m) cs).Ok :=
    final_of_along (fun a c h hc => h.call hc) (bootLists_rep m).ok hfront
  have hperm := turns_perm (hok.index l) (hok.nodup l)
  rw [outputs_append] at hm'
  refine ⟨m', _, _, hm', length_outputs _ _ _, length_served cs' hback, ?_⟩
  obtain h | h := before_or_before (hperm.mem_iff.2 hx) (hperm.mem_iff.2 hy) hxy
  · exact (alternates_from cs' hok hback huse hxcs hycs h).tail
  · have hturn := (alternates_from cs' hok hback huse hycs hxcs h).tail
    simpa only [List.tail_cons, or_comm] using hturn

theorem list_alternates_two :
    let cs : List (ListCall Unit Bool) := [.initialise (), .initialiseItem true,
      .initialiseItem false, .insertEnd () true, .insertEnd () false]
    let cs' : List (ListCall Unit Bool) := [.nextEntry (), .nextEntry (), .nextEntry ()]
    ∃ m' outs outs', listCalls freshListMem (cs ++ cs') = some (m', outs ++ outs') ∧
      outs.length = cs.length ∧ (served () cs' outs').length = cs'.countP (asksFor ()) ∧
      ((served () cs' outs').filter fun z => z = true ∨ z = false).IsChain (· ≠ ·) :=
  list_alternates freshListMem () true false _ _
    ⟨rfl, rfl, rfl, ⟨rfl, rfl, rfl⟩, ⟨rfl, rfl, rfl⟩, List.cons_ne_nil _ _, List.cons_ne_nil _ _,
      List.cons_ne_nil _ _, trivial⟩
    (by decide) (by decide) (by decide) (by simp [TurnUse]) (by simp) (by simp)

end ArduinoT2.Kernel
