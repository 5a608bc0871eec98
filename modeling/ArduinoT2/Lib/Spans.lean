import Mathlib.Data.List.Basic
import Mathlib.Data.Nat.Basic
import Mathlib.Order.Lattice

/-
  Sets as lists of spans, and free lists that coalesce.

  A span is a nonempty half-open interval. The spans of a `Separated` list are in order, with a
  gap between any two of them, so each is a maximal interval of the set that the list covers, and
  the list is the only one for its set (`eq_of_covers`): computations that end with the same set
  end with the same list. An interval inside the set lies in one span (`exists_of_range`).

  `insert` adds a span and joins it with its neighbours where they touch: the set grows by the
  span (`covers_insert`), and the list stays separated (`separated_insert`).
-/

namespace Spans

universe u

/-- The values from `lo` on, up to but without `hi`. -/
@[ext] structure Span (α : Type u) [LinearOrder α] where
  lo : α
  hi : α
  lo_lt_hi : lo < hi

variable {α : Type u} [LinearOrder α]

/-- `x` is in the span. -/
def Span.Has (s : Span α) (x : α) : Prop := s.lo ≤ x ∧ x < s.hi

/-- `x` is in one of the spans. -/
def Covers (l : List (Span α)) (x : α) : Prop := ∃ s ∈ l, s.Has x

/-- No value is in both spans. -/
def Span.Apart (s t : Span α) : Prop := t.hi ≤ s.lo ∨ s.hi ≤ t.lo

/-- In order, and no two touch. -/
def Separated (l : List (Span α)) : Prop := l.Pairwise fun s t => s.hi < t.lo

/-- Two spans that touch, as one. -/
def Span.join (s t : Span α) (h : s.hi = t.lo) : Span α :=
  ⟨s.lo, t.hi, lt_trans s.lo_lt_hi (h ▸ t.lo_lt_hi)⟩

@[simp] theorem Span.join_lo (s t : Span α) (h : s.hi = t.lo) : (s.join t h).lo = s.lo := rfl

@[simp] theorem Span.join_hi (s t : Span α) (h : s.hi = t.lo) : (s.join t h).hi = t.hi := rfl

theorem mem_middle {l l' : List (Span α)} {s t : Span α} :
    t ∈ l ++ s :: l' ↔ t = s ∨ t ∈ l ++ l' := List.perm_middle.mem_iff.trans List.mem_cons

/-- Adds a span, and joins it with the spans that it touches. -/
def insert (s : Span α) : List (Span α) → List (Span α)
  | [] => [s]
  | t :: l =>
    if s.hi < t.lo then s :: t :: l
    else if h : s.hi = t.lo then s.join t h :: l
    else if h : t.hi = s.lo then insert (t.join s h) l
    else t :: insert s l

/-! ## What a list covers -/

theorem Span.has_lo (s : Span α) : s.Has s.lo := ⟨le_rfl, s.lo_lt_hi⟩

theorem Span.Apart.symm {s t : Span α} (h : s.Apart t) : t.Apart s := Or.symm h

theorem Span.Apart.not_has {s t : Span α} (h : s.Apart t) {x : α} (hs : s.Has x) :
    ¬ t.Has x := by
  intro ht
  rcases h with h | h
  · exact absurd (lt_of_lt_of_le ht.2 (le_trans h hs.1)) (lt_irrefl x)
  · exact absurd (lt_of_lt_of_le hs.2 (le_trans h ht.1)) (lt_irrefl x)

/-- Spans without a common value are apart. -/
theorem Span.apart_of_not_has {s t : Span α} (h : ∀ x, s.Has x → ¬ t.Has x) : s.Apart t := by
  rcases lt_or_ge s.lo t.hi with hst | hst
  · rcases lt_or_ge t.lo s.hi with hts | hts
    · rcases le_total s.lo t.lo with hle | hle
      · exact absurd t.has_lo (h t.lo ⟨hle, hts⟩)
      · exact absurd ⟨hle, hst⟩ (h s.lo s.has_lo)
    · exact Or.inr hts
  · exact Or.inl hst

theorem Span.join_has {s t : Span α} (h : s.hi = t.lo) (x : α) :
    (s.join t h).Has x ↔ s.Has x ∨ t.Has x := by
  constructor
  · intro hx
    rcases lt_or_ge x s.hi with hlt | hge
    · exact Or.inl ⟨hx.1, hlt⟩
    · exact Or.inr ⟨h ▸ hge, hx.2⟩
  · rintro (hx | hx)
    · exact ⟨hx.1, lt_trans hx.2 (h ▸ t.lo_lt_hi)⟩
    · exact ⟨le_trans (le_of_lt (h ▸ s.lo_lt_hi)) hx.1, hx.2⟩

@[simp] theorem covers_nil (x : α) : ¬ Covers [] x := by
  rintro ⟨s, hs, -⟩
  cases hs

@[simp] theorem covers_cons (s : Span α) (l : List (Span α)) (x : α) :
    Covers (s :: l) x ↔ s.Has x ∨ Covers l x := by
  unfold Covers
  rw [List.exists_mem_cons_iff]

theorem covers_append (l l' : List (Span α)) (x : α) :
    Covers (l ++ l') x ↔ Covers l x ∨ Covers l' x := by
  induction l with
  | nil => rw [List.nil_append, or_iff_right (covers_nil x)]
  | cons s l ih => rw [List.cons_append, covers_cons, covers_cons, ih, or_assoc]

theorem covers_middle (l l' : List (Span α)) (s : Span α) (x : α) :
    Covers (l ++ s :: l') x ↔ s.Has x ∨ Covers (l ++ l') x := by
  rw [covers_append, covers_cons, covers_append]
  exact or_left_comm

/-- A span that is apart from all spans of the list has none of their values. -/
theorem not_covers_of_apart {s : Span α} {l : List (Span α)} (h : ∀ t ∈ l, s.Apart t) {x : α}
    (hx : s.Has x) : ¬ Covers l x := by
  rintro ⟨t, ht, hxt⟩
  exact (h t ht).not_has hx hxt

/-! ## Separated lists -/

@[simp] theorem separated_nil : Separated ([] : List (Span α)) := List.Pairwise.nil

theorem separated_cons {s : Span α} {l : List (Span α)} :
    Separated (s :: l) ↔ (∀ t ∈ l, s.hi < t.lo) ∧ Separated l := List.pairwise_cons

theorem separated_append {l l' : List (Span α)} :
    Separated (l ++ l') ↔ Separated l ∧ Separated l' ∧ ∀ s ∈ l, ∀ t ∈ l', s.hi < t.lo :=
  List.pairwise_append

/-- What is behind a span is not covered by the rest of its list up to the end of the span. -/
theorem le_of_covers {s : Span α} {l : List (Span α)} (h : ∀ t ∈ l, s.hi < t.lo) {x : α}
    (hx : Covers l x) : s.hi < x := by
  obtain ⟨t, ht, hxt⟩ := hx
  exact lt_of_lt_of_le (h t ht) hxt.1

/-- The end of a span is not covered. -/
theorem Separated.not_covers_hi {l : List (Span α)} (h : Separated l) {s : Span α}
    (hs : s ∈ l) : ¬ Covers l s.hi := by
  rintro ⟨t, ht, hlo, hhi⟩
  obtain ⟨l₁, l₂, rfl⟩ := List.append_of_mem hs
  obtain ⟨-, hl₂, hbefore⟩ := separated_append.mp h
  rcases List.mem_append.mp ht with ht | ht
  · have hts := hbefore t ht s List.mem_cons_self
    exact absurd (lt_trans (lt_trans hts s.lo_lt_hi) hhi) (lt_irrefl _)
  · rcases List.mem_cons.mp ht with rfl | ht
    · exact absurd hhi (lt_irrefl _)
    · exact absurd (lt_of_le_of_lt hlo ((separated_cons.mp hl₂).1 t ht)) (lt_irrefl _)

/-- An interval inside the set lies in one span. -/
theorem Separated.exists_of_range {l : List (Span α)} (h : Separated l) (r : Span α)
    (hr : ∀ x, r.Has x → Covers l x) : ∃ s ∈ l, s.lo ≤ r.lo ∧ r.hi ≤ s.hi := by
  obtain ⟨s, hs, hlo, hhi⟩ := hr r.lo r.has_lo
  refine ⟨s, hs, hlo, ?_⟩
  by_contra hlt
  exact h.not_covers_hi hs (hr s.hi ⟨le_of_lt hhi, lt_of_not_ge hlt⟩)

/-- The first span starts with the least value of the set. -/
theorem Separated.head_le {s : Span α} {l : List (Span α)} (h : Separated (s :: l)) {x : α}
    (hx : Covers (s :: l) x) : s.lo ≤ x := by
  rcases (covers_cons s l x).mp hx with hx | hx
  · exact hx.1
  · exact le_of_lt (lt_trans s.lo_lt_hi (le_of_covers (separated_cons.mp h).1 hx))

/-- The first span ends with the least greater value that is not in the set. -/
theorem Separated.head_hi_le {s t : Span α} {l l' : List (Span α)} (hl : Separated (s :: l))
    (hlo : s.lo = t.lo) (h : ∀ x, Covers (t :: l') x → Covers (s :: l) x) : t.hi ≤ s.hi := by
  by_contra hlt
  have hx : Covers (t :: l') s.hi :=
    (covers_cons t l' _).mpr (Or.inl ⟨hlo ▸ le_of_lt s.lo_lt_hi, lt_of_not_ge hlt⟩)
  exact hl.not_covers_hi List.mem_cons_self (h _ hx)

/-- A set has one separated list. -/
theorem eq_of_covers {l l' : List (Span α)} (hl : Separated l) (hl' : Separated l')
    (h : ∀ x, Covers l x ↔ Covers l' x) : l = l' := by
  induction l generalizing l' with
  | nil =>
    cases l' with
    | nil => rfl
    | cons t l' =>
      exact absurd ((h t.lo).mpr ((covers_cons t l' _).mpr (Or.inl t.has_lo))) (covers_nil t.lo)
  | cons s l ih =>
    cases l' with
    | nil =>
      exact absurd ((h s.lo).mp ((covers_cons s l _).mpr (Or.inl s.has_lo))) (covers_nil s.lo)
    | cons t l' =>
      have hs : Covers (s :: l) s.lo := (covers_cons s l _).mpr (Or.inl s.has_lo)
      have ht : Covers (t :: l') t.lo := (covers_cons t l' _).mpr (Or.inl t.has_lo)
      have hlo : s.lo = t.lo :=
        le_antisymm (hl.head_le ((h _).mpr ht)) (hl'.head_le ((h _).mp hs))
      have hhi : s.hi = t.hi :=
        le_antisymm (hl'.head_hi_le hlo.symm fun x => (h x).mp)
          (hl.head_hi_le hlo fun x => (h x).mpr)
      obtain rfl : s = t := Span.ext hlo hhi
      obtain ⟨hsl, hl⟩ := separated_cons.mp hl
      obtain ⟨hsl', hl'⟩ := separated_cons.mp hl'
      rw [ih hl hl' fun x => ?_]
      have hx := h x
      rw [covers_cons, covers_cons] at hx
      constructor
      · intro hxl
        have hlt := le_of_covers hsl hxl
        exact (hx.mp (Or.inr hxl)).resolve_left fun hxs => absurd (lt_trans hlt hxs.2) (lt_irrefl _)
      · intro hxl
        have hlt := le_of_covers hsl' hxl
        exact (hx.mpr (Or.inr hxl)).resolve_left fun hxs =>
          absurd (lt_trans hlt hxs.2) (lt_irrefl _)

/-! ## Adding a span -/

/-- Where the list goes on behind a span that touches its end, the added span comes first. -/
theorem Span.Apart.join {s t u : Span α} (h : t.hi = s.lo) (hu : s.Apart u) (htu : t.hi < u.lo) :
    (t.join s h).Apart u := by
  rcases hu with hu | hu
  · exact absurd (lt_of_lt_of_le (lt_trans htu u.lo_lt_hi) (h ▸ hu)) (lt_irrefl _)
  · exact Or.inr hu

/-- A span that is apart from another, neither before it nor next to it, is behind it. -/
theorem Span.Apart.lt {s t : Span α} (h : s.Apart t) (hlt : ¬ s.hi < t.lo) (hne : ¬ s.hi = t.lo)
    (hne' : ¬ t.hi = s.lo) : t.hi < s.lo := by
  rcases h with h | h
  · exact lt_of_le_of_ne h hne'
  · exact absurd (lt_of_le_of_ne h hne) hlt

theorem covers_insert {s : Span α} {l : List (Span α)} (hl : Separated l)
    (hs : ∀ t ∈ l, s.Apart t) (x : α) : Covers (insert s l) x ↔ s.Has x ∨ Covers l x := by
  induction l generalizing s with
  | nil => exact covers_cons s [] x
  | cons t l ih =>
    obtain ⟨htl, hl⟩ := separated_cons.mp hl
    obtain ⟨hst, hsl⟩ := List.forall_mem_cons.mp hs
    unfold insert
    split
    · exact covers_cons s _ x
    · split
      · rw [covers_cons, covers_cons, Span.join_has, or_assoc]
      · split
        · rename_i h
          rw [ih hl fun u hu => (hsl u hu).join h (htl u hu), covers_cons, Span.join_has,
            or_assoc, or_left_comm]
        · rw [covers_cons, covers_cons, ih hl hsl, or_left_comm]

theorem lt_of_mem_insert {s : Span α} {l : List (Span α)} {a : α} (hs : a < s.lo)
    (hl : ∀ t ∈ l, a < t.lo) : ∀ u ∈ insert s l, a < u.lo := by
  induction l generalizing s with
  | nil => exact fun u hu => List.mem_singleton.mp hu ▸ hs
  | cons t l ih =>
    obtain ⟨ht, hl⟩ := List.forall_mem_cons.mp hl
    unfold insert
    split
    · exact List.forall_mem_cons.mpr ⟨hs, List.forall_mem_cons.mpr ⟨ht, hl⟩⟩
    · split
      · exact List.forall_mem_cons.mpr ⟨hs, hl⟩
      · split
        · exact ih ht hl
        · exact List.forall_mem_cons.mpr ⟨ht, ih hs hl⟩

theorem separated_insert {s : Span α} {l : List (Span α)} (hl : Separated l)
    (hs : ∀ t ∈ l, s.Apart t) : Separated (insert s l) := by
  induction l generalizing s with
  | nil => exact separated_cons.mpr ⟨fun t ht => absurd ht List.not_mem_nil, separated_nil⟩
  | cons t l ih =>
    obtain ⟨htl, hl'⟩ := separated_cons.mp hl
    obtain ⟨hst, hsl⟩ := List.forall_mem_cons.mp hs
    unfold insert
    split
    · rename_i hlt
      exact separated_cons.mpr ⟨List.forall_mem_cons.mpr
        ⟨hlt, fun u hu => lt_trans hlt (lt_trans t.lo_lt_hi (htl u hu))⟩, hl⟩
    · split
      · exact separated_cons.mpr ⟨htl, hl'⟩
      · split
        · rename_i h
          exact ih hl' fun u hu => (hsl u hu).join h (htl u hu)
        · rename_i hlt hne hne'
          exact separated_cons.mpr
            ⟨lt_of_mem_insert (hst.lt hlt hne hne') htl, ih hl' hsl⟩

/-- What holds of the spans and of the join of two that it holds of. -/
theorem forall_insert {P : Span α → Prop}
    (hjoin : ∀ s t (h : s.hi = t.lo), P s → P t → P (s.join t h)) {s : Span α}
    {l : List (Span α)} (hs : P s) (hl : ∀ t ∈ l, P t) : ∀ u ∈ insert s l, P u := by
  induction l generalizing s with
  | nil => exact fun u hu => List.mem_singleton.mp hu ▸ hs
  | cons t l ih =>
    obtain ⟨ht, hl'⟩ := List.forall_mem_cons.mp hl
    unfold insert
    split
    · exact List.forall_mem_cons.mpr ⟨hs, hl⟩
    · split
      · exact List.forall_mem_cons.mpr ⟨hjoin s t _ hs ht, hl'⟩
      · split
        · exact ih (hjoin t s _ ht hs) hl'
        · exact List.forall_mem_cons.mpr ⟨ht, ih hs hl'⟩

/-- The added span between those before it and those behind it: it is joined with the first of
    these where they touch. -/
def insertFront (s : Span α) : List (Span α) → List (Span α)
  | [] => [s]
  | t :: l => if h : s.hi = t.lo then s.join t h :: l else s :: t :: l

theorem insert_front {s : Span α} {l : List (Span α)} (hs : ∀ t ∈ l, s.hi ≤ t.lo) :
    insert s l = insertFront s l := by
  cases l with
  | nil => rfl
  | cons t l =>
    rcases eq_or_lt_of_le (hs t List.mem_cons_self) with h | h
    · rw [insert, if_neg h.not_lt, dif_pos h, insertFront, dif_pos h]
    · rw [insert, if_pos h, insertFront, dif_neg h.ne]

/-- Spans that end before the added one, without touching it, stay as they are. -/
theorem insert_append {s : Span α} {l₁ l₂ : List (Span α)} (h₁ : ∀ t ∈ l₁, t.hi < s.lo) :
    insert s (l₁ ++ l₂) = l₁ ++ insert s l₂ := by
  induction l₁ with
  | nil => rfl
  | cons t l₁ ih =>
    obtain ⟨ht, h₁⟩ := List.forall_mem_cons.mp h₁
    have hlt : t.lo < s.hi := lt_trans t.lo_lt_hi (lt_trans ht s.lo_lt_hi)
    rw [List.cons_append, insert, if_neg hlt.not_gt, dif_neg hlt.ne', dif_neg ht.ne, ih h₁,
      List.cons_append]

/-- A span that touches the added one from below is joined with it. -/
theorem insert_touch {s t : Span α} {l : List (Span α)} (h : t.hi = s.lo) :
    insert s (t :: l) = insert (t.join s h) l := by
  have hlt : t.lo < s.hi := lt_trans t.lo_lt_hi (h ▸ s.lo_lt_hi)
  rw [insert, if_neg hlt.not_gt, dif_neg hlt.ne', dif_pos h]

theorem insert_before {s : Span α} {l : List (Span α)} (h : ∀ t ∈ l, s.hi < t.lo) :
    insert s l = s :: l := by
  cases l with
  | nil => rfl
  | cons t l => rw [insert, if_pos (h t List.mem_cons_self)]

/-- A span that touches no other takes its place. -/
theorem insert_gap {s : Span α} {l₁ l₂ : List (Span α)} (h₁ : ∀ t ∈ l₁, t.hi < s.lo)
    (h₂ : ∀ t ∈ l₂, s.hi < t.lo) : insert s (l₁ ++ l₂) = l₁ ++ s :: l₂ := by
  rw [insert_append h₁, insert_before h₂]

/-! ## Free lists -/

/-- The list splits where the added span goes. -/
theorem Separated.exists_split {s : Span α} {l : List (Span α)} (hl : Separated l)
    (hs : ∀ t ∈ l, s.Apart t) :
    ∃ l₁ l₂, l = l₁ ++ l₂ ∧ (∀ t ∈ l₁, t.hi ≤ s.lo) ∧ ∀ t ∈ l₂, s.hi ≤ t.lo := by
  induction l with
  | nil => exact ⟨[], [], rfl, fun t ht => absurd ht List.not_mem_nil,
      fun t ht => absurd ht List.not_mem_nil⟩
  | cons t l ih =>
    obtain ⟨htl, hl⟩ := separated_cons.mp hl
    obtain ⟨hst, hsl⟩ := List.forall_mem_cons.mp hs
    rcases hst with hst | hst
    · obtain ⟨l₁, l₂, rfl, h₁, h₂⟩ := ih hl hsl
      exact ⟨t :: l₁, l₂, rfl, List.forall_mem_cons.mpr ⟨hst, h₁⟩, h₂⟩
    · exact ⟨[], t :: l, rfl, fun u hu => absurd hu List.not_mem_nil,
        List.forall_mem_cons.mpr ⟨hst, fun u hu =>
          le_trans hst (le_of_lt (lt_trans t.lo_lt_hi (htl u hu)))⟩⟩

/-- An added span lies in one of the spans behind the addition, and the others are apart from it. -/
theorem apart_of_mem_insert {s t : Span α} {l : List (Span α)} (hl : Separated l)
    (hs : ∀ t ∈ l, s.Apart t) (ht : t ∈ insert s l) :
    (t.lo ≤ s.lo ∧ s.hi ≤ t.hi) ∨ t.Apart s := by
  have hsep := separated_insert hl hs
  obtain ⟨u, hu, hlo, hhi⟩ := hsep.exists_of_range s fun x hx =>
    (covers_insert hl hs x).mpr (Or.inl hx)
  obtain ⟨l₁, l₂, hsplit⟩ := List.append_of_mem hu
  rw [hsplit] at ht hsep
  obtain ⟨-, hl₂, hbefore⟩ := separated_append.mp hsep
  rcases List.mem_append.mp ht with ht | ht
  · have htu := hbefore t ht u List.mem_cons_self
    exact Or.inr (Or.inr (le_trans (le_of_lt htu) hlo))
  · rcases List.mem_cons.mp ht with rfl | ht
    · exact Or.inl ⟨hlo, hhi⟩
    · have hut := (separated_cons.mp hl₂).1 t ht
      exact Or.inr (Or.inl (le_trans hhi (le_of_lt hut)))

/-- Only the last of the spans below a value can touch it. -/
theorem Separated.below_cases {l : List (Span α)} (hl : Separated l) {a : α}
    (ha : ∀ t ∈ l, t.hi ≤ a) : (∀ t ∈ l, t.hi < a) ∨ ∃ l' t, l = l' ++ [t] ∧ t.hi = a := by
  rcases List.eq_nil_or_concat l with rfl | ⟨l', t, rfl⟩
  · exact Or.inl fun t ht => absurd ht List.not_mem_nil
  · rw [List.concat_eq_append] at hl ha ⊢
    have ht : t.hi ≤ a := ha t List.mem_concat_self
    rcases eq_or_lt_of_le ht with hta | hta
    · exact Or.inr ⟨l', t, rfl, hta⟩
    · refine Or.inl fun u hu => ?_
      rcases List.mem_append.mp hu with hu | hu
      · have hut := (separated_append.mp hl).2.2 u hu t (List.mem_singleton_self t)
        exact lt_trans hut (lt_trans t.lo_lt_hi hta)
      · exact List.mem_singleton.mp hu ▸ hta

/-- Only the first of the spans above a value can touch it. -/
theorem Separated.above_cases {l : List (Span α)} (hl : Separated l) {a : α}
    (ha : ∀ t ∈ l, a ≤ t.lo) : (∀ t ∈ l, a < t.lo) ∨ ∃ t l', l = t :: l' ∧ a = t.lo := by
  cases l with
  | nil => exact Or.inl fun t ht => absurd ht List.not_mem_nil
  | cons t l =>
    obtain ⟨hat, hal⟩ := List.forall_mem_cons.mp ha
    rcases eq_or_lt_of_le hat with hta | hta
    · exact Or.inr ⟨t, l, rfl, hta⟩
    · exact Or.inl (List.forall_mem_cons.mpr ⟨hta, fun u hu =>
        lt_trans hta (lt_trans t.lo_lt_hi ((separated_cons.mp hl).1 u hu))⟩)

/-- The values with `R` are those of the free and of the used spans, each in one of them, and the
    free spans are the maximal intervals of what is free. -/
structure Parts (R : α → Prop) (free used : List (Span α)) : Prop where
  separated : Separated free
  apart : used.Pairwise Span.Apart
  free_apart : ∀ s ∈ free, ∀ t ∈ used, s.Apart t
  covers : ∀ x, Covers free x ∨ Covers used x ↔ R x

/-- What is free depends on what is used and on nothing else. -/
theorem Parts.free_unique {R : α → Prop} {free free' used used' : List (Span α)}
    (h : Parts R free used) (h' : Parts R free' used') (hused : ∀ s, s ∈ used ↔ s ∈ used') :
    free = free' := by
  have hcovers : ∀ x, Covers used x ↔ Covers used' x := fun x =>
    exists_congr fun s => and_congr_left fun _ => hused s
  refine eq_of_covers h.separated h'.separated fun x => ?_
  have hx := h.covers x
  have hx' := h'.covers x
  constructor
  · intro hf
    refine (hx'.mpr (hx.mp (Or.inl hf))).resolve_right fun hu => ?_
    obtain ⟨s, hs, hxs⟩ := hf
    exact not_covers_of_apart (h.free_apart s hs) hxs ((hcovers x).mpr hu)
  · intro hf
    refine (hx.mpr (hx'.mp (Or.inl hf))).resolve_right fun hu => ?_
    obtain ⟨s, hs, hxs⟩ := hf
    exact not_covers_of_apart (h'.free_apart s hs) hxs ((hcovers x).mp hu)

theorem Parts.perm {R : α → Prop} {free used used' : List (Span α)} (h : Parts R free used)
    (hp : used.Perm used') : Parts R free used' where
  separated := h.separated
  apart := (hp.pairwise_iff fun h => h.symm).mp h.apart
  free_apart := fun s hs t ht => h.free_apart s hs t (hp.mem_iff.mpr ht)
  covers := fun x => by
    have hcovers : Covers used x ↔ Covers used' x :=
      exists_congr fun s => and_congr_left fun _ => hp.mem_iff
    rw [← hcovers, h.covers x]

/-- A used span becomes free. -/
theorem Parts.release {R : α → Prop} {free used : List (Span α)} {s : Span α}
    (h : Parts R free (s :: used)) : Parts R (insert s free) used := by
  have hs : ∀ t ∈ free, s.Apart t := fun t ht => (h.free_apart t ht s List.mem_cons_self).symm
  obtain ⟨hsu, hu⟩ := List.pairwise_cons.mp h.apart
  have hcovers : ∀ x, Covers (insert s free) x ↔ s.Has x ∨ Covers free x :=
    covers_insert h.separated hs
  refine ⟨separated_insert h.separated hs, hu, fun t ht v hv => ?_, fun x => ?_⟩
  · refine Span.apart_of_not_has fun x hx hxv => ?_
    rcases (hcovers x).mp ⟨t, ht, hx⟩ with hxs | ⟨f, hf, hxf⟩
    · exact (hsu v hv).not_has hxs hxv
    · exact (h.free_apart f hf v (List.mem_cons_of_mem s hv)).not_has hxf hxv
  · rw [hcovers, ← h.covers x, covers_cons]
    exact or_assoc.trans or_left_comm

/-- A free span becomes a used one. -/
theorem Parts.take {R : α → Prop} {l₁ l₂ used : List (Span α)} {s : Span α}
    (h : Parts R (l₁ ++ s :: l₂) used) : Parts R (l₁ ++ l₂) (s :: used) := by
  have hsub : (l₁ ++ l₂).Sublist (l₁ ++ s :: l₂) :=
    List.Sublist.append_left (List.sublist_cons_self s l₂) l₁
  obtain ⟨-, hl₂, hbefore⟩ := separated_append.mp h.separated
  refine ⟨h.separated.sublist hsub, List.pairwise_cons.mpr
    ⟨h.free_apart s (List.mem_append_right l₁ List.mem_cons_self), h.apart⟩,
    fun t ht => List.forall_mem_cons.mpr ⟨?_, h.free_apart t (hsub.subset ht)⟩, fun x => ?_⟩
  · rcases List.mem_append.mp ht with ht | ht
    · exact Or.inr (le_of_lt (hbefore t ht s List.mem_cons_self))
    · exact Or.inl (le_of_lt ((separated_cons.mp hl₂).1 t ht))
  · rw [← h.covers x, covers_middle, covers_cons, or_left_comm, or_assoc]

/-- The front of a free span becomes a used one. -/
theorem Parts.takeFront {R : α → Prop} {l₁ l₂ used : List (Span α)} {s t : Span α}
    (hst : s.hi = t.lo) (h : Parts R (l₁ ++ s.join t hst :: l₂) used) :
    Parts R (l₁ ++ t :: l₂) (s :: used) := by
  obtain ⟨hl₁, hl₂, hbefore⟩ := separated_append.mp h.separated
  obtain ⟨htl₂, hl₂⟩ := separated_cons.mp hl₂
  have hjoin := h.free_apart _ (List.mem_append_right l₁ List.mem_cons_self)
  have hpart : ∀ u ∈ used, s.Apart u ∧ t.Apart u := fun u hu => by
    constructor
    · exact Span.apart_of_not_has fun x hx =>
        (hjoin u hu).not_has ((Span.join_has hst x).mpr (Or.inl hx))
    · exact Span.apart_of_not_has fun x hx =>
        (hjoin u hu).not_has ((Span.join_has hst x).mpr (Or.inr hx))
  refine ⟨separated_append.mpr ⟨hl₁, separated_cons.mpr ⟨htl₂, hl₂⟩, ?_⟩,
    List.pairwise_cons.mpr ⟨fun u hu => (hpart u hu).1, h.apart⟩, ?_, fun x => ?_⟩
  · intro u hu
    refine List.forall_mem_cons.mpr ⟨?_, fun v hv => hbefore u hu v (List.mem_cons_of_mem _ hv)⟩
    exact lt_trans (hbefore u hu _ List.mem_cons_self) (hst ▸ s.lo_lt_hi)
  · intro u hu
    refine List.forall_mem_cons.mpr ⟨?_, fun v hv => ?_⟩
    · rcases List.mem_append.mp hu with hu | hu
      · exact Or.inr (le_of_lt (hbefore u hu (s.join t hst) List.mem_cons_self))
      · rcases List.mem_cons.mp hu with rfl | hu
        · exact Or.inl (le_of_eq hst)
        · exact Or.inl (le_of_lt (lt_trans (hst ▸ t.lo_lt_hi) (htl₂ u hu)))
    · rcases List.mem_append.mp hu with hu | hu
      · exact h.free_apart u (List.mem_append_left _ hu) v hv
      · rcases List.mem_cons.mp hu with rfl | hu
        · exact (hpart v hv).2
        · exact h.free_apart u (List.mem_append_right l₁ (List.mem_cons_of_mem _ hu)) v hv
  · rw [← h.covers x, covers_middle, covers_middle, covers_cons, Span.join_has]
    grind

/-! ## Sizes -/

section Size

/-- The number of values in a span of natural numbers. -/
def Span.size (s : Span Nat) : Nat := s.hi - s.lo

/-- The number of values in the spans. -/
def total : List (Span Nat) → Nat
  | [] => 0
  | s :: l => s.size + total l

@[simp] theorem total_nil : total [] = 0 := rfl

@[simp] theorem total_cons (s : Span Nat) (l : List (Span Nat)) :
    total (s :: l) = s.size + total l := rfl

theorem total_middle (l l' : List (Span Nat)) (s : Span Nat) :
    total (l ++ s :: l') = s.size + total (l ++ l') := by
  induction l with
  | nil => exact total_cons s l'
  | cons t l ih => rw [List.cons_append, total_cons, ih, List.cons_append, total_cons,
      Nat.add_left_comm]

theorem Span.lo_add_size (s : Span Nat) : s.lo + s.size = s.hi :=
  Nat.add_sub_cancel' (Nat.le_of_lt s.lo_lt_hi)

theorem Span.size_join {s t : Span Nat} (h : s.hi = t.lo) :
    (s.join t h).size = s.size + t.size := by
  have hs := s.lo_lt_hi
  have ht := t.lo_lt_hi
  show t.hi - s.lo = (s.hi - s.lo) + (t.hi - t.lo)
  omega

theorem total_insert (s : Span Nat) (l : List (Span Nat)) :
    total (insert s l) = s.size + total l := by
  induction l generalizing s with
  | nil => rfl
  | cons t l ih =>
    unfold insert
    split
    · rfl
    · split
      · rw [total_cons, total_cons, Span.size_join, Nat.add_assoc]
      · split
        · rw [ih, total_cons, Span.size_join, Nat.add_assoc, Nat.add_left_comm]
        · rw [total_cons, ih, total_cons, Nat.add_left_comm]

theorem size_le_total {s : Span Nat} {l : List (Span Nat)} (hs : s ∈ l) :
    s.size ≤ total l := by
  obtain ⟨l₁, l₂, rfl⟩ := List.append_of_mem hs
  rw [total_middle]
  exact Nat.le_add_right _ _

/-- The spans between two values have no more values than there are between these. -/
theorem total_add_le {l : List (Span Nat)} (hl : Separated l) {a b : Nat} (hab : a ≤ b)
    (h : ∀ s ∈ l, a ≤ s.lo ∧ s.hi ≤ b) : a + total l ≤ b := by
  induction l generalizing a with
  | nil => exact hab
  | cons s l ih =>
    obtain ⟨hsl, hl⟩ := separated_cons.mp hl
    obtain ⟨hs, h⟩ := List.forall_mem_cons.mp h
    have hrest := ih hl hs.2 fun t ht => ⟨le_of_lt (hsl t ht), (h t ht).2⟩
    have hsize := s.lo_add_size
    rw [total_cons]
    omega

theorem length_mul_le_total {n : Nat} {l : List (Span Nat)} (hl : ∀ s ∈ l, n ≤ s.size) :
    l.length * n ≤ total l := by
  induction l with
  | nil => rw [List.length_nil, Nat.zero_mul]; exact Nat.zero_le _
  | cons s l ih =>
    obtain ⟨hs, hl⟩ := List.forall_mem_cons.mp hl
    rw [List.length_cons, total_cons, Nat.add_mul, Nat.one_mul, Nat.add_comm]
    exact Nat.add_le_add hs (ih hl)

end Size

end Spans
