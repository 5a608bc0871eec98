import Mathlib.Logic.Function.Basic

/-
  Static arrays whose accesses are recorded.

  A table has `size` entries, and memory behind them: an access outside the table is not an
  error, it is recorded. `InBounds` says that there has been none, `Same` that the entries of two
  tables agree.
-/

universe u

/-- An array of `size` entries. `entry i` from `i = size` on is what lies behind it. -/
structure Table (size : Nat) (α : Type u) where
  entry : Nat → α
  accessed : List Nat

namespace Table

variable {size : Nat} {α : Type u}

/-- The table with these entries. -/
def of (size : Nat) (entry : Nat → α) : Table size α := ⟨entry, []⟩

/-- The entry `i` is read. -/
def read (t : Table size α) (i : Nat) : α × Table size α :=
  (t.entry i, { t with accessed := t.accessed ++ [i] })

/-- The entry `i` is written. -/
def write (t : Table size α) (i : Nat) (a : α) : Table size α :=
  { entry := Function.update t.entry i a, accessed := t.accessed ++ [i] }

/-- All entries are written, in order. -/
def fill (t : Table size α) (a : α) : Table size α :=
  { entry := fun i => if i < size then a else t.entry i
    accessed := t.accessed ++ List.range size }

/-- No access has been outside the table. -/
def InBounds (t : Table size α) : Prop := ∀ i ∈ t.accessed, i < size

/-- The entries agree. -/
def Same (t t' : Table size α) : Prop := ∀ i < size, t'.entry i = t.entry i

@[simp] theorem entry_read (t : Table size α) (i : Nat) : (t.read i).2.entry = t.entry := rfl

@[simp] theorem read_fst (t : Table size α) (i : Nat) : (t.read i).1 = t.entry i := rfl

@[simp] theorem entry_write (t : Table size α) (i : Nat) (a : α) :
    (t.write i a).entry = Function.update t.entry i a := rfl

theorem inBounds_of (entry : Nat → α) : (of size entry).InBounds := by
  intro i hi
  exact nomatch hi

theorem inBounds_snoc {t t' : Table size α} {i : Nat} (h : t'.accessed = t.accessed ++ [i]) :
    t'.InBounds ↔ t.InBounds ∧ i < size := by
  unfold InBounds
  rw [h]
  constructor
  · intro hb
    refine ⟨fun j hj => hb j (List.mem_append_left _ hj), hb i ?_⟩
    exact List.mem_append_right _ (List.mem_singleton_self i)
  · rintro ⟨hb, hi⟩ j hj
    rcases List.mem_append.mp hj with hj | hj
    · exact hb j hj
    · rwa [List.mem_singleton.mp hj]

@[simp] theorem inBounds_read (t : Table size α) (i : Nat) :
    (t.read i).2.InBounds ↔ t.InBounds ∧ i < size := inBounds_snoc rfl

@[simp] theorem inBounds_write (t : Table size α) (i : Nat) (a : α) :
    (t.write i a).InBounds ↔ t.InBounds ∧ i < size := inBounds_snoc rfl

theorem Same.refl (t : Table size α) : t.Same t := fun _ _ => rfl

theorem Same.of_eq {t t' : Table size α} (h : t'.entry = t.entry) : t.Same t' :=
  fun _ _ => congrFun h _

end Table
