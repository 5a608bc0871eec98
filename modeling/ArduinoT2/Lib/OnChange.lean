import ArduinoT2.Lib.StepSys
import Mathlib.Data.List.Destutter
import Mathlib.Data.List.ReduceOption

/-
  Machines that act on changes of their input.

  `step acts f` passes an input on to `f` if it is one of `acts` and differs from the last one that
  was passed on. `outputs_step`: what it puts out is what `f` puts out on the inputs of `acts`
  without repetitions (`seen`).
-/

namespace OnChange

open StepSys

universe u v w

variable {σ : Type u} {ι : Type u} {ω : Type w} [DecidableEq ι]

/-- An input is passed on to `f` if it is one of `acts` and another one than the last. -/
def step (acts : ι → Bool) (f : σ → ι → σ × Option ω) (s : ι × σ) (i : ι) :
    (ι × σ) × Option ω :=
  if acts i = true ∧ i ≠ s.1 then ((i, (f s.2 i).1), (f s.2 i).2) else (s, none)

/-- The inputs that are passed on, behind `last`. -/
def seen (acts : ι → Bool) (last : ι) (is : List ι) : List ι :=
  ((is.filter acts).destutter' (· ≠ ·) last).tail

theorem destutter'_front (a : ι) (l : List ι) :
    l.destutter' (· ≠ ·) a = a :: (l.destutter' (· ≠ ·) a).tail := by
  induction l with
  | nil => rfl
  | cons b l ih =>
    by_cases h : a ≠ b
    · rw [List.destutter'_cons_pos l h]
      rfl
    · rw [List.destutter'_cons_neg l h]
      exact ih

theorem seen_skip {acts : ι → Bool} {last i : ι} (h : ¬(acts i = true ∧ i ≠ last)) (is : List ι) :
    seen acts last (i :: is) = seen acts last is := by
  unfold seen
  by_cases hacts : acts i = true
  · have heq : ¬last ≠ i := fun hne => h ⟨hacts, hne.symm⟩
    rw [List.filter_cons_of_pos hacts, List.destutter'_cons_neg _ heq]
  · rw [List.filter_cons_of_neg hacts]

theorem seen_pass {acts : ι → Bool} {last i : ι} (h : acts i = true ∧ i ≠ last) (is : List ι) :
    seen acts last (i :: is) = i :: seen acts i is := by
  unfold seen
  rw [List.filter_cons_of_pos h.1, List.destutter'_cons_pos _ h.2.symm, List.tail_cons]
  exact destutter'_front i _

/-- From a `last` that is not acted on, the inputs that are passed on do not depend on it. -/
theorem seen_eq_destutter {acts : ι → Bool} {last : ι} (h : acts last = false) (is : List ι) :
    seen acts last is = (is.filter acts).destutter (· ≠ ·) := by
  unfold seen
  cases hfilter : is.filter acts with
  | nil => rfl
  | cons i l =>
    have hacts : acts i = true :=
      (List.mem_filter.mp (hfilter ▸ List.mem_cons_self : i ∈ is.filter acts)).2
    have hne : last ≠ i := fun heq => Bool.false_ne_true (h.symm.trans (heq ▸ hacts))
    rw [List.destutter'_cons_pos _ hne, List.destutter_cons']
    rfl

/-- The outputs are those of `f` on the inputs that are passed on. -/
theorem outputs_step (acts : ι → Bool) (f : σ → ι → σ × Option ω) (last : ι) (s : σ)
    (is : List ι) : (outputs (step acts f) (last, s) is).reduceOption =
      (outputs f s (seen acts last is)).reduceOption := by
  induction is generalizing last s with
  | nil => rfl
  | cons i is ih =>
    rw [outputs_cons]
    by_cases hpass : acts i = true ∧ i ≠ last
    · have hstep : step acts f (last, s) i = ((i, (f s i).1), (f s i).2) := if_pos hpass
      rw [hstep, seen_pass hpass, outputs_cons]
      cases (f s i).2 with
      | none => rw [List.reduceOption_cons_of_none, List.reduceOption_cons_of_none, ih]
      | some o => rw [List.reduceOption_cons_of_some, List.reduceOption_cons_of_some, ih]
    · have hstep : step acts f (last, s) i = ((last, s), none) := if_neg hpass
      rw [hstep, seen_skip hpass, List.reduceOption_cons_of_none, ih]

end OnChange
