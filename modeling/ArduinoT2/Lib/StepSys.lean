import Mathlib.Data.List.Basic

/-
  Runs of a deterministic step function `step : σ → ι → σ × ω` over a list of inputs:
  the final state, the list of outputs, and properties of every step of a run.

  Nothing here is about a particular system. `Along step P s is` says that `P` holds of
  each step of the run, as a pair of the state before the step and the input;
  `collect step f s is` is what `f` records of the steps, in order. The rules are
  `along_of_inv` (an invariant carries a condition on the steps to a property of the steps),
  `until_of_step` (a property that every step keeps until another comes true),
  `final_rel` (a reflexive transitive relation that every step respects), `run_agree` (two runs
  in lock step), `along_collect` (each step is a run of another system) and `collect_balance` (what
  went in is what came out and what is still there).
-/

namespace StepSys

universe u v w x

variable {σ : Type u} {τ : Type u} {ι : Type v} {ω : Type w} {β : Type x}

/-- The final state and the outputs, in order, of a run from `s` over `is`. -/
def run (step : σ → ι → σ × ω) (s : σ) : List ι → σ × List ω
  | [] => (s, [])
  | i :: is => ((run step (step s i).1 is).1, (step s i).2 :: (run step (step s i).1 is).2)

/-- The final state of a run. -/
def final (step : σ → ι → σ × ω) (s : σ) (is : List ι) : σ := (run step s is).1

/-- The outputs of a run. -/
def outputs (step : σ → ι → σ × ω) (s : σ) (is : List ι) : List ω := (run step s is).2

/-- `P` holds of every step of the run: of the state before it and of its input. -/
def Along (step : σ → ι → σ × ω) (P : σ → ι → Prop) : σ → List ι → Prop
  | _, [] => True
  | s, i :: is => P s i ∧ Along step P (step s i).1 is

/-- What `f` records of the steps of the run, in order. -/
def collect (step : σ → ι → σ × ω) (f : σ → ι → List β) : σ → List ι → List β
  | _, [] => []
  | s, i :: is => f s i ++ collect step f (step s i).1 is

/-- `P` holds in every state of the run, up to a step that brings a state with `Q`, if any. -/
def Until (step : σ → ι → σ × ω) (P Q : σ → Prop) : σ → List ι → Prop
  | s, [] => P s
  | s, i :: is => P s ∧ (Q (step s i).1 ∨ Until step P Q (step s i).1 is)

section Basic

variable (step : σ → ι → σ × ω)

@[simp] theorem final_nil (s : σ) : final step s [] = s := rfl

@[simp] theorem final_cons (s : σ) (i : ι) (is : List ι) :
    final step s (i :: is) = final step (step s i).1 is := rfl

@[simp] theorem outputs_nil (s : σ) : outputs step s [] = [] := rfl

@[simp] theorem outputs_cons (s : σ) (i : ι) (is : List ι) :
    outputs step s (i :: is) = (step s i).2 :: outputs step (step s i).1 is := rfl

theorem final_append (s : σ) (is js : List ι) :
    final step s (is ++ js) = final step (final step s is) js := by
  induction is generalizing s with
  | nil => rfl
  | cons i is ih => exact ih _

theorem outputs_append (s : σ) (is js : List ι) :
    outputs step s (is ++ js) = outputs step s is ++ outputs step (final step s is) js := by
  induction is generalizing s with
  | nil => rfl
  | cons i is ih => rw [List.cons_append, outputs_cons, outputs_cons, ih, List.cons_append]; rfl

theorem length_outputs (s : σ) (is : List ι) : (outputs step s is).length = is.length := by
  induction is generalizing s with
  | nil => rfl
  | cons i is ih => rw [outputs_cons, List.length_cons, List.length_cons, ih]

variable {step}

@[simp] theorem along_nil (P : σ → ι → Prop) (s : σ) : Along step P s [] := trivial

@[simp] theorem along_cons (P : σ → ι → Prop) (s : σ) (i : ι) (is : List ι) :
    Along step P s (i :: is) ↔ P s i ∧ Along step P (step s i).1 is := Iff.rfl

theorem along_of_forall {P : σ → ι → Prop} (h : ∀ s i, P s i) (s : σ) (is : List ι) :
    Along step P s is := by
  induction is generalizing s with
  | nil => trivial
  | cons i is ih => exact ⟨h s i, ih _⟩

/-- A property of the inputs alone holds along a run if and only if all inputs have it. -/
theorem along_inputs (P : ι → Prop) (s : σ) (is : List ι) :
    Along step (fun _ i => P i) s is ↔ ∀ i ∈ is, P i := by
  induction is generalizing s with
  | nil => simp
  | cons i is ih => rw [along_cons, ih, List.forall_mem_cons]

theorem along_append (P : σ → ι → Prop) (s : σ) (is js : List ι) :
    Along step P s (is ++ js) ↔ Along step P s is ∧ Along step P (final step s is) js := by
  induction is generalizing s with
  | nil => simp
  | cons i is ih =>
    rw [List.cons_append, along_cons, along_cons, ih, and_assoc]
    rfl

theorem along_and (P Q : σ → ι → Prop) (s : σ) (is : List ι) :
    Along step (fun s i => P s i ∧ Q s i) s is ↔ Along step P s is ∧ Along step Q s is := by
  induction is generalizing s with
  | nil => simp
  | cons i is ih =>
    rw [along_cons, along_cons, along_cons, ih]
    exact and_and_and_comm

@[simp] theorem collect_nil (f : σ → ι → List β) (s : σ) : collect step f s [] = [] := rfl

@[simp] theorem collect_cons (f : σ → ι → List β) (s : σ) (i : ι) (is : List ι) :
    collect step f s (i :: is) = f s i ++ collect step f (step s i).1 is := rfl

theorem collect_snoc (f : σ → ι → List β) (s : σ) (is : List ι) (i : ι) :
    collect step f s (is ++ [i]) = collect step f s is ++ f (final step s is) i := by
  induction is generalizing s with
  | nil => exact List.append_nil _
  | cons j is ih =>
    rw [List.cons_append, collect_cons, collect_cons, ih, List.append_assoc]
    rfl

theorem collect_map {γ : Type u} (g : β → γ) (f : σ → ι → List β) (s : σ) (is : List ι) :
    collect step (fun s i => (f s i).map g) s is = (collect step f s is).map g := by
  induction is generalizing s with
  | nil => rfl
  | cons i is ih => rw [collect_cons, collect_cons, ih, List.map_append]

end Basic

section Rules

variable {step : σ → ι → σ × ω} {I : σ → Prop} {C P : σ → ι → Prop}

/-- An invariant that every step keeps holds at the end of every run. -/
theorem final_of_inv (hstep : ∀ s i, I s → I (step s i).1) {s : σ} (h : I s)
    (is : List ι) : I (final step s is) := by
  induction is generalizing s with
  | nil => exact h
  | cons i is ih => exact ih (hstep s i h)

/-- If the invariant and the condition on a step give back the invariant and the property,
    a run whose steps all meet the condition has the property at every step. -/
theorem along_of_inv (hstep : ∀ s i, I s → C s i → I (step s i).1 ∧ P s i) {s : σ}
    (h : I s) {is : List ι} (hc : Along step C s is) : Along step P s is := by
  induction is generalizing s with
  | nil => trivial
  | cons i is ih =>
    obtain ⟨hinv, hp⟩ := hstep s i h hc.1
    exact ⟨hp, ih hinv hc.2⟩

/-- Two step properties that agree under an invariant, which the steps keep that have them,
    agree along every run. -/
theorem along_congr (hstep : ∀ s i, I s → C s i → I (step s i).1)
    (hiff : ∀ s i, I s → (C s i ↔ P s i)) {s : σ} (h : I s) (is : List ι) :
    Along step C s is ↔ Along step P s is := by
  induction is generalizing s with
  | nil => exact Iff.rfl
  | cons i is ih =>
    rw [along_cons, along_cons, ← hiff s i h]
    exact and_congr_right fun hc => ih (hstep s i h hc)

/-- The same for the runs whose steps all meet a condition. -/
theorem along_congr_of {Q : σ → ι → Prop} (hstep : ∀ s i, I s → C s i → P s i → I (step s i).1)
    (hiff : ∀ s i, I s → C s i → (P s i ↔ Q s i)) {s : σ} (h : I s) {is : List ι}
    (hc : Along step C s is) : Along step P s is ↔ Along step Q s is := by
  induction is generalizing s with
  | nil => exact Iff.rfl
  | cons i is ih =>
    rw [along_cons, along_cons, ← hiff s i h hc.1]
    exact and_congr_right fun hp => ih (hstep s i h hc.1 hp) hc.2

theorem along_imp (h : ∀ s i, C s i → P s i) {s : σ} {is : List ι}
    (hc : Along step C s is) : Along step P s is := by
  induction is generalizing s with
  | nil => trivial
  | cons i is ih => exact ⟨h s i hc.1, ih hc.2⟩

/-- An invariant that every step keeps whose condition holds. -/
theorem final_of_along (hstep : ∀ s i, I s → C s i → I (step s i).1) {s : σ} (h : I s)
    {is : List ι} (hc : Along step C s is) : I (final step s is) := by
  induction is generalizing s with
  | nil => exact h
  | cons i is ih => exact ih (hstep s i h hc.1) hc.2

/-- When a step from a state with `Q` keeps `Q` or brings `R`, then `Q` holds until `R`. -/
theorem until_of_step {Q R : σ → Prop} (hstep : ∀ s i, I s → C s i → Q s →
      I (step s i).1 ∧ (Q (step s i).1 ∨ R (step s i).1)) {s : σ} (h : I s) (hq : Q s)
    {is : List ι} (hc : Along step C s is) : Until step Q R s is := by
  induction is generalizing s with
  | nil => exact hq
  | cons i is ih =>
    obtain ⟨hinv, hq' | hr⟩ := hstep s i h hc.1 hq
    · exact ⟨hq, .inr (ih hinv hq' hc.2)⟩
    · exact ⟨hq, .inl hr⟩

/-- A reflexive and transitive relation that holds across every step whose condition holds,
    holds between the ends of a run. -/
theorem final_rel {R : σ → σ → Prop} (hrefl : ∀ s, R s s)
    (htrans : ∀ a b c, R a b → R b c → R a c)
    (hstep : ∀ s i, I s → C s i → I (step s i).1 ∧ R s (step s i).1) {s : σ} (h : I s)
    {is : List ι} (hc : Along step C s is) : R s (final step s is) := by
  induction is generalizing s with
  | nil => exact hrefl s
  | cons i is ih =>
    obtain ⟨hinv, hr⟩ := hstep s i h hc.1
    exact htrans _ _ _ hr (ih hinv hc.2)

/-- Two systems in lock step: a relation between their states that every step keeps, where each
    output is that of the other system through `g`, carries over to the runs. -/
theorem run_simulates {ω' : Type x} {step' : τ → ι → τ × ω'} {A : σ → τ → Prop} (g : ω' → ω)
    (hstep : ∀ s t i, A s t → C s i →
      A (step s i).1 (step' t i).1 ∧ (step s i).2 = g (step' t i).2)
    {s : σ} {t : τ} (h : A s t) {is : List ι} (hc : Along step C s is) :
    A (final step s is) (final step' t is) ∧ outputs step s is = (outputs step' t is).map g := by
  induction is generalizing s t with
  | nil => exact ⟨h, rfl⟩
  | cons i is ih =>
    obtain ⟨ha, ho⟩ := hstep s t i h hc.1
    obtain ⟨hf, hos⟩ := ih ha hc.2
    refine ⟨hf, ?_⟩
    rw [outputs_cons, outputs_cons, ho, hos, List.map_cons]

/-- Two systems in lock step with equal outputs. -/
theorem run_agree {step' : τ → ι → τ × ω} {A : σ → τ → Prop}
    (hstep : ∀ s t i, A s t → C s i → A (step s i).1 (step' t i).1 ∧ (step s i).2 = (step' t i).2)
    {s : σ} {t : τ} (h : A s t) {is : List ι} (hc : Along step C s is) :
    A (final step s is) (final step' t is) ∧ outputs step s is = outputs step' t is := by
  obtain ⟨hfinal, houtputs⟩ := run_simulates id hstep h hc
  exact ⟨hfinal, houtputs.trans (List.map_id _)⟩

/-- Two systems over the same inputs: a relation between their states under which the steps'
    properties agree, and which the steps keep that have them, makes them agree along runs. -/
theorem along_agree {ω' : Type x} {step' : τ → ι → τ × ω'} {A : σ → τ → Prop} {D : τ → ι → Prop}
    (hiff : ∀ s t i, A s t → (C s i ↔ D t i))
    (hstep : ∀ s t i, A s t → C s i → A (step s i).1 (step' t i).1) {s : σ} {t : τ} (h : A s t)
    (is : List ι) : Along step C s is ↔ Along step' D t is := by
  induction is generalizing s t with
  | nil => exact Iff.rfl
  | cons i is ih =>
    rw [along_cons, along_cons, ← hiff s t i h]
    exact and_congr_right fun hc => ih (hstep s t i h hc)

/-- If each step is a run of another system over what `f` records of it, with `D` along it, so is
    a run. -/
theorem along_collect {ω' : Type w} {step' : τ → β → τ × ω'} {A : σ → τ → Prop}
    {f : σ → ι → List β} {D : τ → β → Prop}
    (hstep : ∀ s t i, A s t → C s i →
      Along step' D t (f s i) ∧ A (step s i).1 (final step' t (f s i)))
    {s : σ} {t : τ} (h : A s t) {is : List ι} (hc : Along step C s is) :
    Along step' D t (collect step f s is) ∧
      A (final step s is) (final step' t (collect step f s is)) := by
  induction is generalizing s t with
  | nil => exact ⟨trivial, h⟩
  | cons i is ih =>
    obtain ⟨hd, ha⟩ := hstep s t i h hc.1
    obtain ⟨hds, has⟩ := ih ha hc.2
    rw [collect_cons, along_append, final_append, final_cons]
    exact ⟨⟨hd, hds⟩, has⟩

/-- If each step whose condition holds takes `taken` from the front of the content and puts
    `added` at its end, so does a run. -/
theorem collect_balance_of {content : σ → List β} {added taken : σ → ι → List β}
    (hstep : ∀ s i, I s → C s i →
      I (step s i).1 ∧ content s ++ added s i = taken s i ++ content (step s i).1)
    {s : σ} (h : I s) {is : List ι} (hc : Along step C s is) :
    content s ++ collect step added s is =
      collect step taken s is ++ content (final step s is) := by
  induction is generalizing s with
  | nil => exact List.append_nil _
  | cons i is ih =>
    obtain ⟨hinv, hbal⟩ := hstep s i h hc.1
    calc content s ++ collect step added s (i :: is)
        = (content s ++ added s i) ++ collect step added (step s i).1 is := by
          rw [collect_cons, List.append_assoc]
      _ = taken s i ++ (content (step s i).1 ++ collect step added (step s i).1 is) := by
          rw [hbal, List.append_assoc]
      _ = collect step taken s (i :: is) ++ content (final step s (i :: is)) := by
          rw [ih hinv hc.2, collect_cons, final_cons, List.append_assoc]

theorem collect_balance {content : σ → List β} {added taken : σ → ι → List β}
    (hstep : ∀ s i, I s →
      I (step s i).1 ∧ content s ++ added s i = taken s i ++ content (step s i).1)
    {s : σ} (h : I s) (is : List ι) :
    content s ++ collect step added s is =
      collect step taken s is ++ content (final step s is) :=
  collect_balance_of (fun s i hi _ => hstep s i hi) h
    (along_of_forall (P := fun _ _ => True) (fun _ _ => trivial) s is)

end Rules

end StepSys
