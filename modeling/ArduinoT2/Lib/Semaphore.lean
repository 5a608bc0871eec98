import Mathlib.Logic.Function.Basic

/-
  Counting semaphores that are created and deleted, with posts that tell who they are of.

  A semaphore is known by its address; an address may be used again once its semaphore is deleted.
  The tags of the posts are for proofs: which post a take has taken. `posted_of_take`,
  `posted_of_give` and `posted_of_create` say where a post comes from, `isSome_take` and
  `isSome_give` that neither operation creates or deletes a semaphore, `count_of_take` and
  `count_of_give` what they do to the counts. No operation looks at the tags: `take_retag` and
  `give_retag`.
-/

namespace Semaphore

universe u

variable {τ σ : Type u}

/-- A semaphore: its posts that have not been taken, in order, at most `max`. -/
structure Sem (τ : Type u) where
  max : Nat
  posts : List τ

/-- The semaphores that exist, by their addresses. -/
abbrev Sems (τ : Type u) := Nat → Option (Sem τ)

/-- A semaphore without a post comes into being at `a`. -/
def create (sems : Sems τ) (a max : Nat) : Sems τ := Function.update sems a (some ⟨max, []⟩)

/-- A semaphore with these posts comes into being at `a`. -/
def createWith (sems : Sems τ) (a max : Nat) (posts : List τ) : Sems τ :=
  Function.update sems a (some ⟨max, posts⟩)

/-- The semaphore at `a` is no more. -/
def delete (sems : Sems τ) (a : Nat) : Sems τ := Function.update sems a none

/-- The first post of the semaphore at `a` is taken, if there is one. -/
def take (sems : Sems τ) (a : Nat) : Option (τ × Sems τ) :=
  match sems a with
  | none => none
  | some ⟨_, []⟩ => none
  | some ⟨max, t :: posts⟩ => some (t, Function.update sems a (some ⟨max, posts⟩))

/-- The semaphore at `a` gets a post of `t`, unless it is full. -/
def give (sems : Sems τ) (a : Nat) (t : τ) : Option (Sems τ) :=
  match sems a with
  | none => none
  | some sem =>
    if sem.posts.length < sem.max then
      some (Function.update sems a (some { sem with posts := sem.posts ++ [t] }))
    else none

/-- The number of posts of the semaphore at `a`, and the most that it takes. -/
def count (sems : Sems τ) (a : Nat) : Option (Nat × Nat) :=
  (sems a).map fun sem => (sem.posts.length, sem.max)

/-- `t` has a post at `a`. -/
def Posted (sems : Sems τ) (a : Nat) (t : τ) : Prop := ∃ sem, sems a = some sem ∧ t ∈ sem.posts

/-- The semaphores with other tags. -/
def retag (f : τ → σ) (sems : Sems τ) : Sems σ :=
  fun a => (sems a).map fun sem => ⟨sem.max, sem.posts.map f⟩

/-- There is a semaphore at `a`, and it is not full. -/
def Open (sems : Sems τ) (a : Nat) : Prop :=
  ∃ sem, sems a = some sem ∧ sem.posts.length < sem.max

section Exists

theorem isSome_update {sems : Sems τ} {a : Nat} {sem sem' : Sem τ} (h : sems a = some sem)
    (b : Nat) : (Function.update sems a (some sem') b).isSome = (sems b).isSome := by
  rw [Function.update_apply]
  split
  · rename_i heq
    rw [heq, h]
    rfl
  · rfl

theorem isSome_take {sems sems' : Sems τ} {a : Nat} {t : τ} (h : take sems a = some (t, sems'))
    (b : Nat) : (sems' b).isSome = (sems b).isSome := by
  unfold take at h
  split at h
  · exact nomatch h
  · exact nomatch h
  · rename_i hsem
    obtain ⟨-, rfl⟩ := h
    exact isSome_update hsem b

theorem isSome_give {sems sems' : Sems τ} {a : Nat} {t : τ} (h : give sems a t = some sems')
    (b : Nat) : (sems' b).isSome = (sems b).isSome := by
  unfold give at h
  split at h
  · exact nomatch h
  · rename_i hsem
    split at h
    · obtain rfl := Option.some.inj h
      exact isSome_update hsem b
    · exact nomatch h

theorem isSome_create (sems : Sems τ) (a max : Nat) : (create sems a max a).isSome = true := by
  unfold create
  rw [Function.update_self]
  rfl

theorem create_of_ne (sems : Sems τ) {a b : Nat} (max : Nat) (h : b ≠ a) :
    create sems a max b = sems b := Function.update_of_ne h _ _

theorem delete_self (sems : Sems τ) (a : Nat) : delete sems a a = none := Function.update_self ..

theorem delete_of_ne (sems : Sems τ) {a b : Nat} (h : b ≠ a) : delete sems a b = sems b :=
  Function.update_of_ne h _ _

end Exists

section Counts

theorem count_of_eq {sems : Sems τ} {a : Nat} {sem : Sem τ} (h : sems a = some sem) :
    count sems a = some (sem.posts.length, sem.max) := by
  unfold count
  rw [h]
  rfl

/-- A take that succeeds counts one down. -/
theorem count_of_take {sems sems' : Sems τ} {a : Nat} {t : τ} (h : take sems a = some (t, sems')) :
    ∃ n max, count sems a = some (n + 1, max) ∧ count sems' a = some (n, max) ∧
      ∀ b ≠ a, sems' b = sems b := by
  unfold take at h
  split at h
  · exact nomatch h
  · exact nomatch h
  · rename_i max _ posts hsem
    obtain ⟨-, rfl⟩ := h
    refine ⟨posts.length, max, count_of_eq hsem, count_of_eq (Function.update_self ..), ?_⟩
    exact fun b hb => Function.update_of_ne hb _ _

/-- A take fails if and only if there is no post. -/
theorem take_eq_none {sems : Sems τ} {a n max : Nat} (h : count sems a = some (n, max)) :
    take sems a = none ↔ n = 0 := by
  unfold take count at *
  split
  · rename_i hsem
    rw [hsem] at h
    exact nomatch h
  · rename_i hsem
    rw [hsem] at h
    obtain ⟨rfl, -⟩ := Prod.mk.inj (Option.some.inj h)
    exact iff_of_true rfl rfl
  · rename_i hsem
    rw [hsem] at h
    obtain ⟨rfl, -⟩ := Prod.mk.inj (Option.some.inj h)
    exact iff_of_false (fun heq => nomatch heq) (Nat.succ_ne_zero _)

/-- A give that succeeds counts one up. -/
theorem count_of_give {sems sems' : Sems τ} {a : Nat} {t : τ} (h : give sems a t = some sems') :
    ∃ n max, n < max ∧ count sems a = some (n, max) ∧ count sems' a = some (n + 1, max) ∧
      ∀ b ≠ a, sems' b = sems b := by
  unfold give at h
  split at h
  · exact nomatch h
  · rename_i sem hsem
    split at h
    · rename_i hlt
      obtain rfl := Option.some.inj h
      refine ⟨sem.posts.length, sem.max, hlt, count_of_eq hsem, ?_, ?_⟩
      · rw [count_of_eq (Function.update_self ..), List.length_append]
        rfl
      · exact fun b hb => Function.update_of_ne hb _ _
    · exact nomatch h

/-- A give fails if and only if the semaphore is full. -/
theorem give_eq_none {sems : Sems τ} {a n max : Nat} (t : τ)
    (h : count sems a = some (n, max)) : give sems a t = none ↔ ¬n < max := by
  unfold give count at *
  split
  · rename_i hsem
    rw [hsem] at h
    exact nomatch h
  · rename_i sem hsem
    rw [hsem] at h
    obtain ⟨rfl, rfl⟩ := Prod.mk.inj (Option.some.inj h)
    split
    · rename_i hlt
      exact iff_of_false (fun heq => nomatch heq) (not_not.mpr hlt)
    · rename_i hfull
      exact iff_of_true rfl hfull

end Counts

section Posts

theorem posted_of_take {sems sems' : Sems τ} {a : Nat} {t : τ}
    (h : take sems a = some (t, sems')) : Posted sems a t := by
  unfold take at h
  split at h
  · exact nomatch h
  · exact nomatch h
  · rename_i hsem
    obtain ⟨rfl, -⟩ := h
    exact ⟨_, hsem, List.mem_cons_self⟩

/-- A post behind a give is an old one, or the one that was given. -/
theorem posted_of_give {sems sems' : Sems τ} {a : Nat} {t : τ} (h : give sems a t = some sems')
    {b : Nat} {t' : τ} (hpost : Posted sems' b t') : Posted sems b t' ∨ (t' = t ∧ Open sems a) := by
  unfold give at h
  split at h
  · exact nomatch h
  · rename_i sem hsem
    split at h
    · rename_i hlt
      obtain rfl := Option.some.inj h
      obtain ⟨sem', hsem', ht'⟩ := hpost
      rw [Function.update_apply] at hsem'
      split at hsem'
      · rename_i heq
        obtain rfl := Option.some.inj hsem'
        rcases List.mem_append.mp ht' with ht' | ht'
        · exact .inl ⟨sem, heq ▸ hsem, ht'⟩
        · exact .inr ⟨List.mem_singleton.mp ht', sem, hsem, hlt⟩
      · exact .inl ⟨sem', hsem', ht'⟩
    · exact nomatch h

/-- A new semaphore has no post. -/
theorem posted_of_create {sems : Sems τ} {a max b : Nat} {t : τ}
    (h : Posted (create sems a max) b t) : Posted sems b t := by
  obtain ⟨sem, hsem, ht⟩ := h
  by_cases hb : b = a
  · unfold create at hsem
    rw [hb, Function.update_self] at hsem
    obtain rfl := Option.some.inj hsem
    exact nomatch ht
  · rw [create_of_ne _ _ hb] at hsem
    exact ⟨sem, hsem, ht⟩

end Posts

section Tags

variable (f : τ → σ)

theorem isSome_retag (sems : Sems τ) (a : Nat) : (retag f sems a).isSome = (sems a).isSome :=
  Option.isSome_map

theorem retag_update (sems : Sems τ) (a : Nat) (sem : Sem τ) :
    retag f (Function.update sems a (some sem)) =
      Function.update (retag f sems) a (some ⟨sem.max, sem.posts.map f⟩) := by
  funext b
  unfold retag
  rw [Function.update_apply, Function.update_apply]
  split
  · rfl
  · rfl

theorem retag_create (sems : Sems τ) (a max : Nat) :
    retag f (create sems a max) = create (retag f sems) a max := retag_update f sems a _

theorem retag_delete (sems : Sems τ) (a : Nat) :
    retag f (delete sems a) = delete (retag f sems) a := by
  funext b
  unfold retag delete
  rw [Function.update_apply, Function.update_apply]
  split
  · rfl
  · rfl

theorem take_retag (sems : Sems τ) (a : Nat) :
    take (retag f sems) a = (take sems a).map fun r => (f r.1, retag f r.2) := by
  unfold take
  cases hsem : sems a with
  | none =>
    have hretag : retag f sems a = none := congrArg _ hsem
    rw [hretag]
    rfl
  | some sem =>
    obtain ⟨max, posts⟩ := sem
    have hretag : retag f sems a = some ⟨max, posts.map f⟩ := congrArg _ hsem
    rw [hretag]
    cases posts with
    | nil => rfl
    | cons t posts =>
      simp only [List.map_cons, Option.map_some, retag_update]

theorem give_retag (sems : Sems τ) (a : Nat) (t : τ) :
    give (retag f sems) a (f t) = (give sems a t).map (retag f) := by
  unfold give
  cases hsem : sems a with
  | none =>
    have hretag : retag f sems a = none := congrArg _ hsem
    rw [hretag]
    rfl
  | some sem =>
    have hretag : retag f sems a = some ⟨sem.max, sem.posts.map f⟩ := congrArg _ hsem
    rw [hretag]
    simp only [List.length_map]
    split
    · rw [Option.map_some, retag_update, List.map_append]
      rfl
    · rfl

end Tags

end Semaphore
