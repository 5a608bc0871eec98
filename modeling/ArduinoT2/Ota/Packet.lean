import ArduinoT2.Ota.Guarded

/-
  What one packet does.

  `blockLoop_ends` is the rule for the loop over the blocks: what every block keeps, the loop
  keeps. `blockLoop_step` describes the loop, whatever fails in it: it ends behind a whole number
  of blocks, the counters have advanced by their bytes, and its flash operations are those of the
  blocks passed. `recvImgData_step` puts the bytes left over behind it. The `_ok` lemmas say what
  happens when nothing fails.
-/

namespace ArduinoT2.Ota

open ArduinoT2.Vendor ArduinoT2.Adapter

/-! ## Surroundings -/

section Surroundings

variable (s : Ota)

@[simp] theorem flash_malloc : s.malloc.2.flash = s.flash := by
  unfold Ota.malloc; split <;> rfl
@[simp] theorem ugProc_malloc : s.malloc.2.ugProc = s.ugProc := by
  unfold Ota.malloc; split <;> rfl
@[simp] theorem frist_malloc : s.malloc.2.fristBlockDatabuf = s.fristBlockDatabuf := by
  unfold Ota.malloc; split <;> rfl
@[simp] theorem firstBlock_malloc : s.malloc.2.firstBlock = s.firstBlock := by
  unfold Ota.malloc; split <;> rfl
@[simp] theorem writes_malloc : s.malloc.2.writes = s.writes := by
  unfold Ota.malloc; split <;> rfl
@[simp] theorem lowMem_malloc : s.malloc.2.lowMem = s.lowMem := by
  unfold Ota.malloc; split <;> rfl

@[simp] theorem flash_freeIf (b : Bool) : (s.freeIf b).flash = s.flash := by cases b <;> rfl
@[simp] theorem ugProc_freeIf (b : Bool) : (s.freeIf b).ugProc = s.ugProc := by cases b <;> rfl
@[simp] theorem frist_freeIf (b : Bool) :
    (s.freeIf b).fristBlockDatabuf = s.fristBlockDatabuf := by cases b <;> rfl
@[simp] theorem firstBlock_freeIf (b : Bool) : (s.freeIf b).firstBlock = s.firstBlock := by
  cases b <;> rfl
@[simp] theorem mallocs_freeIf (b : Bool) : (s.freeIf b).mallocs = s.mallocs := by
  cases b <;> rfl
@[simp] theorem writes_freeIf (b : Bool) : (s.freeIf b).writes = s.writes := by cases b <;> rfl
@[simp] theorem lowMem_freeIf (b : Bool) : (s.freeIf b).lowMem = s.lowMem := by cases b <;> rfl

theorem malloc_nil {s : Ota} (h : s.mallocs = []) :
    s.malloc = (true, { s with blocks := s.blocks + 1 }) := by
  unfold Ota.malloc
  rw [h]

end Surroundings

/-! ## One block -/

/-- The operations that a block at `addr` may issue; those of the first block are blank. -/
structure BlockOp (addr : UInt32) (first : Bool) (o : Nor.Op) : Prop where
  foot : WriteFoot addr.toNat rtImgWrUnit o
  blank : first = true → addr.toNat % 32 = 0 → Blank o

/-- What a block changes, whether or not it fails. -/
structure BlockStep (s : Ota) (p : UgProc) (s' : Ota) : Prop where
  guarded : Guarded (BlockOp p.flashAddr s.firstBlock) s.flash s'.flash
  ugProc : s'.ugProc = s.ugProc
  lowMem : s'.lowMem = s.lowMem
  writes : s'.writes <:+ s.writes

theorem guarded_dummy (s : Ota) (addr : UInt32) : Guarded (BlockOp addr true) s.flash
    (s.guardedWrite addr (List.replicate rtImgWrUnit 0xFF)).2.flash := by
  refine (guardedWrite_guarded s addr _).mono fun o ho => ⟨?_, fun _ haddr => ?_⟩
  · have := ho.1
    rwa [List.length_replicate] at this
  · exact ho.2 16 haddr rfl

theorem guarded_block (s : Ota) (addr : UInt32) (blk : Block) : Guarded (BlockOp addr false)
    s.flash (s.guardedWrite addr blk.bytes).2.flash := by
  refine (guardedWrite_guarded s addr _).mono fun o ho => ⟨?_, fun h => by cases h⟩
  have := ho.1
  rwa [blk.len] at this

/-- Saving the first block changes the buffer and the heap only. -/
theorem saveFirstBlock_cases (s : Ota) (blk : Block) :
    (saveFirstBlock s blk = .error s.malloc.2 ∧ s.malloc.1 = false) ∨
    (∃ s', saveFirstBlock s blk = .ok s' ∧ s'.fristBlockDatabuf = some blk ∧
      s'.flash = s.flash ∧ s'.ugProc = s.ugProc ∧ s'.firstBlock = s.firstBlock ∧
      s'.lowMem = s.lowMem ∧ s'.writes = s.writes ∧ (s.mallocs = [] → s'.mallocs = [])) := by
  unfold saveFirstBlock
  split
  · exact .inr ⟨_, rfl, rfl, rfl, rfl, rfl, rfl, rfl, id⟩
  · dsimp only
    split
    · refine .inr ⟨_, rfl, rfl, by simp, by simp, by simp, by simp, by simp, fun h => ?_⟩
      rw [malloc_nil h]
      exact h
    · rename_i h
      exact .inl ⟨rfl, by simpa using h⟩

/-- A block fails, or it is written and is no longer the first one. -/
theorem writeBlock_cases (s : Ota) (p : UgProc) (buf : Bool) (blk : Block) :
    (∃ s', writeBlock s p buf blk = .error s' ∧ BlockStep s p s' ∧
      s'.firstBlock = s.firstBlock ∧
      (s.firstBlock = false → s'.fristBlockDatabuf = s.fristBlockDatabuf) ∧
      (s.firstBlock = true ∨ SomeFail s)) ∨
    (∃ s' buf', writeBlock s p buf blk = .ok (s', buf') ∧ BlockStep s p s' ∧
      s'.firstBlock = false ∧
      s'.fristBlockDatabuf = if s.firstBlock then some blk else s.fristBlockDatabuf) := by
  unfold writeBlock
  cases hfirst : s.firstBlock with
  | true =>
    rw [if_pos rfl]
    rcases saveFirstBlock_cases s blk with ⟨hsave, _⟩ |
      ⟨s₁, hsave, hbuf, hfl, hug, hfb, hlow, hwr, -⟩
    · rw [hsave]
      exact .inl ⟨_, rfl, ⟨by simpa using Guarded.refl _ _, by simp, by simp, by simp⟩,
        by simp [hfirst], nofun, .inl rfl⟩
    · rw [hsave]
      dsimp only
      have hg := guarded_dummy s₁.malloc.2 p.flashAddr
      rw [flash_malloc, hfl, ← hfirst] at hg
      split
      · split
        · exact .inl ⟨_, rfl, ⟨hg, by simp [Ota.free, hug], by simp [Ota.free, hlow],
            by simpa [Ota.free, hwr] using List.tail_suffix _⟩, by simp [Ota.free, hfb, hfirst],
            nofun, .inl rfl⟩
        · exact .inr ⟨_, _, rfl, ⟨hg, by simp [hug], by simp [hlow],
            by simpa [hwr] using List.tail_suffix _⟩, rfl, by simp [hbuf]⟩
      · refine .inl ⟨_, rfl, ⟨?_, by simp [hug], by simp [hlow], by simp [hwr]⟩,
          by simp [hfb, hfirst], nofun, .inl rfl⟩
        rw [flash_malloc, hfl]
        exact .refl _ _
  | false =>
    rw [if_neg Bool.false_ne_true]
    have hg := guarded_block s p.flashAddr blk
    rw [← hfirst] at hg
    dsimp only
    have htail : (s.guardedWrite p.flashAddr blk.bytes).2.writes <:+ s.writes := by
      rw [writes_guardedWrite]
      exact List.tail_suffix _
    split
    · rename_i hrc
      exact .inl ⟨_, rfl, ⟨by simpa using hg, by simp, by simp, by simpa using htail⟩,
        by simp [hfirst], by simp, .inr (someFail_of_fate (fate_of_guardedWrite hrc))⟩
    · exact .inr ⟨_, _, rfl, ⟨hg, by simp, by simp, htail⟩, by simp [hfirst], by simp⟩

/-- The first block is due, and the buffer for it or the one for the dummy data cannot be
    allocated. -/
def FirstFails (s : Ota) : Prop :=
  s.firstBlock = true ∧
    (s.malloc.1 = false ∨ s.fristBlockDatabuf = none ∧ s.malloc.2.malloc.1 = false)

theorem malloc_withFrist (s : Ota) (b : Option Block) :
    ({ s with fristBlockDatabuf := b } : Ota).malloc.1 = s.malloc.1 := by
  unfold Ota.malloc
  cases s.mallocs with
  | nil => rfl
  | cons b bs => cases b <;> rfl

/-- Then nothing is written. -/
theorem writeBlock_of_firstFails {s : Ota} (h : FirstFails s) (p : UgProc) (buf : Bool)
    (blk : Block) : ∃ s', writeBlock s p buf blk = .error s' ∧ s'.flash = s.flash ∧
      s'.ugProc = s.ugProc := by
  obtain ⟨hfirst, hfail⟩ := h
  unfold writeBlock saveFirstBlock
  rw [if_pos hfirst]
  cases hfr : s.fristBlockDatabuf with
  | some b =>
    have hm : s.malloc.1 = false := hfail.resolve_right fun h => by rw [hfr] at h; cases h.1
    have hno := (malloc_withFrist s (some blk)).trans hm
    exact ⟨_, if_neg (Bool.eq_false_iff.mp hno), by simp, by simp⟩
  | none =>
    dsimp only
    cases hm : s.malloc.1 with
    | false => exact ⟨_, rfl, by simp, by simp⟩
    | true =>
      have hno := (malloc_withFrist s.malloc.2 (some blk)).trans
        (hfail.resolve_left (by simp [hm])).2
      exact ⟨_, if_neg (Bool.eq_false_iff.mp hno), by simp, by simp⟩

/-! ## Rules -/

/-- What holds of an outcome: `E` of an error, `Q` of a result. -/
def Ends {ε α : Type} (E : ε → Prop) (Q : α → Prop) : Except ε α → Prop
  | .error e => E e
  | .ok a => Q a

section Rules

variable {ε α : Type} {E E' : ε → Prop} {Q Q' : α → Prop} {r : Except ε α}

theorem Ends.error {e : ε} (h : Ends E Q r) (heq : r = .error e) : E e := by
  rw [heq] at h
  exact h

theorem Ends.ok {a : α} (h : Ends E Q r) (heq : r = .ok a) : Q a := by
  rw [heq] at h
  exact h

theorem Ends.imp (h : Ends E Q r) (he : ∀ e, E e → E' e) (hq : ∀ a, Q a → Q' a) :
    Ends E' Q' r := by
  cases r with
  | error e => exact he e h
  | ok a => exact hq a h

theorem Ends.and (h : Ends E Q r) (h' : Ends E' Q' r) :
    Ends (fun e => E e ∧ E' e) (fun a => Q a ∧ Q' a) r := by
  cases r with
  | error e => exact ⟨h, h'⟩
  | ok a => exact ⟨h, h'⟩

end Rules

/-- What holds behind each return of a block holds behind the block. -/
theorem writeBlock_ends {E : Ota → Prop} {Q : Ota × Bool → Prop} {s : Ota} {p : UgProc}
    {buf : Bool} {blk : Block}
    (hfirst : s.firstBlock = true → Ends E (fun s₁ => (s₁.malloc.1 = false → E s₁.malloc.2) ∧
      (s₁.malloc.1 = true →
        let w := s₁.malloc.2.guardedWrite p.flashAddr (List.replicate rtImgWrUnit 0xFF)
        (w.1 = oprtOk → Q ({ w.2 with firstBlock := false }, true)) ∧
          (w.1 ≠ oprtOk → E w.2.free))) (saveFirstBlock s blk))
    (hother : s.firstBlock = false →
      let w := s.guardedWrite p.flashAddr blk.bytes
      (w.1 = oprtOk → Q (w.2, buf)) ∧ (w.1 ≠ oprtOk → E (w.2.freeIf buf))) :
    Ends E Q (writeBlock s p buf blk) := by
  unfold writeBlock
  cases hf : s.firstBlock with
  | true =>
    rw [if_pos rfl]
    have hsave := hfirst hf
    cases hs : saveFirstBlock s blk with
    | error s₁ => exact hsave.error hs
    | ok s₁ =>
      obtain ⟨hnone, hsome⟩ := hsave.ok hs
      dsimp only
      split
      · rename_i hm
        obtain ⟨hok, herr⟩ := hsome hm
        split
        · rename_i hrc
          exact herr hrc
        · rename_i hrc
          exact hok (not_not.mp hrc)
      · rename_i hm
        exact hnone (Bool.eq_false_iff.mpr hm)
  | false =>
    rw [if_neg Bool.false_ne_true]
    obtain ⟨hok, herr⟩ := hother hf
    dsimp only
    split
    · rename_i hrc
      exact herr hrc
    · rename_i hrc
      exact hok (not_not.mp hrc)

theorem writeBlock_step (s : Ota) (p : UgProc) (buf : Bool) (blk : Block) :
    Ends (fun s' => BlockStep s p s' ∧ s'.firstBlock = s.firstBlock)
      (fun r => BlockStep s p r.1 ∧ r.1.firstBlock = false) (writeBlock s p buf blk) := by
  rcases writeBlock_cases s p buf blk with ⟨s₁, hw, hb, hfirst, -⟩ | ⟨s₁, buf₁, hw, hb, hfirst, -⟩
  · rw [hw]
    exact ⟨hb, hfirst⟩
  · rw [hw]
    exact ⟨hb, hfirst⟩

/-- What every block keeps the loop keeps, up to the block that fails or to less than one. -/
theorem blockLoop_ends {I : Ota → UgProc → Bool → List UInt8 → Prop}
    {E : Ota → List UInt8 → Prop}
    (hblock : ∀ s p buf (blk : Block) rest, I s p buf (blk.bytes ++ rest) →
      Ends (fun s' => E s' (blk.bytes ++ rest))
        (fun r => I { r.1 with ugProc := some (p.advance rtImgWrUnit) } (p.advance rtImgWrUnit)
          r.2 rest) (writeBlock s p buf blk))
    (s : Ota) (p : UgProc) (buf : Bool) (rest : List UInt8) (h : I s p buf rest) :
    Ends (fun r => E r.1 r.2)
      (fun r => I r.1 r.2.1 r.2.2.1 r.2.2.2 ∧ r.2.2.2.length < rtImgWrUnit)
      (blockLoop s p buf rest) := by
  induction hn : rest.length using Nat.strong_induction_on generalizing s p buf rest with
  | _ n ih =>
    subst hn
    rw [blockLoop]
    split
    · rename_i hlen
      have hdrop : (rest.drop rtImgWrUnit).length < rest.length := by
        rw [List.length_drop]
        exact Nat.sub_lt (Nat.lt_of_lt_of_le (by decide) hlen) (by decide)
      have hsplit : rest.take rtImgWrUnit ++ rest.drop rtImgWrUnit = rest :=
        List.take_append_drop _ _
      have hends := hblock s p buf ⟨rest.take rtImgWrUnit, List.length_take_of_le hlen⟩
        (rest.drop rtImgWrUnit) (by rw [hsplit]; exact h)
      rw [hsplit] at hends
      cases hw : writeBlock s p buf ⟨rest.take rtImgWrUnit, List.length_take_of_le hlen⟩ with
      | error s₁ => exact hends.error hw
      | ok r => exact ih _ hdrop _ _ _ _ (hends.ok hw) rfl
    · rename_i hlen
      exact ⟨h, Nat.not_le.mp hlen⟩

/-! ## The loop over the blocks -/

@[simp] theorem advance_zero (p : UgProc) : p.advance 0 = p := by
  cases p
  simp [UgProc.advance]

theorem advance_advance (p : UgProc) (j k : Nat) : (p.advance j).advance k = p.advance (j + k) := by
  simp only [UgProc.advance, UInt32.ofNat_add, UInt32.add_assoc]

theorem flashAddr_advance (p : UgProc) (j : Nat) :
    (p.advance j).flashAddr = p.flashAddr + UInt32.ofNat j := rfl

theorem recvDataCnt_advance (p : UgProc) (j : Nat) :
    (p.advance j).recvDataCnt = p.recvDataCnt + UInt32.ofNat j := rfl

/-- The operations that the blocks among `n` bytes may issue. -/
def BlocksOp (p : UgProc) (first : Bool) (n : Nat) (o : Nor.Op) : Prop :=
  ∃ j, j + rtImgWrUnit ≤ n ∧ rtImgWrUnit ∣ j ∧
    BlockOp (p.flashAddr + UInt32.ofNat j) (first && j == 0) o

/-- The first `k` of `rest` have been passed in blocks, the first of them, if any, having
    been saved when it was the first of the image. -/
structure Passed (s : Ota) (rest : List UInt8) (k : Nat) (s' : Ota) : Prop where
  le : k ≤ rest.length
  dvd : rtImgWrUnit ∣ k
  lowMem : s'.lowMem = s.lowMem
  writes : s'.writes <:+ s.writes
  first : s'.firstBlock = (s.firstBlock && k == 0)
  frist : if s.firstBlock then 0 < k → ∃ blk : Block, blk.bytes = rest.take rtImgWrUnit ∧
    s'.fristBlockDatabuf = some blk else s'.fristBlockDatabuf = s.fristBlockDatabuf

theorem Passed.refl (s : Ota) (rest : List UInt8) : Passed s rest 0 s := by
  refine ⟨Nat.zero_le _, Nat.dvd_zero _, rfl, List.suffix_refl _, by simp, ?_⟩
  split
  · exact fun h0 => absurd h0 (Nat.lt_irrefl 0)
  · rfl

theorem Passed.congr {s s₁ s' : Ota} {rest : List UInt8} {k : Nat} (h : Passed s rest k s₁)
    (hlow : s'.lowMem = s₁.lowMem) (hwrites : s'.writes <:+ s₁.writes)
    (hfirst : s'.firstBlock = s₁.firstBlock)
    (hfrist : s'.fristBlockDatabuf = s₁.fristBlockDatabuf) : Passed s rest k s' where
  le := h.le
  dvd := h.dvd
  lowMem := hlow.trans h.lowMem
  writes := hwrites.trans h.writes
  first := hfirst.trans h.first
  frist := by
    rw [hfrist]
    exact h.frist

/-- What the loop changes on its way over the first `k` of `rest`, whether or not it fails
    there. -/
structure LoopStep (s : Ota) (p : UgProc) (rest : List UInt8) (k : Nat) (s' : Ota) : Prop
    extends Passed s rest k s' where
  guarded : Guarded (BlocksOp p s.firstBlock rest.length) s.flash s'.flash
  ugProc : s.ugProc = some p → s'.ugProc = some (p.advance k)

theorem blocksOp_block {p : UgProc} {first : Bool} {n : Nat} {o : Nor.Op} (hn : rtImgWrUnit ≤ n)
    (h : BlockOp p.flashAddr first o) : BlocksOp p first n o := by
  refine ⟨0, by omega, Nat.dvd_zero _, ?_⟩
  simpa using h

theorem blocksOp_advance {p : UgProc} {first : Bool} {n : Nat} {o : Nor.Op}
    (h : BlocksOp (p.advance rtImgWrUnit) false (n - rtImgWrUnit) o) : BlocksOp p first n o := by
  obtain ⟨j, hj, hdvd, hop⟩ := h
  have hpos : 0 < rtImgWrUnit := by decide
  refine ⟨rtImgWrUnit + j, by omega, Nat.dvd_add (Nat.dvd_refl _) hdvd, ?_⟩
  rw [flashAddr_advance, UInt32.add_assoc, ← UInt32.ofNat_add] at hop
  rw [show (first && rtImgWrUnit + j == 0) = false by simp]
  simpa using hop

/-- A block that fails stops the loop in front of it. -/
theorem LoopStep.stop {s s₁ : Ota} {p : UgProc} {rest : List UInt8} (h : rtImgWrUnit ≤ rest.length)
    (hb : BlockStep s p s₁) (hfirst : s₁.firstBlock = s.firstBlock)
    (hfrist : s.firstBlock = false → s₁.fristBlockDatabuf = s.fristBlockDatabuf) :
    LoopStep s p rest 0 s₁ := by
  refine ⟨⟨Nat.zero_le _, Nat.dvd_zero _, hb.lowMem, hb.writes, by simp [hfirst], ?_⟩,
    hb.guarded.mono fun o => blocksOp_block h, ?_⟩
  · cases hf : s.firstBlock with
    | true => exact fun h0 => absurd h0 (Nat.lt_irrefl 0)
    | false => exact hfrist hf
  · rw [advance_zero, hb.ugProc]
    exact id

/-- The loop behind a block that is written goes on without a first block. -/
theorem LoopStep.cons {s s₁ s₂ : Ota} {p : UgProc} {rest : List UInt8} {k : Nat} {blk : Block}
    (h : rtImgWrUnit ≤ rest.length) (hblk : blk.bytes = rest.take rtImgWrUnit)
    (hb : BlockStep s p s₁) (hfirst : s₁.firstBlock = false)
    (hfrist : s₁.fristBlockDatabuf = if s.firstBlock then some blk else s.fristBlockDatabuf)
    (hl : LoopStep { s₁ with ugProc := some (p.advance rtImgWrUnit) } (p.advance rtImgWrUnit)
      (rest.drop rtImgWrUnit) k s₂) : LoopStep s p rest (rtImgWrUnit + k) s₂ := by
  have hpos : 0 < rtImgWrUnit := by decide
  obtain ⟨⟨hle, hdvd, hlow, hwrites, hfirst₂, hfrist₂⟩, hgd, hug⟩ := hl
  simp only [hfirst, Bool.false_and, Bool.false_eq_true, if_false] at hgd hfirst₂ hfrist₂
  rw [List.length_drop] at hle hgd
  refine ⟨⟨by omega, Nat.dvd_add (Nat.dvd_refl _) hdvd, hlow.trans hb.lowMem,
    hwrites.trans hb.writes, ?_, ?_⟩, ?_, ?_⟩
  · rw [hfirst₂]
    simp
  · rw [hfrist₂, hfrist]
    split
    · exact fun _ => ⟨blk, hblk, rfl⟩
    · rfl
  · exact (hb.guarded.mono fun o => blocksOp_block h).trans (hgd.mono fun o => blocksOp_advance)
  · intro _
    rw [hug rfl, advance_advance]

/-- The loop stops behind `k` bytes, at a failure or because less than a block is left. What
    fails is a write, or an allocation for the first block. -/
theorem blockLoop_step (s : Ota) (p : UgProc) (buf : Bool) (rest : List UInt8) :
    ∃ k s', LoopStep s p rest k s' ∧
      (blockLoop s p buf rest = .error (s', rest.drop k) ∧
          (k = 0 ∧ s.firstBlock = true ∨ SomeFail s) ∨
        rest.length < k + rtImgWrUnit ∧
          ∃ buf', blockLoop s p buf rest = .ok (s', p.advance k, buf', rest.drop k)) := by
  induction hn : rest.length using Nat.strong_induction_on generalizing s p buf rest with
  | _ n ih =>
    subst hn
    rw [blockLoop]
    split
    · rename_i h
      have hpos : 0 < rtImgWrUnit := by decide
      have hlen : (rest.drop rtImgWrUnit).length = rest.length - rtImgWrUnit := List.length_drop
      rcases writeBlock_cases s p buf ⟨rest.take rtImgWrUnit, List.length_take_of_le h⟩ with
        ⟨s₁, hw, hb, hfb, hfr, hwhy⟩ | ⟨s₁, buf₁, hw, hb, hfb, hfr⟩
      · rw [hw]
        exact ⟨0, s₁, .stop h hb hfb hfr, .inl ⟨rfl, hwhy.imp_left fun hf => ⟨rfl, hf⟩⟩⟩
      · rw [hw]
        obtain ⟨k, s₂, hl, hend⟩ := ih _ (by omega)
          { s₁ with ugProc := some (p.advance rtImgWrUnit) } (p.advance rtImgWrUnit) buf₁
          (rest.drop rtImgWrUnit) hlen
        refine ⟨rtImgWrUnit + k, s₂, hl.cons h rfl hb hfb hfr, ?_⟩
        rw [← List.drop_drop, ← advance_advance]
        refine hend.imp (fun ⟨herr, hwhy⟩ => ⟨herr, .inr ?_⟩) fun ⟨hlt, hok⟩ => ⟨by omega, hok⟩
        -- behind the first block only a write can have failed
        rcases hwhy with ⟨_, hf⟩ | hfail
        · rw [hfb] at hf
          cases hf
        · exact hfail.of_suffix hb.writes
    · rename_i h
      exact ⟨0, s, ⟨.refl s rest, .refl _ _, by simp⟩, .inr ⟨by omega, buf, by simp⟩⟩

/-! ## The bytes left over -/

/-- The bytes of the packet behind its first `k` are written as the last of the image. -/
def TakesTail (p : UgProc) (n k : Nat) : Prop :=
  p.fileHeader.binLen - UInt32.ofNat rtImgWrUnit < (p.advance k).recvDataCnt ∧
    (p.fileHeader.binLen - (p.advance k).recvDataCnt).toNat ≤ n - k

/-- The operations that a packet of `n` bytes may issue in `UGS_RECV_IMG_DATA`. -/
inductive PacketOp (p : UgProc) (first : Bool) (n : Nat) (o : Nor.Op) : Prop where
  | blocks (h : BlocksOp p first n o)
  | tail (k : Nat) (hk : k ≤ n) (hdvd : rtImgWrUnit ∣ k) (hlt : n < k + rtImgWrUnit)
      (htail : TakesTail p n k) (hfoot : WriteFoot (p.advance k).flashAddr.toNat (n - k) o)

/-- A session that has all its bytes, behind `m` more of them. -/
def finished (p : UgProc) (m : Nat) : UgProc := { p.advance m with stat := .finish }

/-- What a packet changes in `UGS_RECV_IMG_DATA`: `k` bytes of it are passed in blocks, and
    the session goes on behind them or, perhaps behind some bytes more, is finished. It goes on
    with all bytes of the image only when a write has failed. -/
structure ImgStep (s : Ota) (p : UgProc) (data : List UInt8) (k : Nat) (s' : Ota) : Prop
    extends Passed s data k s' where
  guarded : Guarded (PacketOp p s.firstBlock data.length) s.flash s'.flash
  ugProc : s'.ugProc = some (p.advance k) ∧
      (k = 0 ∨ (p.advance k).recvDataCnt < p.fileHeader.binLen ∨ SomeFail s) ∨
    ∃ m, k ≤ m ∧ m ≤ data.length ∧ s'.ugProc = some (finished p m) ∧
      p.fileHeader.binLen ≤ (p.advance m).recvDataCnt ∧ data.length < k + rtImgWrUnit ∧
      (data.length < rtImgWrUnit →
        p.fileHeader.binLen - UInt32.ofNat rtImgWrUnit < p.recvDataCnt)

/-- A session whose last bytes are written has all its bytes, whether or not the counter wraps
    around. -/
theorem le_advance_of_takesTail {p : UgProc} {n k : Nat} (hn : n < k + rtImgWrUnit)
    (h : TakesTail p n k) :
    p.fileHeader.binLen ≤ (p.advance (k + (n - k))).recvDataCnt := by
  have hfits := p.fits
  obtain ⟨h1, h2⟩ := h
  rw [← advance_advance, recvDataCnt_advance]
  generalize (p.advance k).recvDataCnt = q at h1 h2 ⊢
  rw [UInt32.lt_iff_toNat_lt] at h1
  rw [UInt32.le_iff_toNat_le]
  have hq := q.toNat_lt
  simp only [UInt32.toNat_sub, UInt32.toNat_add, UInt32.toNat_ofNat', rtImgWrUnit, otaMaxBinSize]
    at *
  omega

/-- The bytes left over behind the `k` bytes of the loop. -/
theorem recvTail_step {s s₁ : Ota} {p : UgProc} {data : List UInt8} {k : Nat} (buf : Bool)
    (hl : LoopStep s p data k s₁) (hs : s.ugProc = some p) (hlt : data.length < k + rtImgWrUnit)
    (hwait : data.length < rtImgWrUnit →
      p.fileHeader.binLen - UInt32.ofNat rtImgWrUnit < p.recvDataCnt) :
    ImgStep s p data k (recvTail s₁ (p.advance k) buf (data.drop k)).2 := by
  have hgd := hl.guarded.mono fun o => PacketOp.blocks (p := p) (n := data.length)
  have hlen : (data.drop k).length = data.length - k := List.length_drop
  have hle := hl.le
  have hug := hl.ugProc hs
  unfold recvTail
  split
  · rename_i htail
    rw [hlen] at htail
    have htail : TakesTail p data.length k := htail
    have hw := guardedWrite_guarded s₁ (p.advance k).flashAddr (data.drop k)
    rw [hlen] at hw
    have hgd' := hgd.trans (hw.mono fun o ho => .tail k hle hl.dvd hlt htail ho.1)
    have hall := le_advance_of_takesTail hlt htail
    have htail :
        (s₁.guardedWrite (p.advance k).flashAddr (data.drop k)).2.writes <:+ s₁.writes := by
      rw [writes_guardedWrite]
      exact List.tail_suffix _
    dsimp only
    split
    · rename_i hrc
      refine ⟨hl.congr (by simp) (by simpa using htail) (by simp) (by simp), by simpa using hgd',
        .inl ⟨by simpa using hug, .inr (.inr ?_)⟩⟩
      exact (someFail_of_fate (fate_of_guardedWrite hrc)).of_suffix hl.writes
    · rw [hlen, advance_advance]
      unfold finishCheck
      rw [if_pos (show (p.advance _).fileHeader.binLen ≤ _ from hall)]
      exact ⟨hl.congr (by simp) (by simpa using htail) (by simp) (by simp), by simpa using hgd',
        .inr ⟨k + (data.length - k), by omega, by omega, by simp [finished], hall, hlt, hwait⟩⟩
  · unfold finishCheck
    split
    · rename_i hall
      exact ⟨hl.congr (by simp) (by simp) (by simp) (by simp), by simpa using hgd,
        .inr ⟨k, by omega, hle, by simp [finished], hall, hlt, hwait⟩⟩
    · rename_i hnot
      exact ⟨hl.toPassed, hgd, .inl ⟨hug, .inr (.inl (UInt32.not_le.mp hnot))⟩⟩

/-- The case `UGS_RECV_IMG_DATA`, whatever fails in it. -/
theorem recvImgData_step {s : Ota} {p : UgProc} (hs : s.ugProc = some p) (data : List UInt8) :
    ∃ k, ImgStep s p data k (recvImgData s p data).2 := by
  unfold recvImgData
  split
  · exact ⟨0, .refl s data, .refl _ _, .inl ⟨by rw [advance_zero, hs], .inl rfl⟩⟩
  · rename_i hwait
    obtain ⟨k, s₁, hl, hend⟩ := blockLoop_step s p false data
    refine ⟨k, ?_⟩
    rcases hend with ⟨hend, hwhy⟩ | ⟨hlt, buf, hend⟩
    · rw [hend]
      exact ⟨hl.toPassed, hl.guarded.mono fun o => .blocks,
        .inl ⟨hl.ugProc hs, hwhy.imp And.left .inr⟩⟩
    · rw [hend]
      refine recvTail_step buf hl hs hlt fun hn => ?_
      exact UInt32.not_le.mp fun hle => hwait ⟨hn, hle⟩

theorem recvImgData_of_firstFails {s : Ota} (h : FirstFails s) (p : UgProc) {data : List UInt8}
    (hlen : rtImgWrUnit ≤ data.length) : (recvImgData s p data).2.flash = s.flash ∧
      (recvImgData s p data).2.ugProc = s.ugProc := by
  obtain ⟨s', hw, hfl, hug⟩ := writeBlock_of_firstFails h p false
    ⟨data.take rtImgWrUnit, List.length_take_of_le hlen⟩
  unfold recvImgData
  rw [if_neg (by omega), blockLoop, dif_pos hlen, hw]
  exact ⟨hfl, hug⟩

end ArduinoT2.Ota
