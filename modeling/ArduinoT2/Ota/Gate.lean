import ArduinoT2.Ota.Safety

/-
  When the end of a session commits.

  The end looks at the checksum alone. `gate_iff`: the ends of a run commit complete images only,
  exactly when each of them finds a complete image, or an incomplete one whose sum is wrong.
  `gate_open`: a session without a header has the sum of no bytes and is committed.
-/

namespace ArduinoT2.Ota

open ArduinoT2.Vendor ArduinoT2.Adapter StepSys

/-- An end that reports success ends a session that has received a header and the whole image. -/
def Gate (s : Ota) : OtaCall → Prop
  | .endNotify reset => (tklOtaEndNotify s reset).1 = oprtOk →
      ∃ p, s.ugProc = some p ∧ p.stat = .finish ∧ p.fileHeader.binLen ≤ p.recvDataCnt
  | _ => True

/-- An end comes upon no session, or has no buffer, or the image is complete, or it is not and
    the stored bytes do not add up. -/
def EndsGuarded (s : Ota) : OtaCall → Prop
  | .endNotify _ => ∀ p, s.ugProc = some p → s.malloc.1 = true →
      p.stat = .finish ∨ p.stat = .recvImgData ∧ ¬ SumMatches s p
  | _ => True

theorem gate_endNotify {s : Ota} (hv : Valid s) (reset : Bool) :
    Gate s (.endNotify reset) ↔ EndsGuarded s (.endNotify reset) := by
  simp only [Gate, EndsGuarded]
  rcases tklOtaEndNotify_cases reset (fun p hp => (hv p hp).fits) with ⟨hnone, heq⟩ |
    ⟨p, hp, ⟨hm, heq⟩ | ⟨_, hsum, hrc, _⟩ | ⟨hm, hsum, hrc, _⟩⟩
  · rw [heq, hnone]
    exact ⟨fun _ => nofun, fun _ hrc => absurd hrc (by decide : oprtOsAdapterInvalidParm ≠ oprtOk)⟩
  · rw [heq, hm]
    exact ⟨fun _ _ _ => nofun, fun _ hrc => absurd hrc (by decide : oprtMallocFailed ≠ oprtOk)⟩
  · rw [hrc]
    refine ⟨fun _ q hq _ => ?_, fun _ hrc => absurd hrc (by decide)⟩
    obtain rfl := Option.some.inj (hp.symm.trans hq)
    cases hst : p.stat with
    | recvHeader =>
      rw [((hv p hp).header hst).1] at hsum
      exact absurd (sumMatches_zero s) hsum
    | recvImgData => exact .inr ⟨rfl, hsum⟩
    | finish => exact .inl rfl
  · constructor
    · intro h q hq _
      obtain ⟨p', hp', hfin, _⟩ := h hrc
      obtain rfl := Option.some.inj (hq.symm.trans hp')
      exact .inl hfin
    · intro h _
      rcases h p hp hm with hfin | ⟨_, hno⟩
      · exact ⟨p, hp, hfin, ((hv p hp).finish hfin).1⟩
      · exact absurd hsum hno

/-- The ends of a run from the boot that report success end complete images, exactly when every
    end meets the condition. -/
theorem gate_iff (flash : FlashDev) (mallocs : List Bool) (writes : List WriteFate)
    (lowMem : Nor.Mem → Block) (cs : List OtaCall) :
    Along otaStep Gate (Ota.boot flash mallocs writes lowMem) cs ↔
      Along otaStep EndsGuarded (Ota.boot flash mallocs writes lowMem) cs :=
  along_congr (I := Valid) (fun _ c hv _ => otaStep_valid hv c)
    (fun _ c hv => by
      cases c with
      | endNotify reset => exact gate_endNotify hv reset
      | _ => exact Iff.rfl)
    (valid_boot flash mallocs writes lowMem) cs

/-- A session that is ended right behind its start is committed. -/
theorem gate_open : ¬ Along otaStep Gate (Ota.boot blankFlash [] [] fun _ => erasedBlock)
    [.startNotify 1, .endNotify false] := by
  rintro ⟨-, hend, -⟩
  have hv := otaStep_valid (valid_boot blankFlash [] [] fun _ => erasedBlock) (.startNotify 1)
  rcases (gate_endNotify hv false).mp hend .zero rfl rfl with hst | ⟨hst, _⟩
  · cases hst
  · cases hst

end ArduinoT2.Ota
