import ArduinoT2.Adapter.NetIface
import ArduinoT2.Lib.StepSys

/-
  `net_ip_to_interface` (net.c) after a history of interfaces added and removed.

  The lookup reads the address of the station first, through a pointer that is NULL until the
  station has been added once, and then, unless the station is the answer, that of the access
  point in the same way. Removing an interface leaves its pointer (`netif_final`).

  `ip_lookup_iff`: the lookup is right, and dereferences no NULL, exactly when the station has
  been added and either is the answer or the access point has been added too.
-/

namespace ArduinoT2.Wifi

open ArduinoT2.Adapter StepSys

/-- A call that adds or removes an interface, or a change of the addresses of one: by its
    configuration or by lwIP. -/
inductive IfaceCall where
  | add (l : VifLookup) (fails : Option (UInt32 × UInt32))
  | remove (l : VifLookup) (fails : Bool) (left : UInt32 × UInt32)
  | address (iface : Iface) (ipaddr : UInt32) (x : Nat) (ip mask : UInt32)

/-- One call. -/
def ifaceStep (s : IfaceState) : IfaceCall → IfaceState × Unit
  | .add l fails => (netWlanAddNetif s l fails, ())
  | .remove l fails left => (netWlanRemoveNetif s l fails left, ())
  | .address iface ipaddr x ip mask =>
    ({ s with
      iface := Function.update s.iface iface { s.iface iface with ipaddr }
      xnetif := Function.update s.xnetif x { s.xnetif x with ipAddr := ip, netmask := mask } }, ())

/-- The call adds the interface `i`: it finds a VIF of that role. -/
def IfaceCall.Adds (i : Iface) : IfaceCall → Prop
  | .add l _ => ∃ vifIdx type x, l.entry = some (vifIdx, type) ∧ type.role = some (i, x)
  | _ => False

/-- The interface has been added at some time. -/
def Added (cs : List IfaceCall) (i : Iface) : Prop := ∃ c ∈ cs, c.Adds i

/-- The interface has an address that is not zero and in whose subnet `ipaddr` lies. -/
def InSubnet (s : IfaceState) (i : Iface) (ipaddr : UInt32) : Prop :=
  ∃ ip mask, netGetIfIp s i = some (ip, mask) ∧ ip ≠ 0 ∧ ip &&& mask = ipaddr &&& mask

/-- The lookup dereferences no NULL and returns the first interface with `ipaddr` in its subnet,
    or NULL. -/
def LookupRight (s : IfaceState) (ipaddr : UInt32) : Prop :=
  ∃ r, netIpToInterface s ipaddr = some r ∧
    (InSubnet s .mlan ipaddr → r = some .mlan) ∧
    (¬ InSubnet s .mlan ipaddr → InSubnet s .uap ipaddr → r = some .uap) ∧
    (¬ InSubnet s .mlan ipaddr → ¬ InSubnet s .uap ipaddr → r = none)

/-! ## The pointers -/

/-- A call sets the pointer of the interface that it adds, and no call sets one back. -/
theorem ifaceStep_netif (s : IfaceState) (c : IfaceCall) (i : Iface) :
    ((ifaceStep s c).1.iface i).netif.isSome ↔ (s.iface i).netif.isSome ∨ c.Adds i := by
  cases c with
  | add l fails =>
    unfold ifaceStep netWlanAddNetif IfaceCall.Adds
    dsimp only
    cases hentry : l.entry with
    | none => simp
    | some e =>
      obtain ⟨vifIdx, type⟩ := e
      dsimp only
      cases hrole : type.role with
      | none => simp [hrole]
      | some r =>
        obtain ⟨wlanIf, x⟩ := r
        dsimp only
        by_cases hi : i = wlanIf
        · rw [hi, Function.update_self]
          simp [hrole]
        · rw [Function.update_of_ne hi]
          simp [hrole, Ne.symm hi]
  | remove l fails left =>
    unfold ifaceStep netWlanRemoveNetif IfaceCall.Adds
    dsimp only
    cases l.entry with
    | none => simp
    | some e =>
      dsimp only
      cases s.priv e.1 with
      | none => simp
      | some x => simp
  | address iface ipaddr x ip mask =>
    unfold ifaceStep IfaceCall.Adds
    dsimp only
    by_cases hi : i = iface
    · rw [hi, Function.update_self]
      simp
    · rw [Function.update_of_ne hi]
      simp

/-- Behind a history the pointer of an interface is set when it was at the start or the interface
    has been added. -/
theorem netif_final (cs : List IfaceCall) (s : IfaceState) (i : Iface) :
    ((final ifaceStep s cs).iface i).netif.isSome ↔ (s.iface i).netif.isSome ∨ Added cs i := by
  induction cs generalizing s with
  | nil => simp [Added]
  | cons c cs ih =>
    rw [final_cons, ih, ifaceStep_netif]
    simp [Added, or_assoc]

/-! ## The lookup -/

theorem netGetIfIp_isSome (s : IfaceState) (i : Iface) :
    (netGetIfIp s i).isSome ↔ (s.iface i).netif.isSome := by
  unfold netGetIfIp
  cases (s.iface i).netif <;> simp

/-- The check of one interface, if its pointer is set. -/
theorem checkIfaceMask_eq {s : IfaceState} {i : Iface} (h : (s.iface i).netif.isSome)
    (ipaddr : UInt32) :
    ∃ ret, checkIfaceMask s i ipaddr = some ret ∧ (ret = 0 ↔ InSubnet s i ipaddr) := by
  rw [← netGetIfIp_isSome] at h
  obtain ⟨⟨ip, mask⟩, haddr⟩ := Option.isSome_iff_exists.mp h
  have hsub : InSubnet s i ipaddr ↔ ip ≠ 0 ∧ ip &&& mask = ipaddr &&& mask := by
    unfold InSubnet
    rw [haddr]
    constructor
    · intro h
      obtain ⟨ip', mask', heq, hin⟩ := h
      cases heq
      exact hin
    · intro h
      exact ⟨ip, mask, rfl, h⟩
  have hpos : ip > 0 ↔ ip ≠ 0 := by
    rw [gt_iff_lt, UInt32.lt_iff_toNat_lt, ne_eq, ← UInt32.toNat_inj]
    exact Nat.pos_iff_ne_zero
  unfold checkIfaceMask
  rw [haddr, hsub, ← hpos]
  dsimp only
  by_cases hip : ip > 0
  · by_cases hmask : ip &&& mask = ipaddr &&& mask
    · exact ⟨0, by rw [if_pos hip, if_pos hmask], by simp [hip, hmask]⟩
    · exact ⟨-1, by rw [if_pos hip, if_neg hmask], by simp [hmask]⟩
  · exact ⟨-1, by rw [if_neg hip], by simp [hip]⟩

theorem checkIfaceMask_null {s : IfaceState} {i : Iface} (h : ¬ (s.iface i).netif.isSome)
    (ipaddr : UInt32) : checkIfaceMask s i ipaddr = none := by
  rw [← netGetIfIp_isSome, Option.not_isSome_iff_eq_none] at h
  unfold checkIfaceMask
  rw [h]

/-- The lookup in a given state. -/
theorem lookupRight_iff (s : IfaceState) (ipaddr : UInt32) :
    LookupRight s ipaddr ↔ (s.iface .mlan).netif.isSome ∧
      (InSubnet s .mlan ipaddr ∨ (s.iface .uap).netif.isSome) := by
  by_cases hsta : (s.iface .mlan).netif.isSome
  · obtain ⟨ret, hret, hzero⟩ := checkIfaceMask_eq hsta ipaddr
    by_cases hin : InSubnet s .mlan ipaddr
    · refine iff_of_true ⟨some .mlan, ?_, fun _ => rfl, fun h => absurd hin h,
        fun h => absurd hin h⟩ ⟨hsta, .inl hin⟩
      unfold netIpToInterface
      rw [hret]
      exact if_pos (hzero.mpr hin)
    · by_cases huap : (s.iface .uap).netif.isSome
      · obtain ⟨ret', hret', hzero'⟩ := checkIfaceMask_eq huap ipaddr
        have hrun : netIpToInterface s ipaddr =
            if ret' = 0 then some (some .uap) else some none := by
          unfold netIpToInterface
          rw [hret, hret']
          exact if_neg (mt hzero.mp hin)
        by_cases hin' : InSubnet s .uap ipaddr
        · refine iff_of_true ⟨some .uap, ?_, fun h => absurd h hin, fun _ _ => rfl,
            fun _ h => absurd hin' h⟩ ⟨hsta, .inr huap⟩
          rw [hrun, if_pos (hzero'.mpr hin')]
        · refine iff_of_true ⟨none, ?_, fun h => absurd h hin, fun _ h => absurd h hin',
            fun _ _ => rfl⟩ ⟨hsta, .inr huap⟩
          rw [hrun, if_neg (mt hzero'.mp hin')]
      · refine iff_of_false (fun h => ?_) fun h => h.2.elim hin huap
        obtain ⟨r, hr, -⟩ := h
        unfold netIpToInterface at hr
        rw [hret, checkIfaceMask_null huap] at hr
        dsimp only at hr
        rw [if_neg (mt hzero.mp hin)] at hr
        cases hr
  · refine iff_of_false (fun h => ?_) fun h => hsta h.1
    obtain ⟨r, hr, -⟩ := h
    unfold netIpToInterface at hr
    rw [checkIfaceMask_null hsta] at hr
    cases hr

/-- Behind every history of calls from the start, and for every address, the lookup is right
    exactly when the station has been added and has the address in its subnet or the access point
    has been added as well. -/
theorem ip_lookup_iff (cs : List IfaceCall) (ipaddr : UInt32) :
    LookupRight (final ifaceStep .static cs) ipaddr ↔ Added cs .mlan ∧
      (InSubnet (final ifaceStep .static cs) .mlan ipaddr ∨ Added cs .uap) := by
  have hstart : ∀ i, ¬ (IfaceState.static.iface i).netif.isSome := fun i h => nomatch h
  rw [lookupRight_iff, netif_final, netif_final, or_iff_right (hstart .mlan),
    or_iff_right (hstart .uap)]

/-- The VIF of an access point. -/
def apVif : VifLookup := ⟨some [0xc8, 0x47, 0x8c, 0x00, 0x00, 0x01], 0, some .vifAp⟩

/-- An access point alone, at 192.168.176.1/24, and one of its clients looked up: NULL is
    dereferenced. -/
theorem ip_lookup_ap_only :
    let cs : List IfaceCall := [.add apVif none, .address .uap 0x01B0A8C0 1 0x01B0A8C0 0x00FFFFFF]
    InSubnet (final ifaceStep .static cs) .uap 0x64B0A8C0 ∧
    netIpToInterface (final ifaceStep .static cs) 0x64B0A8C0 = none ∧
    ¬ LookupRight (final ifaceStep .static cs) 0x64B0A8C0 := by
  refine ⟨⟨0x01B0A8C0, 0x00FFFFFF, rfl, by decide, by decide⟩, rfl, ?_⟩
  intro h
  obtain ⟨r, hr, -⟩ := h
  cases hr

end ArduinoT2.Wifi
