import ArduinoT2.Adapter.TklWifiStart

/-
  Credentials through the fixed records: `tkl_wifi_start_ap` with `bk_wlan_ap_init_adv` behind
  it, and `tkl_wifi_station_connect`.

  The decoder measures the key with `os_strlen`. A key of 64 bytes fills its field, and the
  measure goes on through the channel and the security type: the key is 64 bytes long only on
  channel 0 (`apRecovers_iff`). For the station the zero byte behind such a key is the first byte
  of the IP address (`stationHolds_iff`). `credentials_iff` has both.
-/

namespace ArduinoT2.Wifi

open ArduinoT2.Adapter ArduinoT2.Vendor ByteMem

/-! ## Specification -/

/-- What the decoder makes of the record, if there is one, has the SSID and the password. -/
def ApRecovers (env : WlanEnv) (s : WlanParams) (cfg : WfApCfgIf) : Prop :=
  ∀ m, tklWifiStartAp cfg = .ok m →
    let ap := (bkWlanApInitAdv env s (some m)).1
    ap.ssid = cfg.ssid.bytes ∧ ap.passwd = cfg.passwd.bytes

/-- A field holds a string and the zero byte behind it. -/
def FieldHolds (m : Mem) (f : Field) (s : List UInt8) : Prop :=
  s.length < f.size ∧ Holds m f.offset (s ++ [0])

/-- One stretch is within another. -/
def Within (inner outer : Field) : Prop :=
  outer.offset ≤ inner.offset ∧ inner.offset + inner.size ≤ outer.offset + outer.size

/-- A record with the mode and the DHCP mode only. -/
def stationDefaults : Mem :=
  store (store (fun _ => 0) NetworkInit.wifiMode.offset [station])
    NetworkInit.dhcpMode.offset [dhcpClient]

/-- The record holds the strings; nothing was copied outside their fields, and the rest of it is
    as it is without them. -/
def StationHolds (ssid passwd : List UInt8) : Prop :=
  open NetworkInit in
  let r := tklWifiStationConnect ssid passwd
  FieldHolds r.bytes wifiSsid ssid ∧ FieldHolds r.bytes wifiKey passwd ∧
  (∀ f ∈ r.copied, Within f wifiSsid ∨ Within f wifiKey) ∧
  ∀ i, ¬ wifiSsid.Contains i → ¬ wifiKey.Contains i → r.bytes i = stationDefaults i

/-! ## The record of the access point -/

theorem osStrcpy_out {m : Mem} {f : Field} {s : List UInt8} {i : Nat}
    (h : i < f.offset ∨ f.offset + s.length + 1 ≤ i) : osStrcpy m f s i = m i :=
  store_out (by rw [List.length_append, List.length_singleton]; omega)

theorem osStrcpy_holds (m : Mem) (f : Field) (s : List UInt8) :
    Holds (osStrcpy m f s) f.offset (s ++ [0]) := store_holds m f.offset (s ++ [0])

/-- What the decoder reads of the credentials. -/
structure Encodes (m : Mem) (cfg : WfApCfgIf) (sec : UInt8) : Prop where
  ssid : Holds m 0 cfg.ssid.bytes
  ssid_end : cfg.ssid.bytes.length < 32 → m cfg.ssid.bytes.length = 0
  key : Holds m 32 cfg.passwd.bytes
  key_end : cfg.passwd.bytes.length < 64 → m (32 + cfg.passwd.bytes.length) = 0
  chan : m 96 = cfg.chan
  security : m 97 = sec
  hidden : m 98 = 0

theorem tklWifiStartAp_encodes {cfg : WfApCfgIf} {sec : UInt8} {m : Mem}
    (hsec : cfg.md.security = some sec) (h : tklWifiStartAp cfg = .ok m) : Encodes m cfg sec := by
  have hip := cfg.ip.ip.lt
  have hmask := cfg.ip.mask.lt
  have hgw := cfg.ip.gw.lt
  have hs := cfg.ssid.le
  have hp := cfg.passwd.le
  rw [tklWifiStartAp, hsec] at h
  cases h
  -- the addresses are stored behind all that is read
  have haddr : ∀ (m : Mem) (i : Nat), i < 100 →
      osStrcpy (osStrcpy (osStrcpy (osStrcpy m NetworkInitAp.localIpAddr cfg.ip.ip.bytes)
        NetworkInitAp.netMask cfg.ip.mask.bytes) NetworkInitAp.gatewayIpAddr cfg.ip.gw.bytes)
        NetworkInitAp.dnsServerIpAddr cfg.ip.gw.bytes i = m i := by
    intro m i hi
    rw [osStrcpy_out, osStrcpy_out, osStrcpy_out, osStrcpy_out] <;> simp <;> omega
  constructor
  case ssid =>
    intro i hi
    rw [haddr _ _ (by omega), store_out (by simp; omega), store_in (by simp) (by simpa using hi)]
    simp
  case ssid_end =>
    intro hlt
    rw [haddr _ _ (by omega), store_out (by simp; omega), store_out (by simp),
      store_out (by simp; omega), store_out (by simp; omega), store_out (by simp; omega)]
  case key =>
    intro i hi
    rw [haddr _ _ (by omega), store_in (by simp) (by simpa using hi)]
    simp
  case key_end =>
    intro hlt
    rw [haddr _ _ (by omega), store_out (by simp), store_out (by simp; omega),
      store_out (by simp; omega), store_out (by simp; omega), store_out (by simp; omega)]
  case chan =>
    rw [haddr _ _ (by omega), store_out (by simp; omega), store_out (by simp; omega),
      store_out (by simp), store_in (by simp) (by simp)]
    simp
  case security =>
    rw [haddr _ _ (by omega), store_out (by simp; omega), store_out (by simp; omega),
      store_out (by simp), store_out (by simp), store_in (by simp) (by simp)]
    simp
  case hidden =>
    rw [haddr _ _ (by omega), store_out (by simp; omega), store_out (by simp; omega),
      store_out (by simp), store_out (by simp), store_out (by simp)]

/-! ## The decoder -/

section Decode

variable {m : Mem} {cfg : WfApCfgIf} {sec : UInt8}

theorem osStrlen_ssid (h : Encodes m cfg sec) :
    min ssidMaxLen (NetworkInitAp.osStrlen m NetworkInitAp.wifiSsid) = cfg.ssid.bytes.length := by
  have hle := cfg.ssid.le
  have hnz := h.ssid.ne_zero cfg.ssid.no_zero
  unfold NetworkInitAp.osStrlen ssidMaxLen
  by_cases hlt : cfg.ssid.bytes.length < 32
  · have hend : m (0 + cfg.ssid.bytes.length) = 0 := by rw [Nat.zero_add, h.ssid_end hlt]
    rw [show NetworkInitAp.wifiSsid.offset = 0 from rfl,
      strlen_eq cfg.ssid.no_zero h.ssid hend (by simp [NetworkInitAp.apSize]; omega)]
    omega
  · -- the measure goes on behind the field, and is cut
    have hfull : cfg.ssid.bytes.length = 32 := by omega
    have hmeasure := strlen_add hnz (NetworkInitAp.apSize - 32)
    rw [hfull] at hmeasure ⊢
    rw [show NetworkInitAp.wifiSsid.offset = 0 from rfl,
      show NetworkInitAp.apSize - 0 = 32 + (NetworkInitAp.apSize - 32) from rfl, hmeasure]
    omega

theorem osStrlen_key_short (h : Encodes m cfg sec) (hlt : cfg.passwd.bytes.length < 64) :
    NetworkInitAp.osStrlen m NetworkInitAp.wifiKey = cfg.passwd.bytes.length :=
  strlen_eq cfg.passwd.no_zero h.key (h.key_end hlt)
    (by simp [NetworkInitAp.apSize]; omega)

/-- How long the measure of a key that fills its field is. -/
theorem osStrlen_key_full (h : Encodes m cfg sec) (hfull : cfg.passwd.bytes.length = 64) :
    NetworkInitAp.osStrlen m NetworkInitAp.wifiKey =
      if cfg.chan = 0 then 64 else if sec = 0 then 65 else 66 := by
  have hmeasure := strlen_add (h.key.ne_zero cfg.passwd.no_zero) (NetworkInitAp.apSize - 96)
  rw [hfull] at hmeasure
  rw [NetworkInitAp.osStrlen, show NetworkInitAp.wifiKey.offset = 32 from rfl,
    show NetworkInitAp.apSize - 32 = 64 + (NetworkInitAp.apSize - 96) from rfl, hmeasure,
    show NetworkInitAp.apSize - 96 = 105 + 3 from rfl, strlen, strlen, strlen]
  simp only [Nat.reduceAdd, h.chan, h.security, h.hidden, if_true]
  by_cases hc : cfg.chan = 0
  · simp [hc]
  · by_cases hs : sec = 0 <;> simp [hc, hs]

/-- Bytes that are stored and loaded again. -/
theorem load_store_load (key : Mem) {off n : Nat} {bs : List UInt8} (h : Holds m off bs)
    (hn : n = bs.length) : load (store key 0 (load m off n)) 0 n = bs := by
  refine List.ext_getElem (by rw [length_load, hn]) fun i h1 h2 => ?_
  have hi : i < n := by rwa [length_load] at h1
  rw [← List.getD_eq_getElem _ 0, getD_load hi, store_in (Nat.zero_le _) (by simpa using hi),
    Nat.zero_add, Nat.sub_zero, getD_load hi, h i h2, List.getD_eq_getElem _ _ h2]

theorem bkWlanApInitAdv_ssid (env : WlanEnv) (s : WlanParams) (h : Encodes m cfg sec) :
    (bkWlanApInitAdv env s (some m)).1.ssid = cfg.ssid.bytes := by
  have hle := cfg.ssid.le
  refine load_store_load (s.apParam.getD .zero).ssidArray h.ssid ?_
  show (UInt8.ofNat (min ssidMaxLen _)).toNat = _
  rw [osStrlen_ssid h, UInt8.toNat_ofNat', Nat.mod_eq_of_lt (by omega)]

/-- The array `key` with `key_len` behind it. -/
theorem bkWlanApInitAdv_key (env : WlanEnv) (s : WlanParams) (m : Mem) {n : Nat}
    (hn : NetworkInitAp.osStrlen m NetworkInitAp.wifiKey = n) (hlt : n < 256) :
    (bkWlanApInitAdv env s (some m)).1.key =
      store (store (s.apParam.getD .zero).key 65 [UInt8.ofNat n]) 0 (load m 32 n) := by
  have hbyte : (UInt8.ofNat n).toNat = n := by
    rw [UInt8.toNat_ofNat', Nat.mod_eq_of_lt (by omega)]
  show store (store _ 65 [UInt8.ofNat (NetworkInitAp.osStrlen m NetworkInitAp.wifiKey)]) 0
    (load m 32 (UInt8.ofNat (NetworkInitAp.osStrlen m NetworkInitAp.wifiKey)).toNat) = _
  rw [hn, hbyte]

theorem ApParam.keyLen_eq (p : ApParam) : p.keyLen = p.key 65 := rfl

/-- A copy that ends before `key_len` leaves it. -/
theorem keyLen_kept (env : WlanEnv) (s : WlanParams) (m : Mem) {n : Nat}
    (hn : NetworkInitAp.osStrlen m NetworkInitAp.wifiKey = n) (hle : n ≤ 65) :
    (bkWlanApInitAdv env s (some m)).1.keyLen.toNat = n := by
  rw [ApParam.keyLen_eq, bkWlanApInitAdv_key env s m hn (by omega),
    store_out (by rw [length_load]; omega), store_in (Nat.le_refl _) (by simp)]
  show (UInt8.ofNat n).toNat = n
  rw [UInt8.toNat_ofNat', Nat.mod_eq_of_lt (by omega)]

/-- A copy of 66 bytes puts the security type there. -/
theorem keyLen_overwritten (env : WlanEnv) (s : WlanParams) (h : Encodes m cfg sec)
    (hn : NetworkInitAp.osStrlen m NetworkInitAp.wifiKey = 66) :
    (bkWlanApInitAdv env s (some m)).1.keyLen = sec := by
  rw [ApParam.keyLen_eq, bkWlanApInitAdv_key env s m hn (by omega),
    store_in (Nat.zero_le _) (by rw [length_load]; omega), getD_load (by omega)]
  exact h.security

/-- A key that is measured right is copied right, -/
theorem bkWlanApInitAdv_passwd (env : WlanEnv) (s : WlanParams) (h : Encodes m cfg sec)
    (hfits : cfg.passwd.bytes.length < 64 ∨ cfg.chan = 0) :
    (bkWlanApInitAdv env s (some m)).1.passwd = cfg.passwd.bytes := by
  have hle := cfg.passwd.le
  have hmeasure : NetworkInitAp.osStrlen m NetworkInitAp.wifiKey = cfg.passwd.bytes.length := by
    by_cases hlt : cfg.passwd.bytes.length < 64
    · exact osStrlen_key_short h hlt
    · rw [osStrlen_key_full h (by omega), if_pos (hfits.resolve_left hlt)]
      omega
  rw [ApParam.passwd, keyLen_kept env s m hmeasure (by omega),
    bkWlanApInitAdv_key env s m hmeasure (by omega)]
  exact load_store_load _ h.key rfl

/-- and one that fills its field, on a channel other than 0, gets another length. -/
theorem length_passwd_ne (env : WlanEnv) (s : WlanParams) (h : Encodes m cfg sec)
    (hsec : sec.toNat ≠ 64) (hfull : cfg.passwd.bytes.length = 64) (hchan : cfg.chan ≠ 0) :
    (bkWlanApInitAdv env s (some m)).1.passwd.length ≠ 64 := by
  have hmeasure := osStrlen_key_full h hfull
  rw [if_neg hchan] at hmeasure
  rw [ApParam.passwd, length_load]
  by_cases hzero : sec = 0
  · rw [if_pos hzero] at hmeasure
    rw [keyLen_kept env s m hmeasure (by omega)]
    omega
  · rw [if_neg hzero] at hmeasure
    rw [keyLen_overwritten env s h hmeasure]
    exact hsec

end Decode

/-! ## Both ways -/

theorem WfApAuthMode.security_ne {md : WfApAuthMode} {sec : UInt8} (h : md.security = some sec) :
    sec.toNat ≠ 64 := by
  cases md <;> cases h <;> decide

/-- The configurations whose credentials come through. -/
theorem apRecovers_iff (env : WlanEnv) (s : WlanParams) (cfg : WfApCfgIf) :
    ApRecovers env s cfg ↔
      cfg.md.security = none ∨ cfg.passwd.bytes.length < 64 ∨ cfg.chan = 0 := by
  have hle := cfg.passwd.le
  cases hsec : cfg.md.security with
  | none =>
    refine iff_of_true (fun m hm => ?_) (.inl rfl)
    rw [tklWifiStartAp, hsec] at hm
    cases hm
  | some sec =>
    obtain ⟨m, hm⟩ : ∃ m, tklWifiStartAp cfg = .ok m := by
      rw [tklWifiStartAp, hsec]
      exact ⟨_, rfl⟩
    have henc := tklWifiStartAp_encodes hsec hm
    constructor
    · intro h
      by_cases hshort : cfg.passwd.bytes.length < 64
      · exact .inr (.inl hshort)
      by_cases hchan : cfg.chan = 0
      · exact .inr (.inr hchan)
      have hfull : cfg.passwd.bytes.length = 64 := by omega
      refine absurd ?_ (length_passwd_ne env s henc (WfApAuthMode.security_ne hsec) hfull hchan)
      rw [(h m hm).2, hfull]
    · intro h m' hm'
      obtain rfl : m = m' := Except.ok.inj (hm.symm.trans hm')
      have hfits := h.resolve_left fun hnone => nomatch hnone
      exact ⟨bkWlanApInitAdv_ssid env s henc, bkWlanApInitAdv_passwd env s henc hfits⟩

/-- The passwords that the station's record holds. -/
theorem stationHolds_iff (ssid : Ssid) (passwd : Passwd) :
    StationHolds ssid.bytes passwd.bytes ↔ passwd.bytes.length < 64 := by
  have hs := ssid.le
  constructor
  · intro h
    exact h.2.1.1
  · intro hp
    have hother : ∀ (m : Mem) (i : Nat), 0 < i → i < 162 →
        store (store m NetworkInit.wifiMode.offset [station]) NetworkInit.dhcpMode.offset
          [dhcpClient] i = m i := by
      intro m i h0 hi
      rw [store_out (by simp; omega), store_out (by simp; omega)]
    refine ⟨⟨by simp; omega, fun i hi => ?_⟩, ⟨by simpa using hp, fun i hi => ?_⟩, ?_, ?_⟩
    · have hi' : i < ssid.bytes.length + 1 := by simpa using hi
      show store (store (Adapter.osStrcpy _ _ _) _ _) _ _ (1 + i) = _
      have hbefore : 1 + i < 34 := by omega
      rw [hother _ _ (by omega) (by omega), osStrcpy_out (f := NetworkInit.wifiKey) (.inl hbefore)]
      exact osStrcpy_holds _ _ _ i hi
    · have hi' : i < passwd.bytes.length + 1 := by simpa using hi
      show store (store (Adapter.osStrcpy _ _ _) _ _) _ _ (34 + i) = _
      rw [hother _ _ (by omega) (by omega)]
      exact osStrcpy_holds _ _ _ i hi
    · intro f hf
      have hcases : f = ⟨1, ssid.bytes.length + 1⟩ ∨ f = ⟨34, passwd.bytes.length + 1⟩ := by
        simpa [tklWifiStationConnect, Filling.osStrcpy] using hf
      obtain rfl | rfl := hcases
      · exact .inl ⟨by simp, by simp; omega⟩
      · exact .inr ⟨by simp, by simp; omega⟩
    · intro i hnotSsid hnotKey
      have h1 : 1 ≤ i → 34 ≤ i := by simpa [Field.Contains] using hnotSsid
      have h2 : 34 ≤ i → 98 ≤ i := by simpa [Field.Contains] using hnotKey
      refine store_congr (store_congr ?_ _ _) _ _
      show Adapter.osStrcpy (Adapter.osStrcpy _ _ _) _ _ i = 0
      rw [osStrcpy_out (by simp; omega), osStrcpy_out (by simp; omega)]

/-- Whatever the rest of the configuration is, up to 63 bytes of password come through, in either
    mode; of 64 bytes neither is true. -/
theorem credentials_iff (env : WlanEnv) (s : WlanParams) (ssid : Ssid) (passwd : Passwd) :
    ((∀ cfg : WfApCfgIf, cfg.ssid = ssid → cfg.passwd = passwd → ApRecovers env s cfg) ↔
      passwd.bytes.length ≤ 63) ∧
    (StationHolds ssid.bytes passwd.bytes ↔ passwd.bytes.length ≤ 63) := by
  refine ⟨⟨fun h => ?_, ?_⟩, ?_⟩
  · let empty : IpText := ⟨[], by decide, by decide⟩
    let cfg : WfApCfgIf := ⟨ssid, passwd, 6, .wpa2Psk, ⟨empty, empty, empty⟩⟩
    obtain hmd | hshort | hchan := (apRecovers_iff env s cfg).mp (h cfg rfl rfl)
    · cases hmd
    · exact Nat.le_of_lt_succ hshort
    · exact absurd hchan (show (6 : UInt8) ≠ 0 by decide)
  · intro hle cfg _ hpasswd
    refine (apRecovers_iff env s cfg).mpr (.inr (.inl ?_))
    rw [hpasswd]
    exact Nat.lt_succ_of_le hle
  · rw [stationHolds_iff]
    exact Nat.lt_succ_iff

/-- An access point with a hexadecimal key, on channel 6. -/
def pskCfg : WfApCfgIf where
  ssid := ⟨[0x41, 0x50], by decide, by decide, by decide⟩
  passwd := ⟨List.replicate 64 0x61, by decide, by decide⟩
  chan := 6
  md := .wpa2Psk
  ip := ⟨⟨[0x31], by decide, by decide⟩, ⟨[0x32], by decide, by decide⟩,
    ⟨[0x33], by decide, by decide⟩⟩

/-- The environment of a first start. -/
def pskEnv : WlanEnv := ⟨List.replicate 6 1, 11, fun _ => none⟩

/-- `key_len` becomes the security type, 5, and the station's copy of the key ends behind its
    field. -/
theorem credentials_psk :
    ¬ ApRecovers pskEnv ⟨none, none⟩ pskCfg ∧
    (∀ m, tklWifiStartAp pskCfg = .ok m →
      (bkWlanApInitAdv pskEnv ⟨none, none⟩ (some m)).1.keyLen = 5) ∧
    ¬ StationHolds pskCfg.ssid.bytes pskCfg.passwd.bytes := by
  refine ⟨fun h => ?_, fun m hm => ?_, fun h => absurd h.2.1.1 (by decide)⟩
  · exact absurd (h _ rfl).2 (by decide)
  · cases hm
    decide

end ArduinoT2.Wifi
