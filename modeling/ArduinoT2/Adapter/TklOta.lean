import ArduinoT2.Adapter.TklFlash

/-
  The firmware update (TuyaOS/adapter/src/system/tkl_ota.c): the three static variables, the
  start, the packets and the commit.

  The state also holds what the calls meet from outside: the outcomes of the coming
  `tkl_system_malloc` and `tkl_flash_write` calls (when a list is used up, calls succeed), the
  number of blocks allocated and not freed, and what a read through a NULL pointer sees. That
  read happens when the update ends without a saved first block; the MCU has memory mapped at
  address 0, so it delivers some bytes, and `lowMem` leaves open which.

  A packet is the list of its `len` bytes; `&pack->data[pack->len - write_len]` is the list of
  the last `write_len` bytes. Log output, `total_len`, `offset` and the arguments `type` and
  `path`, which nothing reads, are left out.
-/

namespace ArduinoT2.Adapter

open ArduinoT2.Vendor

abbrev ugPkgHead : UInt32 := 0x55aa55aa
abbrev ugPkgTail : UInt32 := 0xaa55aa55
abbrev ugStartAddr : UInt32 := 0x12A000
abbrev rtImgWrUnit : Nat := 512
abbrev bufSize : Nat := 4096
abbrev otaMaxBinSize : Nat := 664 * 1024

/-- `sizeof(UPDATE_FILE_HDR_S)`. -/
abbrev hdrSize : Nat := 32

/-! ## State -/

/-- `UG_STAT_E`. -/
inductive UgStat where
  | recvHeader | recvImgData | finish
deriving DecidableEq, Repr

/-- `UPDATE_FILE_HDR_S`. -/
structure UpdateFileHdr where
  headerFlag : UInt32
  swVersion : List UInt8
  binLen : UInt32
  binSum : UInt32
  headSum : UInt32
  tailFlag : UInt32
deriving DecidableEq, Repr

/-- The header behind `memset(…, 0, …)`. -/
def UpdateFileHdr.zero : UpdateFileHdr := ⟨0, List.replicate 12 0, 0, 0, 0, 0⟩

/-- `UG_PROC_S`. A header that is kept between calls has passed the size check or is zero. -/
structure UgProc where
  fileHeader : UpdateFileHdr
  flashAddr : UInt32
  startAddr : UInt32
  recvDataCnt : UInt32
  stat : UgStat
  fits : fileHeader.binLen.toNat < otaMaxBinSize

/-- The session behind `memset(ug_proc, 0, sizeof(UG_PROC_S))`. -/
def UgProc.zero : UgProc := ⟨.zero, 0, 0, 0, .recvHeader, by decide⟩

/-- The session with its header wiped. -/
def UgProc.wipeHeader (p : UgProc) : UgProc := { p with fileHeader := .zero, fits := by decide }

/-- A buffer of `RT_IMG_WR_UNIT` bytes. -/
structure Block where
  bytes : List UInt8
  len : bytes.length = rtImgWrUnit
deriving DecidableEq

/-- A block of erased bytes. -/
def erasedBlock : Block := ⟨List.replicate rtImgWrUnit 0xFF, List.length_replicate⟩

/-- Outcome of a `tkl_flash_write`: a failing one may have programmed part of its bytes.
    Bit `j` of byte `i` has been left out when it is set in `mask[i]`, and every byte behind
    the mask has been left out; the empty mask is a failure without side effects. -/
inductive WriteFate where
  | ok
  | fail (mask : List UInt8)
deriving DecidableEq, Repr

/-- The static variables of tkl_ota.c and their surroundings. -/
structure Ota where
  flash : FlashDev
  ugProc : Option UgProc
  fristBlockDatabuf : Option Block
  firstBlock : Bool
  blocks : Nat
  mallocs : List Bool
  writes : List WriteFate
  lowMem : Nor.Mem → Block
  resets : Nat

/-- The state at boot. -/
def Ota.boot (flash : FlashDev) (mallocs : List Bool) (writes : List WriteFate)
    (lowMem : Nor.Mem → Block) : Ota where
  flash := flash
  ugProc := none
  fristBlockDatabuf := none
  firstBlock := true
  blocks := 0
  mallocs := mallocs
  writes := writes
  lowMem := lowMem
  resets := 0

/-! ## Surroundings -/

/-- `tkl_system_malloc`: whether the result is not NULL. -/
def Ota.malloc (s : Ota) : Bool × Ota :=
  match s.mallocs with
  | [] => (true, { s with blocks := s.blocks + 1 })
  | true :: rest => (true, { s with mallocs := rest, blocks := s.blocks + 1 })
  | false :: rest => (false, { s with mallocs := rest })

/-- `tkl_system_free` of a block that is not NULL. -/
def Ota.free (s : Ota) : Ota := { s with blocks := s.blocks - 1 }

/-- `if (buf) tkl_system_free(buf)`. -/
def Ota.freeIf (s : Ota) (buf : Bool) : Ota := if buf then s.free else s

/-- `tkl_flash_write` with the outcome that is next in line. -/
def Ota.flashWrite (s : Ota) (addr : UInt32) (src : List UInt8) : OperateRet × Ota :=
  match s.writes with
  | .fail mask :: rest =>
    let src := List.zipWith (fun b m => b ||| m) src mask
    (oprtComError, { s with flash := s.flash.issue (.program addr.toNat src), writes := rest })
  | fates =>
    let r := tklFlashWrite s.flash addr (some src)
    (r.1, { s with flash := r.2, writes := fates.tail })

/-- `tkl_flash_set_protect`. -/
def Ota.setProtect (s : Ota) (enable : Bool) : Ota :=
  { s with flash := (tklFlashSetProtect s.flash enable).2 }

/-- A write between `tkl_flash_set_protect(FALSE)` and `tkl_flash_set_protect(TRUE)`: the
    protection is raised again on success and on failure. -/
def Ota.guardedWrite (s : Ota) (addr : UInt32) (src : List UInt8) : OperateRet × Ota :=
  let r := (s.setProtect false).flashWrite addr src
  (r.1, r.2.setProtect true)

/-- An erase between `tkl_flash_set_protect(FALSE)` and `tkl_flash_set_protect(TRUE)`. -/
def Ota.guardedErase (s : Ota) (addr size : UInt32) : Ota :=
  let s := s.setProtect false
  let s := { s with flash := (tklFlashErase s.flash addr size).2 }
  s.setProtect true

/-- The bytes that a `memcpy` from `frist_block_databuf` reads. -/
def Ota.fristBytes (s : Ota) : List UInt8 :=
  match s.fristBlockDatabuf with
  | some b => b.bytes
  | none => (s.lowMem s.flash.mem).bytes

/-! ## Start -/

/-- `tkl_ota_start_notify`. -/
def tklOtaStartNotify (s : Ota) (imageSize : UInt32) : OperateRet × Ota :=
  if imageSize = 0 then (oprtOsAdapterInvalidParm, s)
  else
    match s.ugProc with
    | some _ => (oprtOk, { s with ugProc := some .zero, firstBlock := true })
    | none =>
      let m := s.malloc
      if m.1 then (oprtOk, { m.2 with ugProc := some .zero, firstBlock := true })
      else (oprtMallocFailed, m.2)

/-! ## Packets -/

/-- What a `tkl_ota_data_process` call returns and, if it does, stores to `*remain_len`. -/
structure OtaRet where
  rc : OperateRet
  remainLen : Option Nat
deriving DecidableEq

/-- `sum += data[k]` over a list of bytes. -/
def addBytes (sum : UInt32) (data : List UInt8) : UInt32 :=
  data.foldl (fun s b => s + b.toUInt32) sum

/-- `(data[i]<<24)|(data[i+1]<<16)|(data[i+2]<<8)|data[i+3]`. -/
def be32 (data : List UInt8) (i : Nat) : UInt32 :=
  ((data.getD i 0).toUInt32 <<< 24) ||| ((data.getD (i + 1) 0).toUInt32 <<< 16) |||
    ((data.getD (i + 2) 0).toUInt32 <<< 8) ||| (data.getD (i + 3) 0).toUInt32

/-- The header at the front of a packet. -/
def fileHeaderOf (data : List UInt8) : UpdateFileHdr where
  tailFlag := be32 data 28
  headSum := be32 data 24
  binSum := be32 data 20
  binLen := be32 data 16
  swVersion := (data.drop 4).take 12
  headerFlag := be32 data 0

/-- The case `UGS_RECV_HEADER`. -/
def recvHeader (s : Ota) (p : UgProc) (data : List UInt8) : OtaRet × Ota :=
  if data.length < hdrSize then (⟨oprtOk, some data.length⟩, s)
  else
    let hdr := fileHeaderOf data
    let sumTmp := addBytes 0 (data.take (hdrSize - 8))
    if hdr.headerFlag ≠ ugPkgHead ∨ hdr.tailFlag ≠ ugPkgTail ∨ hdr.headSum ≠ sumTmp then
      (⟨oprtOsAdapterOtaStartInformFailed, none⟩, { s with ugProc := some p.wipeHeader })
    else if h : otaMaxBinSize ≤ hdr.binLen.toNat then
      (⟨oprtOsAdapterOtaPktSizeFailed, none⟩, { s with ugProc := some p.wipeHeader })
    else
      let p : UgProc :=
        { fileHeader := hdr, startAddr := ugStartAddr, flashAddr := ugStartAddr,
          stat := .recvImgData, recvDataCnt := 0, fits := Nat.lt_of_not_le h }
      (⟨oprtOk, some (data.length - hdrSize)⟩,
        ({ s with ugProc := some p }).guardedErase p.startAddr hdr.binLen)

/-- `frist_block_databuf` is allocated when it is NULL and takes the block. The error is the
    state in which the allocation has failed. -/
def saveFirstBlock (s : Ota) (blk : Block) : Except Ota Ota :=
  match s.fristBlockDatabuf with
  | some _ => .ok { s with fristBlockDatabuf := some blk }
  | none =>
    let m := s.malloc
    if m.1 then .ok { m.2 with fristBlockDatabuf := some blk } else .error m.2

/-- The body of the block loop up to the counters: the first block is saved and dummy data
    are written in its place. `buf` says whether the dummy buffer is allocated. The error is
    the state of an early return. -/
def writeBlock (s : Ota) (p : UgProc) (buf : Bool) (blk : Block) : Except Ota (Ota × Bool) :=
  if s.firstBlock then
    match saveFirstBlock s blk with
    | .error s => .error s
    | .ok s =>
      let m := s.malloc
      if m.1 then
        let w := m.2.guardedWrite p.flashAddr (List.replicate rtImgWrUnit 0xFF)
        if w.1 ≠ oprtOk then .error w.2.free
        else .ok ({ w.2 with firstBlock := false }, true)
      else .error m.2
  else
    let w := s.guardedWrite p.flashAddr blk.bytes
    if w.1 ≠ oprtOk then .error (w.2.freeIf buf) else .ok (w.2, buf)

/-- `flash_addr += len; recv_data_cnt += len`. -/
def UgProc.advance (p : UgProc) (len : Nat) : UgProc :=
  { p with flashAddr := p.flashAddr + UInt32.ofNat len
           recvDataCnt := p.recvDataCnt + UInt32.ofNat len }

/-- The loop `while (write_len >= RT_IMG_WR_UNIT)` over the last `write_len` bytes of the
    packet. The error is the state of an early return and the bytes not consumed then. -/
def blockLoop (s : Ota) (p : UgProc) (buf : Bool) (rest : List UInt8) :
    Except (Ota × List UInt8) (Ota × UgProc × Bool × List UInt8) :=
  if h : rtImgWrUnit ≤ rest.length then
    match writeBlock s p buf ⟨rest.take rtImgWrUnit, List.length_take_of_le h⟩ with
    | .error s => .error (s, rest)
    | .ok (s, buf) =>
      let p := p.advance rtImgWrUnit
      blockLoop { s with ugProc := some p } p buf (rest.drop rtImgWrUnit)
  else .ok (s, p, buf, rest)
termination_by rest.length
decreasing_by
  rw [List.length_drop]
  exact Nat.sub_lt (Nat.lt_of_lt_of_le (by decide) h) (by decide)

/-- The end of the case `UGS_RECV_IMG_DATA`: a session that has all its bytes is finished.
    The dummy buffer is freed there and nowhere else on this path. -/
def finishCheck (s : Ota) (p : UgProc) (buf : Bool) (remain : Nat) : OtaRet × Ota :=
  if p.fileHeader.binLen ≤ p.recvDataCnt then
    (⟨oprtOk, some remain⟩, ({ s with ugProc := some { p with stat := .finish } }).freeIf buf)
  else (⟨oprtOk, some remain⟩, s)

/-- What follows the block loop: the bytes left over are written when they are the last of
    the image. -/
def recvTail (s : Ota) (p : UgProc) (buf : Bool) (rest : List UInt8) : OtaRet × Ota :=
  if p.fileHeader.binLen - UInt32.ofNat rtImgWrUnit < p.recvDataCnt ∧
      (p.fileHeader.binLen - p.recvDataCnt).toNat ≤ rest.length then
    let w := s.guardedWrite p.flashAddr rest
    if w.1 ≠ oprtOk then (⟨oprtOsAdapterOtaProcessFailed, some rest.length⟩, w.2.freeIf buf)
    else
      let p := p.advance rest.length
      finishCheck { w.2 with ugProc := some p } p buf 0
  else finishCheck s p buf rest.length

/-- The case `UGS_RECV_IMG_DATA`. -/
def recvImgData (s : Ota) (p : UgProc) (data : List UInt8) : OtaRet × Ota :=
  if data.length < rtImgWrUnit ∧
      p.recvDataCnt ≤ p.fileHeader.binLen - UInt32.ofNat rtImgWrUnit then
    (⟨oprtOk, some data.length⟩, s)
  else
    match blockLoop s p false data with
    | .error (s, rest) => (⟨oprtOsAdapterOtaProcessFailed, some rest.length⟩, s)
    | .ok (s, p, buf, rest) => recvTail s p buf rest

/-- `tkl_ota_data_process`. -/
def tklOtaDataProcess (s : Ota) (data : List UInt8) : OtaRet × Ota :=
  match s.ugProc with
  | none => (⟨oprtComError, none⟩, s)
  | some p =>
    match p.stat with
    | .recvHeader => recvHeader s p data
    | .recvImgData => recvImgData s p data
    | .finish => (⟨oprtOk, some 0⟩, s)

/-! ## End -/

/-- The loop of `tkl_ota_end_notify` from byte `i` of the image on: the image is read back in
    chunks of `BUF_SIZE`, with the saved block over the first bytes of the first chunk. -/
def checksumLoop (s : Ota) (p : UgProc) (flash : FlashDev) (i : Nat) (sum : UInt32) :
    UInt32 × FlashDev :=
  let binLen := p.fileHeader.binLen.toNat
  if i < binLen then
    let rlen := if bufSize ≤ binLen - i then bufSize else binLen - i
    let r := tklFlashRead flash (p.startAddr + UInt32.ofNat i) (some ()) rlen
    let tempbuf := if i = 0 then s.fristBytes ++ r.2.1.drop rtImgWrUnit else r.2.1
    checksumLoop s p r.2.2 (i + bufSize) (addBytes sum (tempbuf.take rlen))
  else (sum, flash)
termination_by p.fileHeader.binLen.toNat - i
decreasing_by
  have : 0 < bufSize := by decide
  omega

/-- `ug_proc`, `frist_block_databuf` and the read buffer are freed. -/
def Ota.release (s : Ota) : Ota :=
  { (s.free.free.freeIf s.fristBlockDatabuf.isSome) with
    ugProc := none, fristBlockDatabuf := none }

/-- `tkl_ota_end_notify`. -/
def tklOtaEndNotify (s : Ota) (reset : Bool) : OperateRet × Ota :=
  match s.ugProc with
  | none => (oprtOsAdapterInvalidParm, s)
  | some p =>
    let m := s.malloc
    if m.1 then
      let c := checksumLoop m.2 p m.2.flash 0 0
      let s := { m.2 with flash := c.2 }
      if c.1 ≠ p.fileHeader.binSum then (oprtOsAdapterOtaEndInformFailed, s.release)
      else
        let r := tklFlashRead s.flash p.startAddr (some ()) bufSize
        let s := { s with flash := r.2.2 }
        let s := s.guardedErase p.startAddr (UInt32.ofNat bufSize)
        let tempbuf := s.fristBytes ++ r.2.1.drop rtImgWrUnit
        -- the result of this write is not looked at
        let s := (s.guardedWrite p.startAddr tempbuf).2
        let s := s.release
        (oprtOk, if reset then { s with resets := s.resets + 1 } else s)
    else (oprtMallocFailed, m.2)

/-! ## Runs -/

/-- A packet: its `len` field counts its bytes. -/
structure OtaPack where
  data : List UInt8
  len_lt : data.length < 2 ^ 32

/-- A call of the update interface. -/
inductive OtaCall where
  | startNotify (imageSize : UInt32)
  | dataProcess (pack : OtaPack)
  | endNotify (reset : Bool)

/-- One call: the state behind it and what the caller sees of it. -/
def otaStep (s : Ota) : OtaCall → Ota × OtaRet
  | .startNotify n => ((tklOtaStartNotify s n).2, ⟨(tklOtaStartNotify s n).1, none⟩)
  | .dataProcess pack => ((tklOtaDataProcess s pack.data).2, (tklOtaDataProcess s pack.data).1)
  | .endNotify reset => ((tklOtaEndNotify s reset).2, ⟨(tklOtaEndNotify s reset).1, none⟩)

end ArduinoT2.Adapter
