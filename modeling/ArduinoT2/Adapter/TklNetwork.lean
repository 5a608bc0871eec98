import ArduinoT2.Adapter.ErrorCode
import ArduinoT2.Lib.ByteMem

/-
  The network adapter (TuyaOS/adapter/src/system/tkl_network.c): the error number, receiving a
  given number of bytes, and the blocking mode of a socket.

  The sockets themselves (lwIP) are not part of the sources. What `recv` answers is a script;
  `fcntl` reads and writes the flag `O_NONBLOCK` of a socket.
-/

namespace ArduinoT2.Adapter

open ByteMem

/-! ## The error number -/

/-- Values of lwip/errno.h. -/
abbrev eintr : Int32 := 4
abbrev eagain : Int32 := 11
abbrev ewouldblock : Int32 := eagain
abbrev econnreset : Int32 := 104

/-- `TKL_ERRNOrans`: `sys_err` and `priv_err`. -/
def tklErrnorans : List (Int32 × Int32) :=
  [(eintr, eintr), (9, 9),                  -- EBADF
   (eagain, eagain), (14, 14),              -- EFAULT
   (16, 16), (22, 22),                      -- EBUSY, EINVAL
   (23, 23), (24, 24),                      -- ENFILE, EMFILE
   (28, 28), (32, 32),                      -- ENOSPC, EPIPE
   (ewouldblock, ewouldblock), (88, 88),    -- ENOTSOCK
   (92, 92), (98, 98),                      -- ENOPROTOOPT, EADDRINUSE
   (99, 99), (100, 100),                    -- EADDRNOTAVAIL, ENETDOWN
   (101, 101), (102, 102),                  -- ENETUNREACH, ENETRESET
   (econnreset, econnreset), (105, 105),    -- ENOBUFS
   (106, 106), (107, 107),                  -- EISCONN, ENOTCONN
   (110, 110), (111, 111),                  -- ETIMEDOUT, ECONNREFUSED
   (112, 112), (113, 113),                  -- EHOSTDOWN, EHOSTUNREACH
   (12, 12), (90, 90)]                      -- ENOMEM, EMSGSIZE

/-- `tkl_net_get_errno`, with `errno` as its argument. -/
def tklNetGetErrno (errno : Int32) : UInt32 :=
  match tklErrnorans.find? fun row => row.1 = errno with
  | some row => row.2.toUInt32
  | none => (-100 - errno).toUInt32

/-! ## Receiving -/

/-- What one call of `recv` meets. -/
inductive RecvOutcome where
  | data (b : UInt8) (bs : List UInt8)
  | error (errno : Int32)
  | closed
deriving DecidableEq

/-- What the calls of `recv` on the socket will meet, and `errno`. Behind the script the peer
    has closed. -/
structure RecvState where
  script : List RecvOutcome
  errno : Int32

/-- `recv(fd, …, len, 0)`: the return value, the bytes stored, the state behind it. -/
def recv (s : RecvState) (len : Nat) : Int × List UInt8 × RecvState :=
  match s.script with
  | [] => (0, [], s)
  | .data b bs :: script =>
    let got := (b :: bs).take len
    (got.length, got, { s with script })
  | .error errno :: script => (-1, [], { script, errno })
  | .closed :: script => (0, [], { s with script })

/-- The check behind a `recv` that delivers nothing. -/
def Retries (errno : Int32) : Prop :=
  let err := tklNetGetErrno errno
  err = ewouldblock.toUInt32 ∨ err = eintr.toUInt32 ∨ err = eagain.toUInt32

instance (errno : Int32) : Decidable (Retries errno) := inferInstanceAs (Decidable (_ ∨ _))

/-- The loop of `tkl_net_recv_nd_size`: `rd_size` and the buffer behind it, or `none` when `fuel`
    rounds do not end it. -/
def recvNdLoop (ndSize : Nat) : Nat → Nat → RecvState → Mem → Option (Nat × Mem)
  | 0, _, _, _ => none
  | fuel + 1, rdSize, s, buf =>
    if rdSize < ndSize then
      let (ret, got, s) := recv s (ndSize - rdSize)
      if ret ≤ 0 then
        if Retries s.errno then recvNdLoop ndSize fuel rdSize s buf
        else some (rdSize, buf)
      else recvNdLoop ndSize fuel (rdSize + ret.toNat) s (store buf rdSize got)
    else some (rdSize, buf)

/-- `tkl_net_recv_nd_size`: the return value, an `INT_T`, and the buffer behind it. -/
def tklNetRecvNdSize (fuel : Nat) (fd : Int32) (buf : Option Mem)
    (bufSize ndSize : UInt32) (s : RecvState) : Option (Int × Option Mem) :=
  match buf with
  | none => some (-3000 + fd.toInt, none)
  | some buf =>
    if fd < 0 ∨ bufSize = 0 ∨ ndSize = 0 ∨ bufSize < ndSize then
      some (-3000 + fd.toInt, some buf)
    else
      match recvNdLoop ndSize.toNat fuel 0 s buf with
      | none => none
      | some (rdSize, buf) =>
        if rdSize < ndSize.toNat then some (-2, some buf)
        else some ((UInt32.ofNat rdSize).toInt32.toInt, some buf)

/-! ## The blocking mode -/

/-- `O_NONBLOCK`. -/
abbrev oNonblock : BitVec 32 := 1

/-- The open sockets with their file status flags, and `errno`. -/
structure Sockets where
  isOpen : Int32 → Bool
  flags : Int32 → BitVec 32
  errno : Int32

/-- `fcntl(fd, F_GETFL, 0)`. -/
def fcntlGetfl (s : Sockets) (fd : Int32) : BitVec 32 × Sockets :=
  if s.isOpen fd then (s.flags fd, s) else (-1, { s with errno := 9 })

/-- `fcntl(fd, F_SETFL, flags)`: the flag `O_NONBLOCK` is set as in `flags`. With `fails` the
    call fails with this error number. -/
def fcntlSetfl (s : Sockets) (fd : Int32) (flags : BitVec 32) (fails : Option Int32) :
    Int × Sockets :=
  match fails with
  | some errno => (-1, { s with errno })
  | none =>
    if s.isOpen fd then
      (0, { s with flags := fun fd' => if fd' = fd then
        (s.flags fd &&& ~~~oNonblock) ||| (flags &&& oNonblock) else s.flags fd' })
    else (-1, { s with errno := 9 })

/-- `tkl_net_set_block`. -/
def tklNetSetBlock (s : Sockets) (fd : Int32) (block : Bool) (fails : Option Int32) :
    OperateRet × Sockets :=
  if fd < 0 then (-3000 + fd.toInt, s)
  else
    let (flags, s) := fcntlGetfl s fd
    let flags := if block then flags &&& ~~~oNonblock else flags ||| oNonblock
    let (ret, s) := fcntlSetfl s fd flags fails
    if ret < 0 then (oprtComError, s) else (oprtOk, s)

/-- `tkl_net_get_nonblock`. -/
def tklNetGetNonblock (s : Sockets) (fd : Int32) : Int × Sockets :=
  if fd < 0 then (-3000 + fd.toInt, s)
  else
    let (flags, s) := fcntlGetfl s fd
    if flags &&& oNonblock ≠ oNonblock then (0, s)
    else if s.errno = eagain ∨ s.errno = ewouldblock then (1, s)
    else (0, s)

end ArduinoT2.Adapter
