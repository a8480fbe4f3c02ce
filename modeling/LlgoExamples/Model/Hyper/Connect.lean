import LlgoExamples.Library.Supply
import LlgoExamples.Model.Hyper.Runtime

/-! # Connecting to a host

`ConnectTo` over a kernel whose open descriptors are explicit. The resolver's list is
given with what `socket` and `connect` answer for each of its addresses. -/

namespace LlgoExamples.Hyper

/-! ## The kernel -/

structure AddrInfo where
  family : ℤ
  sockType : ℤ
  protocol : ℤ
  addr : Bytes
  deriving DecidableEq, Repr

inductive KernelEvent where
  | getaddrinfo (node service : Bytes) (family sockType : ℤ)
  | socket (family sockType protocol : ℤ) (sfd : ℤ)
  | connect (sfd : ℤ) (addr : Bytes) (addrLen : ℕ)
  | close (fd : ℤ)
  | freeaddrinfo
  | fcntl (fd cmd arg : ℤ)
  deriving DecidableEq, Repr

/-- The open descriptors of the process, and the system calls made so far. -/
structure Kernel where
  fds : Finset ℕ
  log : List KernelEvent
  deriving DecidableEq

namespace Kernel

def record (k : Kernel) (e : KernelEvent) : Kernel :=
  { k with log := k.log ++ [e] }

end Kernel

/-- How the kernel numbers a new socket: by anything done so far, with a descriptor that is
not open. -/
structure Sockets where
  pick : Kernel → ℕ
  fresh : ∀ k, pick k ∉ k.fds

/-- The lowest descriptor that is not open. -/
def Sockets.lowest : Sockets :=
  ⟨fun k => Supply.lowestUnused k.fds, fun k => Supply.lowestUnused_notMem k.fds⟩

namespace Kernel

/-- `socket`: a new descriptor from `alloc`, or -1. -/
def socket (alloc : Sockets) (k : Kernel) (rp : AddrInfo) (ok : Bool) : ℤ × Kernel :=
  if ok then
    let fd := alloc.pick k
    (fd, { k with fds := insert fd k.fds }.record
      (.socket rp.family rp.sockType rp.protocol fd))
  else (-1, k.record (.socket rp.family rp.sockType rp.protocol (-1)))

def close (k : Kernel) (fd : ℤ) : Kernel :=
  { k with fds := k.fds.filter fun n => (n : ℤ) ≠ fd }.record (.close fd)

end Kernel

/-! ## The address loop -/

/-- What the kernel answers for one address: whether `socket` succeeds, and the result of
`connect`. -/
structure Attempt where
  socketOk : Bool
  connectRet : ℤ
  deriving DecidableEq, Repr

/-- The loop's variables when it is left. -/
structure LoopEnd where
  sfd : ℤ
  rp : Option AddrInfo
  kernel : Kernel
  deriving DecidableEq

/-- `for rp = result; rp != nil; rp = rp.Next`. -/
def connectLoop (alloc : Sockets) : ℤ → List (AddrInfo × Attempt) → Kernel → LoopEnd
  | sfd, [], k => { sfd := sfd, rp := none, kernel := k }
  | _, (rp, attempt) :: rest, k =>
      let (sfd, k) := k.socket alloc rp attempt.socketOk
      if sfd = -1 then connectLoop alloc sfd rest k
      else
        let k := k.record (.connect sfd rp.addr rp.addr.length)
        if attempt.connectRet ≠ -1 then { sfd := sfd, rp := some rp, kernel := k }
        else connectLoop alloc sfd rest (k.close sfd)

/-! ## ConnectTo -/

def afUnspec : ℤ := 0

def sockStream : ℤ := 1

def fSetFl : ℤ := 4

def oNonblock : ℤ := 2048

/-- What the resolver and `fcntl` answer. -/
structure Network where
  getaddrinfoRet : ℤ
  result : List (AddrInfo × Attempt)
  fcntlRet : ℤ
  deriving DecidableEq, Repr

def connectTo (alloc : Sockets) (host port : Bytes) (net : Network) (k : Kernel) :
    Except Panic ℤ × Kernel :=
  let k := k.record (.getaddrinfo (allocaCStr host) (allocaCStr port) afUnspec sockStream)
  if net.getaddrinfoRet ≠ 0 then
    (.error { text := "dns failed for %s\n", args := [host] }, k)
  else
    let loop := connectLoop alloc 0 net.result k
    let k := loop.kernel.record .freeaddrinfo
    if loop.rp = none ∨ loop.sfd < 0 then
      (.error { text := "connect failed for %s\n", args := [host] }, k)
    else
      let k := k.record (.fcntl loop.sfd fSetFl oNonblock)
      if net.fcntlRet ≠ 0 then
        (.error (.plain "failed to set net to non-blocking\n"), k)
      else (.ok loop.sfd, k)

end LlgoExamples.Hyper
