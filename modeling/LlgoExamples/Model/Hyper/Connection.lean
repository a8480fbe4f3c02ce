import LlgoExamples.Library.Ledger
import LlgoExamples.Model.Hyper.Runtime
import Mathlib.Data.Finset.Basic

/-! # The connection and its wakers

`ConnData` with the callbacks, the select round and the cleanup that share its two slots.
`none` in a slot is a nil waker. The wakers hyper has made are numbered in the order they
were made. -/

namespace LlgoExamples.Hyper

/-! ## Constants -/

def ioPending : ℕ := 4294967295

def ioError : ℕ := 4294967294

def eagain : ℤ := 11

def fdSetSize : ℤ := 1024

/-! ## Data -/

inductive Direction where
  | read
  | write
  deriving DecidableEq, Repr

structure ConnData where
  fd : ℤ
  readWaker : Option ℕ
  writeWaker : Option ℕ
  deriving DecidableEq, Repr

namespace ConnData

def waker (conn : ConnData) : Direction → Option ℕ
  | .read => conn.readWaker
  | .write => conn.writeWaker

def setWaker (conn : ConnData) (dir : Direction) (w : Option ℕ) : ConnData :=
  match dir with
  | .read => { conn with readWaker := w }
  | .write => { conn with writeWaker := w }

end ConnData

/-- The arguments of a call to `select`, and the descriptor that `FD_ISSET` then asks for. -/
structure SelectCall where
  nfds : ℤ
  fdsRead : Finset ℤ
  fdsWrite : Finset ℤ
  fdsExcep : Finset ℤ
  tvSec : ℤ
  fd : ℤ
  deriving DecidableEq

/-- What `select` returns, and the descriptors that are ready. -/
structure Readiness where
  ret : ℤ
  read : Finset ℤ
  write : Finset ℤ
  deriving DecidableEq

inductive ConnEvent where
  | made (w : ℕ)
  | freed (w : Option ℕ)
  | woken (w : Option ℕ)
  | perror (text : String)
  | select (call : SelectCall)
  deriving DecidableEq

/-- The connection, the number of wakers made for it, and what was done so far. -/
structure Connection where
  data : ConnData
  wakers : ℕ
  log : List ConnEvent
  deriving DecidableEq

namespace Connection

def opened (fd : ℤ) : Connection :=
  { data := { fd := fd, readWaker := none, writeWaker := none }, wakers := 0, log := [] }

def record (c : Connection) (e : ConnEvent) : Connection :=
  { c with log := c.log ++ [e] }

def store (c : Connection) (dir : Direction) (w : Option ℕ) : Connection :=
  { c with data := c.data.setWaker dir w }

/-! ## The callbacks -/

/-- `ctx.Waker()`, stored into a slot. -/
def newWaker (c : Connection) (dir : Direction) : Connection :=
  let c' := { c with wakers := c.wakers + 1 }.record (.made c.wakers)
  c'.store dir (some c.wakers)

/-- `if conn.…Waker != nil { conn.…Waker.Free() }`. -/
def freeWaker (c : Connection) (dir : Direction) : Connection :=
  if c.data.waker dir ≠ none then c.record (.freed (c.data.waker dir)) else c

/-- Both callbacks: `ret` and `errno` are what the system call left. -/
def ioCallBack (dir : Direction) (fail : String) (ret errno : ℤ) (c : Connection) :
    ℕ × Connection :=
  if 0 ≤ ret then (ret.toNat, c)
  else if errno ≠ eagain then (ioError, c.record (.perror fail))
  else (ioPending, (c.freeWaker dir).newWaker dir)

def readCallBack (ret errno : ℤ) (c : Connection) : ℕ × Connection :=
  ioCallBack .read "[read callback fail]" ret errno c

def writeCallBack (ret errno : ℤ) (c : Connection) : ℕ × Connection :=
  ioCallBack .write "[write callback fail]" ret errno c

/-! ## The select round -/

def fdSet (c : Connection) (dir : Direction) : Finset ℤ :=
  if c.data.waker dir ≠ none then {c.data.fd} else ∅

def selectCall (c : Connection) : SelectCall :=
  { nfds := c.data.fd + 1
    fdsRead := c.fdSet .read
    fdsWrite := c.fdSet .write
    fdsExcep := ∅
    tvSec := 10
    fd := c.data.fd }

/-- `conn.…Waker.Wake()`, and the slot is cleared. -/
def wake (c : Connection) (dir : Direction) : Connection :=
  (c.record (.woken (c.data.waker dir))).store dir none

/-- The round after `Poll` found no task. The kernel leaves in each set the descriptors
that were in it and are ready. -/
def selectRound (ready : Readiness) (c : Connection) : Option Panic × Connection :=
  let call := c.selectCall
  let c := c.record (.select call)
  if ready.ret < 0 then (some (.plain "select() error\n"), c)
  else if ready.ret = 0 then (some (.plain "select() timeout\n"), c)
  else
    let c := if c.data.fd ∈ call.fdsRead ∩ ready.read then c.wake .read else c
    let c := if c.data.fd ∈ call.fdsWrite ∩ ready.write then c.wake .write else c
    (none, c)

/-! ## The cleanup -/

def freeSlot (c : Connection) (dir : Direction) : Connection :=
  if c.data.waker dir ≠ none then
    (c.record (.freed (c.data.waker dir))).store dir none
  else c

def freeConnData (c : Connection) : Connection :=
  (c.freeSlot .read).freeSlot .write

end Connection

end LlgoExamples.Hyper
