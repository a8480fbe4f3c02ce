import LlgoExamples.Model.Hyper.Get

/-! # The C programs

`client.c` and `upload.c` share their callbacks, the way they connect, and the loop around
the cases of their switch. A `Program` is what they do not share. -/

namespace LlgoExamples.Hyper.C

open Machine

/-- A C string, which holds no NUL. -/
structure CString where
  bytes : Bytes
  noNul : 0 ∉ bytes
  deriving DecidableEq

/-! ## What a C program does -/

/-- How a program ends: `main` returned, or an assertion failed. -/
inductive Ending where
  | exit (code : ℕ)
  | assertion (condition : String)
  deriving DecidableEq, Repr

/-- The calls that the Go client has as well, and those that only C has. -/
inductive Event where
  | call (e : Hyper.Event)
  | request (e : RequestEvent)
  | onInformational
  | setBody
  | select (nfds : ℤ) (fdsRead fdsWrite : Finset ℤ)
  | write (bytes : Bytes)
  | freeConn
  | pollReady (chunk : Option Block)
  | pollError
  | responseBody (resp : Option ℕ) (body : ℕ)
  | bodyData (body : Option ℕ)
  | bufValue (t : Task)
  | freeBuf (buf : Option ℕ)
  | freeBody (body : Option ℕ)
  | freeUploadBuf
  deriving DecidableEq

/-- The variables of a `main`, and what it has done so far. `none` is a `main` that goes
on. -/
structure State (L : Type) where
  connection : Connection
  locals : L
  log : List Event
  ended : Option Ending

abbrev M (L : Type) := EStateM Ending (State L)

variable {L : Type}

def State.record (s : State L) (e : Event) : State L :=
  { s with log := s.log ++ [e] }

def emit (e : Event) : M L Unit :=
  modify fun s => s.record e

def call (e : Hyper.Event) : M L Unit :=
  emit (.call e)

def printf (format : String) (args : List Arg) : M L Unit :=
  call (.printf format args)

def cAssert (condition : String) (holds : Prop) [Decidable holds] : M L Unit :=
  if holds then pure () else throw (.assertion condition)

/-- `hyper_task_value`, taken for a pointer of the given kind. -/
def taskValue (t : Task) (kind : ValueKind) : M L (Option ℕ) := do
  call (.value t kind)
  pure t.value

/-- `print_each_header`, for each of the headers. -/
def printEachHeader (headers : List (Bytes × Bytes)) : M L Unit :=
  headers.forM fun header => printf "%.*s: %.*s\n" [.bytes header.1, .bytes header.2]

/-! ## The connection -/

/-- Both callbacks: `ret` and `errno` are what the system call left. -/
def ioCb (dir : Direction) (ret errno : ℤ) (conn : Connection) : ℕ × Connection :=
  if 0 ≤ ret then (ret.toNat, conn)
  else if errno ≠ eagain then (ioError, conn)
  else (ioPending, (conn.freeWaker dir).newWaker dir)

def readCb (ret errno : ℤ) (conn : Connection) : ℕ × Connection :=
  ioCb .read ret errno conn

def writeCb (ret errno : ℤ) (conn : Connection) : ℕ × Connection :=
  ioCb .write ret errno conn

/-- `free_conn_data`. -/
def freeConnData : M L Unit := do
  modify fun s => { s with connection := (s.connection.freeSlot .read).freeSlot .write }
  emit .freeConn

/-- `hyper_waker_wake(conn->…_waker)`, and the slot is cleared. -/
def wake (dir : Direction) : M L Unit :=
  modify fun s => { s with connection := s.connection.wake dir }

/-- The round after `hyper_executor_poll` found no task. There is no timeout. -/
def selectRound (ready : Readiness) : M L Unit := do
  let s ← MonadState.get
  let conn := s.connection
  let fdsRead := conn.fdSet .read
  let fdsWrite := conn.fdSet .write
  emit (.select (conn.data.fd + 1) fdsRead fdsWrite)
  if ready.ret < 0 then
    printf "select() error\n" []
    throw (.exit 1)
  if conn.data.fd ∈ fdsRead ∩ ready.read then
    wake .read
  if conn.data.fd ∈ fdsWrite ∩ ready.write then
    wake .write

/-! ## The loop -/

/-- What the two programs do not share: their variables, the functions they give to hyper
with what these are called with, and the cases of the switch. -/
structure Program where
  Locals : Type
  CallBack : Type
  Answers : Type
  callBack : CallBack → M Locals Unit
  handleTask : Task → Answers → M Locals Unit

inductive Input (K A : Type) where
  | readCb (ret errno : ℤ)
  | writeCb (ret errno : ℤ)
  | callBack (k : K)
  | task (t : Task) (a : A)
  | select (ready : Readiness)
  deriving DecidableEq

namespace Program

variable (p : Program)

def perform : Input p.CallBack p.Answers → M p.Locals Unit
  | .readCb ret errno =>
      modify fun s => { s with connection := (readCb ret errno s.connection).2 }
  | .writeCb ret errno =>
      modify fun s => { s with connection := (writeCb ret errno s.connection).2 }
  | .callBack k => p.callBack k
  | .task t a => do
      call (.polled t)
      p.handleTask t a
  | .select ready => selectRound ready

/-- `exit` and `assert` end a program where they are called. -/
def settle (r : EStateM.Result Ending (State p.Locals) Unit) : State p.Locals :=
  match r with
  | .ok _ s => s
  | .error e s => { s with ended := some e }

/-- One input, as long as the program goes on. -/
def step (s : State p.Locals) (i : Input p.CallBack p.Answers) : Option (State p.Locals) :=
  if s.ended = none then some (p.settle ((p.perform i).run s)) else none

end Program

/-! ## Up to the loop -/

/-- The host and the port that both programs take where they are given none. -/
def defaultHost : CString := ⟨literal "httpbin.org", by decide⟩

def defaultPort : CString := ⟨literal "80", by decide⟩

/-- `connect_to`: what it returns and prints. The variable `sfd` is not initialised. The
loop is the one of the Go client. -/
def connectTo (alloc : Sockets) (sfd : ℤ) (host port : CString) (net : Network) (k : Kernel) :
    (ℤ × List Event) × Kernel :=
  let k := k.record (.getaddrinfo host.bytes port.bytes afUnspec sockStream)
  if net.getaddrinfoRet ≠ 0 then
    ((-1, [.call (.printf "dns failed for %s\n" [.bytes host.bytes])]), k)
  else
    let loop := connectLoop alloc sfd net.result k
    let k := loop.kernel.record .freeaddrinfo
    if loop.rp = none then
      ((-1, [.call (.printf "connect failed for %s\n" [.bytes host.bytes])]), k)
    else ((loop.sfd, []), k)

/-- What one run of a program meets. -/
structure Surroundings (K A : Type) where
  sfd : ℤ
  network : Network
  version : Bytes
  handshakeTask : ℕ
  handshakeRes : Code
  inputs : List (Input K A)

/-- How far a program got: the kernel, and the state of the loop, or what it printed before
it returned 1 without one. -/
structure MainRun (L : Type) where
  kernel : Kernel
  outcome : Except (List Event) (State L)

/-- A `main` from `connect_to` on. -/
def Program.runMain (p : Program) (alloc : Sockets) (connected : String)
    (host port path : CString) (locals : p.Locals)
    (env : Surroundings p.CallBack p.Answers) (k : Kernel) : Option (MainRun p.Locals) :=
  let log :=
    [.call (.printf "connecting to port %s on %s...\n" [.bytes port.bytes, .bytes host.bytes])]
  let ((fd, printed), k) := connectTo alloc env.sfd host port env.network k
  let log := log ++ printed
  if fd < 0 then some { kernel := k, outcome := .error log }
  else
    let log := log ++ [.call (.printf connected [.bytes host.bytes, .bytes path.bytes])]
    let k := k.record (.fcntl fd fSetFl oNonblock)
    if env.network.fcntlRet ≠ 0 then
      some { kernel := k
             outcome := .error (log ++
               [.call (.printf "failed to set socket to non-blocking\n" [])]) }
    else
      let log := log ++ [.call (.printf "http handshake (hyper v%s) ...\n" [.bytes env.version]),
        .call (.push env.handshakeTask .handshake env.handshakeRes)]
      (run p.step
        { connection := Connection.opened fd, locals := locals, log := log, ended := none }
        env.inputs).map fun s => { kernel := k, outcome := .ok s }

end LlgoExamples.Hyper.C
