import LlgoExamples.Library.Machine
import LlgoExamples.Model.Hyper.Body
import LlgoExamples.Model.Hyper.Connect
import LlgoExamples.Model.Hyper.Connection
import LlgoExamples.Model.Hyper.Request

/-! # Get

The polling loop as a machine. Its inputs are what happens to `Get` from outside, in the
order it happens: a callback, a chunk of the body, a task that `Poll` returns, and a round
of `select` after `Poll` returned none. What hyper answers to the calls that handle a task
comes with the task. -/

namespace LlgoExamples.Hyper

open Machine

/-! ## Tasks -/

/-- `hyper.ExampleId`. -/
inductive ExampleId where
  | notSet
  | handshake
  | send
  | respBody
  deriving DecidableEq, Repr

/-- `hyper.TaskReturnType`. -/
inductive TaskReturnType where
  | empty
  | error
  | clientConn
  | response
  | buf
  deriving DecidableEq, Repr

/-- A completed task. `none` is a null value. -/
structure Task where
  id : ℕ
  userdata : ExampleId
  type : TaskReturnType
  value : Option ℕ
  deriving DecidableEq, Repr

/-- What hyper answers while `Get` handles a task. -/
structure Answers where
  errorCode : ℤ
  errorDetails : Bytes
  sendTask : ℕ
  sendRes : Code
  reasonPhrase : Option Bytes
  reasonPhraseLen : ℕ
  status : UInt16
  headers : List (Bytes × Bytes)
  foreachTask : ℕ
  foreachRes : Code
  deriving DecidableEq, Repr

/-! ## What Get does -/

/-- What a task's value is taken for. -/
inductive ValueKind where
  | error
  | clientConn
  | response
  deriving DecidableEq, Repr

inductive Arg where
  | int (n : ℤ)
  | bytes (bytes : Bytes)
  deriving DecidableEq, Repr

inductive Event where
  | printf (format : String) (args : List Arg)
  | push (task : ℕ) (userdata : ExampleId) (res : Code)
  | polled (t : Task)
  | value (t : Task) (kind : ValueKind)
  | freeTask (t : Task)
  | send (client : Option ℕ)
  | freeClient (client : Option ℕ)
  | reasonPhrase (resp : Option ℕ) (phrase : Option Bytes) (len : ℕ)
  | status (resp : Option ℕ) (status : UInt16)
  | foreachBody (resp : Option ℕ)
  | freeResponse (resp : Option ℕ)
  | freeError (err : Option ℕ)
  | freeExec
  deriving DecidableEq, Repr

inductive Status where
  | running
  | returned
  | panicked (p : Panic)
  deriving DecidableEq, Repr

/-- The local variables of `Get`, and what it has done so far. -/
structure GetState where
  connection : Connection
  err : Option ℕ
  response : Response
  heap : CHeap
  log : List Event
  status : Status
  deriving DecidableEq

abbrev GetM := EStateM Panic GetState

def GetState.record (s : GetState) (e : Event) : GetState :=
  { s with log := s.log ++ [e] }

def emit (e : Event) : GetM Unit :=
  modify fun s => s.record e

def printf (format : String) (args : List Arg) : GetM Unit :=
  emit (.printf format args)

/-- `task.Value()`, cast to a pointer of the given kind. -/
def taskValue (t : Task) (kind : ValueKind) : GetM (Option ℕ) := do
  emit (.value t kind)
  pure t.value

/-! ## Failing -/

def errBufLen : ℕ := 256

def fail (err : Option ℕ) (a : Answers) : GetM Unit := do
  if err ≠ none then
    printf "error code: %d\n" [.int a.errorCode]
    printf "details: " []
    (a.errorDetails.take errBufLen).forM fun char => printf "%c" [.bytes [char]]
    printf "\n" []
    emit (.freeError err)
    throw (.plain "request failed\n")

/-- `err = (*hyper.Error)(task.Value())`, then `fail(err)`. -/
def failWithValue (t : Task) (a : Answers) : GetM Unit := do
  let err ← taskValue t .error
  modify fun s => { s with err := err }
  fail err a

/-- `fail(err)` with what `err` holds. -/
def failWithErr (a : Answers) : GetM Unit := do
  let s ← get
  fail s.err a

/-! ## The cases of the switch -/

/-- The two checks a tagged task meets, with the texts of its case. -/
def checkType (t : Task) (a : Answers) (expected : TaskReturnType)
    (errorText unexpectedText : String) : GetM Unit := do
  if t.type = .error then
    printf errorText []
    failWithValue t a
  if t.type ≠ expected then
    printf unexpectedText []
    failWithErr a

def handshakeCase (t : Task) (a : Answers) : GetM Unit := do
  checkType t a .clientConn "handshake error!\n" "169 unexpected task type\n"
  printf "preparing http request ...\n" []
  let client ← taskValue t .clientConn
  emit (.freeTask t)
  emit (.send client)
  printf "sending ...\n" []
  emit (.push a.sendTask .send a.sendRes)
  if a.sendRes ≠ .ok then
    throw (.plain "error send\n")
  emit (.freeClient client)

def sendCase (t : Task) (a : Answers) : GetM Unit := do
  checkType t a .response "send error!\n" "unexpected task type\n"
  let resp ← taskValue t .response
  emit (.freeTask t)
  emit (.reasonPhrase resp a.reasonPhrase a.reasonPhraseLen)
  emit (.status resp a.status)
  modify fun s => { s with response := { s.response with status := a.status } }
  match stringOf a.reasonPhrase a.reasonPhraseLen with
  | .error p => throw p
  | .ok message =>
    modify fun s => { s with response := { s.response with message := message } }
    a.headers.forM fun header => printf "%.*s: %.*s\n" [.bytes header.1, .bytes header.2]
    printf "\n" []
    emit (.foreachBody resp)
    emit (.push a.foreachTask .respBody a.foreachRes)
    emit (.freeResponse resp)

def respBodyCase (t : Task) (a : Answers) : GetM Unit := do
  checkType t a .empty "body error!\n" "unexpected task type\n"
  emit (.freeTask t)
  emit .freeExec
  modify fun s => { s with connection := s.connection.freeConnData, status := .returned }

def notSetCase (t : Task) : GetM Unit :=
  emit (.freeTask t)

def handleTask (t : Task) (a : Answers) : GetM Unit := do
  emit (.polled t)
  match t.userdata with
  | .handshake => handshakeCase t a
  | .send => sendCase t a
  | .respBody => respBodyCase t a
  | .notSet => notSetCase t

/-! ## The loop -/

inductive Input where
  | readCallBack (ret errno : ℤ)
  | writeCallBack (ret errno : ℤ)
  | bodyChunk (mallocOk : Bool) (chunk : Bytes)
  | task (t : Task) (a : Answers)
  | select (ready : Readiness)
  deriving DecidableEq

/-- A panic ends `Get` where it happened. -/
def settle (r : EStateM.Result Panic GetState Unit) : GetState :=
  match r with
  | .ok _ s => s
  | .error p s => { s with status := .panicked p }

/-- One input, as long as `Get` has neither returned nor panicked. -/
def step (s : GetState) (i : Input) : Option GetState :=
  if s.status = .running then
    match i with
    | .readCallBack ret errno =>
        some { s with connection := (s.connection.readCallBack ret errno).2 }
    | .writeCallBack ret errno =>
        some { s with connection := (s.connection.writeCallBack ret errno).2 }
    | .bodyChunk mallocOk chunk =>
        (appendToResponseBody mallocOk chunk s.response s.heap).map fun r =>
          { s with response := r.2.1, heap := r.2.2 }
    | .task t a => some (settle ((handleTask t a).run s))
    | .select ready =>
        match s.connection.selectRound ready with
        | (none, c) => some { s with connection := c }
        | (some p, c) => some { s with connection := c, status := .panicked p }
  else none

/-- `Get` when it enters the loop: the handshake task has been pushed. -/
def GetState.start (fd : ℤ) (handshakeTask : ℕ) (handshakeRes : Code) : GetState :=
  { connection := Connection.opened fd
    err := none
    response := Response.zero
    heap := CHeap.empty
    log := [.push handshakeTask .handshake handshakeRes]
    status := .running }

/-! ## One request -/

/-- What one call of `Get` meets. -/
structure Surroundings where
  request : RequestAnswers
  network : Network
  handshakeTask : ℕ
  handshakeRes : Code
  inputs : List Input
  deriving DecidableEq

/-- How far a call of `Get` got: the request it set up, the kernel, and the state of the
loop or the panic before it. -/
structure GetRun where
  request : List RequestEvent
  kernel : Kernel
  outcome : Except Panic GetState

def get (alloc : Sockets) (host port path : Bytes) (env : Surroundings) (k : Kernel) :
    Option GetRun :=
  match prepareRequest host path env.request with
  | (.error p, request) => some { request := request, kernel := k, outcome := .error p }
  | (.ok (), request) =>
    match connectTo alloc host port env.network k with
    | (.error p, k) => some { request := request, kernel := k, outcome := .error p }
    | (.ok fd, k) =>
        (run step (GetState.start fd env.handshakeTask env.handshakeRes) env.inputs).map
          fun s => { request := request, kernel := k, outcome := .ok s }

/-! ## The program -/

/-- `fmt.Println(resp.Status, resp.Message)`. -/
def printStatus (resp : Response) : Bytes :=
  literal (toString resp.status.toNat) ++ literal " " ++ resp.message ++ literal "\n"

/-- What `main` prints itself, and the panic that ends it. -/
structure Printout where
  text : Bytes
  panic : Option Panic
  deriving DecidableEq, Repr

/-- What `main` does with a response. `none` is a byte that cannot be read. -/
def printResponse (resp : Response) (h : CHeap) : Option Printout :=
  (printBody resp h).map fun
    | .ok body => { text := printStatus resp ++ body, panic := none }
    | .error p => { text := printStatus resp, panic := some p }

/-- `main`, which asks `httpbin.org`. -/
def main (alloc : Sockets) (env : Surroundings) (k : Kernel) : Option (GetRun × Printout) :=
  (get alloc (literal "httpbin.org") (literal "80") (literal "/") env k).bind fun r =>
    match r.outcome with
    | .error p => some (r, { text := [], panic := some p })
    | .ok s =>
      match s.status with
      | .running => some (r, { text := [], panic := none })
      | .panicked p => some (r, { text := [], panic := some p })
      | .returned => (printResponse s.response s.heap).map fun printout => (r, printout)

end LlgoExamples.Hyper
