import LlgoExamples.Model.Hyper.CProgram

/-! # `client.c`

The program from which the Go client was written. -/

namespace LlgoExamples.Hyper.C.Client

/-- What hyper answers while the program handles a task. -/
structure Answers extends Hyper.Answers where
  request : RequestAnswers
  deriving DecidableEq, Repr

/-- `err = hyper_task_value(task)`, then `goto fail`. -/
def fail (t : Task) (a : Answers) : M Unit Unit := do
  let err ← taskValue t .error
  if err ≠ none then
    printf "error code: %d\n" [.int a.errorCode]
    printf "details: %.*s\n" [.bytes (a.errorDetails.take errBufLen)]
    call (.freeError err)
  throw (.exit 1)

/-! ## The cases of the switch -/

def handshakeCase (host path : CString) (t : Task) (a : Answers) : M Unit Unit := do
  if t.type = .error then
    printf "handshake error!\n" []
    fail t a
  cAssert "hyper_task_type(task) == HYPER_TASK_CLIENTCONN" (t.type = .clientConn)
  printf "preparing http request ...\n" []
  let client ← taskValue t .clientConn
  call (.freeTask t)
  emit (.request (.setMethod (literal "GET")))
  if a.request.setMethod ≠ .ok then
    printf "error setting method\n" []
    throw (.exit 1)
  emit (.request (.setURI path.bytes))
  if a.request.setURI ≠ .ok then
    printf "error setting uri\n" []
    throw (.exit 1)
  emit (.request (.setHeader (literal "Host") host.bytes))
  call (.send client)
  printf "sending ...\n" []
  call (.push a.sendTask .send a.sendRes)
  call (.freeClient client)

def sendCase (t : Task) (a : Answers) : M Unit Unit := do
  if t.type = .error then
    printf "send error!\n" []
    fail t a
  cAssert "hyper_task_type(task) == HYPER_TASK_RESPONSE" (t.type = .response)
  let resp ← taskValue t .response
  call (.freeTask t)
  call (.status resp a.status)
  call (.reasonPhrase resp a.reasonPhrase a.reasonPhraseLen)
  let phrase := (a.reasonPhrase.getD []).take a.reasonPhraseLen
  printf "\nResponse Status: %d %.*s\n" [.int a.status.toNat, .bytes phrase]
  printEachHeader a.headers
  printf "\n" []
  call (.foreachBody resp)
  call (.push a.foreachTask .respBody a.foreachRes)
  call (.freeResponse resp)

def respBodyCase (t : Task) (a : Answers) : M Unit Unit := do
  if t.type = .error then
    printf "body error!\n" []
    fail t a
  cAssert "hyper_task_type(task) == HYPER_TASK_EMPTY" (t.type = .empty)
  printf "\n -- Done! -- \n" []
  call (.freeTask t)
  call .freeExec
  freeConnData
  throw (.exit 0)

def notSetCase (t : Task) : M Unit Unit :=
  call (.freeTask t)

def handleTask (host path : CString) (t : Task) (a : Answers) : M Unit Unit :=
  match t.userdata with
  | .handshake => handshakeCase host path t a
  | .send => sendCase t a
  | .respBody => respBodyCase t a
  | .notSet => notSetCase t

/-- `print_each_chunk`. -/
def printEachChunk (chunk : Bytes) : M Unit Unit :=
  emit (.write chunk)

/-! ## The program -/

def program (host path : CString) : Program where
  Locals := Unit
  CallBack := Bytes
  Answers := Answers
  callBack := printEachChunk
  handleTask := handleTask host path

/-- One input of the loop. -/
def step (host path : CString) : State Unit → Input Bytes Answers → Option (State Unit) :=
  (program host path).step

/-- The path that `main` takes where it is given none. -/
def defaultPath : CString := ⟨literal "/", by decide⟩

/-- `main`, where the first of `argv` is the name of the program. -/
def main (alloc : Sockets) (argv : List CString) (env : Surroundings Bytes Answers) (k : Kernel) :
    Option (MainRun Unit) :=
  let host := argv.getD 1 defaultHost
  let port := argv.getD 2 defaultPort
  let path := argv.getD 3 defaultPath
  (program host path).runMain alloc "connected to %s, now get %s\n" host port path () env k

end LlgoExamples.Hyper.C.Client
