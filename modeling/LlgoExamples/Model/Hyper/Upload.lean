import LlgoExamples.Model.Hyper.CProgram

/-! # `upload.c`

The body of the request is read from a file whenever hyper asks for more of it. The body of
the response comes a chunk at a time, each as the value of a task. -/

namespace LlgoExamples.Hyper.C.Upload

/-! ## The body of the request -/

def bufLen : ℕ := 8192

/-- `struct upload_body`, with what is still to be read of its file. -/
structure UploadBody where
  file : Bytes
  buf : Block
  deriving DecidableEq, Repr

/-- What `read` answers: an error, or that this much more than one byte can be had. -/
inductive ReadAnswer where
  | failed (errno : ℤ)
  | ready (more : ℕ)
  deriving DecidableEq, Repr

/-- `read(upload->fd, upload->buf, upload->len)`. -/
def UploadBody.read (upload : UploadBody) : ReadAnswer → ℤ × UploadBody
  | .failed _ => (-1, upload)
  | .ready more =>
      let bytes := upload.file.take (min (more + 1) upload.buf.length)
      (bytes.length,
        { file := upload.file.drop bytes.length
          buf := bytes.map some ++ upload.buf.drop bytes.length })

/-- The variables of `main` that its callbacks and cases share. -/
structure Locals where
  upload : UploadBody
  respBody : Option ℕ
  deriving DecidableEq, Repr

/-- `poll_req_upload`. -/
def pollReqUpload (answer : ReadAnswer) : M Locals Unit := do
  let s ← MonadState.get
  let (res, upload) := s.locals.upload.read answer
  set { s with locals := { s.locals with upload := upload } }
  if 0 < res then
    emit (.pollReady (some (upload.buf.take res.toNat)))
  else if res = 0 then
    emit (.pollReady none)
  else
    let errno := match answer with
      | .failed errno => errno
      | .ready _ => 0
    printf "error reading upload file: %d" [.int errno]
    emit .pollError

/-- `print_informational`. -/
def printInformational (status : UInt16) : M Locals Unit :=
  printf "\nInformational (1xx): %d\n" [.int status.toNat]

inductive CallBack where
  | pollReqUpload (answer : ReadAnswer)
  | printInformational (status : UInt16)
  deriving DecidableEq, Repr

def callBack : CallBack → M Locals Unit
  | .pollReqUpload answer => pollReqUpload answer
  | .printInformational status => printInformational status

/-! ## The cases of the switch -/

/-- What hyper answers while the program handles a task. `chunk` is what the buffer holds
that a task has for its value. -/
structure Answers where
  request : RequestAnswers
  sendTask : ℕ
  sendRes : Code
  status : UInt16
  headers : List (Bytes × Bytes)
  respBody : ℕ
  dataTask : ℕ
  dataRes : Code
  chunk : Bytes
  deriving DecidableEq, Repr

def handshakeCase (host path : CString) (t : Task) (a : Answers) : M Locals Unit := do
  if t.type = .error then
    printf "handshake error!\n" []
    throw (.exit 1)
  cAssert "task_type == HYPER_TASK_CLIENTCONN" (t.type = .clientConn)
  printf "preparing http request ...\n" []
  let client ← taskValue t .clientConn
  call (.freeTask t)
  emit (.request (.setMethod (literal "POST")))
  if a.request.setMethod ≠ .ok then
    printf "error setting method\n" []
    throw (.exit 1)
  emit (.request (.setURI path.bytes))
  if a.request.setURI ≠ .ok then
    printf "error setting uri\n" []
    throw (.exit 1)
  emit (.request (.setHeader (literal "host") host.bytes))
  emit (.request (.setHeader (literal "expect") (literal "100-continue")))
  printf "    with expect-continue ...\n" []
  emit .onInformational
  emit .setBody
  call (.send client)
  printf "sending ...\n" []
  call (.push a.sendTask .send a.sendRes)
  call (.freeClient client)

/-- The task for the next chunk of the response is made and pushed. -/
def pushBodyData (a : Answers) : M Locals Unit := do
  let s ← MonadState.get
  emit (.bodyData s.locals.respBody)
  call (.push a.dataTask .respBody a.dataRes)

def sendCase (t : Task) (a : Answers) : M Locals Unit := do
  if t.type = .error then
    printf "send error!\n" []
    throw (.exit 1)
  cAssert "task_type == HYPER_TASK_RESPONSE" (t.type = .response)
  let resp ← taskValue t .response
  call (.freeTask t)
  call (.status resp a.status)
  printf "\nResponse Status: %d\n" [.int a.status.toNat]
  printEachHeader a.headers
  printf "\n" []
  emit (.responseBody resp a.respBody)
  modify fun s => { s with locals := { s.locals with respBody := some a.respBody } }
  pushBodyData a
  call (.freeResponse resp)

def respBodyCase (t : Task) (a : Answers) : M Locals Unit := do
  if t.type = .error then
    printf "body error!\n" []
    throw (.exit 1)
  if t.type = .buf then
    emit (.bufValue t)
    emit (.write a.chunk)
    emit (.freeBuf t.value)
    call (.freeTask t)
    pushBodyData a
  else
    cAssert "task_type == HYPER_TASK_EMPTY" (t.type = .empty)
    call (.freeTask t)
    let s ← MonadState.get
    emit (.freeBody s.locals.respBody)
    printf "\n -- Done! -- \n" []
    call .freeExec
    freeConnData
    emit .freeUploadBuf
    throw (.exit 0)

def notSetCase (t : Task) : M Locals Unit :=
  call (.freeTask t)

def handleTask (host path : CString) (t : Task) (a : Answers) : M Locals Unit :=
  match t.userdata with
  | .handshake => handshakeCase host path t a
  | .send => sendCase t a
  | .respBody => respBodyCase t a
  | .notSet => notSetCase t

/-! ## The program -/

def program (host path : CString) : Program where
  Locals := Locals
  CallBack := CallBack
  Answers := Answers
  callBack := callBack
  handleTask := handleTask host path

/-- One input of the loop. -/
def step (host path : CString) : State Locals → Input CallBack Answers → Option (State Locals) :=
  (program host path).step

/-- The path that `main` takes where it is given none. -/
def defaultPath : CString := ⟨literal "/post", by decide⟩

/-- The buffer and the file as `main` has them when it enters the loop. -/
def Locals.start (file : Bytes) : Locals :=
  { upload := { file := file, buf := List.replicate bufLen none }, respBody := none }

/-- `main`. `file` is what the file holds that the first argument names, or the error that
opening it left. -/
def main (alloc : Sockets) (argv : List CString) (file : Except Bytes Bytes)
    (env : Surroundings CallBack Answers) (k : Kernel) : Option (MainRun Locals) :=
  let host := argv.getD 2 defaultHost
  let port := argv.getD 3 defaultPort
  let path := argv.getD 4 defaultPath
  match argv[1]?, file with
  | none, _ =>
      let text := "Pass a file path as the first argument.\n"
      some { kernel := k, outcome := .error [.call (.printf text [])] }
  | some _, .error strerror =>
      let text := "error opening file to upload: %s\n"
      some { kernel := k, outcome := .error [.call (.printf text [.bytes strerror])] }
  | some _, .ok file =>
      (program host path).runMain alloc "connected to %s, now upload to %s\n" host port path
        (Locals.start file) env k

end LlgoExamples.Hyper.C.Upload
