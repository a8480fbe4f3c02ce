import LlgoExamples.Model.Opendal.Calls

/-! # The demos of the binding

`error_handle.go` returns early where something is not as it expects, the C programs assert.
All answer with what they printed. -/

namespace LlgoExamples.Opendal

variable {C : Core} (supply : Supply)

/-! ## `error_handle.go` -/

/-- The discriminants of `opendal_code`, which the constants of the Go package count as
well. -/
def Code.toInt : Code → ℕ
  | .unexpected => 0
  | .unsupported => 1
  | .configInvalid => 2
  | .notFound => 3
  | .permissionDenied => 4
  | .isADirectory => 5
  | .notADirectory => 6
  | .alreadyExists => 7
  | .rateLimited => 8
  | .isSameFile => 9
  | .conditionNotMatch => 10
  | .rangeNotSatisfied => 11

/-- `opendal.NotFound`. -/
def goNotFound : ℕ := 3

/-- `(*[1 << 30]uint8)(c.Pointer(data))[:n:n]`. -/
def arraySlice (bytes : List UInt8) : Except Fault (List UInt8) :=
  if bytes.length ≤ 1 <<< 30 then .ok bytes
  else .error (.panic "runtime error: slice bounds out of range")

/-- `main` of `error_handle.go`. -/
def errorHandleMain (w : World C) : Except Fault (List UInt8 × World C) := do
  let (result, w) ← opendalOperatorNew supply (CStr.new "memory") .null w
  if result.value = .null then return ([], w)
  if result.error ≠ .null then return ([], w)
  let op := result.value
  let (r, w) ← opendalOperatorRead supply op (CStr.new "testpath") w
  if r.error = .null then return ([], w)
  let (code, message) ← loadError r.error w
  if code.toInt ≠ goNotFound then return ([], w)
  let dataSlice ← arraySlice message
  let w ← opendalErrorFree r.error w
  let w ← opendalOperatorFree op w
  return (dataSlice, w)

/-! ## `basic.c` -/

/-- How a C program ends before its time. -/
inductive Abort where
  | assertion (condition : String)
  | fault (f : Fault)
  deriving DecidableEq, Repr

def cAssert (condition : String) (holds : Bool) : Except Abort Unit :=
  if holds then .ok () else .error (.assertion condition)

/-- A call of the library from C. -/
def calling {α : Type} (x : Except Fault α) : Except Abort α :=
  x.mapError .fault

/-- `main` of `basic.c`, where `data` points to the 24 characters of its string. -/
def basicMain (data : Ptr) (w : World C) : Except Abort (List UInt8 × World C) := do
  let (result, w) ← calling (opendalOperatorNew supply (CStr.new "memory") .null w)
  cAssert "result.op != NULL" (result.value ≠ .null)
  cAssert "result.error == NULL" (result.error = .null)
  let op := result.value
  let (error, w) ← calling (opendalOperatorWrite supply op (CStr.new "/testpath") ⟨data, 24⟩ w)
  cAssert "error == NULL" (error = .null)
  let (r, w) ← calling (opendalOperatorRead supply op (CStr.new "/testpath") w)
  let readBytes := r.value
  cAssert "r.error == NULL" (r.error = .null)
  let bytes ← calling (loadBytes readBytes w)
  cAssert "read_bytes->len == 24" (bytes.length = 24)
  let w ← calling (opendalBytesFree readBytes w)
  let w ← calling (opendalOperatorFree op w)
  return (bytes.take 24 ++ [10], w)

/-! ## `error_handle.c` -/

/-- `INT_MAX`. -/
def intMax : ℕ := 2147483647

/-- What a loop that counts with an `int` prints. -/
def printWithInt (bytes : List UInt8) : Except Fault (List UInt8) :=
  if bytes.length ≤ intMax then .ok bytes else .error .undefined

/-- `main` of `error_handle.c`. -/
def errorHandleC (w : World C) : Except Abort (List UInt8 × World C) := do
  let (result, w) ← calling (opendalOperatorNew supply (CStr.new "memory") .null w)
  cAssert "result.op != NULL" (result.value ≠ .null)
  cAssert "result.error == NULL" (result.error = .null)
  let op := result.value
  let (r, w) ← calling (opendalOperatorRead supply op (CStr.new "/testpath") w)
  cAssert "r.error != NULL" (r.error ≠ .null)
  let (code, message) ← calling (loadError r.error w)
  cAssert "r.error->code == OPENDAL_NOT_FOUND" (code = .notFound)
  let printed ← calling (printWithInt message)
  let w ← calling (opendalErrorFree r.error w)
  let w ← calling (opendalOperatorFree op w)
  return (printed, w)

end LlgoExamples.Opendal
