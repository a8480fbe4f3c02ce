import Mathlib.Data.List.AList

/-! # The `opendal` crate

The storage services behind the C binding are a parameter: their state, and what each of
their operations answers. -/

namespace LlgoExamples.Opendal

/-- `core::ErrorKind`. The enumeration is open: `other` is a kind added to it later. -/
inductive ErrorKind where
  | unexpected
  | unsupported
  | configInvalid
  | notFound
  | permissionDenied
  | isADirectory
  | notADirectory
  | alreadyExists
  | rateLimited
  | isSameFile
  | conditionNotMatch
  | rangeNotSatisfied
  | other
  deriving DecidableEq, Repr

/-- `HashMap<String, String>`. -/
abbrev OptionMap := AList fun _ : String => String

structure Core where
  /-- The services, and whatever else they depend on. -/
  State : Type
  Scheme : Type
  Error : Type
  IoError : Type
  AsyncOperator : Type
  BlockingLayer : Type
  Operator : Type
  Metadata : Type
  Lister : Type
  Entry : Type
  Reader : Type
  StdReader : Type
  OperatorInfo : Type
  /- errors -/
  kind : Error → ErrorKind
  toString : Error → List UInt8
  newError : ErrorKind → String → Error
  setSource : Error → IoError → Error
  kind_newError : ∀ k message, kind (newError k message) = k
  kind_setSource : ∀ e source, kind (setSource e source) = kind e
  /- building an operator -/
  schemeFromStr : String → Except Error Scheme
  viaMap : Scheme → (String → Option String) → State → Except Error AsyncOperator × State
  fullCapabilityBlocking : AsyncOperator → Bool
  createBlockingLayer : State → Except Error BlockingLayer
  layer : AsyncOperator → BlockingLayer → AsyncOperator
  blocking : AsyncOperator → Operator
  /- the blocking operator -/
  write : Operator → String → List UInt8 → State → Except Error Unit × State
  read : Operator → String → State → Except Error (List UInt8) × State
  reader : Operator → String → State → Except Error Reader × State
  intoStdRead : Reader → State → Except Error StdReader × State
  delete : Operator → String → State → Except Error Unit × State
  isExist : Operator → String → State → Except Error Bool × State
  stat : Operator → String → State → Except Error Metadata × State
  lister : Operator → String → State → Except Error Lister × State
  createDir : Operator → String → State → Except Error Unit × State
  rename : Operator → String → String → State → Except Error Unit × State
  copy : Operator → String → String → State → Except Error Unit × State
  info : Operator → OperatorInfo
  /- what the operations hand out -/
  next : Lister → State → (Option (Except Error Entry) × Lister) × State
  /-- `Read::read` into a buffer of the given length: what it puts there. -/
  readStd : StdReader → ℕ → State → (Except IoError (List UInt8) × StdReader) × State
  length_readStd : ∀ r n s bytes, (readStd r n s).1.1 = .ok bytes → bytes.length ≤ n
  contentLength : Metadata → UInt64
  isFile : Metadata → Bool
  isDir : Metadata → Bool
  /-- The time in milliseconds, where the service knows it. -/
  lastModified : Metadata → Option ℤ
  entryPath : Entry → String
  entryName : Entry → String
  infoScheme : OperatorInfo → String
  infoRoot : OperatorInfo → String
  infoName : OperatorInfo → String

/-! ## C strings -/

/-- The bytes before the NUL that ends a C string. -/
structure CStr where
  bytes : List UInt8
  nulFree : 0 ∉ bytes
  deriving DecidableEq

/-- `CStr::to_str`. -/
def CStr.toStr (s : CStr) : Option String :=
  String.fromUTF8? ⟨s.bytes.toArray⟩

/-- `CString::new`. -/
def CStr.new (s : String) : Option CStr :=
  if h : 0 ∈ s.toUTF8.data.toList then none else some ⟨s.toUTF8.data.toList, h⟩

end LlgoExamples.Opendal
