import LlgoExamples.Library.Blocks
import LlgoExamples.Model.Opendal.Core

/-! # The memory of the C binding

Each struct handed to C is a root. Those that hold nothing but a pointer into Rust own the
value behind it, `opendal_bytes` and `opendal_error` the vector their `data` points to.
Dereferencing or freeing what is not there is undefined. -/

namespace LlgoExamples.Opendal

open Blocks

/-! ## Data -/

/-- `opendal_code`. -/
inductive Code where
  | unexpected
  | unsupported
  | configInvalid
  | notFound
  | permissionDenied
  | isADirectory
  | notADirectory
  | alreadyExists
  | rateLimited
  | isSameFile
  | conditionNotMatch
  | rangeNotSatisfied
  deriving DecidableEq, Repr

/-- An empty vector has no allocation: its pointer dangles, but is not null. -/
inductive Ptr where
  | null
  | dangling
  | block (addr : ℕ)
  deriving DecidableEq, Repr

/-- `opendal_bytes`. -/
structure OpendalBytes where
  data : Ptr
  len : ℕ
  deriving DecidableEq, Repr

/-- The structs of one pointer. -/
inductive Kind where
  | operator
  | options
  | metadata
  | lister
  | entry
  | reader
  | operatorInfo
  deriving DecidableEq, Repr

/-- What the pointer of such a struct points to. -/
@[reducible] def Core.Payload (C : Core) : Kind → Type
  | .operator => C.Operator
  | .options => OptionMap
  | .metadata => C.Metadata
  | .lister => C.Lister
  | .entry => C.Entry
  | .reader => C.StdReader
  | .operatorInfo => C.OperatorInfo

/-- The blocks whose addresses C holds. `memory` is the caller's own, from `malloc`. -/
inductive Root where
  | handle (kind : Kind) (inner : ℕ)
  | bytes (b : OpendalBytes)
  | error (code : Code) (message : OpendalBytes)
  | cString (s : CStr)
  | memory (bytes : List UInt8)
  deriving DecidableEq

/-- The blocks behind them. -/
inductive Part (C : Core) where
  | value (kind : Kind) (v : C.Payload kind)
  | vec (bytes : List UInt8)

/-- Why a call does not return. -/
inductive Fault where
  | panic (message : String)
  | expect (message : String)
  | unwrap
  | undefined
  deriving DecidableEq, Repr

/-- The blocks in use, the addresses handed out so far, and the services. -/
structure World (C : Core) where
  heap : Heap Root (Part C)
  handed : List ℕ
  core : C.State

/-- Before the first call. -/
def World.start {C : Core} (core : C.State) : World C :=
  ⟨∅, [], core⟩

variable {C : Core}

/-! ## Boxes -/

namespace World

/-- `Box::into_raw(Box::new(..))` of a struct handed to C. -/
def box (supply : Supply) (r : Root) (w : World C) : Ptr × World C :=
  let (a, heap) := w.heap.alloc supply w.handed (.root r)
  (.block a, { w with heap := heap, handed := a :: w.handed })

/-- The same of a value that stays behind. -/
def boxPart (supply : Supply) (p : Part C) (w : World C) : ℕ × World C :=
  let (a, heap) := w.heap.alloc supply w.handed (.part p)
  (a, { w with heap := heap, handed := a :: w.handed })

def rootAt (w : World C) (p : Ptr) : Except Fault Root :=
  match p with
  | .block a => (w.heap.root a).elim (.error .undefined) .ok
  | _ => .error .undefined

/-- `(*p).inner`. -/
def inner (w : World C) (kind : Kind) (p : Ptr) : Except Fault ℕ :=
  match w.rootAt p with
  | .ok (.handle kind' inner) => if kind' = kind then .ok inner else .error .undefined
  | _ => .error .undefined

/-- `*inner`. -/
def load (w : World C) (kind : Kind) (inner : ℕ) : Except Fault (C.Payload kind) :=
  match w.heap.part inner with
  | some (.value kind' v) => if h : kind' = kind then .ok (h ▸ v) else .error .undefined
  | _ => .error .undefined

def deref (w : World C) (kind : Kind) (p : Ptr) : Except Fault (C.Payload kind) := do
  let inner ← w.inner kind p
  w.load kind inner

/-- `*inner = v`. -/
def store (w : World C) (kind : Kind) (inner : ℕ) (v : C.Payload kind) : World C :=
  { w with heap := w.heap.insert inner (.part (.value kind v)) }

def setRoot (w : World C) (p : Ptr) (r : Root) : World C :=
  match p with
  | .block a => { w with heap := w.heap.insert a (.root r) }
  | _ => w

/-- Drops the box of a struct. -/
def freeRoot (w : World C) (p : Ptr) : World C :=
  match p with
  | .block a => { w with heap := w.heap.erase a }
  | _ => w

def freePart (w : World C) (inner : ℕ) : World C :=
  { w with heap := w.heap.erase inner }

/-- Lets the services act. -/
def perform {α : Type} (w : World C) (act : C.State → α × C.State) : α × World C :=
  let (a, core) := act w.core
  (a, { w with core := core })

end World

/-- A struct of one pointer, with its value. -/
def newHandle (supply : Supply) (kind : Kind) (v : C.Payload kind) (w : World C) :
    Ptr × World C :=
  let (inner, w) := w.boxPart supply (.value kind v)
  w.box supply (.handle kind inner)

/-- `opendal_operator_free`, `opendal_operator_options_free`, `opendal_metadata_free`,
`opendal_lister_free` and `opendal_operator_info_free`. -/
def freeHandle (kind : Kind) (p : Ptr) (w : World C) : Except Fault (World C) := do
  let inner ← w.inner kind p
  let _ ← w.load kind inner
  pure ((w.freePart inner).freeRoot p)

/-- `opendal_entry_free` and `opendal_reader_free`. -/
def freeHandleOrNull (kind : Kind) (p : Ptr) (w : World C) : Except Fault (World C) :=
  if p = .null then .ok w else freeHandle kind p w

/-! ## Bytes -/

/-- `opendal_bytes::new`. -/
def opendalBytesNew (supply : Supply) (buf : List UInt8) (w : World C) :
    OpendalBytes × World C :=
  if buf = [] then (⟨.dangling, 0⟩, w)
  else
    let (data, w) := w.boxPart supply (.vec buf)
    (⟨.block data, buf.length⟩, w)

/-- `Vec::from_raw_parts(data, len, len)`, and dropping it. -/
def freeVec (b : OpendalBytes) (w : World C) : Except Fault (World C) :=
  match b.data with
  | .block a =>
      match w.heap.part a with
      | some (.vec bytes) => if bytes.length = b.len then .ok (w.freePart a) else .error .undefined
      | _ => .error .undefined
  | .dangling => if b.len = 0 then .ok w else .error .undefined
  | .null => .error .undefined

/-- `slice::from_raw_parts(data, len)`: the bytes of a vector, or memory of the caller. -/
def slice (b : OpendalBytes) (w : World C) : Except Fault (List UInt8) :=
  match b.data with
  | .block a =>
      match w.heap.lookup a with
      | some (.part (.vec bytes)) | some (.root (.memory bytes)) =>
          if b.len ≤ bytes.length then .ok (bytes.take b.len) else .error .undefined
      | _ => .error .undefined
  | .dangling => if b.len = 0 then .ok [] else .error .undefined
  | .null => .error .undefined

/-- `opendal_bytes_free`. -/
def opendalBytesFree (bs : Ptr) (w : World C) : Except Fault (World C) :=
  if bs = .null then .ok w
  else do
    match ← w.rootAt bs with
    | .bytes b =>
        let w ← freeVec b w
        pure (w.freeRoot bs)
    | _ => throw .undefined

/-! ## Errors -/

/-- `impl From<core::ErrorKind> for opendal_code`. -/
def Code.ofKind : ErrorKind → Except Fault Code
  | .unexpected => .ok .unexpected
  | .unsupported => .ok .unsupported
  | .configInvalid => .ok .configInvalid
  | .notFound => .ok .notFound
  | .permissionDenied => .ok .permissionDenied
  | .isADirectory => .ok .isADirectory
  | .notADirectory => .ok .notADirectory
  | .alreadyExists => .ok .alreadyExists
  | .rateLimited => .ok .rateLimited
  | .isSameFile => .ok .isSameFile
  | .conditionNotMatch => .ok .conditionNotMatch
  | .rangeNotSatisfied => .ok .rangeNotSatisfied
  | .other =>
      .error (.panic "The newly added ErrorKind in core crate is not handled in C bindings")

/-- `opendal_error::new`. -/
def opendalErrorNew (supply : Supply) (err : C.Error) (w : World C) :
    Except Fault (Ptr × World C) := do
  let code ← Code.ofKind (C.kind err)
  let (message, w) := opendalBytesNew supply (C.toString err) w
  pure (w.box supply (.error code message))

/-- `opendal_error_free`. -/
def opendalErrorFree (ptr : Ptr) (w : World C) : Except Fault (World C) :=
  if ptr = .null then .ok w
  else do
    match ← w.rootAt ptr with
    | .error _ message =>
        let w ← freeVec message w
        pure (w.freeRoot ptr)
    | _ => throw .undefined

/-! ## The caller's memory -/

/-- `malloc`, with what the caller then puts there. -/
def malloc (supply : Supply) (bytes : List UInt8) (w : World C) : Ptr × World C :=
  w.box supply (.memory bytes)

/-- `free`, for the caller's memory and for the strings that the binding hands out. -/
def cFree (p : Ptr) (w : World C) : Except Fault (World C) :=
  if p = .null then .ok w
  else do
    match ← w.rootAt p with
    | .cString _ => pure (w.freeRoot p)
    | .memory _ => pure (w.freeRoot p)
    | _ => throw .undefined

end LlgoExamples.Opendal
