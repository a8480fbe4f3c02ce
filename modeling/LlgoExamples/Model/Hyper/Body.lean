import LlgoExamples.Model.Hyper.Runtime

/-! # Collecting the response body, and printing it

The body grows in one C buffer that is allocated anew for each chunk. A byte of a block is
`none` until it is written. Reading or writing outside a live block has no meaning. -/

namespace LlgoExamples.Hyper

/-! ## The C heap -/

abbrev Block := List (Option UInt8)

/-- Where `memcpy` reads: a block of the heap, or the bytes of a chunk of hyper's. -/
inductive Source where
  | block (ptr : ℕ)
  | chunk (bytes : Bytes)
  deriving DecidableEq, Repr

inductive HeapEvent where
  | malloc (size : ℕ) (result : Option ℕ)
  | memcpy (dst off : ℕ) (src : Source) (len : ℕ)
  | free (ptr : ℕ)
  | fprintf (text : String)
  deriving DecidableEq, Repr

/-- The live blocks; `next` is a pointer that was never handed out. -/
structure CHeap where
  blocks : List (ℕ × Block)
  next : ℕ
  log : List HeapEvent
  deriving DecidableEq, Repr

namespace CHeap

def empty : CHeap :=
  { blocks := [], next := 0, log := [] }

def record (h : CHeap) (e : HeapEvent) : CHeap :=
  { h with log := h.log ++ [e] }

def malloc (h : CHeap) (ok : Bool) (size : ℕ) : Option ℕ × CHeap :=
  if ok then
    let h' := { h with
      blocks := (h.next, List.replicate size none) :: h.blocks
      next := h.next + 1 }
    (some h.next, h'.record (.malloc size (some h.next)))
  else (none, h.record (.malloc size none))

def free (h : CHeap) (ptr : ℕ) : Option CHeap :=
  if (h.blocks.lookup ptr).isSome then
    let h' := { h with blocks := h.blocks.filter fun block => block.1 ≠ ptr }
    some (h'.record (.free ptr))
  else none

def load (h : CHeap) : Source → Option Block
  | .block ptr => h.blocks.lookup ptr
  | .chunk bytes => some (bytes.map some)

def store (h : CHeap) (ptr : ℕ) (block : Block) : CHeap :=
  { h with blocks := h.blocks.map fun b => if b.1 = ptr then (ptr, block) else b }

/-- `memcpy(dst + off, src, len)`. -/
def memcpy (h : CHeap) (dst off : ℕ) (src : Source) (len : ℕ) : Option CHeap :=
  match h.load src, h.blocks.lookup dst with
  | some bytes, some block =>
      if len ≤ bytes.length ∧ off + len ≤ block.length then
        let h' := h.store dst (block.take off ++ bytes.take len ++ block.drop (off + len))
        some (h'.record (.memcpy dst off src len))
      else none
  | _, _ => none

end CHeap

/-! ## The response -/

structure Response where
  status : UInt16
  message : Bytes
  responseBody : Option ℕ
  responseBodyLen : ℕ
  deriving DecidableEq, Repr

/-- `var response Response`. -/
def Response.zero : Response :=
  { status := 0, message := [], responseBody := none, responseBodyLen := 0 }

def iterContinue : ℕ := 0

def iterBreak : ℕ := 1

def uintptrSize : ℕ := 1 <<< 64

/-- One call for one chunk; `mallocOk` is whether its allocation succeeds. -/
def appendToResponseBody (mallocOk : Bool) (chunk : Bytes) (resp : Response) (h : CHeap) :
    Option (ℕ × Response × CHeap) :=
  let size := (resp.responseBodyLen + chunk.length) % uintptrSize
  match h.malloc mallocOk size with
  | (none, h) =>
      some (iterBreak, resp, h.record (.fprintf "Failed to allocate memory for response body\n"))
  | (some responseBody, h) => do
      let h ← match resp.responseBody with
        | none => some h
        | some old => do
            let h ← h.memcpy responseBody 0 (.block old) resp.responseBodyLen
            h.free old
      let h ← h.memcpy responseBody resp.responseBodyLen (.chunk chunk) chunk.length
      some (iterContinue,
        { resp with responseBody := some responseBody, responseBodyLen := size }, h)

/-! ## Printing the body -/

/-- The first `len` bytes of a block, all of them written. -/
def CHeap.bytes (h : CHeap) (ptr len : ℕ) : Option Bytes :=
  (h.blocks.lookup ptr).bind fun block =>
    if len ≤ block.length then (block.take len).mapM id else none

/-- What `PrintBody` prints, or its panic. The slice is checked before a byte is read, and
`none` is a byte that cannot be. -/
def printBody (resp : Response) (h : CHeap) : Option (Except Panic Bytes) :=
  match resp.responseBody with
  | none =>
      some (.error (.plain "runtime error: invalid memory address or nil pointer dereference"))
  | some ptr =>
      if arrayLen < resp.responseBodyLen then
        some (.error (.plain "runtime error: slice bounds out of range"))
      else (h.bytes ptr resp.responseBodyLen).map fun bytes => .ok (bytes ++ literal "\n")

end LlgoExamples.Hyper
