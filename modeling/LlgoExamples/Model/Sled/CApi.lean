import LlgoExamples.Library.Supply
import Mathlib.Data.Finset.Dedup
import Mathlib.Data.List.Defs

/-! # The C interface of the sled wrapper

The tree is a map from byte strings to byte strings, the buffers handed out by `leakBuf`
and not yet handed back are explicit, and an output pointer that may be null is an
`Option` of the content of the variable it points to. -/

namespace LlgoExamples.Sled

abbrev Bytes := List UInt8

/-! ## The tree -/

abbrev Tree := Bytes → Option Bytes

structure CompareAndSwapError where
  current : Option Bytes
  proposed : Option Bytes
  deriving DecidableEq, Repr

namespace Tree

def insert (t : Tree) (key value : Bytes) : Tree :=
  Function.update t key (some value)

def remove (t : Tree) (key : Bytes) : Tree :=
  Function.update t key none

/-- `none` as the old value asks for an absent key, as the new value it deletes the key. -/
def compareAndSwap (t : Tree) (key : Bytes) (old new : Option Bytes) :
    Except CompareAndSwapError Tree :=
  if t key = old then .ok (Function.update t key new)
  else .error { current := t key, proposed := new }

end Tree

/-! ## Buffers -/

/-- A boxed slice without bytes has no allocation: its pointer dangles, but is not null. -/
inductive Ptr where
  | null
  | dangling
  | block (addr : ℕ)
  deriving DecidableEq, Repr

def Ptr.addr? : Ptr → Option ℕ
  | .block addr => some addr
  | _ => none

structure Buf where
  ptr : Ptr
  bytes : Bytes
  deriving DecidableEq, Repr

/-- The tree, the buffers that callers own, and the addresses handed out so far. -/
structure World where
  tree : Tree
  bufs : List Buf
  handed : List ℕ

/-- A database with this content, before the first call. -/
def World.start (tree : Tree) : World :=
  { tree := tree, bufs := [], handed := [] }

/-- A new database. -/
def World.fresh : World :=
  .start fun _ => none

def World.addrs (w : World) : Finset ℕ :=
  (w.bufs.filterMap fun b => b.ptr.addr?).toFinset

/-- The `n` bytes at `p`. -/
def World.read (w : World) (p : Ptr) (n : ℕ) : Bytes :=
  (((w.bufs.find? fun b => b.ptr = p).map Buf.bytes).getD []).take n

/-- Returns the pointer and what is written to `*vallen`. -/
def leakBuf (alloc : Supply) (v : Bytes) (w : World) : (Ptr × ℕ) × World :=
  let val := if v = [] then .dangling else .block (alloc.pick w.handed w.addrs)
  ((val, v.length),
    { w with bufs := ⟨val, v⟩ :: w.bufs, handed := val.addr?.toList ++ w.handed })

/-- Handing back is defined for a pointer and length that `leakBuf` produced together and
that have not been handed back. -/
def sledFreeBuf (buf : Ptr) (sz : ℕ) (w : World) : Option World :=
  match w.bufs.find? fun b => b.ptr = buf ∧ b.bytes.length = sz with
  | some b => some { w with bufs := w.bufs.erase b }
  | none => none

/-! ## Reading and writing keys -/

def sledSet (key val : Bytes) (w : World) : World :=
  { w with tree := w.tree.insert key val }

/-- `vallen` is the content of the caller's variable, left alone when the key is absent. -/
def sledGet (alloc : Supply) (key : Bytes) (vallen : ℕ) (w : World) : (Ptr × ℕ) × World :=
  match w.tree key with
  | some v => leakBuf alloc v w
  | none => ((.null, vallen), w)

def sledDel (key : Bytes) (w : World) : World :=
  { w with tree := w.tree.remove key }

/-- How `sled_compare_and_swap` reads its old and its new value. -/
def optSlice (val : Bytes) : Option Bytes :=
  if val.length = 0 then none else some val

/-- The result of a swap and the output variables as it leaves them. -/
structure CasReturn where
  ret : UInt8
  actualVal : Option Ptr
  actualVallen : ℕ
  world : World

/-- `none` is a write through a null `actual_val`. -/
def sledCompareAndSwap (alloc : Supply) (key oldVal newVal : Bytes) (actualVal : Option Ptr)
    (actualVallen : ℕ) (w : World) : Option CasReturn :=
  let old := optSlice oldVal
  let new := optSlice newVal
  match w.tree.compareAndSwap key old new with
  | .ok tree => some ⟨1, actualVal, actualVallen, { w with tree := tree }⟩
  | .error { current := none, .. } =>
      -- only the length is written here
      some ⟨0, actualVal, 0, w⟩
  | .error { current := some v, .. } =>
      let ((val, vallen), w) := leakBuf alloc v w
      actualVal.map fun _ => ⟨0, some val, vallen, w⟩

/-! ## Iterating -/

/-- The result of `sled_iter_next` and its four output variables. -/
structure IterReturn where
  ret : UInt8
  key : Ptr
  keylen : ℕ
  val : Ptr
  vallen : ℕ
  world : World

/-- `item` is what the iterator yields; the other arguments are the contents of the output
variables. -/
def sledIterNext (alloc : Supply) (item : Option (Bytes × Bytes)) (key : Ptr) (keylen : ℕ)
    (val : Ptr) (vallen : ℕ) (w : World) : IterReturn :=
  match item with
  | some (k, v) =>
      let ((key, keylen), w) := leakBuf alloc k w
      let ((val, vallen), w) := leakBuf alloc v w
      ⟨1, key, keylen, val, vallen, w⟩
  | none => ⟨0, key, keylen, val, vallen, w⟩

end LlgoExamples.Sled
