import LlgoExamples.Model.Sled.CApi

/-! # The Go methods of a sled database

A Go string is its data pointer and its bytes. The `Bytes` and the `String` form of a
method differ only in how they take the pointer and the length of their arguments. -/

namespace LlgoExamples.Sled

/-- A value returned by the database: the string and the pointer `unsafe.StringData`
gives back for it. -/
structure Value where
  data : Ptr
  str : Bytes
  deriving DecidableEq, Repr

def unsafeString (w : World) (p : Ptr) (n : ℕ) : Value :=
  ⟨p, w.read p n⟩

def Value.free (v : Value) (w : World) : Option World :=
  sledFreeBuf v.data v.str.length w

def setBytes (key val : Bytes) (w : World) : World :=
  sledSet key val w

def setString (key val : Bytes) (w : World) : World :=
  sledSet key val w

def delBytes (key : Bytes) (w : World) : World :=
  sledDel key w

def delString (key : Bytes) (w : World) : World :=
  sledDel key w

/-- `valLen` starts at zero, so an absent key gives the empty string at a nil pointer. -/
def getValue (alloc : Supply) (key : Bytes) (w : World) : Value × World :=
  let ((val, valLen), w) := sledGet alloc key 0 w
  (unsafeString w val valLen, w)

def getBytes (alloc : Supply) (key : Bytes) (w : World) : Value × World :=
  getValue alloc key w

def getString (alloc : Supply) (key : Bytes) (w : World) : Value × World :=
  getValue alloc key w

/-- The result of a Go swap and the content of `*actual`, when `actual` is not nil. -/
structure Swapped where
  ret : Bool
  actual : Option Value
  world : World

/-- `actual` is the content of `*actual`, or `none` for a nil pointer, which becomes a null
`actual_val`. -/
def casValue (alloc : Supply) (key oldVal newVal : Bytes) (actual : Option Value) (w : World) :
    Option Swapped :=
  let pactualVal := actual.map fun _ => Ptr.null
  (sledCompareAndSwap alloc key oldVal newVal pactualVal 0 w).map fun r =>
    ⟨r.ret ≠ 0, r.actualVal.map fun actualVal => unsafeString r.world actualVal r.actualVallen,
      r.world⟩

def casBytes (alloc : Supply) (key oldVal newVal : Bytes) (actual : Option Value) (w : World) :
    Option Swapped :=
  casValue alloc key oldVal newVal actual w

def casString (alloc : Supply) (key oldVal newVal : Bytes) (actual : Option Value) (w : World) :
    Option Swapped :=
  casValue alloc key oldVal newVal actual w

end LlgoExamples.Sled
