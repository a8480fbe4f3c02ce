import Mathlib.Data.List.Basic

/-! # What the client takes from Go and C

Strings are byte strings. A pointer to a first byte is the bytes from there on, and `none`
is the null pointer. -/

namespace LlgoExamples.Hyper

abbrev Bytes := List UInt8

/-- A Go panic: its message, with the arguments of the message's format apart. -/
structure Panic where
  text : String
  args : List Bytes
  deriving DecidableEq, Repr

def Panic.plain (text : String) : Panic :=
  { text := text, args := [] }

/-- The bytes of a string literal. -/
def literal (s : String) : Bytes :=
  s.toList.flatMap String.utf8EncodeChar

/-! ## Strings -/

/-- `(*uint8)(&[]byte(s)[0])`. -/
def firstByte (s : Bytes) : Except Panic Bytes :=
  match s with
  | [] => .error (.plain "runtime error: index out of range [0] with length 0")
  | _ :: _ => .ok s

/-- The characters of `c.AllocaCStr(s)`: what C reads up to the first NUL. -/
def allocaCStr (s : Bytes) : Bytes :=
  s.takeWhile (· ≠ 0)

/-- `c.Strlen(c.AllocaCStr(s))`. -/
def strlen (s : Bytes) : ℕ :=
  (allocaCStr s).length

/-! ## Slices of C memory -/

def arrayLen : ℕ := 1 <<< 30

/-- `string((*[1 << 30]byte)(ptr)[:len:len])`. -/
def stringOf (ptr : Option Bytes) (len : ℕ) : Except Panic Bytes :=
  match ptr with
  | none => .error (.plain "runtime error: invalid memory address or nil pointer dereference")
  | some bytes =>
      if arrayLen < len then .error (.plain "runtime error: slice bounds out of range")
      else .ok (bytes.take len)

end LlgoExamples.Hyper
