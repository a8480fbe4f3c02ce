import LlgoExamples.Library.Supply
import LlgoExamples.Model.Csv.Reader
import Mathlib.Data.List.AList

/-! # The wrapper's objects and its clients

The readers and the strings that the wrapper boxes, and the two programs that use it. A null
pointer is `none`. Dereferencing or freeing what is not there is undefined. -/

namespace LlgoExamples.Csv.Wrapper

/-! ## Memory -/

inductive Object where
  | reader (r : Reader)
  | string (bytes : List UInt8)
  deriving DecidableEq, Repr

abbrev Objects := AList fun _ : ℕ => Object

/-- The objects in use by their addresses, and the addresses handed out so far. -/
structure Heap where
  objects : Objects
  handed : List ℕ

/-- Before the first call. -/
def Heap.start : Heap :=
  { objects := ∅, handed := [] }

abbrev Ptr := Option ℕ

/-- Why a call does not return. -/
inductive Fault where
  | assertion (condition : String)
  | undefined
  deriving DecidableEq, Repr

namespace Heap

def lookup (h : Heap) (a : ℕ) : Option Object :=
  h.objects.lookup a

def write (h : Heap) (a : ℕ) (o : Object) : Heap :=
  { h with objects := h.objects.insert a o }

def free (h : Heap) (a : ℕ) : Heap :=
  { h with objects := h.objects.erase a }

end Heap

/-- `Box::into_raw(Box::new(..))`, and `CString::into_raw`. -/
def intoRaw (supply : Supply) (o : Object) (h : Heap) : Ptr × Heap :=
  let a := supply.pick h.handed h.objects.keys.toFinset
  (some a, { objects := h.objects.insert a o, handed := a :: h.handed })

/-! ## The wrapper -/

/-- The files as opening them answers, each the rows it has. -/
abbrev Files := String → Option (List Row)

variable (supply : Supply)

def csvReaderNew (files : Files) (filePath : Option (List UInt8)) (h : Heap) : Ptr × Heap :=
  match filePath with
  | none => (none, h)
  | some bytes =>
      match String.fromUTF8? ⟨bytes.toArray⟩ with
      | none => (none, h)
      | some filePath =>
          match files filePath with
          | some rows => intoRaw supply (.reader (Reader.fromRows rows)) h
          | none => (none, h)

def csvReaderFree (ptr : Ptr) (h : Heap) : Except Fault Heap :=
  match ptr with
  | none => .ok h
  | some a =>
      match h.lookup a with
      | some (.reader _) => .ok (h.free a)
      | _ => .error .undefined

/-- `csv_reader_read_record` on a pointer. -/
def csvReaderReadRecord (escaped : Char → Bool) (ptr : Ptr) (h : Heap) :
    Except Fault (Ptr × Heap) :=
  match ptr with
  | none => .error (.assertion "!ptr.is_null()")
  | some a =>
      match h.lookup a with
      | some (.reader reader) =>
          match Csv.csvReaderReadRecord escaped (some reader) with
          | none => .error (.assertion "!ptr.is_null()")
          | some (none, reader) => .ok (none, h.write a (.reader reader))
          | some (some string, reader) =>
              .ok (intoRaw supply (.string string) (h.write a (.reader reader)))
      | _ => .error .undefined

def freeString (s : Ptr) (h : Heap) : Except Fault Heap :=
  match s with
  | none => .ok h
  | some a =>
      match h.lookup a with
      | some (.string _) => .ok (h.free a)
      | _ => .error .undefined

/-- What a program reads at a pointer that it takes for a string. -/
def load (s : Ptr) (h : Heap) : Except Fault (List UInt8) :=
  match s.bind h.lookup with
  | some (.string bytes) => .ok bytes
  | _ => .error .undefined

/-! ## The programs -/

/-- The bytes of `"data.csv"`. -/
def dataCsv : List UInt8 := utf8 "data.csv".toList

inductive Call where
  | new (files : Files) (filePath : Option (List UInt8))
  | read (reader : Ptr)
  | freeReader (reader : Ptr)
  | freeString (s : Ptr)
  | load (s : Ptr)

inductive Reply where
  | unit
  | ptr (p : Ptr)
  | bytes (bytes : List UInt8)
  deriving DecidableEq, Repr

def perform (escaped : Char → Bool) (c : Call) (h : Heap) : Except Fault (Reply × Heap) :=
  match c with
  | .new files filePath =>
      let (p, h) := csvReaderNew supply files filePath h
      .ok (.ptr p, h)
  | .read reader => (csvReaderReadRecord supply escaped reader h).map fun (p, h) => (.ptr p, h)
  | .freeReader reader => (csvReaderFree reader h).map fun h => (.unit, h)
  | .freeString s => (freeString s h).map fun h => (.unit, h)
  | .load s => (load s h).map fun bytes => (.bytes bytes, h)

/-- The heap, and the calls so far with what they answered. -/
structure World where
  heap : Heap
  log : List (Call × Reply)

def World.start : World :=
  { heap := .start, log := [] }

/-- One call that returns. -/
def step (escaped : Char → Bool) (w : World) (c : Call) : Option World :=
  match perform supply escaped c w.heap with
  | .error _ => none
  | .ok (reply, h) => some { heap := h, log := w.log ++ [(c, reply)] }

end LlgoExamples.Csv.Wrapper
