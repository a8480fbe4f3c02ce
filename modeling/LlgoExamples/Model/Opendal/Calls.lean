import LlgoExamples.Model.Opendal.Handles

/-! # The C binding as its clients see it

A client calls the functions of the binding in any order, on whatever pointers it has. It
also reads the fields of the structs it was given, and has memory of its own. -/

namespace LlgoExamples.Opendal

/-- The functions of an operator and a path that take nothing else. -/
inductive PathOp where
  | read
  | reader
  | delete
  | isExist
  | stat
  | list
  | createDir
  deriving DecidableEq, Repr

inductive PathsOp where
  | rename
  | copy
  deriving DecidableEq, Repr

/-- The getters of an info and of an entry that hand out a string. -/
inductive StringOp where
  | entryPath
  | entryName
  | infoScheme
  | infoRoot
  | infoName
  deriving DecidableEq, Repr

inductive MetadataOp where
  | contentLength
  | isFile
  | isDir
  | lastModifiedMs
  deriving DecidableEq, Repr

/-- The functions that free something, and C's own. -/
inductive FreeOp where
  | operator
  | options
  | metadata
  | lister
  | entry
  | reader
  | operatorInfo
  | bytes
  | error
  | c
  deriving DecidableEq, Repr

/-- The `opendal_bytes` given to a write: one over the caller's memory, or the struct that
a pointer from an earlier read points to. -/
inductive BytesArg where
  | own (b : OpendalBytes)
  | got (p : Ptr)
  deriving DecidableEq, Repr

inductive Call where
  | optionsNew
  | optionsSet (options : Ptr) (key value : Option CStr)
  | operatorNew (scheme : Option CStr) (options : Ptr)
  | write (op : Ptr) (path : Option CStr) (bytes : BytesArg)
  | onPath (f : PathOp) (op : Ptr) (path : Option CStr)
  | onPaths (f : PathsOp) (op : Ptr) (src dest : Option CStr)
  | listerNext (lister : Ptr)
  | readerRead (reader buf : Ptr) (len : ℕ)
  | metadata (f : MetadataOp) (p : Ptr)
  | string (f : StringOp) (p : Ptr)
  | infoNew (op : Ptr)
  | free (f : FreeOp) (p : Ptr)
  | malloc (bytes : List UInt8)
  | loadBytes (p : Ptr)
  | loadError (p : Ptr)
  | loadString (p : Ptr)
  | loadMemory (p : Ptr)
  deriving DecidableEq

/-- What a call returns. -/
inductive Reply where
  | unit
  | result (r : Result Ptr)
  | flag (r : Result Bool)
  | size (r : Result ℕ)
  | ptr (p : Ptr)
  | nat (n : UInt64)
  | bool (b : Bool)
  | int (z : ℤ)
  | bytes (bs : List UInt8)
  | error (code : Code) (message : List UInt8)
  deriving DecidableEq, Repr

variable {C : Core} (supply : Supply)

/-! ## Reading what was handed out -/

/-- The struct that an argument of a write is. -/
def BytesArg.eval (arg : BytesArg) (w : World C) : Except Fault OpendalBytes :=
  match arg with
  | .own b => .ok b
  | .got p =>
      match w.rootAt p with
      | .ok (.bytes b) => .ok b
      | _ => .error .undefined

/-- `p->data[i]` for all `i` below `p->len`. -/
def loadBytes (p : Ptr) (w : World C) : Except Fault (List UInt8) := do
  match ← w.rootAt p with
  | .bytes b => slice b w
  | _ => throw .undefined

/-- `p->code` and the bytes of `p->message`. -/
def loadError (p : Ptr) (w : World C) : Except Fault (Code × List UInt8) := do
  match ← w.rootAt p with
  | .error code message =>
      let bytes ← slice message w
      pure (code, bytes)
  | _ => throw .undefined

def loadString (p : Ptr) (w : World C) : Except Fault (List UInt8) := do
  match ← w.rootAt p with
  | .cString s => pure s.bytes
  | _ => throw .undefined

def loadMemory (p : Ptr) (w : World C) : Except Fault (List UInt8) := do
  match ← w.rootAt p with
  | .memory bytes => pure bytes
  | _ => throw .undefined

/-! ## One call -/

def PathOp.call (f : PathOp) (op : Ptr) (path : Option CStr) (w : World C) :
    Except Fault (Reply × World C) :=
  match f with
  | .read => (opendalOperatorRead supply op path w).map fun (r, w) => (.result r, w)
  | .reader => (opendalOperatorReader supply op path w).map fun (r, w) => (.result r, w)
  | .delete => (opendalOperatorDelete supply op path w).map fun (p, w) => (.ptr p, w)
  | .isExist => (opendalOperatorIsExist supply op path w).map fun (r, w) => (.flag r, w)
  | .stat => (opendalOperatorStat supply op path w).map fun (r, w) => (.result r, w)
  | .list => (opendalOperatorList supply op path w).map fun (r, w) => (.result r, w)
  | .createDir => (opendalOperatorCreateDir supply op path w).map fun (p, w) => (.ptr p, w)

def PathsOp.call (f : PathsOp) (op : Ptr) (src dest : Option CStr) (w : World C) :
    Except Fault (Ptr × World C) :=
  match f with
  | .rename => opendalOperatorRename supply op src dest w
  | .copy => opendalOperatorCopy supply op src dest w

def StringOp.call (f : StringOp) (p : Ptr) (w : World C) : Except Fault (Ptr × World C) :=
  match f with
  | .entryPath => opendalEntryPath supply p w
  | .entryName => opendalEntryName supply p w
  | .infoScheme => opendalOperatorInfoGetScheme supply p w
  | .infoRoot => opendalOperatorInfoGetRoot supply p w
  | .infoName => opendalOperatorInfoGetName supply p w

def MetadataOp.call (f : MetadataOp) (p : Ptr) (w : World C) : Except Fault Reply :=
  match f with
  | .contentLength => (opendalMetadataContentLength p w).map .nat
  | .isFile => (opendalMetadataIsFile p w).map .bool
  | .isDir => (opendalMetadataIsDir p w).map .bool
  | .lastModifiedMs => (opendalMetadataLastModifiedMs p w).map .int

def FreeOp.call (f : FreeOp) (p : Ptr) (w : World C) : Except Fault (World C) :=
  match f with
  | .operator => opendalOperatorFree p w
  | .options => opendalOperatorOptionsFree p w
  | .metadata => opendalMetadataFree p w
  | .lister => opendalListerFree p w
  | .entry => opendalEntryFree p w
  | .reader => opendalReaderFree p w
  | .operatorInfo => opendalOperatorInfoFree p w
  | .bytes => opendalBytesFree p w
  | .error => opendalErrorFree p w
  | .c => cFree p w

def performCall (c : Call) (w : World C) : Except Fault (Reply × World C) :=
  match c with
  | .optionsNew =>
      let (p, w) := opendalOperatorOptionsNew supply w
      .ok (.ptr p, w)
  | .optionsSet options key value =>
      (opendalOperatorOptionsSet options key value w).map fun w => (.unit, w)
  | .operatorNew scheme options =>
      (opendalOperatorNew supply scheme options w).map fun (r, w) => (.result r, w)
  | .write op path bytes => do
      let bytes ← bytes.eval w
      let (p, w) ← opendalOperatorWrite supply op path bytes w
      pure (.ptr p, w)
  | .onPath f op path => f.call supply op path w
  | .onPaths f op src dest => (f.call supply op src dest w).map fun (p, w) => (.ptr p, w)
  | .listerNext lister => (opendalListerNext supply lister w).map fun (r, w) => (.result r, w)
  | .readerRead reader buf len =>
      (opendalReaderRead supply reader buf len w).map fun (r, w) => (.size r, w)
  | .metadata f p => (f.call p w).map fun r => (r, w)
  | .string f p => (f.call supply p w).map fun (p, w) => (.ptr p, w)
  | .infoNew op => (opendalOperatorInfoNew supply op w).map fun (p, w) => (.ptr p, w)
  | .free f p => (f.call p w).map fun w => (.unit, w)
  | .malloc bytes =>
      let (p, w) := malloc supply bytes w
      .ok (.ptr p, w)
  | .loadBytes p => (loadBytes p w).map fun bs => (.bytes bs, w)
  | .loadError p => (loadError p w).map fun (code, message) => (.error code message, w)
  | .loadString p => (loadString p w).map fun bs => (.bytes bs, w)
  | .loadMemory p => (loadMemory p w).map fun bs => (.bytes bs, w)

/-- What a client did and was answered, until a call that did not return. -/
structure History (C : Core) where
  replies : List Reply
  fault : Option Fault
  world : World C

/-- A client's calls, one after the other. -/
def runCalls : List Call → World C → History C
  | [], w => ⟨[], none, w⟩
  | c :: calls, w =>
      match performCall supply c w with
      | .error f => ⟨[], some f, w⟩
      | .ok (reply, w) =>
          let rest := runCalls calls w
          ⟨reply :: rest.replies, rest.fault, rest.world⟩

end LlgoExamples.Opendal
