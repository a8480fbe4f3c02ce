import LlgoExamples.Model.Opendal.Calls

/-! # Sessions

What the C binding is for, without its boxes: a client holds objects by their addresses
and lets the services act on them. A call hands out at most one object. -/

namespace LlgoExamples.Opendal

open Blocks

/-! ## Objects -/

inductive Object (C : Core) where
  | value (kind : Kind) (v : C.Payload kind)
  | bytes (bs : List UInt8)
  | error (code : Code) (message : List UInt8)
  | cString (s : CStr)
  | memory (bs : List UInt8)

structure Session (C : Core) where
  held : ℕ → Option (Object C)
  core : C.State

def Session.start {C : Core} (core : C.State) : Session C :=
  ⟨fun _ => none, core⟩

variable {C : Core} {τ : Type}

namespace Session

def add (s : Session C) (a : ℕ) (v : Object C) : Session C :=
  { s with held := Function.update s.held a (some v) }

def drop (s : Session C) (a : ℕ) : Session C :=
  { s with held := Function.update s.held a none }

def perform {α : Type} (s : Session C) (act : C.State → α × C.State) : α × Session C :=
  let (a, core) := act s.core
  (a, { s with core := core })

/-- What a pointer points to. -/
def at? (s : Session C) (p : Ptr) : Option (Object C) :=
  match p with
  | .block a => s.held a
  | _ => none

def set (s : Session C) (p : Ptr) (v : Object C) : Session C :=
  match p with
  | .block a => s.add a v
  | _ => s

def value (s : Session C) (kind : Kind) (p : Ptr) : Except Fault (C.Payload kind) :=
  match s.at? p with
  | some (.value kind' v) => if h : kind' = kind then .ok (h ▸ v) else .error .undefined
  | _ => .error .undefined

def memoryAt (s : Session C) (p : Ptr) : Except Fault (List UInt8) :=
  match s.at? p with
  | some (.memory bs) => .ok bs
  | _ => .error .undefined

/-- What a write is given. -/
def content (s : Session C) (arg : BytesArg) : Except Fault (List UInt8) :=
  match arg with
  | .own b =>
      if b.data = .dangling ∧ b.len = 0 then .ok []
      else do
        let bs ← s.memoryAt b.data
        if b.len ≤ bs.length then pure (bs.take b.len) else throw .undefined
  | .got p =>
      match s.at? p with
      | some (.bytes bs) => .ok bs
      | _ => .error .undefined

end Session

/-! ## Outcomes -/

/-- The session after a call, the object that the call hands out, and its reply, given the
pointer to that object. -/
structure Outcome (C : Core) where
  session : Session C
  made : Option (Object C)
  reply : Ptr → Reply

def Session.replies (s : Session C) (reply : Reply) : Outcome C :=
  ⟨s, none, fun _ => reply⟩

/-- The object that reports an error of the core. -/
def errorObject (e : C.Error) : Except Fault (Object C) :=
  (Code.ofKind (C.kind e)).map fun code => .error code (C.toString e)

/-- An error is handed out as an object. -/
def Session.refuse (s : Session C) (e : C.Error) (bad : Ptr → Reply) :
    Except Fault (Outcome C) :=
  (errorObject e).map fun v => ⟨s, some v, bad⟩

/-- A value is handed out as `made` says. -/
def Session.answer (s : Session C) (made : τ → Option (Object C)) (good : τ → Ptr → Reply)
    (bad : Ptr → Reply) : Except C.Error τ → Except Fault (Outcome C)
  | .ok v => .ok ⟨s, made v, good v⟩
  | .error e => s.refuse e bad

/-- One of the two pointers of a result. -/
def handed (p : Ptr) : Reply := .result ⟨p, .null⟩

def failed (p : Ptr) : Reply := .result ⟨.null, p⟩

namespace Session

variable (s : Session C)

def onPath (act : C.Operator → String → C.State → Except C.Error τ × C.State)
    (made : τ → Option (Object C)) (good : τ → Ptr → Reply) (bad : Ptr → Reply) (op : Ptr)
    (path : Option CStr) : Except Fault (Outcome C) := do
  let path ← notNull "The path given is pointing at NULL" path
  let op ← s.value .operator op
  let path ← path.unwrapStr
  let (r, s) := s.perform (act op path)
  s.answer made good bad r

def onPaths (act : C.Operator → String → String → C.State → Except C.Error Unit × C.State)
    (op : Ptr) (src dest : Option CStr) : Except Fault (Outcome C) := do
  let src ← notNull "The source path given is pointing at NULL" src
  let dest ← notNull "The destination path given is pointing at NULL" dest
  let op ← s.value .operator op
  let src ← src.unwrapStr
  let dest ← dest.unwrapStr
  let (r, s) := s.perform (act op src dest)
  s.answer (fun _ => none) (fun _ _ => .ptr .null) .ptr r

/-! ## One call -/

def pathOp (f : PathOp) (op : Ptr) (path : Option CStr) : Except Fault (Outcome C) :=
  match f with
  | .read => s.onPath C.read (fun d => some (.bytes d)) (fun _ => handed) failed op path
  | .reader =>
      s.onPath C.openReader (fun r => some (.value .reader r)) (fun _ => handed) failed op path
  | .stat =>
      s.onPath C.stat (fun m => some (.value .metadata m)) (fun _ => handed) failed op path
  | .list =>
      s.onPath C.lister (fun l => some (.value .lister l)) (fun _ => handed) failed op path
  | .isExist =>
      s.onPath C.isExist (fun _ => none) (fun e _ => .flag ⟨e, .null⟩) (fun p => .flag ⟨false, p⟩)
        op path
  | .delete => s.onPath C.delete (fun _ => none) (fun _ _ => .ptr .null) .ptr op path
  | .createDir => s.onPath C.createDir (fun _ => none) (fun _ _ => .ptr .null) .ptr op path

def pathsOp (f : PathsOp) (op : Ptr) (src dest : Option CStr) : Except Fault (Outcome C) :=
  match f with
  | .rename => s.onPaths C.rename op src dest
  | .copy => s.onPaths C.copy op src dest

/-- An operator that cannot block is given a layer with which it can. -/
def buildOperator (scheme : C.Scheme) (map : String → Option String) :
    Except Fault (Outcome C) :=
  match s.perform (C.viaMap scheme map) with
  | (.error e, s) => s.refuse e failed
  | (.ok op, s) =>
      if C.fullCapabilityBlocking op then
        .ok ⟨s, some (.value .operator (C.blocking op)), handed⟩
      else match C.createBlockingLayer s.core with
        | .ok layer => .ok ⟨s, some (.value .operator (C.blocking (C.layer op layer))), handed⟩
        | .error _ => .error (.expect "blocking layer must be created")

def operatorNew (scheme : Option CStr) (options : Ptr) : Except Fault (Outcome C) := do
  let scheme ← notNull "The scheme given is pointing at NULL" scheme
  let scheme ← scheme.unwrapStr
  match C.schemeFromStr scheme with
  | .error e => s.refuse e failed
  | .ok scheme =>
      if options = .null then s.buildOperator scheme fun _ => none
      else do
        let options ← s.value .options options
        s.buildOperator scheme fun k => AList.lookup k options

def listerNext (lister : Ptr) : Except Fault (Outcome C) := do
  let l ← s.value .lister lister
  match s.perform (C.next l) with
  | ((e, l), s) =>
      let s := s.set lister (.value .lister l)
      match e with
      | none => pure (s.replies (.result ⟨.null, .null⟩))
      | some e => s.answer (fun e => some (.value .entry e)) (fun _ => handed) failed e

def readerRead (reader buf : Ptr) (len : ℕ) : Except Fault (Outcome C) := do
  if buf = .null then throw (.panic "The buffer given is pointing at NULL")
  let old ← s.memoryAt buf
  if old.length < len then throw .undefined
  let r ← s.value .reader reader
  match s.perform (C.readStd r len) with
  | ((n, r), s) =>
      let s := s.set reader (.value .reader r)
      match n with
      | .ok bytes =>
          pure ((s.set buf (.memory (overwrite bytes old))).replies
            (.size ⟨bytes.length, .null⟩))
      | .error e =>
          let err := C.setSource (C.newError .unexpected "read failed from reader") e
          s.refuse err fun p => .size ⟨0, p⟩

def getString (kind : Kind) (get : C.Payload kind → String) (failure : Fault) (p : Ptr) :
    Except Fault (Outcome C) := do
  let v ← s.value kind p
  match CStr.new (get v) with
  | some str => pure ⟨s, some (.cString str), .ptr⟩
  | none => throw failure

def stringOp (f : StringOp) (p : Ptr) : Except Fault (Outcome C) :=
  match f with
  | .entryPath => s.getString .entry C.entryPath .unwrap p
  | .entryName => s.getString .entry C.entryName .unwrap p
  | .infoScheme =>
      s.getString .operatorInfo C.infoScheme
        (.expect "CString::new failed in opendal_operator_info_get_root") p
  | .infoRoot =>
      s.getString .operatorInfo C.infoRoot
        (.expect "CString::new failed in opendal_operator_info_get_root") p
  | .infoName =>
      s.getString .operatorInfo C.infoName
        (.expect "CString::new failed in opendal_operator_info_get_name") p

def metadataOp (f : MetadataOp) (p : Ptr) : Except Fault (Outcome C) := do
  let m ← s.value .metadata p
  match f with
  | .contentLength => pure (s.replies (.nat (C.contentLength m)))
  | .isFile => pure (s.replies (.bool (C.isFile m)))
  | .isDir => pure (s.replies (.bool (C.isDir m)))
  | .lastModifiedMs => pure (s.replies (.int ((C.lastModified m).getD (-1))))

end Session

/-- The objects that a function frees. -/
def FreeOp.frees : FreeOp → Object C → Bool
  | .operator, .value kind _ => kind = .operator
  | .options, .value kind _ => kind = .options
  | .metadata, .value kind _ => kind = .metadata
  | .lister, .value kind _ => kind = .lister
  | .entry, .value kind _ => kind = .entry
  | .reader, .value kind _ => kind = .reader
  | .operatorInfo, .value kind _ => kind = .operatorInfo
  | .bytes, .bytes _ => true
  | .error, .error _ _ => true
  | .c, .cString _ => true
  | .c, .memory _ => true
  | _, _ => false

/-- Those that may be called on NULL. -/
def FreeOp.nullOk : FreeOp → Bool
  | .entry | .reader | .bytes | .error | .c => true
  | _ => false

namespace Session

variable (s : Session C)

def free (f : FreeOp) (p : Ptr) : Except Fault (Outcome C) :=
  match p with
  | .null => if f.nullOk then .ok (s.replies .unit) else .error .undefined
  | .dangling => .error .undefined
  | .block a =>
      match s.held a with
      | some v => if f.frees v then .ok ((s.drop a).replies .unit) else .error .undefined
      | none => .error .undefined

/-- Reading an object. -/
def look (p : Ptr) (read : Object C → Option Reply) : Except Fault (Outcome C) :=
  ((s.at? p).bind read).elim (.error .undefined) fun reply => .ok (s.replies reply)

def call (c : Call) : Except Fault (Outcome C) :=
  match c with
  | .optionsNew => .ok ⟨s, some (.value .options ∅), .ptr⟩
  | .optionsSet options key value => do
      let map ← s.value .options options
      let k ← CStr.fromPtr key
      let v ← CStr.fromPtr value
      pure ((s.set options (.value .options (AList.insert k v map))).replies .unit)
  | .operatorNew scheme options => s.operatorNew scheme options
  | .write op path bytes => do
      let buffer ← s.content bytes
      s.onPath (fun op path => C.write op path buffer) (fun _ => none) (fun _ _ => .ptr .null) .ptr
        op path
  | .onPath f op path => s.pathOp f op path
  | .onPaths f op src dest => s.pathsOp f op src dest
  | .listerNext lister => s.listerNext lister
  | .readerRead reader buf len => s.readerRead reader buf len
  | .metadata f p => s.metadataOp f p
  | .string f p => s.stringOp f p
  | .infoNew op => do
      let op ← s.value .operator op
      pure ⟨s, some (.value .operatorInfo (C.info op)), .ptr⟩
  | .free f p => s.free f p
  | .malloc bytes => .ok ⟨s, some (.memory bytes), .ptr⟩
  | .loadBytes p => s.look p fun
      | .bytes bs => some (.bytes bs)
      | _ => none
  | .loadError p => s.look p fun
      | .error code message => some (.error code message)
      | _ => none
  | .loadString p => s.look p fun
      | .cString str => some (.bytes str.bytes)
      | _ => none
  | .loadMemory p => s.look p fun
      | .memory bs => some (.bytes bs)
      | _ => none

end Session

/-! ## Whole sessions -/

/-- The address that the object handed out is given, if one is, and the session with it. -/
inductive Hands (s : Session C) : Option (Object C) → Ptr → Session C → Prop where
  | nothing : Hands s none .null s
  | something (a : ℕ) (v : Object C) : s.held a = none → Hands s (some v) (.block a) (s.add a v)

/-- A call that returned: the state in which it met the services, what it handed out, and
where. -/
structure Answered (C : Core) where
  call : Call
  core : C.State
  made : Option (Object C)
  ptr : Ptr
  reply : Reply

/-- Calls that all return, and the session they lead to. -/
inductive Proceeds : Session C → List (Answered C) → Session C → Prop where
  | nil (s : Session C) : Proceeds s [] s
  | cons {s t u : Session C} {c : Call} {o : Outcome C} {p : Ptr} {log : List (Answered C)} :
      s.call c = .ok o → Hands o.session o.made p t → Proceeds t log u →
        Proceeds s (⟨c, s.core, o.made, p, o.reply p⟩ :: log) u

end LlgoExamples.Opendal
