import LlgoExamples.Model.Opendal.Memory

/-! # The operator functions of the C binding

Paths are C strings, `none` for NULL. Every result carries a value and an error pointer. -/

namespace LlgoExamples.Opendal

/-- The `opendal_result_*` structs: a pointer, a flag or a size, and the error. -/
structure Result (α : Type) where
  value : α
  error : Ptr
  deriving DecidableEq, Repr

variable {C : Core} {τ α : Type} (supply : Supply)

/-! ## Arguments -/

/-- `if ptr.is_null() { panic!(..) }`. -/
def notNull (message : String) (s : Option CStr) : Except Fault CStr :=
  s.elim (.error (.panic message)) .ok

/-- `.to_str().unwrap()`. -/
def CStr.unwrapStr (s : CStr) : Except Fault String :=
  s.toStr.elim (.error .unwrap) .ok

/-- `CStr::from_ptr(s).to_str().unwrap()` without a check for NULL. -/
def CStr.fromPtr (s : Option CStr) : Except Fault String :=
  s.elim (.error .undefined) CStr.unwrapStr

/-! ## Results -/

/-- What every operation does with the answer of the core: `hand` hands a value out,
`failed` stands in its place next to an error. -/
def answer (hand : τ → World C → α × World C) (failed : α) :
    Except C.Error τ × World C → Except Fault (Result α × World C)
  | (.ok v, w) =>
      let (value, w) := hand v w
      .ok (⟨value, .null⟩, w)
  | (.error e, w) => do
      let (error, w) ← opendalErrorNew supply e w
      pure (⟨failed, error⟩, w)

/-- The functions of an operator and a path. -/
def onPath (act : C.Operator → String → C.State → Except C.Error τ × C.State)
    (hand : τ → World C → α × World C) (failed : α) (op : Ptr) (path : Option CStr)
    (w : World C) : Except Fault (Result α × World C) := do
  let path ← notNull "The path given is pointing at NULL" path
  let op ← w.deref .operator op
  let path ← path.unwrapStr
  answer supply hand failed (w.perform (act op path))

/-- The functions of an operator and two paths. -/
def onPaths (act : C.Operator → String → String → C.State → Except C.Error Unit × C.State)
    (op : Ptr) (src dest : Option CStr) (w : World C) : Except Fault (Ptr × World C) := do
  let src ← notNull "The source path given is pointing at NULL" src
  let dest ← notNull "The destination path given is pointing at NULL" dest
  let op ← w.deref .operator op
  let src ← src.unwrapStr
  let dest ← dest.unwrapStr
  let (r, w) ← answer supply Prod.mk () (w.perform (act op src dest))
  pure (r.error, w)

/-- The functions of a path that return nothing but the error. -/
def onPathUnit (act : C.Operator → String → C.State → Except C.Error Unit × C.State)
    (op : Ptr) (path : Option CStr) (w : World C) : Except Fault (Ptr × World C) := do
  let (r, w) ← onPath supply act Prod.mk () op path w
  pure (r.error, w)

/-! ## Operators -/

/-- `build_operator`. -/
def buildOperator (schema : C.Scheme) (map : String → Option String) (w : World C) :
    Except Fault (Except C.Error C.AsyncOperator × World C) :=
  match w.perform (C.viaMap schema map) with
  | (.ok op, w) =>
      if C.fullCapabilityBlocking op then .ok (.ok op, w)
      else match C.createBlockingLayer w.core with
        | .ok layer => .ok (.ok (C.layer op layer), w)
        | .error _ => .error (.expect "blocking layer must be created")
  | (.error e, w) => .ok (.error e, w)

/-- `for (k, v) in (*options).as_ref() { map.insert(k.to_string(), v.to_string()); }`. -/
def copyOptions (options : OptionMap) : OptionMap :=
  options.entries.foldl (fun map e => map.insert e.1 e.2) ∅

/-- `opendal_operator_new`. -/
def opendalOperatorNew (scheme : Option CStr) (options : Ptr) (w : World C) :
    Except Fault (Result Ptr × World C) := do
  let scheme ← notNull "The scheme given is pointing at NULL" scheme
  let scheme ← scheme.unwrapStr
  match C.schemeFromStr scheme with
  | .error e =>
      let (error, w) ← opendalErrorNew supply e w
      pure (⟨.null, error⟩, w)
  | .ok scheme =>
      let map ← if options = .null then pure ∅ else do
        let options ← w.deref .options options
        pure (copyOptions options)
      let (op, w) ← buildOperator scheme map.lookup w
      answer supply (fun op w => newHandle supply .operator (C.blocking op) w) .null (op, w)

/-- `opendal_operator_free`. -/
def opendalOperatorFree (op : Ptr) (w : World C) : Except Fault (World C) :=
  freeHandle .operator op w

/-- `opendal_operator_options_new`. -/
def opendalOperatorOptionsNew (w : World C) : Ptr × World C :=
  newHandle supply .options ∅ w

/-- `opendal_operator_options_set`. -/
def opendalOperatorOptionsSet (options : Ptr) (key value : Option CStr) (w : World C) :
    Except Fault (World C) := do
  let inner ← w.inner .options options
  let k ← CStr.fromPtr key
  let v ← CStr.fromPtr value
  let map ← w.load .options inner
  pure (w.store .options inner (map.insert k v))

/-- `opendal_operator_options_free`. -/
def opendalOperatorOptionsFree (options : Ptr) (w : World C) : Except Fault (World C) :=
  freeHandle .options options w

/-! ## Operations -/

/-- `opendal_operator_write`: `bytes` is copied into a buffer of the core. -/
def opendalOperatorWrite (op : Ptr) (path : Option CStr) (bytes : OpendalBytes)
    (w : World C) : Except Fault (Ptr × World C) := do
  let path ← notNull "The path given is pointing at NULL" path
  let op ← w.deref .operator op
  let path ← path.unwrapStr
  let buffer ← slice bytes w
  let (r, w) ← answer supply Prod.mk () (w.perform (C.write op path buffer))
  pure (r.error, w)

/-- `opendal_operator_read`. -/
def opendalOperatorRead (op : Ptr) (path : Option CStr) (w : World C) :
    Except Fault (Result Ptr × World C) :=
  onPath supply C.read
    (fun d w => let (v, w) := opendalBytesNew supply d w; w.box supply (.bytes v))
    .null op path w

/-- `op.reader(path)`, and then `reader.into_std_read(..)`. Both fail alike. -/
def Core.openReader (C : Core) (op : C.Operator) (path : String) (s : C.State) :
    Except C.Error C.StdReader × C.State :=
  match C.reader op path s with
  | (.ok reader, s) => C.intoStdRead reader s
  | (.error err, s) => (.error err, s)

/-- `opendal_operator_reader`. -/
def opendalOperatorReader (op : Ptr) (path : Option CStr) (w : World C) :
    Except Fault (Result Ptr × World C) :=
  onPath supply C.openReader (newHandle supply .reader) .null op path w

/-- `opendal_operator_delete`. -/
def opendalOperatorDelete (op : Ptr) (path : Option CStr) (w : World C) :
    Except Fault (Ptr × World C) :=
  onPathUnit supply C.delete op path w

/-- `opendal_operator_is_exist`. -/
def opendalOperatorIsExist (op : Ptr) (path : Option CStr) (w : World C) :
    Except Fault (Result Bool × World C) :=
  onPath supply C.isExist Prod.mk false op path w

/-- `opendal_operator_stat`. -/
def opendalOperatorStat (op : Ptr) (path : Option CStr) (w : World C) :
    Except Fault (Result Ptr × World C) :=
  onPath supply C.stat (newHandle supply .metadata) .null op path w

/-- `opendal_operator_list`. -/
def opendalOperatorList (op : Ptr) (path : Option CStr) (w : World C) :
    Except Fault (Result Ptr × World C) :=
  onPath supply C.lister (newHandle supply .lister) .null op path w

/-- `opendal_operator_create_dir`. -/
def opendalOperatorCreateDir (op : Ptr) (path : Option CStr) (w : World C) :
    Except Fault (Ptr × World C) :=
  onPathUnit supply C.createDir op path w

/-- `opendal_operator_rename`. -/
def opendalOperatorRename (op : Ptr) (src dest : Option CStr) (w : World C) :
    Except Fault (Ptr × World C) :=
  onPaths supply C.rename op src dest w

/-- `opendal_operator_copy`. -/
def opendalOperatorCopy (op : Ptr) (src dest : Option CStr) (w : World C) :
    Except Fault (Ptr × World C) :=
  onPaths supply C.copy op src dest w

end LlgoExamples.Opendal
