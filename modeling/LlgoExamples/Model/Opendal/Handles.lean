import LlgoExamples.Model.Opendal.Operator

/-! # Metadata, listers, entries, readers and operator infos -/

namespace LlgoExamples.Opendal

variable {C : Core} (supply : Supply)

/-! ## Metadata -/

/-- `opendal_metadata_free`. -/
def opendalMetadataFree (ptr : Ptr) (w : World C) : Except Fault (World C) :=
  freeHandle .metadata ptr w

/-- `opendal_metadata_content_length`. -/
def opendalMetadataContentLength (metadata : Ptr) (w : World C) : Except Fault UInt64 :=
  (w.deref .metadata metadata).map C.contentLength

/-- `opendal_metadata_is_file`. -/
def opendalMetadataIsFile (metadata : Ptr) (w : World C) : Except Fault Bool :=
  (w.deref .metadata metadata).map C.isFile

/-- `opendal_metadata_is_dir`. -/
def opendalMetadataIsDir (metadata : Ptr) (w : World C) : Except Fault Bool :=
  (w.deref .metadata metadata).map C.isDir

/-- `opendal_metadata_last_modified_ms`. -/
def opendalMetadataLastModifiedMs (metadata : Ptr) (w : World C) : Except Fault ℤ :=
  (w.deref .metadata metadata).map fun m => (C.lastModified m).getD (-1)

/-! ## Listers -/

/-- `opendal_lister_next`: both pointers are null at the end. -/
def opendalListerNext (lister : Ptr) (w : World C) : Except Fault (Result Ptr × World C) := do
  let inner ← w.inner .lister lister
  let l ← w.load .lister inner
  match w.perform (C.next l) with
  | ((e, l), w) =>
      let w := w.store .lister inner l
      match e with
      | none => pure (⟨.null, .null⟩, w)
      | some e => answer supply (newHandle supply .entry) .null (e, w)

/-- `opendal_lister_free`. -/
def opendalListerFree (p : Ptr) (w : World C) : Except Fault (World C) :=
  freeHandle .lister p w

/-! ## Strings handed out -/

/-- A getter of a string: `failure` is how `CString::new` fails on an interior NUL. -/
def getString (kind : Kind) (get : C.Payload kind → String) (failure : Fault) (p : Ptr)
    (w : World C) : Except Fault (Ptr × World C) := do
  let v ← w.deref kind p
  match CStr.new (get v) with
  | some s => pure (w.box supply (.cString s))
  | none => throw failure

/-! ## Entries -/

/-- `opendal_entry_path`. -/
def opendalEntryPath (entry : Ptr) (w : World C) : Except Fault (Ptr × World C) :=
  getString supply .entry C.entryPath .unwrap entry w

/-- `opendal_entry_name`. -/
def opendalEntryName (entry : Ptr) (w : World C) : Except Fault (Ptr × World C) :=
  getString supply .entry C.entryName .unwrap entry w

/-- `opendal_entry_free`. -/
def opendalEntryFree (ptr : Ptr) (w : World C) : Except Fault (World C) :=
  freeHandleOrNull .entry ptr w

/-! ## Readers -/

/-- The caller's buffer after `bytes` are written to its front. -/
def overwrite (bytes buf : List UInt8) : List UInt8 :=
  bytes ++ buf.drop bytes.length

/-- `opendal_reader_read`. -/
def opendalReaderRead (reader buf : Ptr) (len : ℕ) (w : World C) :
    Except Fault (Result ℕ × World C) := do
  if buf = .null then throw (.panic "The buffer given is pointing at NULL")
  match ← w.rootAt buf with
  | .memory old =>
      if old.length < len then throw .undefined
      let inner ← w.inner .reader reader
      let r ← w.load .reader inner
      match w.perform (C.readStd r len) with
      | ((n, r), w) =>
          let w := w.store .reader inner r
          match n with
          | .ok bytes =>
              pure (⟨bytes.length, .null⟩, w.setRoot buf (.memory (overwrite bytes old)))
          | .error e =>
              let err := C.setSource (C.newError .unexpected "read failed from reader") e
              let (error, w) ← opendalErrorNew supply err w
              pure (⟨0, error⟩, w)
  | _ => throw .undefined

/-- `opendal_reader_free`. -/
def opendalReaderFree (ptr : Ptr) (w : World C) : Except Fault (World C) :=
  freeHandleOrNull .reader ptr w

/-! ## Operator infos -/

/-- `opendal_operator_info_new`. -/
def opendalOperatorInfoNew (op : Ptr) (w : World C) : Except Fault (Ptr × World C) := do
  let op ← w.deref .operator op
  pure (newHandle supply .operatorInfo (C.info op) w)

/-- `opendal_operator_info_free`. -/
def opendalOperatorInfoFree (ptr : Ptr) (w : World C) : Except Fault (World C) :=
  freeHandle .operatorInfo ptr w

/-- `opendal_operator_info_get_scheme`, whose message names the root. -/
def opendalOperatorInfoGetScheme (info : Ptr) (w : World C) : Except Fault (Ptr × World C) :=
  getString supply .operatorInfo C.infoScheme
    (.expect "CString::new failed in opendal_operator_info_get_root") info w

/-- `opendal_operator_info_get_root`. -/
def opendalOperatorInfoGetRoot (info : Ptr) (w : World C) : Except Fault (Ptr × World C) :=
  getString supply .operatorInfo C.infoRoot
    (.expect "CString::new failed in opendal_operator_info_get_root") info w

/-- `opendal_operator_info_get_name`. -/
def opendalOperatorInfoGetName (info : Ptr) (w : World C) : Except Fault (Ptr × World C) :=
  getString supply .operatorInfo C.infoName
    (.expect "CString::new failed in opendal_operator_info_get_name") info w

end LlgoExamples.Opendal
