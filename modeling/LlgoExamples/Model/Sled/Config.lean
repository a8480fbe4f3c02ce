import LlgoExamples.Library.Ledger
import LlgoExamples.Model.Sled.CApi

/-! # The configuration calls of the sled wrapper

Configurations are boxes and paths are C strings. The ledger records when each of them is
allocated, read and deallocated, by whichever side does it. -/

namespace LlgoExamples.Sled

/-- The settings made through the wrapper; `none` is sled's default. -/
structure Config where
  path : Option String := none
  cacheCapacity : Option ℕ := none
  useCompression : Option Bool := none
  flushEveryMs : Option (Option ℕ) := none
  deriving DecidableEq, Repr

inductive Object where
  | config (addr : ℕ)
  | path (addr : ℕ)
  deriving DecidableEq, Repr

/-- Allocations are numbered, so each object has an identity of its own. -/
structure Heap where
  next : ℕ
  configs : ℕ → Config
  paths : ℕ → Bytes
  ledger : List (Ledger.Entry Object)

namespace Heap

def empty : Heap :=
  ⟨0, fun _ => {}, fun _ => [], []⟩

def log (h : Heap) (e : Ledger.Entry Object) : Heap :=
  { h with ledger := h.ledger ++ [e] }

/-- `Box::into_raw(Box::new(config))`. -/
def boxConfig (h : Heap) (config : Config) : ℕ × Heap :=
  (h.next, { h with
    next := h.next + 1
    configs := Function.update h.configs h.next config
    ledger := h.ledger ++ [.acquire (.config h.next)] })

/-- The caller allocates a path string. -/
def strdup (h : Heap) (path : Bytes) : ℕ × Heap :=
  (h.next, { h with
    next := h.next + 1
    paths := Function.update h.paths h.next path
    ledger := h.ledger ++ [.acquire (.path h.next)] })

/-- The caller frees a path string. -/
def freePath (h : Heap) (path : ℕ) : Heap :=
  h.log (.release (.path path))

end Heap

/-- `CString::into_string`, which refuses what is not UTF-8. -/
def intoString (path : Bytes) : Option String :=
  String.fromUTF8? ⟨path.toArray⟩

def sledCreateConfig (h : Heap) : ℕ × Heap :=
  h.boxConfig {}

def sledFreeConfig (config : ℕ) (h : Heap) : Heap :=
  h.log (.release (.config config))

/-- Takes the configuration out of its box and boxes what `f` makes of it. -/
def rebox (f : Config → Config) (config : ℕ) (h : Heap) : ℕ × Heap :=
  let h := h.log (.use (.config config))
  let (new, h) := h.boxConfig (f (h.configs config))
  (new, h.log (.release (.config config)))

/-- An error is the heap at a panic. -/
def sledConfigSetPath (config path : ℕ) (h : Heap) : Except Heap (ℕ × Heap) :=
  -- `CString::from_raw` takes the string over
  let h := h.log (.use (.path path))
  match intoString (h.paths path) with
  | none => .error h
  | some value =>
      -- `Config::path` copies its argument and drops it
      let h := h.log (.release (.path path))
      .ok (rebox (fun c => { c with path := some value }) config h)

def sledConfigSetCacheCapacity (config capacity : ℕ) (h : Heap) : ℕ × Heap :=
  rebox (fun c => { c with cacheCapacity := some capacity }) config h

def sledConfigUseCompression (config : ℕ) (useCompression : UInt8) (h : Heap) : ℕ × Heap :=
  rebox (fun c => { c with useCompression := some (useCompression == 1) }) config h

def sledConfigFlushEveryMs (config : ℕ) (flushEvery : ℤ) (h : Heap) : ℕ × Heap :=
  let val := if flushEvery < 0 then none else some flushEvery.toNat
  rebox (fun c => { c with flushEveryMs := some val }) config h

/-- `opened` is whether sled can open the database. Returns the configuration it was opened
with; the box is dropped on the way out, also when `unwrap` panics. -/
def sledOpenDb (config : ℕ) (opened : Bool) (h : Heap) : Except Heap (Config × Heap) :=
  let h := h.log (.use (.config config))
  let h := h.log (.release (.config config))
  if opened then .ok (h.configs config, h) else .error h

/-! ## A caller that follows the doc comments -/

inductive Builder where
  | setPath (path : Bytes)
  | setCacheCapacity (capacity : ℕ)
  | useCompression (useCompression : UInt8)
  | flushEveryMs (flushEvery : ℤ)
  deriving DecidableEq, Repr

inductive Ending where
  | openDb (opened : Bool)
  | freeConfig
  deriving DecidableEq, Repr

/-- "The caller is responsible for freeing the path string after calling this". -/
def Builder.call (config : ℕ) (h : Heap) : Builder → Except Heap (ℕ × Heap)
  | .setPath path =>
      let (p, h) := h.strdup path
      (sledConfigSetPath config p h).map fun (config, h) => (config, h.freePath p)
  | .setCacheCapacity capacity => .ok (sledConfigSetCacheCapacity config capacity h)
  | .useCompression flag => .ok (sledConfigUseCompression config flag h)
  | .flushEveryMs flushEvery => .ok (sledConfigFlushEveryMs config flushEvery h)

/-- Each result replaces the pointer passed in. -/
def callBuilders : List Builder → ℕ → Heap → Except Heap (ℕ × Heap)
  | [], config, h => .ok (config, h)
  | b :: bs, config, h => (b.call config h).bind fun (config, h) => callBuilders bs config h

def Ending.call (config : ℕ) (h : Heap) : Ending → Heap
  | .openDb opened =>
      match sledOpenDb config opened h with
      | .ok (_, h) => h
      | .error h => h
  | .freeConfig => sledFreeConfig config h

/-- The heap after the calls and their ending, or at the panic that stopped them. -/
def runFrom (calls : List Builder) (ending : Ending) (config : ℕ) (h : Heap) : Heap :=
  match callBuilders calls config h with
  | .ok (config, h) => ending.call config h
  | .error h => h

def session (calls : List Builder) (ending : Ending) : Heap :=
  let (config, h) := sledCreateConfig .empty
  runFrom calls ending config h

end LlgoExamples.Sled
