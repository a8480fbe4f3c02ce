import LlgoExamples.Model.Sled.Config
import LlgoExamples.Model.Sled.Wrapper

/-! # The demo of the sled wrapper

It hands a copy of its path over to the configuration, opens the database with it, and has
deferred the `Free` of that configuration. -/

namespace LlgoExamples.Sled

/-- A setter as the demo calls it: the copied path is not freed by the caller. -/
def Builder.chained (config : ℕ) (h : Heap) : Builder → Except Heap (ℕ × Heap)
  | .setPath path =>
      let (pathCopy, h) := h.strdup path
      sledConfigSetPath config pathCopy h
  | .setCacheCapacity capacity => .ok (sledConfigSetCacheCapacity config capacity h)
  | .useCompression flag => .ok (sledConfigUseCompression config flag h)
  | .flushEveryMs flushEvery => .ok (sledConfigFlushEveryMs config flushEvery h)

def chain : List Builder → ℕ → Heap → Except Heap (ℕ × Heap)
  | [], conf, h => .ok (conf, h)
  | b :: bs, conf, h => (b.chained conf h).bind fun (conf, h) => chain bs conf h

/-- `conf := sled.NewConfig()` with setters, and `sled.Open(conf)`. -/
def configureAndOpen (setters : List Builder) (opened : Bool) : Except Heap (ℕ × Heap) :=
  let (conf, h) := sledCreateConfig .empty
  (chain setters conf h).bind fun (conf, h) =>
    (sledOpenDb conf opened h).map fun (_, h) => (conf, h)

/-- What configurations and paths come to where `conf.Free()` was deferred. It does not run
after a panic of the library, which aborts the process. -/
def deferredFree (setters : List Builder) (opened : Bool) : Heap :=
  match configureAndOpen setters opened with
  | .ok (conf, h) => sledFreeConfig conf h
  | .error h => h

def bytesOf (s : String) : Bytes :=
  s.toUTF8.data.toList

/-- How the demo ends: the configurations, the database if it was opened, and the text
printed. -/
structure DemoRun where
  heap : Heap
  world : Option World
  printed : Bytes

/-- `main`, where `found` is what the database held if it can be opened. `none` is a `Free`
of a value that is not there. -/
def demoMain (alloc : Supply) (found : Option Tree) : Option DemoRun :=
  match found, configureAndOpen [.setPath (bytesOf "./db")] found.isSome with
  | some tree, .ok (conf, h) =>
      let db := setString (bytesOf "key") (bytesOf "value") (.start tree)
      let (val, db) := getString alloc (bytesOf "key") db
      let printed := bytesOf "value: " ++ val.str ++ bytesOf "\n"
      (val.free db).map fun db => ⟨sledFreeConfig conf h, some db, printed⟩
  | none, .ok (conf, h) => some ⟨sledFreeConfig conf h, none, []⟩
  | _, .error h => some ⟨h, none, []⟩

end LlgoExamples.Sled
