import LlgoExamples.Library.Machine
import LlgoExamples.Verification.Sled.Equations

/-! # Buffers in the hands of a C caller

The caller keeps its output variables from call to call and hands back what the doc
comments of the C interface tell it to. A swap that fails on an absent key leaves
`*actual_val` alone, so the caller then hands back what the variable held before. -/

namespace LlgoExamples.Sled

open Machine

/-! ## The caller -/

/-- Pointer and length variables, by their addresses. -/
structure CCaller where
  world : World
  ptrs : ℕ → Ptr
  lens : ℕ → ℕ

/-- The calls name the output variables they pass. One call does not pass a variable
twice. -/
inductive CCall where
  | set (key val : Bytes)
  | get (key : Bytes) (val vallen : ℕ)
  | del (key : Bytes)
  | cas (key oldVal newVal : Bytes) (actualVal actualVallen : ℕ)
  | iterNext (item : Option (Bytes × Bytes)) (key keylen val vallen : ℕ)
      (hptr : key ≠ val) (hlen : keylen ≠ vallen)
  /-- The caller writes a variable itself. -/
  | assign (var : ℕ) (p : Ptr) (n : ℕ)

namespace CCaller

/-- No buffer is outstanding; the variables hold anything. -/
def start (tree : Tree) (ptrs : ℕ → Ptr) (lens : ℕ → ℕ) : CCaller :=
  ⟨.start tree, ptrs, lens⟩

/-- The call alone, with its result. -/
def call (alloc : Supply) (c : CCaller) : CCall → Option (UInt8 × CCaller)
  | .set key val => some (0, { c with world := sledSet key val c.world })
  | .get key val vallen =>
      let ((p, n), w) := sledGet alloc key (c.lens vallen) c.world
      some (0, ⟨w, Function.update c.ptrs val p, Function.update c.lens vallen n⟩)
  | .del key => some (0, { c with world := sledDel key c.world })
  | .cas key oldVal newVal actualVal actualVallen =>
      (sledCompareAndSwap alloc key oldVal newVal (some (c.ptrs actualVal))
          (c.lens actualVallen) c.world).map fun r =>
        (r.ret, ⟨r.world,
          Function.update c.ptrs actualVal (r.actualVal.getD (c.ptrs actualVal)),
          Function.update c.lens actualVallen r.actualVallen⟩)
  | .iterNext item key keylen val vallen _ _ =>
      let r := sledIterNext alloc item (c.ptrs key) (c.lens keylen) (c.ptrs val) (c.lens vallen)
        c.world
      some (r.ret, ⟨r.world, Function.update (Function.update c.ptrs key r.key) val r.val,
        Function.update (Function.update c.lens keylen r.keylen) vallen r.vallen⟩)
  | .assign var p n =>
      some (0, ⟨c.world, Function.update c.ptrs var p, Function.update c.lens var n⟩)

/-- Hands back the buffer in two variables, if the pointer is not null. -/
def freeBuf (val vallen : ℕ) (c : CCaller) : Option CCaller :=
  if c.ptrs val = .null then some c
  else (sledFreeBuf (c.ptrs val) (c.lens vallen) c.world).map fun w => { c with world := w }

/-- What the doc comments ask the caller to hand back after a call that returned `ret`. -/
def freeResults (ret : UInt8) (c : CCaller) : CCall → Option CCaller
  | .get _ val vallen => c.freeBuf val vallen
  | .cas _ _ _ actualVal actualVallen =>
      if ret = 0 then c.freeBuf actualVal actualVallen else some c
  | .iterNext _ key keylen val vallen _ _ =>
      if ret = 1 then (c.freeBuf key keylen).bind (freeBuf val vallen) else some c
  | _ => some c

/-- A call and the frees that follow it. -/
def round (alloc : Supply) (c : CCaller) (call : CCall) : Option CCaller :=
  (c.call alloc call).bind fun (ret, c) => c.freeResults ret call

end CCaller

/-! ## The protocol of one round -/

/-- The call is a swap that fails because its key is not set. -/
def CCall.FailsOnAbsent (c : CCaller) : CCall → Prop
  | .cas key oldVal _ _ _ => c.world.tree key = none ∧ oldVal ≠ []
  | _ => False

/-- Every hand-back was defined, and no buffer is outstanding. -/
def Cleared (o : Option CCaller) : Prop :=
  ∃ c, o = some c ∧ c.world.bufs = []

/-- Every free of the round hands back an outstanding buffer with its own length, none is
outstanding afterwards, and a swap that fails on an absent key leaves null and zero in its
output variables. -/
def RoundOk (alloc : Supply) (c : CCaller) (call : CCall) : Prop :=
  Cleared (c.round alloc call) ∧
    ∀ key oldVal newVal actualVal actualVallen,
      call = .cas key oldVal newVal actualVal actualVallen → call.FailsOnAbsent c →
        ∃ c', c.call alloc call = some (0, c') ∧ c'.ptrs actualVal = .null ∧
          c'.lens actualVallen = 0

/-- The variable that a swap failing on an absent key does not write is already null. -/
def ActualValNull (c : CCaller) (call : CCall) : Prop :=
  ∀ key oldVal newVal actualVal actualVallen,
    call = .cas key oldVal newVal actualVal actualVallen → call.FailsOnAbsent c →
      c.ptrs actualVal = .null

variable {alloc : Supply} {c : CCaller}

/-! ## Handing back -/

theorem cleared_some (h : c.world.bufs = []) : Cleared (some c) :=
  ⟨c, rfl, h⟩

theorem sledFreeBuf_head {w : World} {b : Buf} {rest : List Buf} (h : w.bufs = b :: rest) :
    sledFreeBuf b.ptr b.bytes.length w = some { w with bufs := rest } := by
  simp [sledFreeBuf, h]

/-- The buffer below the newest one can be handed back first. -/
theorem sledFreeBuf_second {w : World} {b b' : Buf} (h : w.bufs = [b', b]) :
    ∃ d, sledFreeBuf b.ptr b.bytes.length w = some { w with bufs := [d] } ∧
      d.ptr = b'.ptr ∧ d.bytes.length = b'.bytes.length := by
  by_cases hsame : b'.ptr = b.ptr ∧ b'.bytes.length = b.bytes.length
  · refine ⟨b, ?_, hsame.1.symm, hsame.2.symm⟩
    simp [sledFreeBuf, h, hsame]
  · refine ⟨b', ?_, rfl, rfl⟩
    have hne : b' ≠ b := by
      rintro rfl
      exact hsame ⟨rfl, rfl⟩
    simp [sledFreeBuf, h, hsame, hne]

theorem cleared_freeBuf_of_null {val vallen : ℕ} (hnull : c.ptrs val = .null)
    (hbufs : c.world.bufs = []) : Cleared (c.freeBuf val vallen) := by
  rw [CCaller.freeBuf, if_pos hnull]
  exact cleared_some hbufs

/-- The only outstanding buffer is handed back through the variables that hold it. -/
theorem cleared_freeBuf {val vallen : ℕ} {b : Buf} (hnull : b.ptr ≠ .null)
    (hbufs : c.world.bufs = [b]) (hptr : c.ptrs val = b.ptr)
    (hlen : c.lens vallen = b.bytes.length) : Cleared (c.freeBuf val vallen) := by
  rw [CCaller.freeBuf, hptr, hlen, if_neg hnull, sledFreeBuf_head hbufs]
  exact cleared_some rfl

/-! ## One round -/

theorem cleared_get (key : Bytes) (val vallen : ℕ) (hbufs : c.world.bufs = []) :
    Cleared (c.round alloc (.get key val vallen)) := by
  cases hkey : c.world.tree key with
  | none =>
      simp only [CCaller.round, CCaller.call, sledGet, hkey, Option.bind_some,
        CCaller.freeResults]
      exact cleared_freeBuf_of_null (by simp) hbufs
  | some v =>
      simp only [CCaller.round, CCaller.call, sledGet, hkey, Option.bind_some,
        CCaller.freeResults]
      apply cleared_freeBuf (b := ⟨(leakBuf alloc v c.world).1.1, v⟩)
      · exact leakBuf_ne_null alloc c.world v
      · rw [leakBuf_bufs, hbufs]
      · simp
      · simp

theorem cleared_iterNext (k v : Bytes) (key keylen val vallen : ℕ) (hptr : key ≠ val)
    (hlen : keylen ≠ vallen) (hbufs : c.world.bufs = []) :
    Cleared (c.round alloc (.iterNext (some (k, v)) key keylen val vallen hptr hlen)) := by
  rcases hk : leakBuf alloc k c.world with ⟨⟨kp, kn⟩, w⟩
  rcases hv : leakBuf alloc v w with ⟨⟨vp, vn⟩, w'⟩
  have hkp : kp ≠ .null := by simpa [hk] using leakBuf_ne_null alloc c.world k
  have hvp : vp ≠ .null := by simpa [hv] using leakBuf_ne_null alloc w v
  have hkn : k.length = kn := by simpa [hk] using (leakBuf_vallen alloc c.world k).symm
  have hvn : v.length = vn := by simpa [hv] using (leakBuf_vallen alloc w v).symm
  have hw : w.bufs = [⟨kp, k⟩] := by simpa [hk, hbufs] using leakBuf_bufs alloc c.world k
  have hw' : w'.bufs = [⟨vp, v⟩, ⟨kp, k⟩] := by simpa [hv, hw] using leakBuf_bufs alloc w v
  obtain ⟨d, hfree, hdptr, hdlen⟩ := sledFreeBuf_second hw'
  simp only at hfree hdptr hdlen
  simp only [CCaller.round, CCaller.call, sledIterNext, hk, hv, Option.bind_some,
    CCaller.freeResults, if_true]
  -- the key is handed back first, although the value was leaked last
  rw [CCaller.freeBuf]
  simp only [Function.update_of_ne hptr, Function.update_of_ne hlen, Function.update_self, hkp,
    ← hkn, hfree, if_false, Option.map_some, Option.bind_some]
  apply cleared_freeBuf (b := d) (by rwa [hdptr]) rfl
  · simp [hdptr]
  · simp [hdlen, hvn]

theorem roundOk_of_cleared {call : CCall} (hcleared : Cleared (c.round alloc call))
    (hfails : ¬ call.FailsOnAbsent c) : RoundOk alloc c call ↔ ActualValNull c call := by
  simp [RoundOk, ActualValNull, hcleared, hfails]

/-- A swap that succeeds leaves nothing to hand back. -/
theorem cleared_cas_of_eq {key oldVal : Bytes} (newVal : Bytes) (actualVal actualVallen : ℕ)
    (hold : c.world.tree key = optSlice oldVal) (hbufs : c.world.bufs = []) :
    Cleared (c.round alloc (.cas key oldVal newVal actualVal actualVallen)) := by
  simp only [CCaller.round, CCaller.call,
    sledCompareAndSwap_of_eq alloc key oldVal newVal c.world _ _ hold, Option.map_some,
    Option.bind_some, CCaller.freeResults]
  rw [if_neg (by decide)]
  exact cleared_some hbufs

/-- A swap that fails on a key that is set leaves one buffer, which is handed back at once. -/
theorem cleared_cas_of_some {key oldVal v : Bytes} (newVal : Bytes)
    (actualVal actualVallen : ℕ) (hold : c.world.tree key ≠ optSlice oldVal)
    (hkey : c.world.tree key = some v) (hbufs : c.world.bufs = []) :
    Cleared (c.round alloc (.cas key oldVal newVal actualVal actualVallen)) := by
  simp only [CCaller.round, CCaller.call,
    sledCompareAndSwap_of_some alloc key oldVal newVal c.world _ _ hold hkey,
    Option.map_some, Option.bind_some, CCaller.freeResults, if_true]
  apply cleared_freeBuf (b := ⟨(leakBuf alloc v c.world).1.1, v⟩)
  · exact leakBuf_ne_null alloc c.world v
  · rw [leakBuf_bufs, hbufs]
  · simp
  · simp

/-- A swap that fails on an absent key leaves the caller's old pointer to hand back. -/
theorem roundOk_cas_of_none {key oldVal : Bytes} (newVal : Bytes) (actualVal actualVallen : ℕ)
    (hold : c.world.tree key ≠ optSlice oldVal) (hkey : c.world.tree key = none)
    (hbufs : c.world.bufs = []) :
    RoundOk alloc c (.cas key oldVal newVal actualVal actualVallen) ↔
      ActualValNull c (.cas key oldVal newVal actualVal actualVallen) := by
  have hne : oldVal ≠ [] := by
    rintro rfl
    exact hold hkey
  have hcall : c.call alloc (.cas key oldVal newVal actualVal actualVallen) =
      some (0, ⟨c.world, c.ptrs, Function.update c.lens actualVallen 0⟩) := by
    simp [CCaller.call, sledCompareAndSwap_of_none alloc key oldVal newVal c.world _ _
      hold hkey]
  constructor
  · intro hok _ _ _ _ _ hcas hfails
    cases hcas
    obtain ⟨c', hc', hnull, _⟩ := hok.2 _ _ _ _ _ rfl hfails
    rw [hcall] at hc'
    cases hc'
    exact hnull
  · intro hnull
    have hptr := hnull _ _ _ _ _ rfl ⟨hkey, hne⟩
    constructor
    · simp only [CCaller.round, hcall, Option.bind_some, CCaller.freeResults, if_true]
      exact cleared_freeBuf_of_null hptr hbufs
    · intro _ _ _ _ _ hcas _
      cases hcas
      exact ⟨_, hcall, hptr, by simp⟩

/-- A swap leaves nothing to hand back, a buffer that is handed back at once, or the
caller's old pointer. -/
theorem roundOk_cas_iff (key oldVal newVal : Bytes) (actualVal actualVallen : ℕ)
    (hbufs : c.world.bufs = []) :
    RoundOk alloc c (.cas key oldVal newVal actualVal actualVallen) ↔
      ActualValNull c (.cas key oldVal newVal actualVal actualVallen) := by
  by_cases hold : c.world.tree key = optSlice oldVal
  · apply roundOk_of_cleared (cleared_cas_of_eq newVal actualVal actualVallen hold hbufs)
    rintro ⟨hnone, hne⟩
    rw [hnone, optSlice_of_ne_nil hne] at hold
    cases hold
  · cases hkey : c.world.tree key with
    | none => exact roundOk_cas_of_none newVal actualVal actualVallen hold hkey hbufs
    | some v =>
        apply roundOk_of_cleared
          (cleared_cas_of_some newVal actualVal actualVallen hold hkey hbufs)
        rintro ⟨hnone, _⟩
        rw [hkey] at hnone
        cases hnone

theorem roundOk_iff (call : CCall) (hbufs : c.world.bufs = []) :
    RoundOk alloc c call ↔ ActualValNull c call := by
  cases call with
  | set key val => exact roundOk_of_cleared (cleared_some hbufs) id
  | get key val vallen => exact roundOk_of_cleared (cleared_get key val vallen hbufs) id
  | del key => exact roundOk_of_cleared (cleared_some hbufs) id
  | cas key oldVal newVal actualVal actualVallen =>
      exact roundOk_cas_iff key oldVal newVal actualVal actualVallen hbufs
  | iterNext item key keylen val vallen hptr hlen =>
      refine roundOk_of_cleared ?_ id
      cases item with
      | none =>
          simp only [CCaller.round, CCaller.call, sledIterNext, Option.bind_some,
            CCaller.freeResults]
          rw [if_neg (by decide)]
          exact cleared_some hbufs
      | some kv => exact cleared_iterNext kv.1 kv.2 key keylen val vallen hptr hlen hbufs
  | assign var p n => exact roundOk_of_cleared (cleared_some hbufs) id

/-! ## Whole runs -/

/-- Every round of a run keeps the protocol exactly when, at every swap that fails on an
absent key, the variable passed as `actual_val` already is null. -/
theorem roundOk_run_iff (alloc : Supply) (tree : Tree) (ptrs : ℕ → Ptr) (lens : ℕ → ℕ)
    (calls : List CCall) :
    AtEach (CCaller.round alloc) (RoundOk alloc) (CCaller.start tree ptrs lens) calls ↔
      AtEach (CCaller.round alloc) ActualValNull (CCaller.start tree ptrs lens) calls := by
  apply atEach_congr fun c => c.world.bufs = []
  · intro c call hbufs
    exact roundOk_iff call hbufs
  · intro c call c' _ hok hround
    obtain ⟨d, hd, hbufs⟩ := hok.1
    rw [hround] at hd
    cases hd
    exact hbufs
  · rfl

/-- After a swap that failed on a set key, one that fails on an absent key leaves the freed
pointer in place, and the caller hands it back again. -/
theorem not_roundOk_cas_absent :
    let start := CCaller.start World.fresh.tree (fun _ => .null) (fun _ => 0)
    let calls := [CCall.set [1] [2], .cas [1] [9] [3] 0 0, .cas [5] [9] [3] 0 0]
    (run (CCaller.round .lowest) start (calls.take 2)).map
        (fun c => (c.world.bufs, c.ptrs 0, c.lens 0)) = some ([], .block 0, 1) ∧
      run (CCaller.round .lowest) start calls = none ∧
      ¬ AtEach (CCaller.round .lowest) (RoundOk .lowest) start calls := by
  refine ⟨rfl, rfl, ?_⟩
  intro hok
  obtain ⟨⟨c, hround, _⟩, _⟩ := atEach_iff.mp hok [_, _] _ [] _ rfl rfl
  cases hround

end LlgoExamples.Sled
