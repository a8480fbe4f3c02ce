import LlgoExamples.Model.Sled.Wrapper
import Mathlib.Data.List.Basic

/-! Equations of the sled wrapper. Later proofs use these and do not unfold the calls. -/

namespace LlgoExamples.Sled

variable (alloc : Supply) (key oldVal newVal : Bytes) (w : World)

/-! ## Absence as the empty string -/

@[simp] theorem optSlice_nil : optSlice [] = none := rfl

theorem optSlice_of_ne_nil {v : Bytes} (h : v ≠ []) : optSlice v = some v := by
  simp [optSlice, h]

@[simp] theorem optSlice_getD (v : Bytes) : (optSlice v).getD [] = v := by
  cases v <;> rfl

/-- A zero length is never read as a value that is present and empty. -/
theorem optSlice_ne_some_nil (v : Bytes) : optSlice v ≠ some [] := by
  cases v <;> simp [optSlice]

/-- Every value but the present empty one is what some slice is read as. -/
theorem optSlice_getD_eq {o : Option Bytes} (h : o ≠ some []) : optSlice (o.getD []) = o := by
  cases o with
  | none => rfl
  | some v => exact optSlice_of_ne_nil (by simpa using h)

/-- What `GetBytes` and `GetString` show of a key. -/
def World.view (w : World) (key : Bytes) : Bytes :=
  (w.tree key).getD []

/-! ## Buffers -/

@[simp] theorem leakBuf_tree (v : Bytes) : (leakBuf alloc v w).2.tree = w.tree := rfl

@[simp] theorem leakBuf_bufs (v : Bytes) :
    (leakBuf alloc v w).2.bufs = ⟨(leakBuf alloc v w).1.1, v⟩ :: w.bufs := rfl

@[simp] theorem leakBuf_vallen (v : Bytes) : (leakBuf alloc v w).1.2 = v.length := rfl

theorem leakBuf_ne_null (v : Bytes) : (leakBuf alloc v w).1.1 ≠ .null := by
  simp only [leakBuf]
  split <;> simp

/-- What has just been leaked reads back in full. -/
theorem read_leakBuf (v : Bytes) :
    (leakBuf alloc v w).2.read (leakBuf alloc v w).1.1 v.length = v := by
  simp [World.read]

@[simp] theorem read_zero (p : Ptr) : w.read p 0 = [] := by
  simp [World.read]

/-! ## Gets -/

theorem getValue_of_none (h : w.tree key = none) :
    getValue alloc key w = (⟨.null, []⟩, w) := by
  simp [getValue, sledGet, h, unsafeString]

theorem getValue_of_some {v : Bytes} (h : w.tree key = some v) :
    getValue alloc key w = (⟨(leakBuf alloc v w).1.1, v⟩, (leakBuf alloc v w).2) := by
  simp only [getValue, sledGet, h, unsafeString]
  exact congrArg (fun str => (Value.mk _ str, _)) (read_leakBuf alloc w v)

@[simp] theorem getValue_str : (getValue alloc key w).1.str = w.view key := by
  cases h : w.tree key with
  | none => simp [getValue_of_none alloc key w h, World.view, h]
  | some v => simp [getValue_of_some alloc key w h, World.view, h]

@[simp] theorem getValue_tree : (getValue alloc key w).2.tree = w.tree := by
  cases h : w.tree key <;> simp [getValue, sledGet, h]

/-! ## Swaps -/

theorem sledCompareAndSwap_of_eq (actualVal : Option Ptr) (actualVallen : ℕ)
    (h : w.tree key = optSlice oldVal) :
    sledCompareAndSwap alloc key oldVal newVal actualVal actualVallen w =
      some ⟨1, actualVal, actualVallen,
        { w with tree := Function.update w.tree key (optSlice newVal) }⟩ := by
  simp [sledCompareAndSwap, Tree.compareAndSwap, h]

/-- A swap that fails on an absent key leaves `*actual_val` as it was. -/
theorem sledCompareAndSwap_of_none (actualVal : Option Ptr) (actualVallen : ℕ)
    (h : w.tree key ≠ optSlice oldVal) (hnone : w.tree key = none) :
    sledCompareAndSwap alloc key oldVal newVal actualVal actualVallen w =
      some ⟨0, actualVal, 0, w⟩ := by
  have hold : none ≠ optSlice oldVal := hnone ▸ h
  simp [sledCompareAndSwap, Tree.compareAndSwap, hold, hnone]

theorem sledCompareAndSwap_of_some (actualVal : Option Ptr) (actualVallen : ℕ) {v : Bytes}
    (h : w.tree key ≠ optSlice oldVal) (hsome : w.tree key = some v) :
    sledCompareAndSwap alloc key oldVal newVal actualVal actualVallen w =
      actualVal.map fun _ =>
        ⟨0, some (leakBuf alloc v w).1.1, v.length, (leakBuf alloc v w).2⟩ := by
  have hold : some v ≠ optSlice oldVal := hsome ▸ h
  simp [sledCompareAndSwap, Tree.compareAndSwap, hold, hsome]

/-- A swap whose old value is the current one succeeds and reports the empty string. -/
theorem casValue_of_eq (a : Value) (h : w.tree key = optSlice oldVal) :
    casValue alloc key oldVal newVal (some a) w =
      some ⟨true, some ⟨.null, []⟩,
        { w with tree := Function.update w.tree key (optSlice newVal) }⟩ := by
  simp [casValue, sledCompareAndSwap_of_eq alloc key oldVal newVal w _ _ h, unsafeString]

/-- A swap that fails on an absent key reports the empty string. -/
theorem casValue_of_none (a : Value) (h : w.tree key ≠ optSlice oldVal)
    (hnone : w.tree key = none) :
    casValue alloc key oldVal newVal (some a) w = some ⟨false, some ⟨.null, []⟩, w⟩ := by
  simp [casValue, sledCompareAndSwap_of_none alloc key oldVal newVal w _ _ h hnone,
    unsafeString]

/-- A swap that fails on a key that is set reports its value, in a new buffer. -/
theorem casValue_of_some (a : Value) {v : Bytes} (h : w.tree key ≠ optSlice oldVal)
    (hsome : w.tree key = some v) :
    casValue alloc key oldVal newVal (some a) w =
      some ⟨false, some ⟨(leakBuf alloc v w).1.1, v⟩, (leakBuf alloc v w).2⟩ := by
  simp [casValue, sledCompareAndSwap_of_some alloc key oldVal newVal w _ _ h hsome,
    unsafeString, read_leakBuf]

/-- Any other swap fails, reports what a get would show and leaves the tree alone. -/
theorem casValue_of_ne (a : Value) (h : w.tree key ≠ optSlice oldVal) :
    ∃ actual w', casValue alloc key oldVal newVal (some a) w = some ⟨false, some actual, w'⟩ ∧
      actual.str = w.view key ∧ w'.tree = w.tree := by
  cases hkey : w.tree key with
  | none =>
      refine ⟨_, _, casValue_of_none alloc key oldVal newVal w a h hkey, ?_, rfl⟩
      simp [World.view, hkey]
  | some v =>
      refine ⟨_, _, casValue_of_some alloc key oldVal newVal w a h hkey, ?_, rfl⟩
      simp [World.view, hkey]

end LlgoExamples.Sled
