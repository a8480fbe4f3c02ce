import LlgoExamples.Library.Machine
import LlgoExamples.Verification.Sled.Equations

/-! # Releasing the values of the Go wrapper

A value is a buffer only where a get hits, or a swap fails on a key that is set. All other
values are the empty string at a nil pointer, and `Free` passes that on as well. -/

namespace LlgoExamples.Sled

open Machine

/-! ## The caller -/

/-- A call that `Value.Free` makes to `sled_free_buf`, and whether the pointer and length
were produced together and not yet handed back. -/
structure FreeCall where
  buf : Ptr
  sz : ℕ
  outstanding : Bool
  deriving DecidableEq, Repr

/-- The values that the caller has obtained and not freed, numbered in the order in which
it obtained them, and the calls that its frees have made. -/
structure GoCaller where
  world : World
  held : List (ℕ × Value)
  next : ℕ
  frees : List FreeCall

/-- Swaps have a non-nil `actual`. `free n` frees the `n`th value obtained. -/
inductive GoCall where
  | setBytes (key val : Bytes)
  | setString (key val : Bytes)
  | delBytes (key : Bytes)
  | delString (key : Bytes)
  | getBytes (key : Bytes)
  | getString (key : Bytes)
  | casBytes (key oldVal newVal : Bytes) (actual : Value)
  | casString (key oldVal newVal : Bytes) (actual : Value)
  | free (n : ℕ)
  deriving DecidableEq, Repr

namespace GoCaller

/-- The caller of a database with any content. -/
def start (tree : Tree) : GoCaller :=
  { world := .start tree, held := [], next := 0, frees := [] }

def obtain (c : GoCaller) (v : Value) (w : World) : GoCaller :=
  { c with world := w, held := (c.next, v) :: c.held, next := c.next + 1 }

/-- The call is recorded with what it hands back. If that is nothing that is outstanding,
the world stays as it is. -/
def release (c : GoCaller) (e : ℕ × Value) : GoCaller :=
  { c with
    world := (e.2.free c.world).getD c.world
    held := c.held.erase e
    frees := c.frees ++ [⟨e.2.data, e.2.str.length, (e.2.free c.world).isSome⟩] }

/-- Each value is freed at most once: only one that is held can be. -/
def step (alloc : Supply) (c : GoCaller) : GoCall → Option GoCaller
  | .setBytes key val => some { c with world := setBytes key val c.world }
  | .setString key val => some { c with world := setString key val c.world }
  | .delBytes key => some { c with world := delBytes key c.world }
  | .delString key => some { c with world := delString key c.world }
  | .getBytes key =>
      let (v, w) := getBytes alloc key c.world
      some (c.obtain v w)
  | .getString key =>
      let (v, w) := getString alloc key c.world
      some (c.obtain v w)
  | .casBytes key oldVal newVal actual =>
      (casBytes alloc key oldVal newVal (some actual) c.world).bind fun r =>
        r.actual.map fun v => c.obtain v r.world
  | .casString key oldVal newVal actual =>
      (casString alloc key oldVal newVal (some actual) c.world).bind fun r =>
        r.actual.map fun v => c.obtain v r.world
  | .free n => (c.held.find? fun e => e.1 = n).map c.release

end GoCaller

/-! ## The contract of sled_free_buf -/

/-- Every free passed on a buffer that was outstanding, and freeing every value has handed
every buffer back. -/
structure Releases (c : GoCaller) : Prop where
  sound : ∀ call ∈ c.frees, call.buf ≠ .null ∧ call.outstanding = true
  all : c.held = [] → c.world.bufs = []

/-- The call obtains a value that stands for a buffer, if it obtains one: a get finds its
key, a swap fails on a key that is set. -/
def GoCall.Hits (c : GoCaller) : GoCall → Prop
  | .getBytes key => c.world.tree key ≠ none
  | .getString key => c.world.tree key ≠ none
  | .casBytes key oldVal _ _ => c.world.tree key ≠ none ∧ c.world.tree key ≠ optSlice oldVal
  | .casString key oldVal _ _ => c.world.tree key ≠ none ∧ c.world.tree key ≠ optSlice oldVal
  | _ => True

instance (c : GoCaller) : DecidablePred (GoCall.Hits c)
  | .getBytes key => inferInstanceAs (Decidable (c.world.tree key ≠ none))
  | .getString key => inferInstanceAs (Decidable (c.world.tree key ≠ none))
  | .casBytes key oldVal _ _ =>
      inferInstanceAs (Decidable (c.world.tree key ≠ none ∧ c.world.tree key ≠ optSlice oldVal))
  | .casString key oldVal _ _ =>
      inferInstanceAs (Decidable (c.world.tree key ≠ none ∧ c.world.tree key ≠ optSlice oldVal))
  | .setBytes _ _ => isTrue trivial
  | .setString _ _ => isTrue trivial
  | .delBytes _ => isTrue trivial
  | .delString _ => isTrue trivial
  | .free _ => isTrue trivial

/-! ## What a call can do -/

variable {alloc : Supply} {c c' : GoCaller} {call : GoCall}

/-- The outcomes of a call, and when they occur. -/
inductive Served (alloc : Supply) (c : GoCaller) (call : GoCall) : GoCaller → Prop where
  | wrote (hits : call.Hits c) (w : World) (hbufs : w.bufs = c.world.bufs) :
      Served alloc c call { c with world := w }
  | hit (hits : call.Hits c) (v : Bytes) :
      Served alloc c call
        (c.obtain ⟨(leakBuf alloc v c.world).1.1, v⟩ (leakBuf alloc v c.world).2)
  | missed (misses : ¬ call.Hits c) (w : World) :
      Served alloc c call (c.obtain ⟨.null, []⟩ w)
  | freed (hits : call.Hits c) (e : ℕ × Value) (held : e ∈ c.held) :
      Served alloc c call (c.release e)

theorem served_write {w : World} (hits : call.Hits c)
    (h : some { c with world := w } = some c') (hbufs : w.bufs = c.world.bufs) :
    Served alloc c call c' := by
  cases h
  exact .wrote hits w hbufs

theorem served_get {key : Bytes} (hits : call.Hits c ↔ c.world.tree key ≠ none) :
    Served alloc c call
      (c.obtain (getValue alloc key c.world).1 (getValue alloc key c.world).2) := by
  cases hkey : c.world.tree key with
  | none =>
      rw [getValue_of_none alloc key c.world hkey]
      exact .missed (fun h => hits.1 h hkey) c.world
  | some v =>
      rw [getValue_of_some alloc key c.world hkey]
      exact .hit (hits.2 (by rw [hkey]; exact Option.some_ne_none v)) v

theorem served_cas {key oldVal newVal : Bytes} {actual : Value}
    (hits : call.Hits c ↔ c.world.tree key ≠ none ∧ c.world.tree key ≠ optSlice oldVal)
    (h : ((casValue alloc key oldVal newVal (some actual) c.world).bind fun r =>
      r.actual.map fun v => c.obtain v r.world) = some c') : Served alloc c call c' := by
  by_cases hold : c.world.tree key = optSlice oldVal
  · rw [casValue_of_eq alloc key oldVal newVal c.world actual hold] at h
    cases h
    exact .missed (fun hhits => (hits.1 hhits).2 hold) _
  · cases hkey : c.world.tree key with
    | none =>
        rw [casValue_of_none alloc key oldVal newVal c.world actual hold hkey] at h
        cases h
        exact .missed (fun hhits => (hits.1 hhits).1 hkey) _
    | some v =>
        rw [casValue_of_some alloc key oldVal newVal c.world actual hold hkey] at h
        cases h
        exact .hit (hits.2 ⟨by rw [hkey]; exact Option.some_ne_none v, hold⟩) v

theorem served (h : c.step alloc call = some c') : Served alloc c call c' := by
  cases call with
  | setBytes key val => exact served_write trivial h rfl
  | setString key val => exact served_write trivial h rfl
  | delBytes key => exact served_write trivial h rfl
  | delString key => exact served_write trivial h rfl
  | getBytes key =>
      cases h
      exact served_get Iff.rfl
  | getString key =>
      cases h
      exact served_get Iff.rfl
  | casBytes key oldVal newVal actual => exact served_cas Iff.rfl h
  | casString key oldVal newVal actual => exact served_cas Iff.rfl h
  | free n =>
      obtain ⟨e, hfind, rfl⟩ := Option.map_eq_some_iff.1 h
      have hits : (GoCall.free n).Hits c := trivial
      exact .freed hits e (List.mem_of_find?_eq_some hfind)

/-! ## Values that stand for buffers -/

def Value.buf (v : Value) : Buf :=
  { ptr := v.data, bytes := v.str }

/-- A pointer is not null, belongs to one buffer, and dangles only where there are no
bytes. -/
structure Distinct (bufs : List Buf) : Prop where
  notNull : ∀ b ∈ bufs, b.ptr ≠ .null
  dangling : ∀ b ∈ bufs, b.ptr = .dangling → b.bytes = []
  injective : ∀ b ∈ bufs, ∀ b' ∈ bufs, b.ptr = b'.ptr → b = b'

theorem Distinct.mono {bufs bufs' : List Buf} (h : Distinct bufs) (hsub : bufs' ⊆ bufs) :
    Distinct bufs' where
  notNull b hb := h.notNull b (hsub hb)
  dangling b hb := h.dangling b (hsub hb)
  injective b hb b' hb' := h.injective b (hsub hb) b' (hsub hb')

/-- A new block is none of the outstanding ones. -/
theorem block_notMem {w : World} {b : Buf} (hb : b ∈ w.bufs) :
    b.ptr ≠ .block (alloc.pick w.handed w.addrs) := by
  intro hptr
  apply alloc.fresh w.handed w.addrs
  rw [World.addrs, List.mem_toFinset, List.mem_filterMap]
  exact ⟨b, hb, by rw [hptr]; rfl⟩

theorem leakBuf_ptr (alloc : Supply) (v : Bytes) (w : World) :
    v = [] ∧ (leakBuf alloc v w).1.1 = .dangling ∨
      v ≠ [] ∧ (leakBuf alloc v w).1.1 = .block (alloc.pick w.handed w.addrs) := by
  by_cases hv : v = []
  · exact Or.inl ⟨hv, by simp [leakBuf, hv]⟩
  · exact Or.inr ⟨hv, by simp [leakBuf, hv]⟩

/-- A buffer that is leaked has a pointer of its own, unless it has no bytes. -/
theorem Distinct.leakBuf {w : World} (h : Distinct w.bufs) (v : Bytes) :
    Distinct (leakBuf alloc v w).2.bufs := by
  have hnew : ∀ b ∈ w.bufs, b.ptr = (Sled.leakBuf alloc v w).1.1 →
      b = ⟨(Sled.leakBuf alloc v w).1.1, v⟩ := by
    intro b hb hptr
    rcases leakBuf_ptr alloc v w with ⟨hv, hleak⟩ | ⟨-, hleak⟩
    · rw [hleak] at hptr ⊢
      have hbytes := h.dangling b hb hptr
      rw [hv, ← hptr, ← hbytes]
    · rw [hleak] at hptr
      exact absurd hptr (block_notMem hb)
  rw [leakBuf_bufs]
  refine ⟨?_, ?_, ?_⟩
  · intro b hb
    rcases List.mem_cons.1 hb with rfl | hb
    · exact leakBuf_ne_null alloc w v
    · exact h.notNull b hb
  · intro b hb hdangling
    rcases List.mem_cons.1 hb with rfl | hb
    · rcases leakBuf_ptr alloc v w with ⟨hv, -⟩ | ⟨-, hleak⟩
      · exact hv
      · rw [hleak] at hdangling
        cases hdangling
    · exact h.dangling b hb hdangling
  · intro b hb b' hb' hptr
    rcases List.mem_cons.1 hb with rfl | hb <;> rcases List.mem_cons.1 hb' with rfl | hb'
    · rfl
    · exact (hnew b' hb' hptr.symm).symm
    · exact hnew b hb hptr
    · exact h.injective b hb b' hb' hptr

/-- Handing back through a value whose buffer is outstanding hands back that buffer. -/
theorem free_of_mem {v : Value} {w : World} (h : Distinct w.bufs) (hv : v.buf ∈ w.bufs) :
    v.free w = some { w with bufs := w.bufs.erase v.buf } := by
  rw [Value.free, sledFreeBuf]
  cases hfind : w.bufs.find? fun b => b.ptr = v.data ∧ b.bytes.length = v.str.length with
  | none =>
      have hnot := List.find?_eq_none.1 hfind v.buf hv
      simp [Value.buf] at hnot
  | some b =>
      have hb := List.find?_some hfind
      simp only [decide_eq_true_eq] at hb
      rw [h.injective b (List.mem_of_find?_eq_some hfind) v.buf hv hb.1]

/-! ## Callers that only obtain buffers -/

/-- The values held are the buffers outstanding, and every free was of one. -/
structure Sound (c : GoCaller) : Prop where
  held : (c.held.map fun e => e.2.buf).Perm c.world.bufs
  distinct : Distinct c.world.bufs
  frees : ∀ call ∈ c.frees, call.buf ≠ .null ∧ call.outstanding = true

theorem sound_start (tree : Tree) : Sound (GoCaller.start tree) where
  held := List.Perm.refl _
  distinct := ⟨by simp [GoCaller.start, World.start], by simp [GoCaller.start, World.start],
    by simp [GoCaller.start, World.start]⟩
  frees := by simp [GoCaller.start]

theorem Sound.release (h : Sound c) {e : ℕ × Value} (he : e ∈ c.held) : Sound (c.release e) := by
  have hmem : e.2.buf ∈ c.world.bufs :=
    h.held.mem_iff.1 (List.mem_map_of_mem (f := fun e : ℕ × Value => e.2.buf) he)
  have hfree := free_of_mem h.distinct hmem
  refine ⟨?_, ?_, ?_⟩
  · have hheld : (c.held.map fun e => e.2.buf).Perm
        (e.2.buf :: (c.held.erase e).map fun e => e.2.buf) :=
      (List.perm_cons_erase he).map fun e => e.2.buf
    have hbufs := hheld.symm.trans (h.held.trans (List.perm_cons_erase hmem))
    simp only [GoCaller.release, hfree, Option.getD_some]
    exact hbufs.cons_inv
  · simp only [GoCaller.release, hfree, Option.getD_some]
    exact h.distinct.mono List.erase_subset
  · intro call hcall
    simp only [GoCaller.release, hfree, Option.isSome_some, List.mem_append,
      List.mem_singleton] at hcall
    rcases hcall with hcall | rfl
    · exact h.frees call hcall
    · exact ⟨h.distinct.notNull _ hmem, rfl⟩

theorem Sound.of_step (h : Sound c) (hits : call.Hits c) (hstep : c.step alloc call = some c') :
    Sound c' := by
  cases served hstep with
  | wrote _ w hbufs =>
      refine ⟨?_, ?_, h.frees⟩
      · exact hbufs ▸ h.held
      · exact hbufs ▸ h.distinct
  | hit _ v =>
      refine ⟨?_, h.distinct.leakBuf v, h.frees⟩
      exact h.held.cons _
  | missed misses => exact absurd hits misses
  | freed _ e he => exact h.release he

/-! ## Callers that obtain a nil pointer -/

/-- A value at a nil pointer is held, or was freed. -/
def Nilled (c : GoCaller) : Prop :=
  (∃ e ∈ c.held, e.2.data = .null) ∨ ∃ call ∈ c.frees, call.buf = .null

theorem Nilled.of_step (h : Nilled c) (hstep : c.step alloc call = some c') : Nilled c' := by
  cases served hstep with
  | wrote _ w => exact h
  | hit _ v => exact h.imp_left fun ⟨e, he, hnull⟩ => ⟨e, List.mem_cons_of_mem _ he, hnull⟩
  | missed => exact h.imp_left fun ⟨e, he, hnull⟩ => ⟨e, List.mem_cons_of_mem _ he, hnull⟩
  | freed _ e _ =>
      rcases h with ⟨e', he', hnull⟩ | ⟨f, hf, hnull⟩
      · by_cases heq : e' = e
        · right
          exact ⟨_, List.mem_append_right _ (List.mem_singleton_self _), by rw [← heq]; exact hnull⟩
        · left
          exact ⟨e', (List.mem_erase_of_ne heq).2 he', hnull⟩
      · right
        exact ⟨f, List.mem_append_left _ hf, hnull⟩

theorem nilled_of_missed (misses : ¬ call.Hits c) (hstep : c.step alloc call = some c') :
    Nilled c' := by
  cases served hstep with
  | missed _ w => exact Or.inl ⟨_, List.mem_cons_self, rfl⟩
  | wrote hits => exact absurd hits misses
  | hit hits => exact absurd hits misses
  | freed hits => exact absurd hits misses

/-! ## Whole runs -/

/-- A caller that frees every value it obtains keeps the contract of `sled_free_buf` exactly
when it only obtains buffers. Such a caller keeps it at every moment. -/
theorem releases_run_iff (alloc : Supply) (tree : Tree) (calls : List GoCall) (c : GoCaller)
    (hrun : run (GoCaller.step alloc) (GoCaller.start tree) calls = some c) :
    (c.held = [] → (Releases c ↔
      AtEach (GoCaller.step alloc) GoCall.Hits (GoCaller.start tree) calls)) ∧
    (AtEach (GoCaller.step alloc) GoCall.Hits (GoCaller.start tree) calls → Releases c) := by
  have hsound : AtEach (GoCaller.step alloc) GoCall.Hits (GoCaller.start tree) calls →
      Releases c := by
    intro hhits
    have h : Sound c := run_invariant_of_atEach
      (fun _ _ _ hinv hits hstep => hinv.of_step hits hstep) (sound_start tree) hhits hrun
    refine ⟨h.frees, ?_⟩
    intro hheld
    have hperm := h.held
    rw [hheld] at hperm
    exact hperm.symm.eq_nil
  refine ⟨fun hheld => ⟨?_, hsound⟩, hsound⟩
  intro hreleases
  refine atEach_of_not_marked (fun _ _ _ hmark hstep => hmark.of_step hstep)
    (fun _ _ _ misses hstep => nilled_of_missed misses hstep) hrun ?_
  rintro (⟨e, he, -⟩ | ⟨call, hcall, hnull⟩)
  · rw [hheld] at he
    cases he
  · exact (hreleases.sound call hcall).1 hnull

/-- A hit and a swap that fails on the key that was hit, freed in the other order. -/
def hitCalls : List GoCall :=
  [.setString [1] [2], .getString [1], .casString [1] [9] [3] ⟨.null, []⟩, .delString [1],
    .free 1, .free 0]

theorem releases_run_iff_hits :
    ∃ c, run (GoCaller.step .lowest) (GoCaller.start fun _ => none) hitCalls = some c ∧
      c.held = [] ∧ Releases c := by
  refine ⟨_, rfl, rfl, ?_⟩
  exact (releases_run_iff .lowest (fun _ => none) hitCalls _ rfl).2 (by decide)

/-- Freeing the value of a get that missed passes a null pointer. -/
theorem not_releases_miss :
    ∃ c, run (GoCaller.step .lowest) (GoCaller.start fun _ => none)
        [.getString [1], .free 0] = some c ∧
      c.held = [] ∧ c.frees = [{ buf := .null, sz := 0, outstanding := false }] ∧
      ¬ Releases c := by
  refine ⟨_, rfl, rfl, rfl, ?_⟩
  intro h
  exact (h.sound _ (List.mem_singleton_self _)).1 rfl

end LlgoExamples.Sled
