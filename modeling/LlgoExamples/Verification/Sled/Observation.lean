import LlgoExamples.Verification.Sled.ReadThenSwap

/-! # Asking for the actual value

A Go swap without `actual` passes a null `actual_val`. The two forms agree as long as there
is nothing to report; a report is written through that pointer. -/

namespace LlgoExamples.Sled

variable {alloc : Supply} {w : World} {key oldVal newVal : Bytes}

/-- Every buffer made for the report of a swap is owned by the reported value. -/
def ReportOwned (w : World) (r : Swapped) : Prop :=
  r.world.bufs = w.bufs ∨
    ∃ v, r.actual = some v ∧ r.world.bufs = { ptr := v.data, bytes := v.str } :: w.bufs

/-- Both forms of the swap complete, with one result and one tree. The form without `actual`
makes no buffer, the other one makes none that the report does not own. -/
structure Agree (w : World) (quiet asked : Option Swapped) : Prop where
  complete : ∃ q a, quiet = some q ∧ asked = some a
  ret : quiet.map Swapped.ret = asked.map Swapped.ret
  tree : quiet.map (fun q => q.world.tree) = asked.map fun a => a.world.tree
  noBuffer : ∀ q, quiet = some q → q.world.bufs = w.bufs
  owned : ∀ a, asked = some a → ReportOwned w a

/-- Asking for the actual value only observes the swap. -/
def OnlyObserves (alloc : Supply) (w : World) (key oldVal newVal : Bytes) : Prop :=
  ∀ cas ∈ casForms alloc, ∀ a,
    Agree w (cas key oldVal newVal none w) (cas key oldVal newVal (some a) w)

/-! ## The form without actual -/

theorem casValue_none_of_eq (alloc : Supply) (newVal : Bytes) (h : w.tree key = optSlice oldVal) :
    casValue alloc key oldVal newVal none w = some
      { ret := true, actual := none,
        world := { w with tree := Function.update w.tree key (optSlice newVal) } } := by
  simp [casValue, sledCompareAndSwap_of_eq alloc key oldVal newVal w _ _ h]

theorem casValue_none_of_none (alloc : Supply) (newVal : Bytes)
    (h : w.tree key ≠ optSlice oldVal) (hnone : w.tree key = none) :
    casValue alloc key oldVal newVal none w = some ⟨false, none, w⟩ := by
  simp [casValue, sledCompareAndSwap_of_none alloc key oldVal newVal w _ _ h hnone]

/-- The current value is written through the null pointer. -/
theorem casValue_none_of_some (alloc : Supply) (newVal : Bytes) {v : Bytes}
    (h : w.tree key ≠ optSlice oldVal) (hsome : w.tree key = some v) :
    casValue alloc key oldVal newVal none w = none := by
  simp [casValue, sledCompareAndSwap_of_some alloc key oldVal newVal w _ _ h hsome]

/-! ## Both forms -/

theorem agree_of_eq (alloc : Supply) (newVal : Bytes) (a : Value)
    (h : w.tree key = optSlice oldVal) :
    Agree w (casValue alloc key oldVal newVal none w)
      (casValue alloc key oldVal newVal (some a) w) := by
  rw [casValue_none_of_eq alloc newVal h, casValue_of_eq alloc key oldVal newVal w a h]
  refine ⟨⟨_, _, rfl, rfl⟩, rfl, rfl, ?_, ?_⟩
  · rintro q ⟨⟩
    rfl
  · rintro r ⟨⟩
    exact Or.inl rfl

theorem agree_of_none (alloc : Supply) (newVal : Bytes) (a : Value)
    (h : w.tree key ≠ optSlice oldVal) (hnone : w.tree key = none) :
    Agree w (casValue alloc key oldVal newVal none w)
      (casValue alloc key oldVal newVal (some a) w) := by
  rw [casValue_none_of_none alloc newVal h hnone,
    casValue_of_none alloc key oldVal newVal w a h hnone]
  refine ⟨⟨_, _, rfl, rfl⟩, rfl, rfl, ?_, ?_⟩
  · rintro q ⟨⟩
    rfl
  · rintro r ⟨⟩
    exact Or.inl rfl

/-- Asking for the actual value is only an observation exactly when the swap succeeds or its
key is not set. -/
theorem onlyObserves_iff (alloc : Supply) (w : World) (key oldVal newVal : Bytes) :
    OnlyObserves alloc w key oldVal newVal ↔
      w.tree key = optSlice oldVal ∨ w.tree key = none := by
  constructor
  · intro h
    by_contra hnot
    rw [not_or] at hnot
    obtain ⟨v, hsome⟩ := Option.ne_none_iff_exists'.1 hnot.2
    have hmem : casBytes alloc ∈ casForms alloc := by simp [casForms]
    obtain ⟨q, r, hquiet, -⟩ := (h _ hmem { data := .null, str := [] }).complete
    rw [eq_casValue_of_mem hmem, casValue_none_of_some alloc newVal hnot.1 hsome] at hquiet
    cases hquiet
  · intro h cas hcas a
    rw [eq_casValue_of_mem hcas]
    by_cases heq : w.tree key = optSlice oldVal
    · exact agree_of_eq alloc newVal a heq
    · exact agree_of_none alloc newVal a heq (h.resolve_left heq)

/-- A key that holds another value: the form with `actual` returns false, the form without
writes through a null pointer. -/
theorem not_onlyObserves_otherValue :
    (casString .lowest [1] [9] [3] (some ⟨.null, []⟩) (setString [1] [2] World.fresh)).map
        Swapped.ret = some false ∧
      casString .lowest [1] [9] [3] none (setString [1] [2] World.fresh) = none ∧
      ¬ OnlyObserves .lowest (setString [1] [2] World.fresh) [1] [9] [3] := by
  refine ⟨rfl, rfl, ?_⟩
  intro h
  obtain ⟨q, r, hquiet, -⟩ := (h (casString .lowest) (by simp [casForms])
    { data := .null, str := [] }).complete
  cases hquiet

end LlgoExamples.Sled
