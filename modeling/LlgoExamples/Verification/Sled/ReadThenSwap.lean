import LlgoExamples.Library.Machine
import LlgoExamples.Verification.Sled.Equations

/-! # Swapping what was just read

A swap reads a zero length as an absent key, a set stores it as a present empty value.
Reading and swapping therefore agree on a key exactly when it does not hold the empty
value. -/

namespace LlgoExamples.Sled

open Machine

/-! ## Runs of database calls -/

inductive Call where
  | setBytes (key val : Bytes)
  | setString (key val : Bytes)
  | delBytes (key : Bytes)
  | delString (key : Bytes)
  | casBytes (key oldVal newVal : Bytes) (actual : Option Value)
  | casString (key oldVal newVal : Bytes) (actual : Option Value)
  deriving DecidableEq, Repr

def perform (alloc : Supply) (w : World) : Call → Option World
  | .setBytes key val => some (setBytes key val w)
  | .setString key val => some (setString key val w)
  | .delBytes key => some (delBytes key w)
  | .delString key => some (delString key w)
  | .casBytes key oldVal newVal actual =>
      (casBytes alloc key oldVal newVal actual w).map Swapped.world
  | .casString key oldVal newVal actual =>
      (casString alloc key oldVal newVal actual w).map Swapped.world

def Call.StoresEmpty : Call → Prop
  | .setBytes _ val => val = []
  | .setString _ val => val = []
  | _ => False

/-! ## What reading and swapping should agree on -/

abbrev GetForm := Bytes → World → Value × World

abbrev CasForm := Bytes → Bytes → Bytes → Option Value → World → Option Swapped

def getForms (alloc : Supply) : List GetForm :=
  [getBytes alloc, getString alloc]

def casForms (alloc : Supply) : List CasForm :=
  [casBytes alloc, casString alloc]

/-- Swaps until one succeeds, taking the reported value as the next expected one, for at
most `calls` calls. `a` is the content of the variable that receives the report. -/
def casRetry (cas : CasForm) (key newVal : Bytes) : ℕ → Bytes → Value → World → Option World
  | 0, _, _, _ => none
  | calls + 1, expected, a, w =>
      match cas key expected newVal (some a) w with
      | some ⟨true, _, w⟩ => some w
      | some ⟨false, some a, w⟩ => casRetry cas key newVal calls a.str a w
      | _ => none

/-- In `w`, what a get returns for `key` is an old value that a swap accepts, a failed swap
reports something else than it was given, and retrying takes at most two calls. -/
structure CasAgrees (alloc : Supply) (w : World) (key : Bytes) : Prop where
  readThenSwap : ∀ get ∈ getForms alloc, ∀ cas ∈ casForms alloc, ∀ newVal a,
    ∃ r, cas key (get key w).1.str newVal (some a) (get key w).2 = some r ∧ r.ret = true ∧
      ∀ get' ∈ getForms alloc, (get' key r.world).1.str = newVal
  failureDiffers : ∀ cas ∈ casForms alloc, ∀ oldVal newVal a r,
    cas key oldVal newVal (some a) w = some r → r.ret = false →
      ∃ actual, r.actual = some actual ∧ actual.str ≠ oldVal
  retryEnds : ∀ cas ∈ casForms alloc, ∀ newVal expected a,
    ∃ w', casRetry cas key newVal 2 expected a w = some w'

variable {alloc : Supply} {w : World} {key : Bytes}

theorem eq_getValue_of_mem {get : GetForm} (h : get ∈ getForms alloc) : get = getValue alloc := by
  simp only [getForms, List.mem_cons, List.not_mem_nil, or_false] at h
  rcases h with rfl | rfl <;> rfl

theorem eq_casValue_of_mem {cas : CasForm} (h : cas ∈ casForms alloc) : cas = casValue alloc := by
  simp only [casForms, List.mem_cons, List.not_mem_nil, or_false] at h
  rcases h with rfl | rfl <;> rfl

/-! ## Keys that hold no empty value -/

/-- The value a get shows is accepted, unless it is a present empty value. -/
theorem casValue_view (alloc : Supply) (newVal : Bytes) (a : Value) (h : w.tree key ≠ some []) :
    casValue alloc key (w.view key) newVal (some a) w =
      some ⟨true, some ⟨.null, []⟩,
        { w with tree := Function.update w.tree key (optSlice newVal) }⟩ :=
  casValue_of_eq alloc key (w.view key) newVal w a (optSlice_getD_eq h).symm

theorem casRetry_of_ne_empty (newVal expected : Bytes) (a : Value) (h : w.tree key ≠ some []) :
    ∃ w', casRetry (casValue alloc) key newVal 2 expected a w = some w' := by
  by_cases hfirst : w.tree key = optSlice expected
  · exact ⟨_, by rw [casRetry, casValue_of_eq alloc key expected newVal w a hfirst]⟩
  · -- the first report is what the key holds, so the second call succeeds
    obtain ⟨actual, w', hcas, hactual, htree⟩ :=
      casValue_of_ne alloc key expected newVal w a hfirst
    have hview : actual.str = w'.view key := by
      rw [hactual, World.view, World.view, htree]
    have hsecond := casValue_view alloc newVal actual (by rwa [htree])
    exact ⟨_, by rw [casRetry, hcas]; simp only; rw [casRetry, hview, hsecond]⟩

theorem casAgrees_of_ne_empty (h : w.tree key ≠ some []) : CasAgrees alloc w key where
  readThenSwap := by
    intro get hget cas hcas newVal a
    rw [eq_getValue_of_mem hget, eq_casValue_of_mem hcas, getValue_str]
    have hview : w.view key = (getValue alloc key w).2.view key := by
      rw [World.view, World.view, getValue_tree]
    refine ⟨_, by rw [hview]; exact casValue_view alloc newVal a (by rwa [getValue_tree]), rfl, ?_⟩
    intro get' hget'
    rw [eq_getValue_of_mem hget', getValue_str]
    simp [World.view]
  failureDiffers := by
    intro cas hcas oldVal newVal a r hr hfalse
    rw [eq_casValue_of_mem hcas] at hr
    have hne : w.tree key ≠ optSlice oldVal := by
      intro heq
      rw [casValue_of_eq alloc key oldVal newVal w a heq] at hr
      cases hr
      cases hfalse
    obtain ⟨actual, w', hcas', hactual, _⟩ := casValue_of_ne alloc key oldVal newVal w a hne
    rw [hcas'] at hr
    cases hr
    refine ⟨actual, rfl, ?_⟩
    rintro rfl
    rw [hactual] at hne
    exact hne (optSlice_getD_eq h).symm
  retryEnds := by
    intro cas hcas newVal expected a
    rw [eq_casValue_of_mem hcas]
    exact casRetry_of_ne_empty newVal expected a h

/-! ## Keys that hold the empty value -/

/-- No old value matches a present empty value. -/
theorem casValue_of_empty (alloc : Supply) (oldVal newVal : Bytes) (a : Value)
    (h : w.tree key = some []) :
    ∃ actual w', casValue alloc key oldVal newVal (some a) w = some ⟨false, some actual, w'⟩ ∧
      actual.str = [] ∧ w'.tree = w.tree := by
  have hne : w.tree key ≠ optSlice oldVal := by
    rw [h]
    exact (optSlice_ne_some_nil oldVal).symm
  simpa [World.view, h] using casValue_of_ne alloc key oldVal newVal w a hne

/-- The retry loop never ends there, however many calls it makes. -/
theorem casRetry_of_empty (newVal : Bytes) (calls : ℕ) (expected : Bytes) (a : Value)
    (h : w.tree key = some []) :
    casRetry (casValue alloc) key newVal calls expected a w = none := by
  induction calls generalizing expected a w with
  | zero => rfl
  | succ calls ih =>
      obtain ⟨actual, w', hcas, _, htree⟩ := casValue_of_empty alloc expected newVal a h
      rw [casRetry, hcas]
      exact ih actual.str actual (by rwa [htree])

theorem casAgrees_iff : CasAgrees alloc w key ↔ w.tree key ≠ some [] := by
  refine ⟨?_, casAgrees_of_ne_empty⟩
  intro hagrees hempty
  have hmem : casBytes alloc ∈ casForms alloc := by simp [casForms]
  obtain ⟨w', hw'⟩ := hagrees.retryEnds _ hmem [] [] ⟨.null, []⟩
  rw [eq_casValue_of_mem hmem, casRetry_of_empty [] 2 [] ⟨.null, []⟩ hempty] at hw'
  cases hw'

/-! ## Runs -/

theorem update_ne_empty (hw : ∀ k, w.tree k ≠ some []) (key : Bytes) {o : Option Bytes}
    (ho : o ≠ some []) (k : Bytes) : Function.update w.tree key o k ≠ some [] := by
  by_cases hk : k = key
  · subst hk
    simpa using ho
  · simpa [hk] using hw k

/-- A swap stores what its new value is read as, or nothing. -/
theorem casValue_ne_empty {oldVal newVal : Bytes} {actual : Option Value} {r : Swapped}
    (hw : ∀ k, w.tree k ≠ some []) (h : casValue alloc key oldVal newVal actual w = some r)
    (k : Bytes) : r.world.tree k ≠ some [] := by
  obtain ⟨s, hs, rfl⟩ := Option.map_eq_some_iff.mp h
  by_cases heq : w.tree key = optSlice oldVal
  · rw [sledCompareAndSwap_of_eq alloc key oldVal newVal w _ _ heq] at hs
    cases hs
    exact update_ne_empty hw key (optSlice_ne_some_nil newVal) k
  · cases hkey : w.tree key with
    | none =>
        rw [sledCompareAndSwap_of_none alloc key oldVal newVal w _ _ heq hkey] at hs
        cases hs
        exact hw k
    | some v =>
        rw [sledCompareAndSwap_of_some alloc key oldVal newVal w _ _ heq hkey] at hs
        obtain ⟨_, _, rfl⟩ := Option.map_eq_some_iff.mp hs
        exact hw k

/-- Only a set can leave an empty value behind. -/
theorem perform_ne_empty {c : Call} {w' : World} (hc : ¬ c.StoresEmpty)
    (hw : ∀ key, w.tree key ≠ some []) (h : perform alloc w c = some w') :
    ∀ key, w'.tree key ≠ some [] := by
  cases c with
  | setBytes key val =>
      cases h
      exact update_ne_empty hw key (by simpa [Call.StoresEmpty] using hc)
  | setString key val =>
      cases h
      exact update_ne_empty hw key (by simpa [Call.StoresEmpty] using hc)
  | delBytes key =>
      cases h
      exact update_ne_empty hw key (Option.some_ne_none []).symm
  | delString key =>
      cases h
      exact update_ne_empty hw key (Option.some_ne_none []).symm
  | casBytes key oldVal newVal actual =>
      obtain ⟨r, hr, rfl⟩ := Option.map_eq_some_iff.mp h
      exact casValue_ne_empty hw hr
  | casString key oldVal newVal actual =>
      obtain ⟨r, hr, rfl⟩ := Option.map_eq_some_iff.mp h
      exact casValue_ne_empty hw hr

theorem run_ne_empty {calls : List Call} {w' : World} (hcalls : ∀ c ∈ calls, ¬ c.StoresEmpty)
    (hw : ∀ key, w.tree key ≠ some []) (h : run (perform alloc) w calls = some w') :
    ∀ key, w'.tree key ≠ some [] := by
  induction calls generalizing w with
  | nil =>
      cases h
      exact hw
  | cons c calls ih =>
      obtain ⟨v, hv, h⟩ := run_cons_eq_some.mp h
      exact ih (fun d hd => hcalls d (by simp [hd]))
        (perform_ne_empty (hcalls c (by simp)) hw hv) h

/-- In a state reached by any calls, reading and swapping agree exactly on the keys that do
not hold the empty value. They agree on all keys when no call stored an empty value. -/
theorem casAgrees_of_run (alloc : Supply) (calls : List Call) (w : World)
    (h : run (perform alloc) World.fresh calls = some w) :
    (∀ key, CasAgrees alloc w key ↔ w.tree key ≠ some []) ∧
      ((∀ c ∈ calls, ¬ c.StoresEmpty) → ∀ key, CasAgrees alloc w key) := by
  refine ⟨fun key => casAgrees_iff, fun hcalls key => casAgrees_iff.mpr ?_⟩
  exact run_ne_empty hcalls (by simp [World.fresh, World.start]) h key

theorem casAgrees_of_run_set :
    run (perform .lowest) World.fresh [.setString [1] [2]] =
        some (setString [1] [2] World.fresh) ∧
      ∀ key, CasAgrees .lowest (setString [1] [2] World.fresh) key :=
  ⟨rfl, (casAgrees_of_run .lowest [.setString [1] [2]] _ rfl).2 (by simp [Call.StoresEmpty])⟩

/-- After storing an empty value, the swap of what a get returns fails and reports the very
value it was given. -/
theorem not_casAgrees_setString_empty :
    run (perform .lowest) World.fresh [.setString [1] []] =
        some (setString [1] [] World.fresh) ∧
      (getString .lowest [1] (setString [1] [] World.fresh)).1.str = [] ∧
      (casString .lowest [1] [] [2] (some ⟨.null, []⟩) (setString [1] [] World.fresh)).map
          (fun r => (r.ret, r.actual.map Value.str)) = some (false, some []) ∧
      ¬ CasAgrees .lowest (setString [1] [] World.fresh) [1] := by
  refine ⟨rfl, rfl, rfl, ?_⟩
  rw [casAgrees_iff]
  simp [setString, sledSet, Tree.insert]

end LlgoExamples.Sled
