import LlgoExamples.Library.Machine
import Mathlib.Logic.Function.Basic

/-! A family of shared registers with an atomic compare-and-swap. The swap is weak: it may
miss although the expected value is current, but it never succeeds when it is not. -/

namespace LlgoExamples.Registers

open Machine

variable {κ β : Type*}

/-- One atomic operation together with what it observed. -/
inductive Action (κ β : Type*) where
  | write (k : κ) (v : β)
  | swap (k : κ) (old new : β)
  | miss (k : κ) (seen : β)
  | read (k : κ) (seen : β)
  deriving DecidableEq, Repr

variable [DecidableEq κ] [DecidableEq β]

/-- The registers after one operation. An operation that observed something other than
the current value has no meaning. -/
def post (m : κ → β) : Action κ β → Option (κ → β)
  | .write k v => some (Function.update m k v)
  | .swap k old new => if m k = old then some (Function.update m k new) else none
  | .miss k seen => if m k = seen then some m else none
  | .read k seen => if m k = seen then some m else none

/-- The successful swaps of one register, as pairs of the expected and the new value. -/
def swapsAt (k : κ) (actions : List (Action κ β)) : List (β × β) :=
  actions.filterMap fun
    | .swap k' old new => if k' = k then some (old, new) else none
    | _ => none

/-- Each pair starts where the one before it ended. -/
def Chain : β → List (β × β) → β → Prop
  | v, [], w => v = w
  | v, (old, new) :: swaps, w => v = old ∧ Chain new swaps w

variable {m m' : κ → β} {actions : List (Action κ β)} {k : κ}

omit [DecidableEq κ] [DecidableEq β] in
/-- In a chain, every pair after the first starts with the new value of the pair before it. -/
theorem Chain.follows {v w : β} {before after : List (β × β)} {p q : β × β}
    (h : Chain v (before ++ p :: q :: after) w) : q.1 = p.2 := by
  induction before generalizing v with
  | nil =>
      obtain ⟨_, h, _⟩ := h
      exact h.symm
  | cons r before ih => exact ih h.2

/-- An operation on a register that is not a plain write extends its chain. -/
theorem post_chain {a : Action κ β} (h : post m a = some m') (hwrite : ∀ v, a ≠ .write k v) :
    Chain (m k) (swapsAt k [a]) (m' k) := by
  cases a with
  | write k' v =>
      cases h
      have hk : k ≠ k' := by
        rintro rfl
        exact hwrite v rfl
      simp [swapsAt, Chain, hk]
  | swap k' old new =>
      simp only [post] at h
      split at h <;> cases h
      rename_i hold
      by_cases hk : k' = k
      · subst hk
        simp [swapsAt, Chain, hold]
      · simp [swapsAt, Chain, hk, Ne.symm hk]
  | miss k' seen =>
      simp only [post] at h
      split at h <;> cases h
      simp [swapsAt, Chain]
  | read k' seen =>
      simp only [post] at h
      split at h <;> cases h
      simp [swapsAt, Chain]

omit [DecidableEq κ] [DecidableEq β] in
theorem Chain.append {u v w : β} {swaps rest : List (β × β)} (h : Chain u swaps v)
    (hrest : Chain v rest w) : Chain u (swaps ++ rest) w := by
  induction swaps generalizing u with
  | nil =>
      cases h
      exact hrest
  | cons p swaps ih => exact ⟨h.1, ih h.2⟩

/-- On a register without plain writes, the successful swaps lead from its first value to
its last one. -/
theorem run_chain (h : run post m actions = some m') (hwrite : ∀ v, .write k v ∉ actions) :
    Chain (m k) (swapsAt k actions) (m' k) := by
  induction actions generalizing m with
  | nil =>
      cases h
      rfl
  | cons a actions ih =>
      obtain ⟨mid, hmid, h⟩ := run_cons_eq_some.mp h
      have hhead : Chain (m k) (swapsAt k [a]) (mid k) :=
        post_chain hmid fun v hv => hwrite v (by simp [hv])
      have htail := ih h fun v hv => hwrite v (by simp [hv])
      have happend : swapsAt k (a :: actions) = swapsAt k [a] ++ swapsAt k actions := by
        rw [← List.singleton_append, swapsAt, List.filterMap_append]
        rfl
      rw [happend]
      exact hhead.append htail

end LlgoExamples.Registers
