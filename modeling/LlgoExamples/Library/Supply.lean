import Mathlib.Data.Finset.Card
import Mathlib.Data.Finset.Range

/-! Supplies of unused numbers: the addresses of an allocator, the descriptors of a
kernel. A number may be handed out again once it is no longer in use. -/

namespace LlgoExamples

/-- A supply answers each request with a number that is not in use, by anything it has
handed out so far. No two requests of a run see the same list, so nothing ties the answer
to one of them to the answer to another. -/
structure Supply where
  pick : List ℕ → Finset ℕ → ℕ
  fresh : ∀ handed used, pick handed used ∉ used

namespace Supply

/-- Among the first `used.card + 1` numbers, one is not in `used`. -/
theorem exists_unused (used : Finset ℕ) : ∃ n ∈ List.range (used.card + 1), n ∉ used := by
  have hcard : used.card < (Finset.range (used.card + 1)).card := by simp
  obtain ⟨n, hn, hunused⟩ := Finset.exists_mem_notMem_of_card_lt_card hcard
  exact ⟨n, by simpa using hn, hunused⟩

/-- The least number that is not in use. -/
def lowestUnused (used : Finset ℕ) : ℕ :=
  ((List.range (used.card + 1)).find? (· ∉ used)).getD 0

theorem find?_lowestUnused (used : Finset ℕ) :
    (List.range (used.card + 1)).find? (· ∉ used) = some (lowestUnused used) := by
  obtain ⟨n, hn, hunused⟩ := exists_unused used
  cases h : (List.range (used.card + 1)).find? (· ∉ used) with
  | none =>
      have hall := List.find?_eq_none.mp h n hn
      simp [hunused] at hall
  | some m => simp only [lowestUnused, h, Option.getD_some]

theorem lowestUnused_notMem (used : Finset ℕ) : lowestUnused used ∉ used := by
  simpa using List.find?_some (find?_lowestUnused used)

theorem lowestUnused_le_card (used : Finset ℕ) : lowestUnused used ≤ used.card := by
  have h := List.mem_of_find?_eq_some (find?_lowestUnused used)
  rw [List.mem_range] at h
  omega

theorem lowestUnused_le {used : Finset ℕ} {n : ℕ} (h : n ∉ used) : lowestUnused used ≤ n := by
  by_contra hlt
  have hcard := lowestUnused_le_card used
  have hfind := find?_lowestUnused used
  rw [List.find?_range_eq_some] at hfind
  have hn := hfind.2.2 n (by omega)
  simp [h] at hn

/-- All numbers below `n` being in use, the least unused one is not below `n`. -/
theorem le_lowestUnused {used : Finset ℕ} {n : ℕ} (h : Finset.range n ⊆ used) :
    n ≤ lowestUnused used := by
  by_contra hlt
  exact lowestUnused_notMem used (h (Finset.mem_range.mpr (by omega)))

/-- Taking the least unused number fills the numbers up from below. -/
theorem range_succ_subset {used : Finset ℕ} {n : ℕ} (h : Finset.range n ⊆ used) :
    Finset.range (n + 1) ⊆ insert (lowestUnused used) used := by
  intro m hm
  by_cases hused : m ∈ used
  · exact Finset.mem_insert_of_mem hused
  · have hle : lowestUnused used ≤ m := lowestUnused_le hused
    have hn := le_lowestUnused h
    have heq : m = lowestUnused used := by
      rw [Finset.mem_range] at hm
      omega
    rw [heq]
    exact Finset.mem_insert_self _ _

/-- Kernels hand out descriptors this way. -/
def lowest : Supply :=
  ⟨fun _ => lowestUnused, fun _ => lowestUnused_notMem⟩

end Supply

end LlgoExamples
