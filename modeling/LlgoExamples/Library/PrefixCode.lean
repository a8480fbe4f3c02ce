import Mathlib.Data.List.Basic
import Mathlib.Logic.Function.Basic
import Mathlib.Order.Basic

/-! # Prefix codes

Encodings whose words can be read off the front of a longer text, and the ways to build
such encodings: bracketing, repetition up to a stop mark, repetition with a separator, and
words that end in their only terminator. -/

namespace LlgoExamples.PrefixCode

variable {α β σ : Type*} {enc : α → List σ}

/-! ## Reading one word -/

/-- Whatever follows two words, equal texts start with the word of one value. -/
def PrefixFree (enc : α → List σ) : Prop :=
  ∀ ⦃a b u v⦄, enc a ++ u = enc b ++ v → a = b

/-- No word can be mistaken for the start of `stop`. -/
def Apart (enc : α → List σ) (stop : List σ) : Prop :=
  ∀ a u v, enc a ++ u ≠ stop ++ v

theorem PrefixFree.append_inj (h : PrefixFree enc) {a b : α} {u v : List σ}
    (heq : enc a ++ u = enc b ++ v) : a = b ∧ u = v := by
  have hab := h heq
  subst hab
  exact ⟨rfl, List.append_cancel_left heq⟩

theorem PrefixFree.injective (h : PrefixFree enc) : Function.Injective enc := by
  intro a b heq
  apply h (u := []) (v := [])
  rw [heq]

theorem PrefixFree.comp (h : PrefixFree enc) {f : β → α} (hf : Function.Injective f) :
    PrefixFree (fun b => enc (f b)) := by
  intro a b u v heq
  exact hf (h heq)

/-! ## Building codes -/

theorem PrefixFree.surround (h : PrefixFree enc) (opening closing : List σ) :
    PrefixFree (fun a => opening ++ enc a ++ closing) := by
  intro a b u v heq
  simp only [List.append_assoc] at heq
  exact h (List.append_cancel_left heq)

/-- Repetition up to a stop mark. -/
theorem PrefixFree.delimited (h : PrefixFree enc) {stop : List σ} (hstop : Apart enc stop) :
    PrefixFree (fun as : List α => as.flatMap enc ++ stop) := by
  intro as
  induction as with
  | nil =>
      intro bs u v heq
      cases bs with
      | nil => rfl
      | cons b bs =>
          simp only [List.flatMap_nil, List.nil_append, List.flatMap_cons,
            List.append_assoc] at heq
          exact absurd heq.symm (hstop b _ _)
  | cons a as ih =>
      intro bs u v heq
      cases bs with
      | nil =>
          simp only [List.flatMap_nil, List.nil_append, List.flatMap_cons,
            List.append_assoc] at heq
          exact absurd heq (hstop a _ _)
      | cons b bs =>
          simp only [List.flatMap_cons, List.append_assoc] at heq
          rcases h.append_inj heq with ⟨rfl, hrest⟩
          have htail : as = bs := by
            apply @ih bs u v
            simpa using hrest
          rw [htail]

theorem intercalate_cons_eq_flatMap (sep : List σ) (a : α) (as : List α) :
    sep.intercalate ((a :: as).map enc) = enc a ++ as.flatMap (fun b => sep ++ enc b) := by
  induction as generalizing a with
  | nil => simp
  | cons b as ih =>
      simp only [List.map_cons, List.flatMap_cons, List.append_assoc] at ih ⊢
      rw [List.intercalate_cons_cons, ih b, List.append_assoc]

/-- Repetition with a separator, up to a stop mark. -/
theorem PrefixFree.separated (h : PrefixFree enc) {sep stop : List σ}
    (hstop : Apart enc stop) (hsep : ∀ u v, sep ++ u ≠ stop ++ v) :
    PrefixFree (fun as : List α => sep.intercalate (as.map enc) ++ stop) := by
  have hcode : PrefixFree (fun b => sep ++ enc b) := by
    simpa using h.surround sep []
  have happart : Apart (fun b => sep ++ enc b) stop := by
    intro b u v heq
    rw [List.append_assoc] at heq
    exact hsep _ _ heq
  intro as bs u v heq
  cases as with
  | nil =>
      cases bs with
      | nil => rfl
      | cons b bs =>
          simp only [intercalate_cons_eq_flatMap, List.append_assoc] at heq
          exact absurd heq.symm (hstop b _ _)
  | cons a as =>
      cases bs with
      | nil =>
          simp only [intercalate_cons_eq_flatMap, List.append_assoc] at heq
          exact absurd heq (hstop a _ _)
      | cons b bs =>
          simp only [intercalate_cons_eq_flatMap, List.append_assoc] at heq
          rcases h.append_inj heq with ⟨rfl, hrest⟩
          have htail : as = bs := by
            apply hcode.delimited happart (u := u) (v := v)
            simpa using hrest
          rw [htail]

/-- Words that end in a terminator they hold nowhere else. -/
theorem PrefixFree.of_terminated [DecidableEq σ] {t : σ} (hinj : Function.Injective enc)
    (hterm : ∀ a, ∃ w, enc a = w ++ [t] ∧ t ∉ w) : PrefixFree enc := by
  intro a b u v heq
  rcases hterm a with ⟨w, hw, hfree⟩
  rcases hterm b with ⟨w', hw', hfree'⟩
  have hword : w = w' := by
    have hsplit := congrArg (List.takeWhile (· ≠ t)) heq
    have htake : ∀ w u : List σ, t ∉ w →
        (w ++ [t] ++ u).takeWhile (· ≠ t) = w := by
      intro w u hw
      rw [List.append_assoc, List.takeWhile_append_of_pos]
      · simp
      · intro c hc
        simpa using ne_of_mem_of_not_mem hc hw
    rwa [hw, hw', htake w u hfree, htake w' v hfree'] at hsplit
  apply hinj
  rw [hw, hw', hword]

/-! ## Reading many words -/

theorem PrefixFree.flatMap_injective (h : PrefixFree enc) (hne : ∀ a, enc a ≠ []) :
    Function.Injective (fun as : List α => as.flatMap enc) := by
  intro as
  induction as with
  | nil =>
      intro bs heq
      cases bs with
      | nil => rfl
      | cons b bs =>
          have hnil : enc b = [] := by
            simpa using (List.append_eq_nil_iff.1 heq.symm).1
          exact absurd hnil (hne b)
  | cons a as ih =>
      intro bs heq
      cases bs with
      | nil =>
          have hnil : enc a = [] := by
            simpa using (List.append_eq_nil_iff.1 heq).1
          exact absurd hnil (hne a)
      | cons b bs =>
          simp only [List.flatMap_cons] at heq
          rcases h.append_inj heq with ⟨rfl, hrest⟩
          rw [ih hrest]

end LlgoExamples.PrefixCode
