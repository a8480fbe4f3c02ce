import Mathlib.Data.List.Count
import Mathlib.Data.List.Infix

/-! Runs of a partial step function. `none` is a step that is not enabled or has no
meaning, so a run that ends in `some` state took every one of its steps. -/

namespace LlgoExamples.Machine

variable {σ ι : Type*}

/-- The state a run reaches on `inputs`, if every step of it is defined. -/
def run (step : σ → ι → Option σ) (s : σ) (inputs : List ι) : Option σ :=
  inputs.foldlM step s

/-- `P` holds of every input of the run, in the state that input meets. -/
def AtEach (step : σ → ι → Option σ) (P : σ → ι → Prop) : σ → List ι → Prop
  | _, [] => True
  | s, i :: inputs => P s i ∧ ∀ t, step s i = some t → AtEach step P t inputs

variable {step : σ → ι → Option σ} {s t u : σ} {i : ι} {inputs rest : List ι}

@[simp] theorem run_nil : run step s [] = some s := rfl

@[simp] theorem run_cons :
    run step s (i :: inputs) = (step s i).bind fun t => run step t inputs := rfl

theorem run_append :
    run step s (inputs ++ rest) = (run step s inputs).bind fun t => run step t rest := by
  simp [run, List.foldlM_append]

theorem run_append_eq_some :
    run step s (inputs ++ rest) = some u ↔
      ∃ t, run step s inputs = some t ∧ run step t rest = some u := by
  rw [run_append, Option.bind_eq_some_iff]

theorem run_cons_eq_some :
    run step s (i :: inputs) = some u ↔
      ∃ t, step s i = some t ∧ run step t inputs = some u := by
  rw [run_cons, Option.bind_eq_some_iff]

/-- Every prefix of a defined run is defined. -/
theorem run_prefix (h : run step s inputs = some u) {pre : List ι} (hp : pre <+: inputs) :
    ∃ t, run step s pre = some t := by
  obtain ⟨post, rfl⟩ := hp
  obtain ⟨t, ht, _⟩ := run_append_eq_some.mp h
  exact ⟨t, ht⟩

/-! ## Invariants -/

/-- What each step preserves, a whole run preserves. -/
theorem run_invariant {Inv : σ → Prop}
    (hstep : ∀ s i t, Inv s → step s i = some t → Inv t)
    (hs : Inv s) (h : run step s inputs = some t) : Inv t := by
  induction inputs generalizing s with
  | nil =>
      cases h
      exact hs
  | cons i inputs ih =>
      obtain ⟨u, hu, h⟩ := run_cons_eq_some.mp h
      exact ih (hstep s i u hs hu) h

/-! ## Conditions along a run -/

variable {P Q : σ → ι → Prop}

@[simp] theorem atEach_nil : AtEach step P s [] := trivial

@[simp] theorem atEach_cons :
    AtEach step P s (i :: inputs) ↔ P s i ∧ ∀ t, step s i = some t → AtEach step P t inputs :=
  Iff.rfl

/-- Conditions along a run can be checked by running it. -/
instance decidableAtEach [∀ s i, Decidable (P s i)] :
    ∀ s inputs, Decidable (AtEach step P s inputs)
  | _, [] => isTrue trivial
  | s, i :: inputs =>
      match h : step s i with
      | none => decidable_of_iff (P s i)
          ⟨fun hP => ⟨hP, fun t ht => by rw [h] at ht; cases ht⟩, And.left⟩
      | some t =>
          have := decidableAtEach t inputs
          decidable_of_iff (P s i ∧ AtEach step P t inputs)
            ⟨fun hP => ⟨hP.1, fun u hu => by rw [h] at hu; cases hu; exact hP.2⟩,
              fun hP => ⟨hP.1, hP.2 t h⟩⟩

/-- `AtEach` spelled out: the run is cut at each of its inputs. -/
theorem atEach_iff :
    AtEach step P s inputs ↔
      ∀ pre i post t, inputs = pre ++ i :: post → run step s pre = some t → P t i := by
  induction inputs generalizing s with
  | nil => simp
  | cons j inputs ih =>
      rw [atEach_cons]
      constructor
      · rintro ⟨hj, hrest⟩ pre i post t hsplit hrun
        cases pre with
        | nil =>
            cases hsplit
            cases hrun
            exact hj
        | cons k pre =>
            cases hsplit
            obtain ⟨u, hu, hrun⟩ := run_cons_eq_some.mp hrun
            exact ih.mp (hrest u hu) pre i post t rfl hrun
      · intro h
        refine ⟨h [] j inputs s rfl rfl, fun u hu => ih.mpr ?_⟩
        intro pre i post t hsplit hrun
        exact h (j :: pre) i post t (by rw [hsplit]; rfl) (run_cons_eq_some.mpr ⟨u, hu, hrun⟩)

/-- What each step keeps as long as its input meets `P`, a run of such inputs keeps. -/
theorem run_invariant_of_atEach {Inv : σ → Prop}
    (hstep : ∀ s i t, Inv s → P s i → step s i = some t → Inv t) (hs : Inv s)
    (hP : AtEach step P s inputs) (h : run step s inputs = some t) : Inv t := by
  induction inputs generalizing s with
  | nil =>
      cases h
      exact hs
  | cons i inputs ih =>
      obtain ⟨u, hu, h⟩ := run_cons_eq_some.mp h
      exact ih (hstep s i u hs hP.1 hu) (hP.2 u hu) h

/-- Where breaking `P` leaves a mark that every step keeps, a run that ends without the
mark met `P` at each of its inputs. -/
theorem atEach_of_not_marked {Marked : σ → Prop}
    (hkeep : ∀ s i t, Marked s → step s i = some t → Marked t)
    (hmark : ∀ s i t, ¬ P s i → step s i = some t → Marked t)
    (h : run step s inputs = some t) (hnot : ¬ Marked t) : AtEach step P s inputs := by
  induction inputs generalizing s with
  | nil => trivial
  | cons i inputs ih =>
      obtain ⟨u, hu, h⟩ := run_cons_eq_some.mp h
      refine ⟨?_, ?_⟩
      · by_contra hP
        exact hnot (run_invariant hkeep (hmark s i u hP hu) h)
      · intro v hv
        rw [hu] at hv
        cases hv
        exact ih h

/-- A condition along a run holds along both its parts. -/
theorem atEach_append (h : AtEach step P s (inputs ++ rest)) :
    AtEach step P s inputs ∧ ∀ t, run step s inputs = some t → AtEach step P t rest := by
  induction inputs generalizing s with
  | nil =>
      refine ⟨trivial, ?_⟩
      intro t ht
      cases ht
      exact h
  | cons i inputs ih =>
      refine ⟨⟨h.1, fun u hu => (ih (h.2 u hu)).1⟩, ?_⟩
      intro t ht
      obtain ⟨u, hu, ht⟩ := run_cons_eq_some.mp ht
      exact (ih (h.2 u hu)).2 t ht

/-- A run costs no more than its credits and what was saved before it, where each step that
meets `P` pays for itself out of a potential. -/
theorem run_potential (potential : σ → ℕ) {cost credit : ι → Bool}
    (Inv : σ → Prop) (hkeep : ∀ s i t, Inv s → step s i = some t → Inv t)
    (hstep : ∀ s i t, Inv s → P s i → step s i = some t →
      potential t + [i].countP cost ≤ potential s + [i].countP credit)
    (hs : Inv s) (hP : AtEach step P s inputs) (h : run step s inputs = some t) :
    potential t + inputs.countP cost ≤ potential s + inputs.countP credit := by
  induction inputs generalizing s with
  | nil =>
      cases h
      exact Nat.le_refl _
  | cons i inputs ih =>
      obtain ⟨u, hu, h⟩ := run_cons_eq_some.mp h
      have hhead := hstep s i u hs hP.1 hu
      have htail := ih (hkeep s i u hs hu) (hP.2 u hu) h
      rw [← List.singleton_append, List.countP_append, List.countP_append]
      omega

/-- Two conditions that agree under an invariant agree along every run, when the first
of them is what lets a step keep the invariant. -/
theorem atEach_congr (Inv : σ → Prop) (hPQ : ∀ s i, Inv s → (P s i ↔ Q s i))
    (hstep : ∀ s i t, Inv s → P s i → step s i = some t → Inv t) (hs : Inv s) :
    AtEach step P s inputs ↔ AtEach step Q s inputs := by
  induction inputs generalizing s with
  | nil => simp
  | cons i inputs ih =>
      simp only [atEach_cons]
      constructor
      · rintro ⟨hP, hrest⟩
        exact ⟨(hPQ s i hs).mp hP, fun t ht => (ih (hstep s i t hs hP ht)).mp (hrest t ht)⟩
      · rintro ⟨hQ, hrest⟩
        have hP := (hPQ s i hs).mpr hQ
        exact ⟨hP, fun t ht => (ih (hstep s i t hs hP ht)).mpr (hrest t ht)⟩

/-! ## Conditions on a log -/

/-- Each entry of the log meets `P` with the entries before it. -/
def EachAfter (P : List ι → ι → Prop) (log : List ι) : Prop :=
  ∀ before e after, log = before ++ e :: after → P before e

variable {R : List ι → ι → Prop} {log : List ι} {e : ι}

theorem eachAfter_nil : EachAfter R [] := by
  intro before e after hsplit
  simp at hsplit

theorem EachAfter.concat (h : EachAfter R log) (he : R log e) : EachAfter R (log ++ [e]) := by
  intro before e' after hsplit
  rcases List.eq_nil_or_concat after with rfl | ⟨after, last, rfl⟩
  · obtain ⟨rfl, heq⟩ := List.append_inj' hsplit rfl
    cases heq
    exact he
  · have hsplit' : log ++ [e] = (before ++ e' :: after) ++ [last] := by
      rw [hsplit, List.concat_eq_append, List.append_assoc, List.cons_append]
    obtain ⟨rfl, -⟩ := List.append_inj' hsplit' rfl
    exact h before e' after rfl

end LlgoExamples.Machine
