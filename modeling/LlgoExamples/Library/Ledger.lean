import LlgoExamples.Library.Machine
import Mathlib.Data.List.Count
import Mathlib.Data.List.Perm.Basic

/-! A ledger of owned resources: each is acquired, used while it is live, and released.
A resource may be acquired again after its release, as an address or a descriptor is. -/

namespace LlgoExamples.Ledger

open Machine

variable {ρ : Type*} [DecidableEq ρ]

inductive Entry (ρ : Type*) where
  | acquire (r : ρ)
  | use (r : ρ)
  | release (r : ρ)
  deriving DecidableEq, Repr

/-- The live resources after one entry. Using or releasing what is not live has no
meaning. -/
def post (live : List ρ) : Entry ρ → Option (List ρ)
  | .acquire r => some (r :: live)
  | .use r => if r ∈ live then some live else none
  | .release r => if r ∈ live then some (live.erase r) else none

/-- Everything acquired has been released, and nothing was touched while it was not live. -/
def Settles (entries : List (Entry ρ)) : Prop :=
  run post [] entries = some []

instance (entries : List (Entry ρ)) : Decidable (Settles entries) :=
  inferInstanceAs (Decidable (run post [] entries = some []))

/-- The discipline of resources with an identity of their own: what is acquired is
released exactly once and is not touched after its release. -/
structure Linear (entries : List (Entry ρ)) : Prop where
  released_once : ∀ r, Entry.acquire r ∈ entries → entries.count (.release r) = 1
  untouched_after : ∀ before r after, entries = before ++ .release r :: after →
    Entry.use r ∉ after ∧ Entry.release r ∉ after

variable {live live' : List ρ} {entries : List (Entry ρ)} {r : ρ}

/-! ## The books balance -/

theorem post_count {e : Entry ρ} (h : post live e = some live') :
    live'.count r + [e].count (.release r) = live.count r + [e].count (.acquire r) := by
  cases e with
  | acquire q =>
      cases h
      by_cases hq : q = r <;> simp [hq]
  | use q =>
      simp only [post] at h
      split at h <;> cases h
      simp
  | release q =>
      simp only [post] at h
      split at h <;> cases h
      rename_i hq
      by_cases hqr : q = r
      · subst hqr
        have := List.count_pos_iff.mpr hq
        simp [List.count_erase_self]
        omega
      · simp [List.count_erase_of_ne (Ne.symm hqr), hqr]

/-- Over a run, live resources and releases together account for every acquisition. -/
theorem run_count (h : run post live entries = some live') :
    live'.count r + entries.count (.release r) = live.count r + entries.count (.acquire r) := by
  induction entries generalizing live with
  | nil =>
      cases h
      simp
  | cons e entries ih =>
      obtain ⟨mid, hmid, h⟩ := run_cons_eq_some.mp h
      have hrest := ih h
      have hhead := post_count (r := r) hmid
      rw [← List.singleton_append, List.count_append, List.count_append]
      omega

/-- A run that goes through on some resources goes through with more of them live. -/
theorem run_frame (h : run post live entries = some live') (frame : List ρ) :
    run post (live ++ frame) entries = some (live' ++ frame) := by
  induction entries generalizing live with
  | nil =>
      cases h
      rfl
  | cons e entries ih =>
      obtain ⟨mid, hmid, hrest⟩ := run_cons_eq_some.mp h
      refine run_cons_eq_some.mpr ⟨mid ++ frame, ?_, ih hrest⟩
      cases e with
      | acquire r =>
          cases hmid
          rfl
      | use r =>
          simp only [post] at hmid ⊢
          split at hmid <;> cases hmid
          rename_i hr
          rw [if_pos (List.mem_append_left frame hr)]
      | release r =>
          simp only [post] at hmid ⊢
          split at hmid <;> cases hmid
          rename_i hr
          rw [if_pos (List.mem_append_left frame hr), List.erase_append_left frame hr]

/-! ## What is outstanding -/

/-- The ledger is sound so far, and leaves `live` outstanding. -/
def Leaves (entries : List (Entry ρ)) (live : List ρ) : Prop :=
  ∃ live', run post [] entries = some live' ∧ live'.Perm live

theorem leaves_nil : Leaves ([] : List (Entry ρ)) [] :=
  ⟨[], rfl, List.Perm.refl _⟩

theorem Leaves.perm (h : Leaves entries live) (hp : live.Perm live') : Leaves entries live' := by
  obtain ⟨l, hrun, hl⟩ := h
  exact ⟨l, hrun, hl.trans hp⟩

theorem Leaves.acquire (h : Leaves entries live) (r : ρ) :
    Leaves (entries ++ [.acquire r]) (r :: live) := by
  obtain ⟨l, hrun, hl⟩ := h
  exact ⟨r :: l, run_append_eq_some.2 ⟨l, hrun, rfl⟩, hl.cons r⟩

theorem Leaves.use (h : Leaves entries live) (hr : r ∈ live) :
    Leaves (entries ++ [.use r]) live := by
  obtain ⟨l, hrun, hl⟩ := h
  have hmem : r ∈ l := hl.mem_iff.2 hr
  exact ⟨l, run_append_eq_some.2 ⟨l, hrun, by simp [post, hmem]⟩, hl⟩

theorem Leaves.release (h : Leaves entries (r :: live)) :
    Leaves (entries ++ [.release r]) live := by
  obtain ⟨l, hrun, hl⟩ := h
  have hmem : r ∈ l := hl.mem_iff.2 List.mem_cons_self
  refine ⟨l.erase r, run_append_eq_some.2 ⟨l, hrun, ?_⟩, ?_⟩
  · simp [post, hmem]
  · have herase := hl.erase r
    rwa [List.erase_cons_head] at herase

/-- The order in which resources are listed does not matter to a ledger. -/
theorem run_perm {l : List ρ} (h : run post live entries = some live') (hp : live.Perm l) :
    ∃ l', run post l entries = some l' ∧ live'.Perm l' := by
  induction entries generalizing live l with
  | nil =>
      cases h
      exact ⟨l, rfl, hp⟩
  | cons e entries ih =>
      obtain ⟨mid, hmid, hrest⟩ := run_cons_eq_some.1 h
      have hpost : ∃ mid', post l e = some mid' ∧ mid.Perm mid' := by
        cases e with
        | acquire r =>
            cases hmid
            exact ⟨r :: l, rfl, hp.cons r⟩
        | use r =>
            simp only [post] at hmid ⊢
            split at hmid <;> cases hmid
            rename_i hr
            exact ⟨l, by rw [if_pos (hp.mem_iff.1 hr)], hp⟩
        | release r =>
            simp only [post] at hmid ⊢
            split at hmid <;> cases hmid
            rename_i hr
            exact ⟨l.erase r, by rw [if_pos (hp.mem_iff.1 hr)], hp.erase r⟩
      obtain ⟨mid', hmid', hperm⟩ := hpost
      obtain ⟨l', hrun, hl'⟩ := ih hrest hperm
      exact ⟨l', run_cons_eq_some.2 ⟨mid', hmid', hrun⟩, hl'⟩

/-- A ledger goes on from what it leaves outstanding. -/
theorem Leaves.run (h : Leaves entries live) {rest : List (Entry ρ)}
    (hrest : run post live rest = some live') : Leaves (entries ++ rest) live' := by
  obtain ⟨l, hrun, hl⟩ := h
  obtain ⟨l', hrun', hl'⟩ := run_perm hrest hl.symm
  exact ⟨l', run_append_eq_some.2 ⟨l, hrun, hrun'⟩, hl'.symm⟩

/-- Accounts that settle on their own leave outstanding what was. -/
theorem Leaves.settled (h : Leaves entries live) {rest : List (Entry ρ)} (hrest : Settles rest) :
    Leaves (entries ++ rest) live := by
  obtain ⟨l, hrun, hl⟩ := h
  exact ⟨l, run_append_eq_some.2 ⟨l, hrun, run_frame hrest l⟩, hl⟩

/-- What is outstanding and what was released make up what was acquired. -/
theorem Leaves.count [inst : BEq ρ] [LawfulBEq ρ] (h : Leaves entries live) (r : ρ) :
    live.count r + entries.count (.release r) = entries.count (.acquire r) := by
  obtain ⟨l, hrun, hl⟩ := h
  have hbeq : inst = instBEqOfDecidableEq := lawful_beq_subsingleton _ _
  subst hbeq
  have hcount := run_count (r := r) hrun
  rw [hl.count_eq, List.count_nil, Nat.zero_add] at hcount
  exact hcount

/-- What a ledger settles was released as often as it was acquired. -/
theorem Settles.released_eq_acquired (h : Settles entries) (r : ρ) :
    entries.count (.release r) = entries.count (.acquire r) := by
  simpa using run_count (r := r) h

/-- A resource that is not live and is never acquired again cannot be touched. -/
theorem untouched_of_not_mem (h : run post live entries = some live') (hr : r ∉ live)
    (hnew : Entry.acquire r ∉ entries) :
    Entry.use r ∉ entries ∧ Entry.release r ∉ entries := by
  induction entries generalizing live with
  | nil => simp
  | cons e entries ih =>
      obtain ⟨mid, hmid, h⟩ := run_cons_eq_some.mp h
      simp only [List.mem_cons, not_or] at hnew ⊢
      have hrmid : r ∉ mid := by
        intro hmem
        have hc := post_count (r := r) hmid
        have hpos := List.count_pos_iff.mpr hmem
        have hzero := List.count_eq_zero.mpr hr
        have hnone : [e].count (.acquire r) = 0 := by
          simp [List.count_eq_zero, hnew.1]
        omega
      obtain ⟨huse, hrelease⟩ := ih h hrmid hnew.2
      refine ⟨⟨?_, huse⟩, ⟨?_, hrelease⟩⟩
      · rintro rfl
        simp [post, hr] at hmid
      · rintro rfl
        simp [post, hr] at hmid

/-- With identities that are never reused, an account that settles is linear. -/
theorem Settles.linear (h : Settles entries)
    (hunique : ∀ r, entries.count (.acquire r) ≤ 1) : Linear entries := by
  constructor
  · intro r hr
    have hpos := List.count_pos_iff.mpr hr
    have hle := hunique r
    rw [h.released_eq_acquired r]
    omega
  · intro before r after hsplit
    have hcount := hunique r
    have hrun : run post [] entries = some [] := h
    rw [hsplit] at hcount hrun
    obtain ⟨mid, hbefore, htail⟩ := run_append_eq_some.mp hrun
    obtain ⟨mid', hrelease, hafter⟩ := run_cons_eq_some.mp htail
    have hb := run_count (r := r) hbefore
    have hm := post_count (r := r) hrelease
    simp only [List.count_append, List.count_cons, List.count_nil] at hcount hb hm
    simp only [beq_self_eq_true, if_true, beq_iff_eq, reduceCtorEq, if_false] at hcount hm
    have hlive : mid.count r ≠ 0 := by
      intro hzero
      have : r ∉ mid := List.count_eq_zero.mp hzero
      simp [post, this] at hrelease
    refine untouched_of_not_mem hafter ?_ ?_
    · exact List.count_eq_zero.mp (by omega)
    · exact List.count_eq_zero.mp (by omega)

end LlgoExamples.Ledger
