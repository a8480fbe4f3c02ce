import LlgoExamples.Library.Supply
import Mathlib.Data.List.AList

/-! A heap in which every object is one or two blocks: a root, whose address the program
holds, and a part, reached only through the root that owns it. -/

namespace LlgoExamples.Blocks

variable {ρ π β : Type*}

inductive Block (ρ π : Type*) where
  | root (r : ρ)
  | part (p : π)
  deriving DecidableEq, Repr

abbrev Heap (ρ π : Type*) := AList fun _ : ℕ => Block ρ π

/-- How roots own parts, and the object that a root and its part make up. -/
structure Layout (ρ π β : Type*) where
  owned : ρ → Option ℕ
  view : ρ → Option π → Option β

namespace Heap

def root (h : Heap ρ π) (a : ℕ) : Option ρ :=
  match h.lookup a with
  | some (.root r) => some r
  | _ => none

def part (h : Heap ρ π) (a : ℕ) : Option π :=
  match h.lookup a with
  | some (.part p) => some p
  | _ => none

/-- Puts a block at an address that is not in use. -/
def alloc (supply : Supply) (handed : List ℕ) (block : Block ρ π) (h : Heap ρ π) :
    ℕ × Heap ρ π :=
  let a := supply.pick handed h.keys.toFinset
  (a, h.insert a block)

end Heap

namespace Layout

variable (L : Layout ρ π β)

/-- The object at an address, if there is one. -/
def object (h : Heap ρ π) (a : ℕ) : Option β :=
  (h.root a).bind fun r =>
    match L.owned r with
    | none => L.view r none
    | some b => (h.part b).bind fun p => L.view r (some p)

/-- Every root makes up an object, and every part has exactly one owner. -/
structure Tidy (h : Heap ρ π) : Prop where
  whole : ∀ a r, h.root a = some r → (L.object h a).isSome
  owner : ∀ b p, h.part b = some p → ∃ a r, h.root a = some r ∧ L.owned r = some b
  unshared : ∀ a a' r r' b, h.root a = some r → h.root a' = some r' →
    L.owned r = some b → L.owned r' = some b → a = a'

end Layout

open Layout Heap

variable {L : Layout ρ π β} {h : Heap ρ π} {a b c : ℕ} {r r' : ρ} {p p' : π} {v : β}

/-! ## Reading -/

theorem root_eq_some : h.root a = some r ↔ h.lookup a = some (.root r) := by
  unfold Heap.root
  split
  · rename_i q hq
    simp [hq]
  · rename_i hne
    constructor
    · intro hnone
      cases hnone
    · intro hr
      exact absurd hr (hne r)

theorem part_eq_some : h.part b = some p ↔ h.lookup b = some (.part p) := by
  unfold Heap.part
  split
  · rename_i q hq
    simp [hq]
  · rename_i hne
    constructor
    · intro hnone
      cases hnone
    · intro hp
      exact absurd hp (hne p)

theorem root_congr {h' : Heap ρ π} (hl : h'.lookup a = h.lookup a) : h'.root a = h.root a := by
  unfold Heap.root
  rw [hl]

theorem part_congr {h' : Heap ρ π} (hl : h'.lookup a = h.lookup a) : h'.part a = h.part a := by
  unfold Heap.part
  rw [hl]

theorem object_of_owned (hr : h.root a = some r) (ho : L.owned r = some b)
    (hp : h.part b = some p) : L.object h a = L.view r (some p) := by
  simp [object, hr, ho, hp]

theorem object_of_alone (hr : h.root a = some r) (ho : L.owned r = none) :
    L.object h a = L.view r none := by
  simp [object, hr, ho]

theorem object_eq_none (hr : h.root a = none) : L.object h a = none := by
  simp [object, hr]

/-- An object has a root, and a part where its root owns one. -/
theorem object_eq_some (hv : L.object h a = some v) :
    ∃ r, h.root a = some r ∧
      ((L.owned r = none ∧ L.view r none = some v) ∨
        ∃ b p, L.owned r = some b ∧ h.part b = some p ∧ L.view r (some p) = some v) := by
  obtain ⟨r, hr, hview⟩ := Option.bind_eq_some_iff.mp hv
  refine ⟨r, hr, ?_⟩
  cases ho : L.owned r with
  | none =>
      rw [ho] at hview
      exact .inl ⟨rfl, hview⟩
  | some b =>
      rw [ho] at hview
      obtain ⟨p, hp, hview⟩ := Option.bind_eq_some_iff.mp hview
      exact .inr ⟨b, p, rfl, hp, hview⟩

/-- The part that the root of an object owns is there. -/
theorem part_of_owned (hv : (L.object h a).isSome) (hr : h.root a = some r)
    (ho : L.owned r = some b) : ∃ p, h.part b = some p := by
  obtain ⟨v, hv⟩ := Option.isSome_iff_exists.mp hv
  obtain ⟨r', hr', hcase⟩ := object_eq_some hv
  obtain rfl : r = r' := Option.some.inj (hr.symm.trans hr')
  rcases hcase with ⟨hnone, -⟩ | ⟨b', p, hb', hp, -⟩
  · rw [ho] at hnone
    cases hnone
  · obtain rfl : b = b' := Option.some.inj (ho.symm.trans hb')
    exact ⟨p, hp⟩

/-- What is at an address depends on that block and on the part it owns. -/
theorem object_congr {h' : Heap ρ π} (ha : h'.lookup a = h.lookup a)
    (hb : ∀ r b, h.root a = some r → L.owned r = some b → h'.lookup b = h.lookup b) :
    L.object h' a = L.object h a := by
  unfold object
  rw [root_congr ha]
  cases hr : h.root a with
  | none => rfl
  | some r =>
      cases ho : L.owned r with
      | none => simp [ho]
      | some b => simp [ho, part_congr (hb r b hr ho)]

/-! ## The empty heap -/

theorem tidy_empty : L.Tidy ∅ := by
  constructor
  · intro a r hr
    simp [root_eq_some] at hr
  · intro b p hp
    simp [part_eq_some] at hp
  · intro a a' r r' b hr
    simp [root_eq_some] at hr

/-- A tidy heap without objects has no block left. -/
theorem Layout.Tidy.keys_eq_nil_iff (ht : L.Tidy h) :
    h.keys = [] ↔ ∀ a, L.object h a = none := by
  constructor
  · intro hnil a
    refine object_eq_none ?_
    have hmem : a ∉ h := by
      intro hmem
      rw [AList.mem_keys, hnil] at hmem
      cases hmem
    simp [Heap.root, AList.lookup_eq_none.mpr hmem]
  · intro hnone
    have hroot : ∀ a r, h.root a ≠ some r := by
      intro a r hr
      have hwhole := ht.whole a r hr
      simp [hnone a] at hwhole
    by_contra hne
    obtain ⟨a, ha⟩ := List.exists_mem_of_ne_nil _ hne
    obtain ⟨block, hblock⟩ := Option.isSome_iff_exists.mp (AList.lookup_isSome.mpr ha)
    cases block with
    | root r => exact hroot a r (root_eq_some.mpr hblock)
    | part p =>
        obtain ⟨a', r, hr, -⟩ := ht.owner a p (part_eq_some.mpr hblock)
        exact hroot a' r hr

/-! ## Replacing one object -/

/-- The root at `a` and the part at `o`, if any, hold one object and nothing else, or are
both unused. -/
def Occupies (L : Layout ρ π β) (h : Heap ρ π) (a : ℕ) (o : Option ℕ) : Prop :=
  (a ∉ h ∧ ∀ b, o = some b → b ∉ h) ∨
    ∃ r, h.root a = some r ∧ L.owned r = o ∧ (L.object h a).isSome

namespace Occupies

variable {o : Option ℕ}

theorem not_part (hocc : Occupies L h a o) : h.part a = none := by
  rcases hocc with ⟨ha, -⟩ | ⟨r, hr, -, -⟩
  · simp [Heap.part, AList.lookup_eq_none.mpr ha]
  · simp [Heap.part, root_eq_some.mp hr]

theorem not_root (hocc : Occupies L h a o) (ho : o = some b) : h.root b = none := by
  rcases hocc with ⟨-, hb⟩ | ⟨r, hr, hor, hsome⟩
  · simp [Heap.root, AList.lookup_eq_none.mpr (hb b ho)]
  · obtain ⟨p, hp⟩ := part_of_owned hsome hr (hor.trans ho)
    simp [Heap.root, part_eq_some.mp hp]

theorem owned_eq (hocc : Occupies L h a o) (hr : h.root a = some r)
    (hor : L.owned r = some b) : o = some b := by
  rcases hocc with ⟨ha, -⟩ | ⟨r', hr', hor', -⟩
  · simp [Heap.root, AList.lookup_eq_none.mpr ha] at hr
  · obtain rfl : r = r' := Option.some.inj (hr.symm.trans hr')
    exact hor'.symm.trans hor

/-- The part is not owned from elsewhere. -/
theorem not_owned (ht : L.Tidy h) (hocc : Occupies L h a o) (hr : h.root c = some r)
    (hc : c ≠ a) (hor : L.owned r = some b) : o ≠ some b := by
  intro ho
  rcases hocc with ⟨-, hb⟩ | ⟨r', hr', hor', -⟩
  · obtain ⟨p, hp⟩ := part_of_owned (ht.whole c r hr) hr hor
    have habsent := AList.lookup_eq_none.mpr (hb b ho)
    rw [part_eq_some.mp hp] at habsent
    cases habsent
  · exact hc (ht.unshared c a r r' b hr hr' hor (hor'.trans ho))

end Occupies

/-- A root of the new heap away from `a` was a root of the old one. -/
theorem root_of_replace {h' : Heap ρ π} {o : Option ℕ}
    (hsame : ∀ x, x ≠ a → o ≠ some x → h'.lookup x = h.lookup x)
    (hnew : Occupies L h' a o) (hc : c ≠ a) (hr : h'.root c = some r) :
    h.root c = some r ∧ o ≠ some c := by
  have hco : o ≠ some c := by
    intro hco
    rw [hnew.not_root hco] at hr
    cases hr
  exact ⟨(root_congr (hsame c hc hco)).symm.trans hr, hco⟩

section Replace

variable {h' : Heap ρ π} {o : Option ℕ} (ht : L.Tidy h)
  (hsame : ∀ x, x ≠ a → o ≠ some x → h'.lookup x = h.lookup x)
  (hold : Occupies L h a o) (hnew : Occupies L h' a o)

include ht hsame hold

/-- The objects at other addresses stay. -/
theorem object_replace (hc : c ≠ a) (hco : o ≠ some c) : L.object h' c = L.object h c := by
  refine object_congr (hsame c hc hco) ?_
  intro r b hr hor
  refine hsame b ?_ (hold.not_owned ht hr hc hor)
  rintro rfl
  obtain ⟨p, hp⟩ := part_of_owned (ht.whole c r hr) hr hor
  rw [hold.not_part] at hp
  cases hp

include hnew

theorem update_replace :
    L.object h' = Function.update (L.object h) a (L.object h' a) := by
  funext c
  by_cases hc : c = a
  · rw [hc, Function.update_self]
  · rw [Function.update_of_ne hc]
    by_cases hco : o = some c
    · rw [object_eq_none (hold.not_root hco), object_eq_none (hnew.not_root hco)]
    · exact object_replace ht hsame hold hc hco

/-- Replacing one object, or putting one into unused blocks, leaves the heap tidy. -/
theorem tidy_replace : L.Tidy h' := by
  constructor
  · intro c r hr
    by_cases hc : c = a
    · subst hc
      rcases hnew with ⟨habsent, -⟩ | ⟨r', -, -, hsome⟩
      · simp [Heap.root, AList.lookup_eq_none.mpr habsent] at hr
      · exact hsome
    · obtain ⟨hr, hco⟩ := root_of_replace hsame hnew hc hr
      rw [object_replace ht hsame hold hc hco]
      exact ht.whole c r hr
  · intro b p hp
    have hb : b ≠ a := by
      rintro rfl
      rw [hnew.not_part] at hp
      cases hp
    by_cases hbo : o = some b
    · rcases hnew with ⟨-, habsent⟩ | ⟨r, hr, hor, -⟩
      · simp [Heap.part, AList.lookup_eq_none.mpr (habsent b hbo)] at hp
      · exact ⟨a, r, hr, hor.trans hbo⟩
    · rw [part_congr (hsame b hb hbo)] at hp
      obtain ⟨c, r, hr, hor⟩ := ht.owner b p hp
      have hc : c ≠ a := by
        rintro rfl
        rcases hold with ⟨habsent, -⟩ | ⟨r', hr', hor', -⟩
        · simp [Heap.root, AList.lookup_eq_none.mpr habsent] at hr
        · obtain rfl : r = r' := Option.some.inj (hr.symm.trans hr')
          exact hbo (hor'.symm.trans hor)
      have hco : o ≠ some c := by
        intro hco
        rw [hold.not_root hco] at hr
        cases hr
      exact ⟨c, r, (root_congr (hsame c hc hco)).trans hr, hor⟩
  · intro c c' r r' b hr hr' hor hor'
    by_cases hc : c = a
    · by_cases hc' : c' = a
      · rw [hc, hc']
      · obtain ⟨hr', -⟩ := root_of_replace hsame hnew hc' hr'
        exact absurd (hnew.owned_eq (hc ▸ hr) hor) (hold.not_owned ht hr' hc' hor')
    · obtain ⟨hr, -⟩ := root_of_replace hsame hnew hc hr
      by_cases hc' : c' = a
      · exact absurd (hnew.owned_eq (hc' ▸ hr') hor') (hold.not_owned ht hr hc hor)
      · obtain ⟨hr', -⟩ := root_of_replace hsame hnew hc' hr'
        exact ht.unshared c c' r r' b hr hr' hor hor'

end Replace

/-! ## Boxing and unboxing -/

theorem lookup_insert_insert (hab : a ≠ b) (x y : Block ρ π) :
    ((h.insert b x).insert a y).lookup b = some x := by
  rw [AList.lookup_insert_ne hab.symm, AList.lookup_insert]

theorem occupies_of_notMem {o : Option ℕ} (ha : a ∉ h) (hb : ∀ b, o = some b → b ∉ h) :
    Occupies L h a o :=
  .inl ⟨ha, hb⟩

theorem occupies_of_object (hr : h.root a = some r) (hv : L.object h a = some v) :
    Occupies L h a (L.owned r) :=
  .inr ⟨r, hr, rfl, by simp [hv]⟩

section Boxing

variable (ht : L.Tidy h)

include ht

/-- A new object in two blocks. -/
theorem box_object (hb : b ∉ h) (ha : a ∉ h.insert b (.part p)) (ho : L.owned r = some b)
    (hv : L.view r (some p) = some v) :
    L.Tidy ((h.insert b (.part p)).insert a (.root r)) ∧
      L.object ((h.insert b (.part p)).insert a (.root r)) =
        Function.update (L.object h) a (some v) := by
  have hne : a ≠ b ∧ a ∉ h := by
    simpa [AList.mem_insert] using ha
  have hroot : Heap.root ((h.insert b (.part p)).insert a (.root r)) a = some r :=
    root_eq_some.mpr (AList.lookup_insert _)
  have hpart : Heap.part ((h.insert b (.part p)).insert a (.root r)) b = some p :=
    part_eq_some.mpr (lookup_insert_insert hne.1 _ _)
  have hobj : L.object ((h.insert b (.part p)).insert a (.root r)) a = some v := by
    rw [object_of_owned hroot ho hpart, hv]
  have hsame : ∀ x, x ≠ a → some b ≠ some x →
      ((h.insert b (.part p)).insert a (.root r)).lookup x = h.lookup x := by
    intro x hxa hxb
    have hxb' : x ≠ b := fun hx => hxb (by rw [hx])
    rw [AList.lookup_insert_ne hxa, AList.lookup_insert_ne hxb']
  have hold : Occupies L h a (some b) := by
    refine occupies_of_notMem hne.2 ?_
    rintro x ⟨⟩
    exact hb
  have hnew : Occupies L ((h.insert b (.part p)).insert a (.root r)) a (some b) :=
    ho ▸ occupies_of_object hroot hobj
  refine ⟨tidy_replace ht hsame hold hnew, ?_⟩
  rw [update_replace ht hsame hold hnew, hobj]

/-- A new object in one block. -/
theorem box_alone (ha : a ∉ h) (ho : L.owned r = none) (hv : L.view r none = some v) :
    L.Tidy (h.insert a (.root r)) ∧
      L.object (h.insert a (.root r)) = Function.update (L.object h) a (some v) := by
  have hroot : Heap.root (h.insert a (.root r)) a = some r :=
    root_eq_some.mpr (AList.lookup_insert _)
  have hobj : L.object (h.insert a (.root r)) a = some v := by
    rw [object_of_alone hroot ho, hv]
  have hsame : ∀ x, x ≠ a → none ≠ some x → (h.insert a (.root r)).lookup x = h.lookup x :=
    fun x hx _ => AList.lookup_insert_ne hx
  have hold : Occupies L h a none := occupies_of_notMem ha (by simp)
  have hnew : Occupies L (h.insert a (.root r)) a none := ho ▸ occupies_of_object hroot hobj
  refine ⟨tidy_replace ht hsame hold hnew, ?_⟩
  rw [update_replace ht hsame hold hnew, hobj]

/-- Freeing the part of an object and then its root. -/
theorem unbox_object (hr : h.root a = some r) (ho : L.owned r = some b) :
    L.Tidy ((h.erase b).erase a) ∧
      L.object ((h.erase b).erase a) = Function.update (L.object h) a none := by
  obtain ⟨v, hv⟩ := Option.isSome_iff_exists.mp (ht.whole a r hr)
  have hold : Occupies L h a (some b) := ho ▸ occupies_of_object hr hv
  have hsame : ∀ x, x ≠ a → some b ≠ some x → ((h.erase b).erase a).lookup x = h.lookup x := by
    intro x hxa hxb
    have hxb' : x ≠ b := fun hx => hxb (by rw [hx])
    rw [AList.lookup_erase_ne hxa, AList.lookup_erase_ne hxb']
  have hnew : Occupies L ((h.erase b).erase a) a (some b) := by
    refine occupies_of_notMem (by simp [AList.mem_erase]) ?_
    rintro x ⟨⟩
    simp [AList.mem_erase]
  refine ⟨tidy_replace ht hsame hold hnew, ?_⟩
  rw [update_replace ht hsame hold hnew, object_eq_none]
  simp [Heap.root, AList.lookup_erase]

theorem unbox_alone (hr : h.root a = some r) (ho : L.owned r = none) :
    L.Tidy (h.erase a) ∧ L.object (h.erase a) = Function.update (L.object h) a none := by
  obtain ⟨v, hv⟩ := Option.isSome_iff_exists.mp (ht.whole a r hr)
  have hold : Occupies L h a none := ho ▸ occupies_of_object hr hv
  have hsame : ∀ x, x ≠ a → none ≠ some x → (h.erase a).lookup x = h.lookup x :=
    fun x hx _ => AList.lookup_erase_ne hx
  have hnew : Occupies L (h.erase a) a none :=
    occupies_of_notMem (by simp [AList.mem_erase]) (by simp)
  refine ⟨tidy_replace ht hsame hold hnew, ?_⟩
  rw [update_replace ht hsame hold hnew, object_eq_none]
  simp [Heap.root, AList.lookup_erase]

/-- Writing to the part of an object. -/
theorem set_part (hr : h.root a = some r) (ho : L.owned r = some b)
    (hv : L.view r (some p') = some v) :
    L.Tidy (h.insert b (.part p')) ∧
      L.object (h.insert b (.part p')) = Function.update (L.object h) a (some v) := by
  obtain ⟨v', hv'⟩ := Option.isSome_iff_exists.mp (ht.whole a r hr)
  obtain ⟨p, hp⟩ := part_of_owned (ht.whole a r hr) hr ho
  have hab : a ≠ b := by
    rintro rfl
    rw [root_eq_some] at hr
    rw [part_eq_some, hr] at hp
    cases hp
  have hroot : Heap.root (h.insert b (.part p')) a = some r := by
    rw [root_congr (AList.lookup_insert_ne hab), hr]
  have hpart : Heap.part (h.insert b (.part p')) b = some p' :=
    part_eq_some.mpr (AList.lookup_insert _)
  have hobj : L.object (h.insert b (.part p')) a = some v := by
    rw [object_of_owned hroot ho hpart, hv]
  have hsame : ∀ x, x ≠ a → some b ≠ some x → (h.insert b (.part p')).lookup x = h.lookup x := by
    intro x _ hxb
    exact AList.lookup_insert_ne fun hx => hxb (by rw [hx])
  have hold : Occupies L h a (some b) := ho ▸ occupies_of_object hr hv'
  have hnew : Occupies L (h.insert b (.part p')) a (some b) := ho ▸ occupies_of_object hroot hobj
  refine ⟨tidy_replace ht hsame hold hnew, ?_⟩
  rw [update_replace ht hsame hold hnew, hobj]

/-- Writing to an object of one block. -/
theorem set_alone (hr : h.root a = some r) (ho : L.owned r = none) (ho' : L.owned r' = none)
    (hv : L.view r' none = some v) :
    L.Tidy (h.insert a (.root r')) ∧
      L.object (h.insert a (.root r')) = Function.update (L.object h) a (some v) := by
  obtain ⟨v', hv'⟩ := Option.isSome_iff_exists.mp (ht.whole a r hr)
  have hroot : Heap.root (h.insert a (.root r')) a = some r' :=
    root_eq_some.mpr (AList.lookup_insert _)
  have hobj : L.object (h.insert a (.root r')) a = some v := by
    rw [object_of_alone hroot ho', hv]
  have hsame : ∀ x, x ≠ a → none ≠ some x → (h.insert a (.root r')).lookup x = h.lookup x :=
    fun x hx _ => AList.lookup_insert_ne hx
  have hold : Occupies L h a none := ho ▸ occupies_of_object hr hv'
  have hnew : Occupies L (h.insert a (.root r')) a none :=
    ho' ▸ occupies_of_object hroot hobj
  refine ⟨tidy_replace ht hsame hold hnew, ?_⟩
  rw [update_replace ht hsame hold hnew, hobj]

end Boxing

end LlgoExamples.Blocks
