import LlgoExamples.Library.PrefixCode
import LlgoExamples.Model.Csv.Reader

/-! # The printed record determines the record

Every layer of the printed form is a prefix code: characters, quoted fields, the list of
fields, the record. Escaping leaves no NUL and no newline, so the C string exists and a
record is one line. -/

namespace LlgoExamples.Csv

open PrefixCode

variable {escaped : Char → Bool}

/-! ## UTF-8 -/

theorem utf8EncodeChar_prefixFree : PrefixFree String.utf8EncodeChar := by
  intro a b u v heq
  have hdecode : ∀ (c : Char) (w : List UInt8),
      (String.utf8EncodeChar c ++ w).toByteArray.utf8DecodeChar? 0 = some c := by
    intro c w
    rw [List.toByteArray_append]
    exact ByteArray.utf8DecodeChar?_utf8EncodeChar_append
  apply Option.some.inj
  rw [← hdecode a u, ← hdecode b v, heq]

theorem utf8_injective : Function.Injective utf8 :=
  utf8EncodeChar_prefixFree.flatMap_injective fun _ => String.utf8EncodeChar_ne_nil

theorem utf8_append (s t : List Char) : utf8 (s ++ t) = utf8 s ++ utf8 t :=
  List.flatMap_append

/-- A byte below 128 encodes its own character and nothing else. -/
theorem eq_of_mem_utf8EncodeChar {c : Char} {byte : UInt8} (hbyte : byte.toNat < 128)
    (hmem : byte ∈ String.utf8EncodeChar c) : c.toNat = byte.toNat := by
  have hval : c.toNat = c.val.toNat := rfl
  have hhead : ∀ n < 256, 128 ≤ n → 128 ≤ (UInt8.ofNat n).toNat := by
    intro n hn hge
    rw [UInt8.toNat_ofNat']
    omega
  simp only [String.utf8EncodeChar] at hmem
  split at hmem
  · simp only [List.mem_singleton] at hmem
    rw [hmem, UInt8.toNat_ofNat', hval]
    omega
  · -- a longer encoding has no byte below 128
    have hge : 128 ≤ byte.toNat := by
      split at hmem
      · simp only [List.mem_cons, List.not_mem_nil, or_false] at hmem
        rcases hmem with rfl | rfl <;> apply hhead <;> omega
      · split at hmem
        · simp only [List.mem_cons, List.not_mem_nil, or_false] at hmem
          rcases hmem with rfl | rfl | rfl <;> apply hhead <;> omega
        · simp only [List.mem_cons, List.not_mem_nil, or_false] at hmem
          rcases hmem with rfl | rfl | rfl | rfl <;> apply hhead <;> omega
    omega

theorem notMem_utf8 {s : List Char} {c : Char} {byte : UInt8} (hbyte : byte.toNat < 128)
    (hc : c.toNat = byte.toNat) (hs : c ∉ s) : byte ∉ utf8 s := by
  intro hmem
  rcases List.mem_flatMap.1 hmem with ⟨d, hd, hd'⟩
  have hval := eq_of_mem_utf8EncodeChar hbyte hd'
  have hdc : d = c := by
    apply Char.ext
    apply UInt32.toNat_inj.1
    exact hval.trans hc.symm
  exact hs (hdc ▸ hd)

/-! ## Escapes -/

/-- The characters with an escape of their own, and the letter that names it. -/
def shortEscapes : List (Char × Char) :=
  [('\x00', '0'), ('\t', 't'), ('\r', 'r'), ('\n', 'n'), ('\\', '\\'), ('\"', '\"')]

theorem escapeDebug_cases (escaped : Char → Bool) (c : Char) :
    (∃ letter, (c, letter) ∈ shortEscapes ∧ escapeDebug escaped c = ['\\', letter]) ∨
      escapeDebug escaped c = escapeUnicode c ∨
      escapeDebug escaped c = [c] ∧ ∀ letter, (c, letter) ∉ shortEscapes := by
  by_cases hshort : ∃ letter, (c, letter) ∈ shortEscapes
  · rcases hshort with ⟨letter, hmem⟩
    refine Or.inl ⟨letter, hmem, ?_⟩
    simp only [shortEscapes, List.mem_cons, Prod.mk.injEq, List.not_mem_nil, or_false] at hmem
    rcases hmem with ⟨rfl, rfl⟩ | ⟨rfl, rfl⟩ | ⟨rfl, rfl⟩ | ⟨rfl, rfl⟩ | ⟨rfl, rfl⟩ |
      ⟨rfl, rfl⟩ <;> rfl
  · right
    rw [not_exists] at hshort
    have hplain : escapeDebug escaped c = if escaped c then escapeUnicode c else [c] := by
      have hne : ∀ special letter, (special, letter) ∈ shortEscapes → c ≠ special := by
        intro special letter hmem hc
        exact hshort letter (hc ▸ hmem)
      rw [escapeDebug, if_neg (hne _ '0' (by decide)), if_neg (hne _ 't' (by decide)),
        if_neg (hne _ 'r' (by decide)), if_neg (hne _ 'n' (by decide)),
        if_neg (hne _ '\\' (by decide)), if_neg (hne _ '\"' (by decide))]
    rw [hplain]
    by_cases hesc : escaped c = true
    · exact Or.inl (if_pos hesc)
    · exact Or.inr ⟨if_neg hesc, hshort⟩

theorem shortEscapes_letter : ∀ p ∈ shortEscapes, p.2 ≠ 'u' ∧
    ∀ q ∈ shortEscapes, p.2 = q.2 → p.1 = q.1 := by
  decide

theorem notMem_shortEscapes_ne {c : Char} (h : ∀ letter, (c, letter) ∉ shortEscapes) :
    c ≠ '\\' ∧ c ≠ '\"' ∧ c ≠ '\n' ∧ c ≠ '\x00' := by
  refine ⟨?_, ?_, ?_, ?_⟩ <;> rintro rfl
  · exact h '\\' (by decide)
  · exact h '\"' (by decide)
  · exact h 'n' (by decide)
  · exact h '0' (by decide)

/-! ## Code points -/

theorem digitChar_injOn {m n : ℕ} (hm : m < 16) (hn : n < 16)
    (h : Nat.digitChar m = Nat.digitChar n) : m = n := by
  have hall : ∀ m < 16, ∀ n < 16, Nat.digitChar m = Nat.digitChar n → m = n := by decide
  exact hall m hm n hn h

theorem toDigits_injective : Function.Injective (Nat.toDigits 16) := by
  intro m
  induction m using Nat.strongRecOn with
  | _ m ih =>
      intro n h
      rw [Nat.toDigits_eq_if (by omega), Nat.toDigits_eq_if (n := n) (by omega)] at h
      split at h
      · rename_i hm
        split at h
        · rename_i hn
          exact digitChar_injOn hm hn (List.cons.inj h).1
        · have hlen := congrArg List.length h
          have hpos := Nat.length_toDigits_pos (b := 16) (n := n / 16)
          simp only [List.length_cons, List.length_nil, List.length_append] at hlen
          omega
      · rename_i hm
        split at h
        · have hlen := congrArg List.length h
          have hpos := Nat.length_toDigits_pos (b := 16) (n := m / 16)
          simp only [List.length_cons, List.length_nil, List.length_append] at hlen
          omega
        · rcases List.append_inj' h rfl with ⟨hdiv, hmod⟩
          have hquot := ih (m / 16) (by omega) hdiv
          have hrem := digitChar_injOn (Nat.mod_lt m (by omega)) (Nat.mod_lt n (by omega))
            (List.cons.inj hmod).1
          omega

/-- Every character of a hexadecimal number is one of the sixteen digits. -/
theorem mem_toDigits {c : Char} {n : ℕ} (hmem : c ∈ Nat.toDigits 16 n) :
    ∃ digit < 16, c = Nat.digitChar digit := by
  induction n using Nat.strongRecOn with
  | _ n ih =>
      rw [Nat.toDigits_eq_if (by omega)] at hmem
      split at hmem
      · rename_i hn
        exact ⟨n, hn, List.mem_singleton.1 hmem⟩
      · rcases List.mem_append.1 hmem with hmem | hmem
        · exact ih (n / 16) (by omega) hmem
        · exact ⟨n % 16, Nat.mod_lt n (by omega), List.mem_singleton.1 hmem⟩

theorem notMem_toDigits {c : Char} (hc : ∀ digit < 16, c ≠ Nat.digitChar digit) (n : ℕ) :
    c ∉ Nat.toDigits 16 n := by
  intro hmem
  rcases mem_toDigits hmem with ⟨digit, hdigit, heq⟩
  exact hc digit hdigit heq

theorem escapeUnicode_prefixFree : PrefixFree escapeUnicode := by
  apply PrefixFree.of_terminated (t := '\x7d')
  · intro a b heq
    simp only [escapeUnicode, List.append_assoc] at heq
    have hdigits := List.append_cancel_right (List.append_cancel_left heq)
    apply Char.ext
    apply UInt32.toNat_inj.1
    exact toDigits_injective hdigits
  · intro c
    refine ⟨['\\', 'u', '\x7b'] ++ Nat.toDigits 16 c.toNat, rfl, ?_⟩
    intro hmem
    rcases List.mem_append.1 hmem with hmem | hmem
    · exact absurd hmem (by decide)
    · exact notMem_toDigits (by decide) _ hmem

theorem escapeUnicode_eq_cons (c : Char) :
    ∃ rest, escapeUnicode c = '\\' :: 'u' :: rest :=
  ⟨['\x7b'] ++ Nat.toDigits 16 c.toNat ++ ['\x7d'], by simp [escapeUnicode]⟩

/-! ## Characters, fields, records -/

theorem escapeDebug_prefixFree : PrefixFree (escapeDebug escaped) := by
  intro a b u v heq
  rcases escapeUnicode_eq_cons a with ⟨x, hx⟩
  rcases escapeUnicode_eq_cons b with ⟨y, hy⟩
  rcases escapeDebug_cases escaped a with ⟨k, hk, ha⟩ | ha | ⟨ha, hna⟩ <;>
    rcases escapeDebug_cases escaped b with ⟨l, hl, hb⟩ | hb | ⟨hb, hnb⟩ <;>
    rw [ha, hb] at heq
  · -- two named escapes: the letter names the character
    simp only [List.cons_append, List.nil_append, List.cons.injEq, true_and] at heq
    exact (shortEscapes_letter _ hk).2 _ hl heq.1
  · -- no letter is the `u` of a code point
    simp only [hy, List.cons_append, List.cons.injEq, true_and] at heq
    exact absurd heq.1 (shortEscapes_letter _ hk).1
  · simp only [List.cons_append, List.cons.injEq] at heq
    exact absurd heq.1.symm (notMem_shortEscapes_ne hnb).1
  · simp only [hx, List.cons_append, List.cons.injEq, true_and] at heq
    exact absurd heq.1.symm (shortEscapes_letter _ hl).1
  · exact escapeUnicode_prefixFree heq
  · simp only [hx, List.cons_append, List.cons.injEq] at heq
    exact absurd heq.1.symm (notMem_shortEscapes_ne hnb).1
  · simp only [List.cons_append, List.cons.injEq] at heq
    exact absurd heq.1 (notMem_shortEscapes_ne hna).1
  · simp only [hy, List.cons_append, List.cons.injEq] at heq
    exact absurd heq.1 (notMem_shortEscapes_ne hna).1
  · simp only [List.cons_append, List.cons.injEq] at heq
    exact heq.1

/-- No printed character starts with the closing quote. -/
theorem escapeDebug_apart : Apart (escapeDebug escaped) ['\"'] := by
  intro c u v heq
  rcases escapeUnicode_eq_cons c with ⟨x, hx⟩
  rcases escapeDebug_cases escaped c with ⟨k, hk, hc⟩ | hc | ⟨hc, hnc⟩ <;> rw [hc] at heq
  · simp at heq
  · simp [hx] at heq
  · simp only [List.cons_append, List.cons.injEq] at heq
    exact (notMem_shortEscapes_ne hnc).2.1 heq.1

theorem strDebug_prefixFree : PrefixFree (strDebug escaped) := by
  have hbody := escapeDebug_prefixFree.delimited (@escapeDebug_apart escaped)
  have hstr : strDebug escaped =
      fun s => ['\"'] ++ (s.flatMap (escapeDebug escaped) ++ ['\"']) ++ [] := by
    funext s
    simp only [strDebug, List.append_assoc, List.append_nil]
  rw [hstr]
  exact hbody.surround ['\"'] []

theorem listDebug_prefixFree : PrefixFree (listDebug escaped) := by
  have hbody : PrefixFree fun fields : List Field =>
      [',', ' '].intercalate (fields.map (strDebug escaped)) ++ [']'] := by
    apply strDebug_prefixFree.separated
    · intro s u v heq
      simp [strDebug] at heq
    · intro u v heq
      simp at heq
  have hlist : listDebug escaped = fun fields =>
      ['['] ++ ([',', ' '].intercalate (fields.map (strDebug escaped)) ++ [']']) ++ [] := by
    funext fields
    simp only [listDebug, List.append_assoc, List.append_nil]
  rw [hlist]
  exact hbody.surround ['['] []

theorem recordDebug_eq (record : StringRecord) : recordDebug escaped record =
    ['S', 't', 'r', 'i', 'n', 'g', 'R', 'e', 'c', 'o', 'r', 'd', '('] ++
      listDebug escaped record ++ [')'] :=
  rfl

theorem formatRecord_injective : Function.Injective (formatRecord escaped) := by
  have hrecord := (@listDebug_prefixFree escaped).surround
    ['S', 't', 'r', 'i', 'n', 'g', 'R', 'e', 'c', 'o', 'r', 'd', '('] ([')'] ++ ['\n'])
  intro a b heq
  apply hrecord.injective
  simpa only [formatRecord, recordDebug_eq, List.append_assoc] using heq

/-! ## Characters that are never printed -/

theorem notMem_escapeDebug {t : Char} (ht : t = '\n' ∨ t = '\x00') (c : Char) :
    t ∉ escapeDebug escaped c := by
  intro hmem
  rcases escapeDebug_cases escaped c with ⟨k, hk, hc⟩ | hc | ⟨hc, hnc⟩ <;> rw [hc] at hmem
  · have hletters : ∀ p ∈ shortEscapes, t ∉ ['\\', p.2] := by
      rcases ht with rfl | rfl <;> decide
    exact hletters _ hk hmem
  · simp only [escapeUnicode, List.mem_append] at hmem
    rcases hmem with (hmem | hmem) | hmem
    · rcases ht with rfl | rfl <;> exact absurd hmem (by decide)
    · exact notMem_toDigits (by rcases ht with rfl | rfl <;> decide) _ hmem
    · rcases ht with rfl | rfl <;> exact absurd hmem (by decide)
  · have htc := List.mem_singleton.1 hmem
    rcases notMem_shortEscapes_ne hnc with ⟨-, -, hnl, hnul⟩
    rcases ht with rfl | rfl
    · exact hnl htc.symm
    · exact hnul htc.symm

theorem notMem_strDebug {t : Char} (ht : t = '\n' ∨ t = '\x00') (s : Field) :
    t ∉ strDebug escaped s := by
  intro hmem
  simp only [strDebug, List.mem_append, List.mem_flatMap] at hmem
  rcases hmem with (hmem | ⟨c, -, hmem⟩) | hmem
  · rcases ht with rfl | rfl <;> exact absurd hmem (by decide)
  · exact notMem_escapeDebug ht c hmem
  · rcases ht with rfl | rfl <;> exact absurd hmem (by decide)

theorem notMem_recordDebug {t : Char} (ht : t = '\n' ∨ t = '\x00') (record : StringRecord) :
    t ∉ recordDebug escaped record := by
  have hfields : t ∉ [',', ' '].intercalate (record.map (strDebug escaped)) := by
    cases record with
    | nil => simp
    | cons s ss =>
        rw [intercalate_cons_eq_flatMap]
        intro hmem
        simp only [List.mem_append, List.mem_flatMap] at hmem
        rcases hmem with hmem | ⟨s', -, hmem | hmem⟩
        · exact notMem_strDebug ht s hmem
        · rcases ht with rfl | rfl <;> exact absurd hmem (by decide)
        · exact notMem_strDebug ht s' hmem
  intro hmem
  simp only [recordDebug_eq, listDebug, List.mem_append] at hmem
  rcases hmem with (hmem | (hmem | hmem) | hmem) | hmem
  · rcases ht with rfl | rfl <;> exact absurd hmem (by decide)
  · rcases ht with rfl | rfl <;> exact absurd hmem (by decide)
  · exact hfields hmem
  · rcases ht with rfl | rfl <;> exact absurd hmem (by decide)
  · rcases ht with rfl | rfl <;> exact absurd hmem (by decide)

/-! ## The C string of a record -/

/-- The bytes of the string made of a record. -/
def recordBytes (escaped : Char → Bool) (record : StringRecord) : List UInt8 :=
  utf8 (formatRecord escaped record)

theorem recordBytes_injective : Function.Injective (recordBytes escaped) :=
  utf8_injective.comp formatRecord_injective

theorem zero_notMem_recordBytes (record : StringRecord) : 0 ∉ recordBytes escaped record := by
  apply notMem_utf8 (c := '\x00') (by decide) rfl
  intro hmem
  rcases List.mem_append.1 hmem with hmem | hmem
  · exact notMem_recordDebug (Or.inr rfl) record hmem
  · exact absurd hmem (by decide)

theorem recordBytes_terminated (record : StringRecord) :
    ∃ line, recordBytes escaped record = line ++ [10] ∧ 10 ∉ line := by
  refine ⟨utf8 (recordDebug escaped record), ?_, ?_⟩
  · rw [recordBytes, formatRecord, utf8_append]
    rfl
  · exact notMem_utf8 (c := '\n') (by decide) rfl (notMem_recordDebug (Or.inl rfl) record)

theorem recordBytes_prefixFree : PrefixFree (recordBytes escaped) :=
  PrefixFree.of_terminated recordBytes_injective recordBytes_terminated

theorem recordBytes_ne_nil (record : StringRecord) : recordBytes escaped record ≠ [] := by
  rcases @recordBytes_terminated escaped record with ⟨line, heq, -⟩
  rw [heq]
  exact List.append_ne_nil_of_right_ne_nil _ (List.cons_ne_nil _ _)

theorem cstringNew_formatRecord (record : StringRecord) :
    cstringNew (formatRecord escaped record) = some (recordBytes escaped record) :=
  if_neg (zero_notMem_recordBytes record)

theorem csvReaderReadRecord_of_record {reader reader' : Reader} {record : StringRecord}
    (h : reader.readRecord = (.ok (some record), reader')) :
    csvReaderReadRecord escaped (some reader) =
      some (some (recordBytes escaped record), reader') := by
  simp only [csvReaderReadRecord, h, cstringNew_formatRecord]

/-- A printed record can be read back, alone or from a text of many, and always has a C
string: the conversion is never refused. -/
structure Framed (escaped : Char → Bool) : Prop where
  determines : ∀ record record', recordBytes escaped record = recordBytes escaped record' →
    record = record'
  noNul : ∀ record, 0 ∉ recordBytes escaped record
  delivered : ∀ reader reader' record, reader.readRecord = (.ok (some record), reader') →
    csvReaderReadRecord escaped (some reader) =
      some (some (recordBytes escaped record), reader')
  oneLine : ∀ record, ∃ line, recordBytes escaped record = line ++ [10] ∧ 10 ∉ line
  splits : ∀ records records' : List StringRecord,
    records.flatMap (recordBytes escaped) = records'.flatMap (recordBytes escaped) →
      records = records'

theorem framed_formatRecord (escaped : Char → Bool) : Framed escaped where
  determines _ _ heq := recordBytes_injective heq
  noNul := zero_notMem_recordBytes
  delivered _ _ _ := csvReaderReadRecord_of_record
  oneLine := recordBytes_terminated
  splits _ _ heq := recordBytes_prefixFree.flatMap_injective recordBytes_ne_nil heq

end LlgoExamples.Csv
