import LlgoExamples.Library.Ledger
import LlgoExamples.Model.Csv.Wrapper
import LlgoExamples.Verification.Csv.Draining

/-! # Readers and strings by their pointers

However the calls on many readers are mixed, each reader hands out its own rows in order,
and each string stays what it was handed out as until it is freed. -/

namespace LlgoExamples.Csv.Wrapper

open Machine Ledger

variable {supply : Supply} {escaped : Char → Bool} {h h' : Objects} {a : ℕ} {c : Call}
  {reply : Reply}

/-! ## One call -/

/-- The rows of the file that a path opens. -/
def opened (files : Files) (filePath : Option (List UInt8)) : Option (List Row) :=
  (filePath.bind fun bytes => String.fromUTF8? ⟨bytes.toArray⟩).bind files

/-- The calls that return, and what they do to the objects. -/
inductive Performed (escaped : Char → Bool) (h : Objects) : Call → Reply → Objects → Prop where
  | refused (files : Files) (filePath : Option (List UInt8))
      (hopened : opened files filePath = none) :
      Performed escaped h (.new files filePath) (.ptr none) h
  | boxed (files : Files) (filePath : Option (List UInt8)) (rows : List Row) (a : ℕ)
      (hopened : opened files filePath = some rows) (ha : a ∉ h) :
      Performed escaped h (.new files filePath) (.ptr (some a))
        (h.insert a (.reader (Reader.fromRows rows)))
  | readNull (a : ℕ) (reader reader' : Reader) (hlookup : h.lookup a = some (.reader reader))
      (hread : Csv.csvReaderReadRecord escaped (some reader) = some (none, reader')) :
      Performed escaped h (.read (some a)) (.ptr none) (h.insert a (.reader reader'))
  | readString (a p : ℕ) (reader reader' : Reader) (bytes : List UInt8)
      (hlookup : h.lookup a = some (.reader reader))
      (hread : Csv.csvReaderReadRecord escaped (some reader) = some (some bytes, reader'))
      (hp : p ∉ h.insert a (.reader reader')) :
      Performed escaped h (.read (some a)) (.ptr (some p))
        ((h.insert a (.reader reader')).insert p (.string bytes))
  | nullReader : Performed escaped h (.freeReader none) .unit h
  | freedReader (a : ℕ) (reader : Reader) (hlookup : h.lookup a = some (.reader reader)) :
      Performed escaped h (.freeReader (some a)) .unit (h.erase a)
  | nullString : Performed escaped h (.freeString none) .unit h
  | freedString (p : ℕ) (bytes : List UInt8) (hlookup : h.lookup p = some (.string bytes)) :
      Performed escaped h (.freeString (some p)) .unit (h.erase p)
  | loaded (p : ℕ) (bytes : List UInt8) (hlookup : h.lookup p = some (.string bytes)) :
      Performed escaped h (.load (some p)) (.bytes bytes) h

theorem pick_notMem (supply : Supply) (handed : List ℕ) (h : Objects) :
    supply.pick handed h.keys.toFinset ∉ h := by
  intro hmem
  exact supply.fresh handed h.keys.toFinset (List.mem_toFinset.2 (AList.mem_keys.1 hmem))

theorem csvReaderNew_eq (files : Files) (filePath : Option (List UInt8)) (h : Heap) :
    csvReaderNew supply files filePath h = match opened files filePath with
      | none => (none, h)
      | some rows => intoRaw supply (.reader (Reader.fromRows rows)) h := by
  cases filePath with
  | none => rfl
  | some bytes =>
      simp only [csvReaderNew, opened, Option.bind_some]
      cases String.fromUTF8? ⟨bytes.toArray⟩ with
      | none => rfl
      | some path =>
          simp only [Option.bind_some]
          cases files path <;> rfl

theorem performed {h h' : Heap} (hcall : perform supply escaped c h = .ok (reply, h')) :
    Performed escaped h.objects c reply h'.objects := by
  cases c with
  | new files filePath =>
      simp only [perform, csvReaderNew_eq] at hcall
      cases hopened : opened files filePath with
      | none =>
          rw [hopened] at hcall
          cases hcall
          exact .refused files filePath hopened
      | some rows =>
          rw [hopened] at hcall
          cases hcall
          exact .boxed files filePath rows _ hopened (pick_notMem supply _ _)
  | read reader =>
      cases reader with
      | none => cases hcall
      | some a =>
          simp only [perform, csvReaderReadRecord] at hcall
          split at hcall
          · rename_i reader hlookup
            split at hcall
            · cases hcall
            · rename_i reader' hread
              cases hcall
              exact .readNull a reader reader' hlookup hread
            · rename_i bytes reader' hread
              cases hcall
              exact .readString a _ reader reader' bytes hlookup hread (pick_notMem supply _ _)
          · cases hcall
  | freeReader reader =>
      cases reader with
      | none =>
          cases hcall
          exact .nullReader
      | some a =>
          simp only [perform, csvReaderFree] at hcall
          split at hcall
          · rename_i reader hlookup
            cases hcall
            exact .freedReader a reader hlookup
          · cases hcall
  | freeString s =>
      cases s with
      | none =>
          cases hcall
          exact .nullString
      | some p =>
          simp only [perform, freeString] at hcall
          split at hcall
          · rename_i bytes hlookup
            cases hcall
            exact .freedString p bytes hlookup
          · cases hcall
  | load s =>
      cases s with
      | none => cases hcall
      | some p =>
          simp only [perform, load, Option.bind_some] at hcall
          split at hcall
          · rename_i bytes hlookup
            cases hcall
            exact .loaded p bytes hlookup
          · cases hcall

/-! ## What a call leaves alone -/

variable {reader : Reader} {bytes : List UInt8} {rows : List Row} {p n : ℕ}

theorem lookup_insert_of_notMem {o o' : Object} (hlookup : h.lookup a = some o) (hp : p ∉ h) :
    (h.insert p o').lookup a = some o := by
  have hne : a ≠ p := by
    rintro rfl
    rw [AList.lookup_eq_none.2 hp] at hlookup
    cases hlookup
  rw [AList.lookup_insert_ne hne, hlookup]

/-- A call that neither reads nor frees at `a` keeps what is there. -/
theorem Performed.kept {o : Object} (hperformed : Performed escaped h c reply h')
    (hlookup : h.lookup a = some o) (hread : c ≠ .read (some a))
    (hreader : c ≠ .freeReader (some a)) (hstring : c ≠ .freeString (some a)) :
    h'.lookup a = some o := by
  have herase : ∀ b, a ≠ b → (h.erase b).lookup a = some o := by
    intro b hne
    rw [AList.lookup_erase_ne hne, hlookup]
  cases hperformed with
  | refused files filePath hopened => exact hlookup
  | boxed files filePath rows b hopened hb => exact lookup_insert_of_notMem hlookup hb
  | readNull b reader reader' hb hcrate =>
      have hne : a ≠ b := by
        rintro rfl
        exact hread rfl
      rw [AList.lookup_insert_ne hne, hlookup]
  | readString b p reader reader' bytes hb hcrate hp =>
      have hne : a ≠ b := by
        rintro rfl
        exact hread rfl
      refine lookup_insert_of_notMem ?_ hp
      rw [AList.lookup_insert_ne hne, hlookup]
  | nullReader => exact hlookup
  | freedReader b reader hb =>
      apply herase
      rintro rfl
      exact hreader rfl
  | nullString => exact hlookup
  | freedString b bytes hb =>
      apply herase
      rintro rfl
      exact hstring rfl
  | loaded b bytes hb => exact hlookup

/-- A string stays until it is freed. -/
theorem Performed.string_kept (hperformed : Performed escaped h c reply h')
    (hlookup : h.lookup a = some (.string bytes)) (hstring : c ≠ .freeString (some a)) :
    h'.lookup a = some (.string bytes) := by
  refine hperformed.kept hlookup ?_ ?_ hstring
  · rintro rfl
    cases hperformed with
    | readNull _ reader reader' hreader => rw [hlookup] at hreader; cases hreader
    | readString _ p reader reader' bytes hreader => rw [hlookup] at hreader; cases hreader
  · rintro rfl
    cases hperformed with
    | freedReader _ reader hreader => rw [hlookup] at hreader; cases hreader

/-- At `a` there is a reader with these rows still to come. -/
def ReaderAt (h : Objects) (a : ℕ) (rows : List Row) : Prop :=
  ∃ reader, h.lookup a = some (.reader reader) ∧ reader.pending = rows

def Call.readsAt (a : ℕ) : Call → Bool
  | .read (some b) => b = a
  | _ => false

theorem Call.readsAt_iff : c.readsAt a = true ↔ c = .read (some a) := by
  cases c with
  | read reader => cases reader <;> simp [Call.readsAt]
  | _ => simp [Call.readsAt]

theorem Performed.reader_kept (hperformed : Performed escaped h c reply h')
    (hreader : ReaderAt h a rows) (hfree : c ≠ .freeReader (some a))
    (hread : c.readsAt a = false) : ReaderAt h' a rows := by
  obtain ⟨reader, hlookup, hpending⟩ := hreader
  refine ⟨reader, hperformed.kept hlookup ?_ hfree ?_, hpending⟩
  · rintro rfl
    rw [Call.readsAt_iff.2 rfl] at hread
    cases hread
  · rintro rfl
    cases hperformed with
    | freedString _ bytes hstring => rw [hlookup] at hstring; cases hstring

/-- The string made of a row: there is one where the row is there and is a record. -/
def rowString (escaped : Char → Bool) : Option Row → CStringPtr
  | some (.ok record) => some (recordBytes escaped record)
  | _ => none

theorem csvReaderReadRecord_eq (escaped : Char → Bool) (reader : Reader) :
    ∃ next, next.pending = reader.pending.tail ∧
      Csv.csvReaderReadRecord escaped (some reader) =
        some (rowString escaped reader.pending.head?, next) := by
  obtain ⟨next, hnext, hread⟩ := readRecord_eq reader
  refine ⟨next, hnext, ?_⟩
  cases hhead : reader.pending.head? with
  | none =>
      rw [hhead] at hread
      exact csvReaderReadRecord_of_none hread
  | some row =>
      rw [hhead] at hread
      cases row with
      | error kind => exact csvReaderReadRecord_of_error hread
      | ok record => exact csvReaderReadRecord_of_record hread

/-- A string is handed out by a pointer to it. -/
inductive HandedOut (h : Objects) : CStringPtr → Reply → Prop where
  | null : HandedOut h none (.ptr none)
  | string (bytes : List UInt8) (p : ℕ) (hstring : h.lookup p = some (.string bytes)) :
      HandedOut h (some bytes) (.ptr (some p))

theorem Performed.read (hperformed : Performed escaped h (.read (some a)) reply h')
    (hreader : ReaderAt h a rows) :
    ReaderAt h' a rows.tail ∧ HandedOut h' (rowString escaped rows.head?) reply := by
  obtain ⟨reader, hlookup, rfl⟩ := hreader
  obtain ⟨next, hnext, hcrate⟩ := csvReaderReadRecord_eq escaped reader
  cases hperformed with
  | readNull _ reader₁ reader' hlookup' hread =>
      obtain rfl : reader = reader₁ := by
        rw [hlookup] at hlookup'
        cases hlookup'
        rfl
      rw [hcrate, Option.some_inj, Prod.mk.injEq] at hread
      obtain ⟨hnull, rfl⟩ := hread
      rw [hnull]
      exact ⟨⟨next, AList.lookup_insert h, hnext⟩, .null⟩
  | readString _ p reader₁ reader' bytes hlookup' hread hp =>
      obtain rfl : reader = reader₁ := by
        rw [hlookup] at hlookup'
        cases hlookup'
        rfl
      rw [hcrate, Option.some_inj, Prod.mk.injEq] at hread
      obtain ⟨hstring, rfl⟩ := hread
      rw [hstring]
      refine ⟨⟨next, ?_, hnext⟩, .string bytes p (AList.lookup_insert _)⟩
      exact lookup_insert_of_notMem (AList.lookup_insert h) hp

/-! ## Many calls -/

/-- Calls that all return, with what they answer. -/
inductive Logged (escaped : Char → Bool) : Objects → List (Call × Reply) → Objects → Prop where
  | nil (h : Objects) : Logged escaped h [] h
  | cons {h h₁ h₂ : Objects} {c : Call} {reply : Reply} {log : List (Call × Reply)}
      (hcall : Performed escaped h c reply h₁) (hrest : Logged escaped h₁ log h₂) :
      Logged escaped h ((c, reply) :: log) h₂

variable {log log' : List (Call × Reply)}

theorem logged_append : Logged escaped h (log ++ log') h' ↔
    ∃ mid, Logged escaped h log mid ∧ Logged escaped mid log' h' := by
  induction log generalizing h with
  | nil =>
      constructor
      · intro hlog
        exact ⟨h, .nil h, hlog⟩
      · rintro ⟨mid, hnil, hlog⟩
        cases hnil
        exact hlog
  | cons e log ih =>
      constructor
      · intro hlog
        cases hlog with
        | cons hcall hrest =>
            obtain ⟨mid, hfirst, hlast⟩ := ih.1 hrest
            exact ⟨mid, .cons hcall hfirst, hlast⟩
      · rintro ⟨mid, hfirst, hlast⟩
        cases hfirst with
        | cons hcall hrest => exact .cons hcall (ih.2 ⟨mid, hrest, hlast⟩)

theorem logged_run {calls : List Call} {w w' : World}
    (hrun : run (step supply escaped) w calls = some w') :
    ∃ log, w'.log = w.log ++ log ∧ Logged escaped w.heap.objects log w'.heap.objects := by
  induction calls generalizing w with
  | nil =>
      cases hrun
      exact ⟨[], (List.append_nil _).symm, .nil _⟩
  | cons c calls ih =>
      obtain ⟨mid, hstep, hrest⟩ := run_cons_eq_some.1 hrun
      simp only [step] at hstep
      split at hstep
      · cases hstep
      · rename_i reply h₁ hcall
        cases hstep
        obtain ⟨log, hlog, hlogged⟩ := ih hrest
        refine ⟨(c, reply) :: log, ?_, .cons (performed hcall) hlogged⟩
        rw [hlog, List.append_assoc]
        rfl

/-- How often a reader was read. -/
def readsAt (a : ℕ) (log : List (Call × Reply)) : ℕ :=
  log.countP fun e => e.1.readsAt a

theorem Logged.readerAt (hlogged : Logged escaped h log h') (hreader : ReaderAt h a rows)
    (hkept : ∀ e ∈ log, e.1 ≠ .freeReader (some a)) :
    ReaderAt h' a (rows.drop (readsAt a log)) := by
  induction hlogged generalizing rows with
  | nil h => exact hreader
  | @cons h h₁ h₂ c reply log hcall hrest ih =>
      have hfree := hkept _ List.mem_cons_self
      have hrest := fun e he => hkept e (List.mem_cons_of_mem _ he)
      rw [readsAt, List.countP_cons]
      by_cases hread : c.readsAt a = true
      · obtain rfl := Call.readsAt_iff.1 hread
        have hnext := ih (hcall.read hreader).1 hrest
        rw [List.drop_tail] at hnext
        rw [if_pos hread]
        exact hnext
      · have hnext := ih (hcall.reader_kept hreader hfree (by simpa using hread)) hrest
        rw [if_neg hread]
        exact hnext

theorem Logged.string_kept (hlogged : Logged escaped h log h')
    (hlookup : h.lookup p = some (.string bytes))
    (hkept : ∀ e ∈ log, e.1 ≠ .freeString (some p)) : h'.lookup p = some (.string bytes) := by
  induction hlogged with
  | nil h => exact hlookup
  | cons hcall hrest ih =>
      refine ih ?_ fun e he => hkept e (List.mem_cons_of_mem _ he)
      exact hcall.string_kept hlookup (hkept _ List.mem_cons_self)

/-! ## The whole session -/

/-- A reader and a string are acquired when they are handed out. -/
def entries : Call × Reply → List (Entry ℕ)
  | (.new _ _, .ptr (some a)) => [.acquire a]
  | (.read (some a), .ptr p) => .use a :: p.toList.map .acquire
  | (.freeReader (some a), _) => [.release a]
  | (.freeString (some p), _) => [.release p]
  | (.load (some p), _) => [.use p]
  | _ => []

theorem mem_keys_of_lookup {o : Object} (hlookup : h.lookup a = some o) : a ∈ h.keys :=
  AList.mem_keys.1 (AList.lookup_isSome.1 (by rw [hlookup]; rfl))

theorem keys_insert_of_notMem {o : Object} (ha : a ∉ h) : (h.insert a o).keys = a :: h.keys := by
  rw [AList.keys_insert, List.erase_of_not_mem ha]

theorem keys_insert_perm {o o' : Object} (hlookup : h.lookup a = some o) :
    h.keys.Perm (h.insert a o').keys := by
  rw [AList.keys_insert]
  exact List.perm_cons_erase (mem_keys_of_lookup hlookup)

/-- Each call that returns does to the heap what it enters in the ledger. -/
theorem Performed.entries (hperformed : Performed escaped h c reply h') :
    ∃ live, run post h.keys (entries (c, reply)) = some live ∧ live.Perm h'.keys := by
  have huse : ∀ {b o}, h.lookup b = some o → post h.keys (.use b) = some h.keys :=
    fun hb => if_pos (mem_keys_of_lookup hb)
  have hrelease : ∀ {b o}, h.lookup b = some o →
      run post h.keys [.release b] = some (h.erase b).keys := by
    intro b o hb
    rw [AList.keys_erase]
    exact run_cons_eq_some.2 ⟨_, if_pos (mem_keys_of_lookup hb), rfl⟩
  cases hperformed with
  | refused files filePath hopened => exact ⟨_, rfl, List.Perm.refl _⟩
  | boxed files filePath rows b hopened hb =>
      refine ⟨_, rfl, ?_⟩
      rw [keys_insert_of_notMem hb]
  | readNull b reader reader' hb hcrate =>
      exact ⟨_, run_cons_eq_some.2 ⟨_, huse hb, rfl⟩, keys_insert_perm hb⟩
  | readString b p reader reader' bytes hb hcrate hp =>
      refine ⟨p :: h.keys, run_cons_eq_some.2 ⟨_, huse hb, rfl⟩, ?_⟩
      rw [keys_insert_of_notMem hp]
      exact (keys_insert_perm hb).cons p
  | nullReader => exact ⟨_, rfl, List.Perm.refl _⟩
  | freedReader b reader hb => exact ⟨_, hrelease hb, List.Perm.refl _⟩
  | nullString => exact ⟨_, rfl, List.Perm.refl _⟩
  | freedString b bytes hb => exact ⟨_, hrelease hb, List.Perm.refl _⟩
  | loaded b bytes hb =>
      exact ⟨_, run_cons_eq_some.2 ⟨_, huse hb, rfl⟩, List.Perm.refl _⟩

theorem Logged.leaves {account : List (Entry ℕ)} (hlogged : Logged escaped h log h')
    (hleaves : Leaves account h.keys) :
    Leaves (account ++ log.flatMap Wrapper.entries) h'.keys := by
  induction hlogged generalizing account with
  | nil h =>
      rw [List.flatMap_nil, List.append_nil]
      exact hleaves
  | cons hcall hrest ih =>
      obtain ⟨live, hrun, hperm⟩ := hcall.entries
      rw [List.flatMap_cons, ← List.append_assoc]
      exact ih ((hleaves.run hrun).perm hperm)

/-- A read hands out what stands at its turn among the rows of its file, whatever the calls
on other readers; a string is what it was handed out as until it is freed; and what is in
the heap is what was handed out and has not been freed. -/
structure Sound (escaped : Char → Bool) (w : World) : Prop where
  inTurn : ∀ before files filePath a mid reply after,
    w.log = before ++ (.new files filePath, .ptr (some a)) ::
      (mid ++ (.read (some a), reply) :: after) →
    (∀ e ∈ mid, e.1 ≠ .freeReader (some a)) →
    ∃ rows s, opened files filePath = some rows ∧
      rowString escaped (afterHeader rows)[readsAt a mid]? = s ∧
      (s = none ↔ reply = .ptr none) ∧
      ∀ bytes, s = some bytes → ∃ p, reply = .ptr (some p) ∧
        ∀ between loaded rest, after = between ++ (.load (some p), loaded) :: rest →
          (∀ e ∈ between, e.1 ≠ .freeString (some p)) → loaded = .bytes bytes
  owned : Leaves (w.log.flatMap entries) w.heap.objects.keys

theorem wrapper_sound {calls : List Call} {w : World}
    (hrun : run (step supply escaped) World.start calls = some w) : Sound escaped w := by
  obtain ⟨log, hlog, hlogged⟩ := logged_run hrun
  obtain rfl : w.log = log := hlog
  constructor
  · intro before files filePath a mid reply after hsplit hkept
    rw [hsplit] at hlogged
    obtain ⟨h₁, -, hlogged⟩ := logged_append.1 hlogged
    cases hlogged with
    | cons hnew hlogged =>
        obtain ⟨h₂, hmid, hlogged⟩ := logged_append.1 hlogged
        cases hlogged with
        | cons hread hafter =>
            cases hnew with
            | boxed _ _ rows _ hopened ha =>
                have hreader : ReaderAt (h₁.insert a (.reader (Reader.fromRows rows))) a
                    (afterHeader rows) := ⟨_, AList.lookup_insert h₁, rfl⟩
                obtain ⟨-, hhanded⟩ := hread.read (hmid.readerAt hreader hkept)
                rw [List.head?_drop] at hhanded
                generalize hs : rowString escaped (afterHeader rows)[readsAt a mid]? = s at hhanded
                refine ⟨rows, s, hopened, hs, ?_, ?_⟩
                · cases hhanded <;> simp
                · intro bytes hbytes
                  rw [hbytes] at hhanded
                  cases hhanded with
                  | string _ p hstring =>
                      refine ⟨p, rfl, ?_⟩
                      intro between loaded rest hsplit hbetween
                      rw [hsplit] at hafter
                      obtain ⟨h₃, hfirst, hlast⟩ := logged_append.1 hafter
                      have hlookup := hfirst.string_kept hstring hbetween
                      cases hlast with
                      | cons hload hrest =>
                          cases hload with
                          | loaded _ bytes' hlookup' =>
                              rw [hlookup] at hlookup'
                              cases hlookup'
                              rfl
  · exact hlogged.leaves leaves_nil

/-- The file of one short row, opened twice. -/
def openShortRow : Call :=
  .new (fun _ => some shortRowFile) (some dataCsv)

/-- Two readers of the same file, read in turns: a bad row ends neither. -/
def readInTurns : List Call :=
  [openShortRow, .read (some 0), openShortRow, .read (some 0), .read (some 1), .load (some 2),
    .read (some 1), .freeReader (some 0), .load (some 2), .freeString (some 2),
    .load (some 3), .freeReader (some 1), .freeString (some 3), .freeString none]

theorem wrapper_sound_readInTurns : ∃ w,
    run (step .lowest fun _ => false) World.start readInTurns = some w ∧ w.heap.objects.keys = [] ∧
      Sound (fun _ => false) w := by
  have hkeys : (run (step .lowest fun _ => false) World.start readInTurns).map
      (fun w => w.heap.objects.keys) = some [] := by
    decide +kernel
  obtain ⟨w, hrun, hnil⟩ := Option.map_eq_some_iff.1 hkeys
  exact ⟨w, hrun, hnil, wrapper_sound hrun⟩

end LlgoExamples.Csv.Wrapper
