import Mathlib.Data.List.TakeWhile
import LlgoExamples.Verification.Csv.Rendering

/-! # Draining a file

A client's loop stops at the first null pointer. Null stands for the end of the file and
for a bad row alike, so the loop delivers the records before the first bad row and loses
the rest. -/

namespace LlgoExamples.Csv

variable {escaped : Char → Bool}

/-! ## What is left to read -/

/-- The rows that are reported to a reader that starts at the top of a file. -/
def afterHeader : List Row → List Row
  | [] => []
  | .error .io :: rows => .error .io :: afterHeader rows
  | _ :: rows => rows

def Reader.pending (reader : Reader) : List Row :=
  if reader.headers then reader.rows else afterHeader reader.rows

def records (rows : List Row) : List StringRecord :=
  rows.filterMap Except.toOption

theorem afterHeader_length_le (rows : List Row) : (afterHeader rows).length ≤ rows.length := by
  induction rows with
  | nil => exact Nat.le_refl 0
  | cons row rows ih =>
      rcases row with (_ | _ | _) | record <;> simp only [afterHeader, List.length_cons] <;> omega

/-- A read reports the first pending row, or the end of the file when there is none. -/
theorem readRecord_eq (reader : Reader) :
    ∃ reader', reader'.pending = reader.pending.tail ∧ reader.readRecord =
      (match reader.pending.head? with
        | none => .ok none
        | some row => row.map some, reader') := by
  rcases reader with ⟨rows, headers⟩
  cases headers with
  | true =>
      cases rows with
      | nil => exact ⟨⟨[], true⟩, rfl, rfl⟩
      | cons row rows => exact ⟨⟨rows, true⟩, rfl, rfl⟩
  | false =>
      cases rows with
      | nil => exact ⟨⟨[], true⟩, rfl, rfl⟩
      | cons header rows =>
          rcases header with (_ | _ | _) | record
          case error.io => exact ⟨⟨rows, false⟩, rfl, rfl⟩
          all_goals
            cases rows with
            | nil => exact ⟨⟨[], true⟩, rfl, rfl⟩
            | cons row rows => exact ⟨⟨rows, true⟩, rfl, rfl⟩

/-! ## The loop -/

theorem csvReaderReadRecord_of_none {reader reader' : Reader}
    (h : reader.readRecord = (.ok none, reader')) :
    csvReaderReadRecord escaped (some reader) = some (none, reader') := by
  simp only [csvReaderReadRecord, h]

theorem csvReaderReadRecord_of_error {reader reader' : Reader} {kind : ErrorKind}
    (h : reader.readRecord = (.error kind, reader')) :
    csvReaderReadRecord escaped (some reader) = some (none, reader') := by
  simp only [csvReaderReadRecord, h]

/-- A call that returns null ends the loop and leaves nothing behind. -/
theorem drain_of_null {reader reader' : Reader} {calls : ℕ}
    (h : csvReaderReadRecord escaped (some reader) = some (none, reader')) :
    drain escaped (calls + 1) reader = some { strings := [], stop := reader } := by
  simp only [drain, h]

theorem drain_of_string {reader reader' : Reader} {string : List UInt8} {calls : ℕ}
    (h : csvReaderReadRecord escaped (some reader) = some (some string, reader')) :
    drain escaped (calls + 1) reader =
      (drain escaped calls reader').map fun d => { d with strings := string :: d.strings } := by
  simp only [drain, h]

/-- The loop ends, after the records before the first bad row. -/
theorem exists_drain (escaped : Char → Bool) (rows : List Row) (reader : Reader)
    (hpending : reader.pending = rows) :
    ∃ stop : Reader, stop.pending = rows.dropWhile Except.isOk ∧
      ∀ calls, rows.length < calls → drain escaped calls reader = some
        { strings := (records (rows.takeWhile Except.isOk)).map (recordBytes escaped)
          stop := stop } := by
  induction rows generalizing reader with
  | nil =>
      rcases readRecord_eq reader with ⟨reader', -, hread⟩
      rw [hpending] at hread
      refine ⟨reader, hpending, ?_⟩
      intro calls hcalls
      rcases Nat.exists_eq_add_one.2 hcalls with ⟨calls, rfl⟩
      rw [drain_of_null (csvReaderReadRecord_of_none hread)]
      rfl
  | cons row rows ih =>
      rcases readRecord_eq reader with ⟨reader', hrest, hread⟩
      rw [hpending] at hread hrest
      cases row with
      | error kind =>
          refine ⟨reader, hpending, ?_⟩
          intro calls hcalls
          rcases Nat.exists_eq_add_one.2 (Nat.zero_lt_of_lt hcalls) with ⟨calls, rfl⟩
          rw [drain_of_null (csvReaderReadRecord_of_error hread)]
          rfl
      | ok record =>
          rcases ih reader' hrest with ⟨stop, hstop, hdrain⟩
          refine ⟨stop, hstop, ?_⟩
          intro calls hcalls
          rcases Nat.exists_eq_add_one.2 (Nat.zero_lt_of_lt hcalls) with ⟨calls, rfl⟩
          rw [drain_of_string (csvReaderReadRecord_of_record hread),
            hdrain calls (Nat.lt_of_succ_lt_succ hcalls)]
          rfl

/-! ## Nothing is lost -/

/-- The loop has delivered every record after the header, in order, and was stopped by the
end of the file. -/
structure DrainsFile (escaped : Char → Bool) (rows : List Row) (d : Drained) : Prop where
  delivered : d.strings = (records (afterHeader rows)).map (recordBytes escaped)
  atEnd : d.stop.pending = []

/-- On every file the loop ends, and it loses nothing exactly when no row it reads is bad. -/
theorem drainsFile_iff (escaped : Char → Bool) (rows : List Row) :
    ∃ d, (∀ calls, rows.length < calls → drain escaped calls (Reader.fromRows rows) = some d) ∧
      (DrainsFile escaped rows d ↔ ∀ row ∈ afterHeader rows, row.isOk = true) := by
  rcases exists_drain escaped (afterHeader rows) (Reader.fromRows rows) rfl with
    ⟨stop, hstop, hdrain⟩
  refine ⟨_, fun calls hcalls => hdrain calls ?_, ?_⟩
  · exact Nat.lt_of_le_of_lt (afterHeader_length_le rows) hcalls
  · constructor
    · intro h
      have hnil := h.atEnd
      rw [hstop] at hnil
      exact List.dropWhile_eq_nil_iff.1 hnil
    · intro h
      refine ⟨?_, ?_⟩
      · rw [List.takeWhile_eq_self_iff.2 h]
      · rw [hstop]
        exact List.dropWhile_eq_nil_iff.2 h

/-- A header, a row with one field too few, and a good row. -/
def shortRowFile : List Row :=
  [.ok [['a'], ['b']], .error .unequalLengths, .ok [['1'], ['2']]]

/-- The loop stops at the short row and the good row after it is never delivered. -/
theorem not_drainsFile_shortRow :
    (∀ calls, drain (fun _ => false) (calls + 1) (Reader.fromRows shortRowFile) =
        some { strings := [], stop := Reader.fromRows shortRowFile }) ∧
      ¬ DrainsFile (fun _ => false) shortRowFile
        { strings := [], stop := Reader.fromRows shortRowFile } := by
  constructor
  · intro calls
    rfl
  · intro h
    exact absurd h.atEnd (List.cons_ne_nil _ _)

end LlgoExamples.Csv
