import LlgoExamples.Model.Csv.Debug

/-! # The CSV reader and its clients

The `csv` crate's reader is the rows it has still to produce, each a record or an error.
`csv_reader_read_record` folds the outcome of a read into one pointer, and both clients
read until that pointer is null. -/

namespace LlgoExamples.Csv

/-! ## The csv crate -/

inductive ErrorKind where
  | unequalLengths
  | utf8
  | io
  deriving DecidableEq, Repr

abbrev Row := Except ErrorKind StringRecord

/-- `csv::Reader<File>`: the rows not yet read, and whether the header row has been. -/
structure Reader where
  rows : List Row
  headers : Bool
  deriving DecidableEq, Repr

/-- `ReaderBuilder::new().from_path(..)` on a file with the given rows. -/
def Reader.fromRows (rows : List Row) : Reader :=
  { rows := rows, headers := false }

/-- The next row of a reader past its header: `none` at end of file. -/
def Reader.nextRow (reader : Reader) : Except ErrorKind (Option StringRecord) × Reader :=
  match reader.rows with
  | [] => (.ok none, reader)
  | row :: rows => (row.map some, { reader with rows := rows })

/-- `Reader::read_record`. The first row that can be split is the header and is skipped; it
is kept as bytes, so it need not be UTF-8. -/
def Reader.readRecord (reader : Reader) : Except ErrorKind (Option StringRecord) × Reader :=
  if reader.headers then reader.nextRow
  else match reader.rows with
    | [] => (.ok none, { reader with headers := true })
    | .error .io :: rows => (.error .io, { reader with rows := rows })
    | _ :: rows => Reader.nextRow { rows := rows, headers := true }

/-! ## The wrapper -/

/-- The string of `csv_reader_read_record`, `none` for a null pointer. -/
abbrev CStringPtr := Option (List UInt8)

/-- `csv_reader_read_record` on a reader pointer, `none` when the assertion fails. -/
def csvReaderReadRecord (escaped : Char → Bool) (ptr : Option Reader) :
    Option (CStringPtr × Reader) :=
  match ptr with
  | none => none
  | some reader =>
      match reader.readRecord with
      | (.ok (some record), reader) =>
          match cstringNew (formatRecord escaped record) with
          | some string => some (some string, reader)
          | none => some (none, reader)
      | (_, reader) => some (none, reader)

/-! ## The clients -/

/-- What a client has seen when its loop is left: the strings it was given, and the reader
on which the call that stopped it was made. -/
structure Drained where
  strings : List (List UInt8)
  stop : Reader
  deriving DecidableEq, Repr

/-- The loop of both clients, for at most `calls` calls. -/
def drain (escaped : Char → Bool) : ℕ → Reader → Option Drained
  | 0, _ => none
  | calls + 1, reader =>
      match csvReaderReadRecord escaped (some reader) with
      | none => none
      | some (none, _) => some ⟨[], reader⟩
      | some (some string, reader) =>
          (drain escaped calls reader).map fun d => { d with strings := string :: d.strings }

end LlgoExamples.Csv
