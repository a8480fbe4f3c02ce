import LlgoExamples.Verification.Csv.Wrapper

/-! # `main.c` and `csv.go`

Both print the records before the first bad row and leave the heap as they found it. Only
`main.c` asks whether there is a reader. -/

namespace LlgoExamples.Csv.Wrapper

variable {supply : Supply} {escaped : Char → Bool} {h : Objects} {handed : List ℕ} {a : ℕ}
  {reader next : Reader} {print : Ptr → List UInt8 → Printed}

/-! ## One round of the loop -/

/-- The heap while a program reads: what was there before, and its reader. -/
def reading (h : Objects) (a : ℕ) (reader : Reader) (handed : List ℕ) : Heap :=
  { objects := h.insert a (.reader reader), handed := handed }

/-- The records that the loop of a program gets to. -/
def delivered (rows : List Row) : List StringRecord :=
  records ((afterHeader rows).takeWhile Except.isOk)

end LlgoExamples.Csv.Wrapper
