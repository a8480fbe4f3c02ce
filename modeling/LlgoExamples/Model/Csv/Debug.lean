import Mathlib.Data.List.Basic

/-! # Printing a record

`format!("{:?}\n", record)` and `CString::new`. A Rust string is the list of its
characters; `escaped` is the set of characters that `char::escape_debug` prints by their
code point (neither printable nor a base of a grapheme). -/

namespace LlgoExamples.Csv

abbrev Field := List Char

abbrev StringRecord := List Field

/-! ## Debug of a string -/

/-- `char::escape_unicode`. -/
def escapeUnicode (c : Char) : List Char :=
  ['\\', 'u', '\x7b'] ++ Nat.toDigits 16 c.toNat ++ ['\x7d']

/-- One character inside the quotes of `str`'s `Debug`. -/
def escapeDebug (escaped : Char → Bool) (c : Char) : List Char :=
  if c = '\x00' then ['\\', '0']
  else if c = '\t' then ['\\', 't']
  else if c = '\r' then ['\\', 'r']
  else if c = '\n' then ['\\', 'n']
  else if c = '\\' then ['\\', '\\']
  else if c = '\"' then ['\\', '\"']
  else if escaped c then escapeUnicode c
  else [c]

def strDebug (escaped : Char → Bool) (s : Field) : List Char :=
  ['\"'] ++ s.flatMap (escapeDebug escaped) ++ ['\"']

/-! ## Debug of a record -/

/-- `Debug` of a list of strings, as `debug_list` prints it. -/
def listDebug (escaped : Char → Bool) (fields : List Field) : List Char :=
  ['['] ++ [',', ' '].intercalate (fields.map (strDebug escaped)) ++ [']']

def recordDebug (escaped : Char → Bool) (record : StringRecord) : List Char :=
  "StringRecord(".toList ++ listDebug escaped record ++ [')']

/-- `format!("{:?}\n", record)`. -/
def formatRecord (escaped : Char → Bool) (record : StringRecord) : List Char :=
  recordDebug escaped record ++ ['\n']

/-! ## C strings -/

/-- The bytes of a Rust string. -/
def utf8 (s : List Char) : List UInt8 :=
  s.flatMap String.utf8EncodeChar

/-- `CString::new`: the bytes before the terminating NUL, unless one of them is NUL. -/
def cstringNew (s : List Char) : Option (List UInt8) :=
  if 0 ∈ utf8 s then none else some (utf8 s)

end LlgoExamples.Csv
