import Mathlib

namespace pjsua_rust.event

/-- The number of bytes of the sequence a first byte starts, 0 where none does. -/
def utf8_char_width (b : UInt8) : Nat :=
  if b < 0x80 then 1
  else if 0xc2 ≤ b ∧ b ≤ 0xdf then 2
  else if 0xe0 ≤ b ∧ b ≤ 0xef then 3
  else if 0xf0 ≤ b ∧ b ≤ 0xf4 then 4
  else 0

def is_cont (b : UInt8) : Bool := b &&& 0xc0 == 0x80

/-- The second bytes that may follow a first byte: no overlong form, no
    surrogate, and nothing above the last code point. -/
def second_ok (first second : UInt8) : Bool :=
  if first = 0xe0 then 0xa0 ≤ second ∧ second ≤ 0xbf
  else if first = 0xed then 0x80 ≤ second ∧ second ≤ 0x9f
  else if first = 0xf0 then 0x90 ≤ second ∧ second ≤ 0xbf
  else if first = 0xf4 then 0x80 ≤ second ∧ second ≤ 0x8f
  else is_cont second

def REPLACEMENT_CHARACTER : Char := Char.ofNat 0xfffd

/-- The character that starts with `b`, and how many of the bytes after `b` it
    takes. What is no character becomes one replacement character for as many
    bytes as could have started one. -/
def next_char (b : UInt8) (rest : List UInt8) : Nat × Char :=
  let b1 := rest.getD 0 0
  let b2 := rest.getD 1 0
  let b3 := rest.getD 2 0
  let low (b : UInt8) : Nat := (b &&& 0x3f).toNat
  match utf8_char_width b with
  | 1 => (0, Char.ofNat b.toNat)
  | 2 =>
    if !is_cont b1 then (0, REPLACEMENT_CHARACTER)
    else (1, Char.ofNat ((b &&& 0x1f).toNat * 64 + low b1))
  | 3 =>
    if !second_ok b b1 then (0, REPLACEMENT_CHARACTER)
    else if !is_cont b2 then (1, REPLACEMENT_CHARACTER)
    else (2, Char.ofNat (((b &&& 0x0f).toNat * 64 + low b1) * 64 + low b2))
  | 4 =>
    if !second_ok b b1 then (0, REPLACEMENT_CHARACTER)
    else if !is_cont b2 then (1, REPLACEMENT_CHARACTER)
    else if !is_cont b3 then (2, REPLACEMENT_CHARACTER)
    else (3, Char.ofNat ((((b &&& 0x07).toNat * 64 + low b1) * 64 + low b2) * 64 + low b3))
  | _ => (0, REPLACEMENT_CHARACTER)

/-- The characters of the bytes, once `skip` bytes of the last one are over. -/
def decode_lossy : Nat → List UInt8 → List Char
  | _, [] => []
  | skip + 1, _ :: rest => decode_lossy skip rest
  | 0, b :: rest =>
    let (taken, c) := next_char b rest
    c :: decode_lossy taken rest

/-- `String::from_utf8_lossy`. -/
def from_utf8_lossy (bytes : List UInt8) : List Char := decode_lossy 0 bytes

/-- `char::is_whitespace`. -/
def is_whitespace (c : Char) : Bool :=
  (0x09 ≤ c.toNat ∧ c.toNat ≤ 0x0d) ∨ (0x2000 ≤ c.toNat ∧ c.toNat ≤ 0x200a) ∨
    c.toNat ∈ [0x20, 0x85, 0xa0, 0x1680, 0x2028, 0x2029, 0x202f, 0x205f, 0x3000]

/-- `str::trim`. -/
def trim (s : List Char) : List Char := (s.dropWhile is_whitespace).rdropWhile is_whitespace

/-- `str::trim_end_matches` for one character. -/
def trim_end_matches (c : Char) (s : List Char) : List Char := s.rdropWhile (· == c)

/-- The end of a line: one carriage return before the newline belongs to it. -/
def strip_cr (line : List Char) : List Char :=
  if line.getLast? = some '\r' then line.dropLast else line

/-- `str::lines`, with the start of the current line. -/
def lines_from (line : List Char) : List Char → List (List Char)
  | [] => if line.isEmpty then [] else [line]
  | c :: rest => if c = '\n' then strip_cr line :: lines_from [] rest else lines_from (line ++ [c]) rest

/-- `str::split_once` for one character. -/
def split_once (c : Char) (s : List Char) : Option (List Char × List Char) :=
  match s.dropWhile (· != c) with
  | [] => none
  | _ :: value => some (s.takeWhile (· != c), value)

/-- A `HashMap<String, String>`, each key once and in no order that matters. -/
abbrev HeaderMap := List (List Char × List Char)

/-- `entry(name).and_modify(..).or_insert_with(..)`. -/
def HeaderMap.append (headers : HeaderMap) (name value : List Char) : HeaderMap :=
  if headers.any (·.1 == name) then
    headers.map fun e => if e.1 = name then (e.1, e.2 ++ [',', ' '] ++ value) else e
  else headers ++ [(name, value)]

/-- One line of the block. -/
def parse_trace_header (headers : HeaderMap) (line : List Char) : HeaderMap :=
  let line := trim_end_matches '\r' line
  if line.isEmpty then headers
  else
    match split_once ':' line with
    | none => headers
    | some (name, value) =>
      let name := trim name
      if name.isEmpty then headers else headers.append name (trim value)

/-- `parse_trace_headers`: repeated headers are joined. -/
def parse_trace_headers (raw : List Char) : HeaderMap :=
  (lines_from [] raw).foldl parse_trace_header []

end pjsua_rust.event
