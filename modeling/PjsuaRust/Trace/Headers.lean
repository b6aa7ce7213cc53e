import PjsuaRust.Trace.Message
import PjsuaRust.Trace.Utf8

namespace pjsua_rust.event

/-- A line ends at its line feed, and a carriage return in front of that is cut off.
    This is what Rust's `lines` does. -/
theorem lines_from_line {line : List Char} (hline : '\n' ∉ line) (start rest : List Char) :
    lines_from start (line ++ '\n' :: rest) = strip_cr (start ++ line) :: lines_from [] rest := by
  induction line generalizing start with
  | nil =>
    rw [List.nil_append, List.append_nil, lines_from, if_pos rfl]
  | cons c line ih =>
    have hc : c ≠ '\n' := fun h => hline (h ▸ List.mem_cons_self)
    rw [List.cons_append, lines_from, if_neg hc, ih (fun h => hline (List.mem_cons_of_mem _ h)),
      List.append_assoc, List.singleton_append]

theorem strip_cr_of_not_mem {line : List Char} (hline : '\r' ∉ line) : strip_cr line = line :=
  if_neg fun h => hline (List.mem_of_getLast? h)

theorem trim_end_matches_of_not_mem {c : Char} {s : List Char} (hs : c ∉ s) : trim_end_matches c s = s := by
  rw [trim_end_matches, List.rdropWhile_eq_self_iff]
  intro hne hlast
  exact hs (beq_iff_eq.mp hlast ▸ List.getLast_mem hne)

theorem split_once_append {c : Char} {name : List Char} (hname : c ∉ name) (value : List Char) :
    split_once c (name ++ c :: value) = some (name, value) := by
  have hall : ∀ d ∈ name, (d != c) = true := fun d hd => bne_iff_ne.mpr fun h => hname (h ▸ hd)
  rw [split_once, List.dropWhile_append_of_pos hall, List.takeWhile_append_of_pos hall]
  simp

/-- No whitespace on either side. -/
def Trimmed (s : List Char) : Prop :=
  (∀ c ∈ s.head?, is_whitespace c = false) ∧ ∀ c ∈ s.getLast?, is_whitespace c = false

theorem dropWhile_of_trimmed {s : List Char} (hs : Trimmed s) : s.dropWhile is_whitespace = s := by
  cases s with
  | nil => rfl
  | cons c s => exact List.dropWhile_cons_of_neg (by simp [hs.1 c rfl])

theorem rdropWhile_of_trimmed {s : List Char} (hs : Trimmed s) : s.rdropWhile is_whitespace = s := by
  rw [List.rdropWhile_eq_self_iff]
  intro hne
  simp [hs.2 _ (List.getLast?_eq_some_getLast hne)]

/-- Text without blanks at its ends is not trimmed. -/
theorem trim_of_trimmed {s : List Char} (hs : Trimmed s) : trim s = s := by
  rw [trim, dropWhile_of_trimmed hs, rdropWhile_of_trimmed hs]

theorem trim_space {s : List Char} (hs : Trimmed s) : trim (' ' :: s) = s := by
  rw [trim, List.dropWhile_cons_of_pos (by decide)]
  exact trim_of_trimmed hs

/-- Joining to the values of one name leaves the other names alone. -/
theorem lookup_map_join (headers : HeaderMap) (name value key : List Char) :
    (headers.map fun e => if e.1 = name then (e.1, e.2 ++ [',', ' '] ++ value) else e).lookup key =
      if key = name then (headers.lookup name).map (· ++ [',', ' '] ++ value) else headers.lookup key := by
  induction headers with
  | nil =>
    rw [List.map_nil, List.lookup_nil, List.lookup_nil, Option.map_none, ite_self]
  | cons e headers ih =>
    obtain ⟨k, v⟩ := e
    rw [List.map_cons]
    by_cases hk : k = name
    · rw [if_pos hk, List.lookup_cons, List.lookup_cons, List.lookup_cons, ih, hk]
      by_cases hkey : key = name
      · simp [hkey]
      · simp [hkey, beq_false_of_ne hkey]
    · rw [if_neg hk, List.lookup_cons, List.lookup_cons, List.lookup_cons, ih]
      by_cases hkey : key = name
      · simp [hkey, beq_false_of_ne (Ne.symm hk)]
      · simp [hkey]

/-- Appending a value changes what its own name is sent to, and nothing else. A
    value for a name that is there already goes behind the earlier ones, with a
    comma. -/
theorem HeaderMap.lookup_append (headers : HeaderMap) (name value key : List Char) :
    (headers.append name value).lookup key =
      if key = name then some ((headers.lookup name).elim value (· ++ [',', ' '] ++ value))
      else headers.lookup key := by
  rw [HeaderMap.append]
  split
  · rename_i hmem
    rw [lookup_map_join]
    have hsome : (headers.lookup name).isSome := by
      obtain ⟨e, he, hname⟩ := List.any_eq_true.mp hmem
      exact List.lookup_isSome_iff.mpr ⟨e, he, beq_iff_eq.mpr (beq_iff_eq.mp hname).symm⟩
    obtain ⟨old, hold⟩ := Option.isSome_iff_exists.mp hsome
    rw [hold]
    rfl
  · rename_i hmem
    have hnone : headers.lookup name = none := by
      rw [List.lookup_eq_none_iff]
      intro e he
      have hname : e.1 ≠ name := fun h => hmem (List.any_eq_true.mpr ⟨e, he, beq_iff_eq.mpr h⟩)
      simp [hname.symm]
    rw [List.lookup_append]
    by_cases hkey : key = name
    · simp [hkey, hnone]
    · simp [hkey]

/-- A header whose text can be a line of the block. -/
structure Header where
  name : List Char
  value : List Char
  name_ne_nil : name ≠ []
  name_plain : ∀ c ∈ name, c ≠ ':' ∧ c ≠ '\r' ∧ c ≠ '\n'
  value_plain : ∀ c ∈ value, c ≠ '\r' ∧ c ≠ '\n'
  name_trimmed : Trimmed name
  value_trimmed : Trimmed value

/-- `Name: value`. -/
def Header.text (h : Header) : List Char := h.name ++ ':' :: ' ' :: h.value

def Header.line (h : Header) : List Char := h.text ++ ['\n']

/-- No line break is in the text of a header. -/
theorem Header.text_plain (h : Header) {c : Char} (hc : c ∈ h.text) : c ≠ '\r' ∧ c ≠ '\n' := by
  rw [text, List.mem_append, List.mem_cons, List.mem_cons] at hc
  rcases hc with hc | rfl | rfl | hc
  · exact (h.name_plain c hc).2
  · decide
  · decide
  · exact h.value_plain c hc

/-- The text of a header is parsed as its name and value. -/
theorem parse_trace_header_text (headers : HeaderMap) (h : Header) :
    parse_trace_header headers h.text = headers.append h.name h.value := by
  have hcr : '\r' ∉ h.text := fun hc => (h.text_plain hc).1 rfl
  have hcolon : ':' ∉ h.name := fun hc => (h.name_plain _ hc).1 rfl
  have hne : h.text.isEmpty = false := by simp [Header.text]
  have hname : h.name.isEmpty = false := List.isEmpty_eq_false_iff.mpr h.name_ne_nil
  have hsplit : split_once ':' h.text = some (h.name, ' ' :: h.value) := split_once_append hcolon _
  simp only [parse_trace_header, trim_end_matches_of_not_mem hcr, hne, hsplit, trim_of_trimmed h.name_trimmed,
    hname, trim_space h.value_trimmed]
  rfl

/-- The lines of a block of headers are their texts. -/
theorem lines_from_headers (hs : List Header) : lines_from [] (hs.flatMap Header.line) = hs.map Header.text := by
  induction hs with
  | nil => rfl
  | cons h hs ih =>
    have hnl : '\n' ∉ h.text := fun hc => (h.text_plain hc).2 rfl
    have hcr : '\r' ∉ h.text := fun hc => (h.text_plain hc).1 rfl
    rw [List.flatMap_cons, Header.line, List.append_assoc, List.singleton_append, lines_from_line hnl,
      List.nil_append, strip_cr_of_not_mem hcr, ih, List.map_cons]

/-- The values of the headers of one name, in their order. -/
def values (hs : List Header) (name : List Char) : List (List Char) :=
  (hs.filter (·.name = name)).map Header.value

/-- What the name is sent to: its values with a separator between them. -/
def joined (hs : List Header) (name : List Char) : Option (List Char) :=
  if values hs name = [] then none else some ([',', ' '].intercalate (values hs name))

theorem intercalate_concat {α : Type} (sep : List α) {parts : List (List α)} (hparts : parts ≠ []) (last : List α) :
    sep.intercalate (parts ++ [last]) = sep.intercalate parts ++ sep ++ last := by
  induction parts with
  | nil => exact absurd rfl hparts
  | cons part parts ih =>
    rw [List.cons_append, List.intercalate_cons_of_ne_nil (by simp)]
    cases parts with
    | nil => simp
    | cons next parts =>
      rw [ih (List.cons_ne_nil _ _), List.intercalate_cons_cons]
      simp only [List.append_assoc]

/-- One more header adds its value behind those of its name. Names are compared as
    they are spelled, so headers of one meaning and two spellings stay apart. -/
theorem joined_concat (hs : List Header) (h : Header) (key : List Char) :
    joined (hs ++ [h]) key =
      if key = h.name then some ((joined hs h.name).elim h.value (· ++ [',', ' '] ++ h.value)) else joined hs key := by
  have hvalues : values (hs ++ [h]) key = values hs key ++ if h.name = key then [h.value] else [] := by
    simp only [values, List.filter_append, List.map_append]
    by_cases hkey : h.name = key
    · simp [hkey]
    · simp [hkey]
  rw [joined, hvalues]
  by_cases hkey : key = h.name
  · subst hkey
    rw [if_pos rfl, if_pos rfl, if_neg (by simp), joined]
    by_cases hnone : values hs h.name = []
    · rw [if_pos hnone, hnone]
      simp
    · rw [if_neg hnone, intercalate_concat _ hnone]
      rfl
  · rw [if_neg (Ne.symm hkey), if_neg hkey, List.append_nil, joined]

/-- Appending headers one by one joins the values of each name. -/
theorem lookup_foldl_append (hs : List Header) (key : List Char) :
    (hs.foldl (fun (headers : HeaderMap) h => headers.append h.name h.value) []).lookup key = joined hs key := by
  induction hs using List.reverseRecOn generalizing key with
  | nil => rfl
  | append_singleton hs h ih =>
    rw [List.foldl_append, List.foldl_cons, List.foldl_nil, HeaderMap.lookup_append, ih, ih, joined_concat]

/-- The parser gives back the headers whose lines make up the block. -/
theorem parse_trace_headers_lines (hs : List Header) (key : List Char) :
    (parse_trace_headers (hs.flatMap Header.line)).lookup key = joined hs key := by
  rw [parse_trace_headers, lines_from_headers, List.foldl_map]
  simp only [parse_trace_header_text]
  exact lookup_foldl_append hs key

end pjsua_rust.event

namespace pjsua_rust.trace_module

open event

/-- The lines of the headers, one after the other. -/
def block (hs : List Header) : List UInt8 := encode (hs.flatMap Header.line)

/-- Whether a header is on the allowlist, and its line fits behind those kept so
    far. -/
def fits (size : Nat) (kept : List Header) (h : Header) : Bool :=
  hdr_is_traced { bytes := encode h.name } && (block (kept ++ [h])).length ≤ size

def keep (size : Nat) (kept : List Header) (h : Header) : List Header :=
  if fits size kept h then kept ++ [h] else kept

/-- The headers that fit when they are reached, in a block of `size` bytes. -/
def fitting (size : Nat) (hs : List Header) : List Header := hs.foldl (keep size) []

/-- `pjsip_hdr_print_on` writes `Name: value` and returns its length where there
    is room for it, and a value that is not positive where there is not. -/
structure PrintsHeader (hdr : pjsip_hdr) (h : Header) : Prop where
  name : hdr.name.bytes = encode h.name
  print_fits : ∀ size, (encode h.text).length ≤ size →
    (hdr.print_on size).1 = (encode h.text).length ∧ encode h.text <+: (hdr.print_on size).2
  print_too_long : ∀ size, size < (encode h.text).length → (hdr.print_on size).1 ≤ 0

theorem block_concat (hs : List Header) (h : Header) :
    block (hs ++ [h]) = block hs ++ (encode h.text ++ [0x0a]) := by
  simp only [block, List.flatMap_append, List.flatMap_singleton, encode_append, Header.line]
  rfl

theorem encode_text_pos (h : Header) : 0 < (encode h.text).length := by
  have hcolon : encode h.text = encode h.name ++ (0x3a :: 0x20 :: encode h.value) := by
    rw [Header.text, encode_append]
    rfl
  rw [hcolon]
  simp only [List.length_append, List.length_cons]
  omega

/-- A header fits if it is on the allowlist and its line leaves room for one more
    byte. -/
theorem fits_iff {size : Nat} {kept : List Header} {h : Header} :
    fits size kept h = true ↔ hdr_is_traced { bytes := encode h.name } = true ∧
      (block kept).length + (encode h.text).length + 1 ≤ size := by
  rw [fits, Bool.and_eq_true, decide_eq_true_iff, block_concat]
  simp only [List.length_append, List.length_singleton, Nat.add_assoc]

theorem keep_of_fits {size : Nat} {kept : List Header} {h : Header} (hfits : fits size kept h = true) :
    keep size kept h = kept ++ [h] :=
  if_pos hfits

theorem keep_of_not_fits {size : Nat} {kept : List Header} {h : Header} (hfits : ¬fits size kept h = true) :
    keep size kept h = kept :=
  if_neg hfits

/-- Where there is no room for a line of any length, no later header fits. With room
    left a shorter one may, behind one that did not. -/
theorem foldl_keep_of_full {size : Nat} {kept : List Header} (hfull : size ≤ (block kept).length + 1)
    (hs : List Header) : hs.foldl (keep size) kept = kept := by
  induction hs with
  | nil => rfl
  | cons h hs ih =>
    have hpos := encode_text_pos h
    rw [List.foldl_cons, keep_of_not_fits, ih]
    rw [fits_iff]
    omega

/-- What was kept stays kept, whatever comes behind. -/
theorem foldl_keep_prefix (size : Nat) (kept hs : List Header) : kept <+: hs.foldl (keep size) kept := by
  induction hs generalizing kept with
  | nil => exact List.prefix_refl kept
  | cons h hs ih =>
    apply List.IsPrefix.trans _ (ih _)
    by_cases hfits : fits size kept h = true
    · rw [keep_of_fits hfits]
      exact List.prefix_append kept [h]
    · rw [keep_of_not_fits hfits]

/-- A header that fits when it is reached is kept, whichever of those before it
    were skipped. -/
theorem fitting_of_fits {size : Nat} {before : List Header} {h : Header}
    (hfits : fits size (fitting size before) h = true) (after : List Header) :
    fitting size before ++ [h] <+: fitting size (before ++ h :: after) := by
  rw [fitting, fitting, List.foldl_append, List.foldl_cons, ← fitting, keep_of_fits hfits]
  exact foldl_keep_prefix size _ after

/-- A header that is skipped might as well not be there. -/
theorem fitting_of_not_fits {size : Nat} {before : List Header} {h : Header}
    (hfits : ¬fits size (fitting size before) h = true) (after : List Header) :
    fitting size (before ++ h :: after) = fitting size (before ++ after) := by
  rw [fitting, fitting, List.foldl_append, List.foldl_cons, List.foldl_append, ← fitting, keep_of_not_fits hfits]

/-- Whether a header is on the allowlist shows in its name alone. -/
theorem PrintsHeader.hdr_is_traced {hdr : pjsip_hdr} {h : Header} (hprints : PrintsHeader hdr h) :
    trace_module.hdr_is_traced hdr.name = trace_module.hdr_is_traced { bytes := encode h.name } := by
  simp only [trace_module.hdr_is_traced, hprints.name]

/-- A print leaves what is used as it is. -/
theorem prefix_printed {used buf : List UInt8} (hused : used <+: buf) (size : Nat) (out : List UInt8) :
    used <+: printed buf used.length size out := by
  obtain ⟨free, rfl⟩ := hused
  rw [printed, List.take_left, List.append_assoc]
  exact List.prefix_append used _

/-- What is printed goes behind what was written before, and leaves that as it was. -/
theorem prefix_printed_text {used buf text out : List UInt8} {size : Nat} (hused : used <+: buf)
    (hout : text <+: out) (htext : text.length ≤ size) : used ++ text <+: printed buf used.length size out := by
  obtain ⟨free, rfl⟩ := hused
  obtain ⟨more, rfl⟩ := hout
  rw [printed, List.take_left, List.take_append, List.take_of_length_le htext, List.append_assoc, List.append_assoc,
    ← List.append_assoc used]
  exact List.prefix_append (used ++ text) _

theorem prefix_set {used buf : List UInt8} (hused : used <+: buf) (hroom : used.length < buf.length) (b : UInt8) :
    used ++ [b] <+: buf.set used.length b := by
  obtain ⟨free, rfl⟩ := hused
  cases free with
  | nil => simp at hroom
  | cons c free =>
    rw [List.set_append_right _ _ (Nat.le_refl _), Nat.sub_self, List.set_cons_zero]
    exact ⟨free, List.append_assoc used [b] free⟩

/-- A text that fits is left behind what is used, and the separator behind it. What
    printing may have left behind the text is overwritten or not looked at. -/
theorem store_printed {used buf text out : List UInt8} {size : Nat} (hused : used <+: buf) (hout : text <+: out)
    (htext : text.length ≤ size) (hroom : used.length + size + 1 ≤ buf.length) :
    ∃ buf', store (printed buf used.length size out) (used.length + text.length) 0x0a = .ok buf' ∧
      buf'.length = buf.length ∧ used ++ (text ++ [0x0a]) <+: buf' := by
  have hlen : (printed buf used.length size out).length = buf.length := length_printed (by omega) out
  have hend : (used ++ text).length < (printed buf used.length size out).length := by
    rw [hlen, List.length_append]
    omega
  have hset := prefix_set (prefix_printed_text hused hout htext) hend 0x0a
  rw [List.length_append] at hend hset
  refine ⟨_, if_pos hend, List.length_set.trans hlen, ?_⟩
  rw [← List.append_assoc]
  exact hset

/-- The loop, from a buffer that starts with the lines of the headers kept so
    far: the lines of those that still fit follow. -/
theorem extract_headers_from_keep {hdrs : List pjsip_hdr} {hs : List Header}
    (hprints : List.Forall₂ PrintsHeader hdrs hs) {kept : List Header} {buf : List UInt8}
    (hkept : block kept <+: buf) :
    ∃ buf', extract_headers_from hdrs buf (block kept).length =
        .ok ((block (hs.foldl (keep buf.length) kept)).length, buf') ∧
      buf'.length = buf.length ∧ block (hs.foldl (keep buf.length) kept) <+: buf' := by
  induction hprints generalizing kept buf with
  | nil => exact ⟨buf, rfl, rfl, hkept⟩
  | @cons hdr h hdrs hs hprint _ ih =>
    rw [extract_headers_from, List.foldl_cons]
    by_cases htraced : hdr_is_traced hdr.name = true
    · rw [if_neg (by simp [htraced])]
      by_cases hfull : buf.length ≤ (block kept).length + 1
      · have hskip : keep buf.length kept h = kept := foldl_keep_of_full hfull [h]
        rw [if_pos hfull, hskip, foldl_keep_of_full hfull]
        exact ⟨buf, rfl, rfl, hkept⟩
      · rw [if_neg hfull]
        generalize hsize : buf.length - (block kept).length - 1 = size
        cases hrun : hdr.print_on size with | mk n out
        by_cases htext : (encode h.text).length ≤ size
        · have hfits : fits buf.length kept h = true :=
            fits_iff.mpr ⟨hprint.hdr_is_traced.symm.trans htraced, by omega⟩
          have hpos := encode_text_pos h
          obtain ⟨hn, hout⟩ := hprint.print_fits size htext
          rw [hrun] at hn hout
          subst hn
          obtain ⟨next, hstore, hnext, hline⟩ := store_printed hkept hout htext (by omega)
          rw [← block_concat] at hline
          have hrest := ih hline
          rw [hnext, block_concat, List.length_append, List.length_append, List.length_singleton,
            ← Nat.add_assoc] at hrest
          simp only [keep_of_fits hfits, hrun, Int.toNat_natCast, hstore]
          rw [if_neg (by omega)]
          exact hrest
        · have hskip : ¬fits buf.length kept h = true := by
            rw [fits_iff]
            omega
          have hn := hprint.print_too_long size (Nat.lt_of_not_le htext)
          rw [hrun] at hn
          have hrest := ih (prefix_printed hkept size out)
          rw [length_printed (by omega) out] at hrest
          simp only [keep_of_not_fits hskip, hrun, if_pos hn]
          exact hrest
    · have hskip : ¬fits buf.length kept h = true := by
        rw [fits_iff, ← hprint.hdr_is_traced]
        exact fun hfits => htraced hfits.1
      rw [if_pos (by simp [htraced]), keep_of_not_fits hskip]
      exact ih hkept

/-- What the other side makes of the headers that fit when they are reached: each
    name goes to its values joined in order. -/
theorem extract_headers_fitting {msg : pjsip_msg} {hs : List Header} (hprints : List.Forall₂ PrintsHeader msg.hdr hs)
    (buf : List UInt8) :
    ∃ n buf', extract_headers msg buf = .ok (n, buf') ∧ n ≤ buf.length ∧ buf'.length = buf.length ∧
      buf'.take n = block (fitting buf.length hs) ∧
      ∀ name, (parse_trace_headers (from_utf8_lossy (buf'.take n))).lookup name =
        joined (fitting buf.length hs) name := by
  obtain ⟨buf', hrun, hbuf', hprefix⟩ :=
    extract_headers_from_keep hprints (show block [] <+: buf from List.nil_prefix)
  have htake : buf'.take (block (fitting buf.length hs)).length = block (fitting buf.length hs) :=
    (List.prefix_iff_eq_take.mp hprefix).symm
  refine ⟨_, buf', hrun, hbuf' ▸ hprefix.length_le, hbuf', htake, ?_⟩
  intro name
  rw [← fitting, htake, block, from_utf8_lossy_encode]
  exact parse_trace_headers_lines _ name

/-- The headers that reach the other side are those on the allowlist that fit when
    they are reached: what is written is their lines, the parser sends each name to
    its values joined in order, a skipped header leaves no trace, and one that fits
    is kept whichever were skipped before it. The headers are any that PJSIP prints
    as lines of text, and the buffer has any size, down to none. -/
theorem trace_headers_survive {msg : pjsip_msg} {hs : List Header} (hprints : List.Forall₂ PrintsHeader msg.hdr hs)
    (buf : List UInt8) :
    (∃ n buf', extract_headers msg buf = .ok (n, buf') ∧ n ≤ buf.length ∧ buf'.length = buf.length ∧
      buf'.take n = block (fitting buf.length hs) ∧
      ∀ name, (parse_trace_headers (from_utf8_lossy (buf'.take n))).lookup name =
        joined (fitting buf.length hs) name) ∧
    ∀ before h after, hs = before ++ h :: after →
      if fits buf.length (fitting buf.length before) h then
        fitting buf.length before ++ [h] <+: fitting buf.length hs
      else fitting buf.length hs = fitting buf.length (before ++ after) := by
  constructor
  · exact extract_headers_fitting hprints buf
  · intro before h after hsplit
    subst hsplit
    split
    · rename_i hfits
      exact fitting_of_fits hfits after
    · rename_i hfits
      exact fitting_of_not_fits hfits after

/-- Prints a text where it fits. -/
def print_text (text : List Char) : Print := fun size =>
  if (encode text).length ≤ size then ((encode text).length, encode text) else (-1, [])

theorem print_text_within (text : List Char) : (print_text text).Within := by
  intro size
  rw [print_text]
  split
  · rename_i hsize
    exact Int.ofNat_le.mpr hsize
  · exact (Int.negSucc_lt_zero 0).le.trans (Int.natCast_nonneg size)

/-- A header that prints as it is assumed to. -/
def printed_hdr (h : Header) (body : HdrBody) : pjsip_hdr where
  name := { bytes := encode h.name }
  body
  print_on := print_text h.text

theorem printed_hdr_prints (h : Header) (body : HdrBody) : PrintsHeader (printed_hdr h body) h where
  name := rfl
  print_fits size hsize := by
    simp only [printed_hdr, print_text, if_pos hsize]
    exact ⟨trivial, List.prefix_refl _⟩
  print_too_long size hsize := by
    simp only [printed_hdr, print_text, if_neg (Nat.not_le_of_lt hsize)]
    decide

/-- Headers of which only the text is read. -/
def printed_hdrs (hs : List Header) : List pjsip_hdr := hs.map (printed_hdr · .other)

theorem printed_hdrs_print (hs : List Header) : List.Forall₂ PrintsHeader (printed_hdrs hs) hs := by
  induction hs with
  | nil => exact List.Forall₂.nil
  | cons h hs ih => exact List.Forall₂.cons (printed_hdr_prints h .other) ih

def to_hdr : Header where
  name := ['T', 'o']
  value := ['é']
  name_ne_nil := List.cons_ne_nil _ _
  name_plain := by simp
  value_plain := by simp
  name_trimmed := by simp [Trimmed, is_whitespace]
  value_trimmed := by simp [Trimmed, is_whitespace]

def from_hdr : Header where
  name := ['F', 'r', 'o', 'm']
  value := ['s', 'i', 'p', ':', 'b', 'o', 'b', '@', 'b']
  name_ne_nil := List.cons_ne_nil _ _
  name_plain := by simp
  value_plain := by simp
  name_trimmed := by simp [Trimmed, is_whitespace]
  value_trimmed := by simp [Trimmed, is_whitespace]

/-- The second header does not fit behind the first, and the third does. -/
theorem trace_headers_survive_skipped :
    ∃ n buf', extract_headers
        { line := .status 480 ⟨[], []⟩, hdr := printed_hdrs [to_hdr, from_hdr, to_hdr], body := none }
        (List.replicate 20 0) = .ok (n, buf') ∧ n ≤ 20 ∧
      (parse_trace_headers (from_utf8_lossy (buf'.take n))).lookup ['T', 'o'] = some ['é', ',', ' ', 'é'] ∧
      (parse_trace_headers (from_utf8_lossy (buf'.take n))).lookup ['F', 'r', 'o', 'm'] = none := by
  obtain ⟨⟨n, buf', hrun, hn, -, -, hlookup⟩, -⟩ := trace_headers_survive
    (show List.Forall₂ PrintsHeader (pjsip_msg.mk (.status 480 ⟨[], []⟩) _ none).hdr [to_hdr, from_hdr, to_hdr]
      from printed_hdrs_print _) (List.replicate 20 0)
  refine ⟨n, buf', hrun, hn, (hlookup _).trans ?_, (hlookup _).trans ?_⟩
  · decide +kernel
  · decide +kernel

end pjsua_rust.trace_module
