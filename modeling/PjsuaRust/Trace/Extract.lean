import PjsuaRust.Trace.Event
import PjsuaRust.Trace.Headers

open pjsua_rust.event

namespace pjsua_rust.trace_module

/-- The buffers on the stack of `extract_and_trace`, with what is there before
    they are filled. -/
structure Locals where
  mos_buf : List UInt8
  sdp_buf : List UInt8
  hdr_buf : List UInt8
  length_mos_buf : mos_buf.length = 128
  length_sdp_buf : sdp_buf.length = 4096
  length_hdr_buf : hdr_buf.length = 1024

/-- The text of a status line: `"%d %.*s"` of the code and the reason. -/
def status_text (code : Int) (reason : pj_str_t) : List UInt8 :=
  fmt_d code ++ 0x20 :: fmt_s_prec reason.bytes reason.tail

/-- The method of a request, or the status of a response, in `mos_buf`, with
    `mos_len`. -/
def method_or_status (line : MsgLine) (mos_buf : List UInt8) : Except Fault (List UInt8 × Int) :=
  match line with
  | .req method => do
    let mos_len := min method.name.bytes.length (mos_buf.length - 1)
    let mos_buf ← pj_memcpy mos_buf 0 (method.name.bytes.take mos_len)
    let mos_buf ← store mos_buf mos_len 0
    return (mos_buf, mos_len)
  | .status code reason =>
    let (text, n) := pj_ansi_snprintf mos_buf.length (status_text code reason)
    .ok (printed mos_buf 0 mos_buf.length (text ++ [0]), if n < 0 then 0 else n)

/-- The body of a message in `sdp_buf`, or a null pointer if nothing was printed. -/
def sdp_body (body : Option Print) (sdp_buf : List UInt8) : Range :=
  match body with
  | none => { ptr := none, len := 0 }
  | some print_body =>
    let (n, text) := print_body sdp_buf.length
    if 0 < n then { ptr := some (printed sdp_buf 0 sdp_buf.length text), len := n }
    else { ptr := none, len := 0 }

/-- The arguments with which `extract_and_trace` calls `rust_sip_trace_on_msg`. -/
def extract_and_trace (msg : pjsip_msg) (is_outgoing : Bool) (raw : Range) (locals : Locals) :
    Except Fault TraceCall := do
  let (mos_buf, mos_len) ← method_or_status msg.line locals.mos_buf
  let sip_call_id := match find_call_id msg with
    | none => { ptr := none, len := 0 }
    | some id => { ptr := some id.bytes, len := c_int id.bytes.length }
  let sdp_body := sdp_body msg.body locals.sdp_buf
  let (hdr_len, hdr_buf) ← extract_headers msg locals.hdr_buf
  return {
    is_outgoing
    method_or_status := { ptr := some mos_buf, len := mos_len }
    sip_call_id
    sdp_body
    headers := { ptr := some hdr_buf, len := hdr_len }
    raw }

/-- An outgoing REGISTER, printed by `pjsip_msg_print` into the buffer kept for
    that. -/
def trace_tx_register (msg : pjsip_msg) (pjsip_msg_print : Print) (raw_buf : List UInt8) (locals : Locals) :
    Except Fault TraceCall :=
  let (n, text) := pjsip_msg_print raw_buf.length
  if 0 < n then
    extract_and_trace msg true { ptr := some (printed raw_buf 0 raw_buf.length text), len := n } locals
  else extract_and_trace msg true { ptr := none, len := 0 } locals

def trace_tx (msg : pjsip_msg) (pjsip_msg_print : Print) (raw_buf : List UInt8) (locals : Locals) :
    Except Fault TraceCall :=
  if is_register_msg msg then trace_tx_register msg pjsip_msg_print raw_buf locals
  else extract_and_trace msg true { ptr := none, len := 0 } locals

/-- An incoming message, with the text as it arrived. -/
def trace_rx (msg : pjsip_msg) (msg_buf : List UInt8) (len : Int) (locals : Locals) : Except Fault TraceCall :=
  if is_register_msg msg then extract_and_trace msg false { ptr := some msg_buf, len } locals
  else extract_and_trace msg false { ptr := none, len := 0 } locals

/-- What PJSIP sees to: bodies and headers are printed within the space given. -/
structure pjsip_msg.Prints (msg : pjsip_msg) : Prop where
  body : ∀ print_body ∈ msg.body, print_body.Within
  hdr : ∀ hdr ∈ msg.hdr, hdr.print_on.Within

/-- The length of the text of the line is no more than `mos_buf` holds, or no
    `int`: only the text of a status line can be longer. -/
def MsgLine.Fits : MsgLine → Prop
  | .req _ => True
  | .status code reason => (status_text code reason).length ≤ 128 ∨ 2 ^ 31 ≤ (status_text code reason).length

theorem c_int_le (n : Nat) : c_int n ≤ n := by
  rw [c_int, Int.bmod_def]
  split <;> omega

/-- The line is printed without a fault in each case; its length is within the
    buffer exactly if the message is a request or its status line fits. -/
theorem method_or_status_ok (line : MsgLine) {mos_buf : List UInt8} (hlength : mos_buf.length = 128) :
    ∃ buf len, method_or_status line mos_buf = .ok (buf, len) ∧ buf.length = 128 ∧ (len ≤ 128 ↔ line.Fits) := by
  cases line with
  | req method =>
    obtain ⟨copied, hcopy, hcopied⟩ : ∃ copied, pj_memcpy mos_buf 0
        (method.name.bytes.take (min method.name.bytes.length (mos_buf.length - 1))) = .ok copied ∧
        copied.length = 128 := by
      have hcopy := pj_memcpy_eq (show (method.name.bytes.take (min method.name.bytes.length
        (mos_buf.length - 1))).length ≤ mos_buf.length by rw [List.length_take]; omega)
      exact ⟨_, hcopy, (length_of_pj_memcpy hcopy).trans hlength⟩
    obtain ⟨buf, hstore, hbuf⟩ := store_ok
      (show min method.name.bytes.length (mos_buf.length - 1) < copied.length by omega) 0
    refine ⟨buf, ↑(min method.name.bytes.length (mos_buf.length - 1)), ?_, hbuf.trans hcopied, ?_⟩
    · simp only [method_or_status, hcopy, hstore, pure, Except.pure, bind, Except.bind]
    · simp only [MsgLine.Fits, iff_true]
      omega
  | status code reason =>
    refine ⟨_, _, rfl, (length_printed (by omega) _).trans hlength, ?_⟩
    simp only [MsgLine.Fits]
    split <;> split <;> omega

/-- The body is within its buffer: what does not fit prints nothing. Of the printer
    it is assumed that it returns no more than it was given room for. -/
theorem sdp_body_inside {body : Option Print} (hwithin : ∀ print_body ∈ body, print_body.Within)
    (sdp_buf : List UInt8) : (sdp_body body sdp_buf).Inside := by
  cases body with
  | none => exact fun buf h => by cases h
  | some print_body =>
    have hprint := hwithin print_body rfl sdp_buf.length
    simp only [sdp_body]
    split
    · intro buf hbuf
      cases hbuf
      rw [length_printed (by omega)]
      exact hprint
    · exact fun buf h => by cases h

/-- The call id is passed on where PJSIP keeps it. A length beyond a signed integer
    is wrapped to a smaller one, so that nothing behind the text is read. -/
theorem call_id_inside (msg : pjsip_msg) :
    (match find_call_id msg with
      | none => ({ ptr := none, len := 0 } : Range)
      | some id => { ptr := some id.bytes, len := c_int id.bytes.length }).Inside := by
  split
  · exact fun buf h => by cases h
  · rename_i id _
    intro buf hbuf
    cases hbuf
    have hle := c_int_le id.bytes.length
    dsimp only
    exact hle

/-- Of all that is passed on, only the text of a status line can be longer than
    its buffer. -/
theorem extract_and_trace_ok {msg : pjsip_msg} (hprints : msg.Prints) (is_outgoing : Bool) {raw : Range}
    (hraw : raw.Inside) (locals : Locals) :
    ∃ call, extract_and_trace msg is_outgoing raw locals = .ok call ∧ (call.Inside ↔ msg.line.Fits) := by
  obtain ⟨mos_buf, mos_len, hmos, hlength, hfits⟩ := method_or_status_ok msg.line locals.length_mos_buf
  obtain ⟨hdr_len, hdr_buf, hheaders, hused, hhdr⟩ :=
    extract_headers_from_ok hprints.hdr (Nat.zero_le locals.hdr_buf.length)
  have hcid := call_id_inside msg
  simp only [extract_and_trace, extract_headers, hmos, hheaders, pure, Except.pure, bind, Except.bind]
  refine ⟨_, rfl, ?_⟩
  constructor
  · intro hinside
    have hmos_inside := hinside.method_or_status mos_buf rfl
    rw [hlength] at hmos_inside
    exact hfits.mp hmos_inside
  · intro hline
    refine ⟨fun buf hbuf => ?_, hcid, sdp_body_inside hprints.body _, fun buf hbuf => ?_, hraw⟩
    · cases hbuf
      rw [hlength]
      exact hfits.mpr hline
    · cases hbuf
      dsimp only
      omega

/-- For every message, each range that is passed on lies within its buffer, and Rust
    reads within it, exactly if the message is a request or the text of its status
    line is no longer than `mos_buf`. What PJSIP prints, and the raw text, are
    assumed to lie within their own buffers; the headers, the body and the locals
    that the buffers start with are arbitrary. -/
theorem traced_inside_iff {msg : pjsip_msg} (hprints : msg.Prints) (is_outgoing : Bool) {raw : Range}
    (hraw : raw.Inside) (locals : Locals) :
    ∃ call, extract_and_trace msg is_outgoing raw locals = .ok call ∧ (call.Inside ↔ msg.line.Fits) ∧
      ((∃ ev, rust_sip_trace_on_msg call = .ok ev) ↔ msg.line.Fits) := by
  obtain ⟨call, hcall, hinside⟩ := extract_and_trace_ok hprints is_outgoing hraw locals
  refine ⟨call, hcall, hinside, ?_⟩
  rw [rust_sip_trace_on_msg_ok_iff, hinside]

/-- Buffers that were never used. -/
def Locals.zero : Locals where
  mos_buf := List.replicate 128 0
  sdp_buf := List.replicate 4096 0
  hdr_buf := List.replicate 1024 0
  length_mos_buf := List.length_replicate
  length_sdp_buf := List.length_replicate
  length_hdr_buf := List.length_replicate

/-- A response with neither headers nor a body. -/
def response (code : Int) (reason : List UInt8) : pjsip_msg where
  line := .status code { bytes := reason }
  hdr := []
  body := none

theorem response_prints (code : Int) (reason : List UInt8) : (response code reason).Prints where
  body _ h := by cases h
  hdr _ h := by cases h

theorem no_raw_inside : ({ ptr := none, len := 0 } : Range).Inside := fun _ h => by cases h

def cseq_hdr : Header where
  name := ['C', 'S', 'e', 'q']
  value := ['7', ' ', 'R', 'E', 'G', 'I', 'S', 'T', 'E', 'R']
  name_ne_nil := List.cons_ne_nil _ _
  name_plain := by simp
  value_plain := by simp
  name_trimmed := by simp [Trimmed, is_whitespace]
  value_trimmed := by simp [Trimmed, is_whitespace]

def call_id_hdr : Header where
  name := ['C', 'a', 'l', 'l', '-', 'I', 'D']
  value := ['1', '@', 'b']
  name_ne_nil := List.cons_ne_nil _ _
  name_plain := by simp
  value_plain := by simp
  name_trimmed := by simp [Trimmed, is_whitespace]
  value_trimmed := by simp [Trimmed, is_whitespace]

/-- The answer to a REGISTER, with headers and a body. -/
def registered_msg : pjsip_msg where
  line := .status 200 { bytes := c_str "OK" }
  hdr := [
    printed_hdr cseq_hdr (.cseq { id := .PJSIP_REGISTER_METHOD, name := { bytes := c_str "REGISTER" } }),
    printed_hdr call_id_hdr (.call_id { bytes := encode call_id_hdr.value }),
    printed_hdr to_hdr .other, printed_hdr from_hdr .other]
  body := some (print_text ['v', '=', '0'])

/-- Its text as it arrived, or the start of that. -/
def registered_text : List Char := ['S', 'I', 'P', '/', '2', '.', '0', ' ', '2', '0', '0', ' ', 'O', 'K']

def registered_raw : Range := { ptr := some (encode registered_text), len := 14 }

theorem registered_prints : registered_msg.Prints where
  body _ h := by
    cases h
    exact print_text_within _
  hdr hdr h := by
    simp only [registered_msg, List.mem_cons, List.not_mem_nil, or_false] at h
    rcases h with rfl | rfl | rfl | rfl <;> exact print_text_within _

/-- A response with headers, a body and its raw text, whose status line fits. All of
    it is passed on. -/
theorem traced_inside_iff_ok :
    registered_msg.line.Fits ∧
      ∃ call, extract_and_trace registered_msg false registered_raw .zero = .ok call ∧
        call.sip_call_id.len = 3 ∧ call.sdp_body.len = 3 ∧ call.headers.len = 23 ∧ call.raw.len = 14 ∧
        (call.Inside ↔ registered_msg.line.Fits) ∧
        ((∃ ev, rust_sip_trace_on_msg call = .ok ev) ↔ registered_msg.line.Fits) := by
  have hraw : registered_raw.Inside := by
    intro buf hbuf
    cases hbuf
    decide +kernel
  obtain ⟨call, hcall, hinside, hread⟩ := traced_inside_iff registered_prints false hraw .zero
  have hlens : (extract_and_trace registered_msg false registered_raw .zero).toOption.map
      (fun call => (call.sip_call_id.len, call.sdp_body.len, call.headers.len, call.raw.len)) =
      some (3, 3, 23, 14) := by decide +kernel
  rw [hcall] at hlens
  simp only [Except.toOption, Option.map_some, Option.some.injEq, Prod.mk.injEq] at hlens
  obtain ⟨hcid, hsdp, hheaders, hlen⟩ := hlens
  exact ⟨.inl (by decide +kernel), call, hcall, hcid, hsdp, hheaders, hlen, hinside, hread⟩

/-- A reason phrase of 125 bytes is one too many: with the three digits and the
    blank in front the line has one byte more than its buffer. -/
theorem not_traced_inside :
    ¬ ∀ (msg : pjsip_msg) (is_outgoing : Bool) (raw : Range) (locals : Locals), msg.Prints → raw.Inside →
      ∃ call, extract_and_trace msg is_outgoing raw locals = .ok call ∧ call.Inside ∧
        ∃ ev, rust_sip_trace_on_msg call = .ok ev := by
  intro hclaim
  have hprints := response_prints 480 (List.replicate 125 0x61)
  obtain ⟨call, hcall, hinside, -⟩ := hclaim _ false _ .zero hprints no_raw_inside
  obtain ⟨call', hcall', hiff⟩ := extract_and_trace_ok hprints false no_raw_inside .zero
  rw [hcall] at hcall'
  cases hcall'
  have hlength : (status_text 480 { bytes := List.replicate 125 0x61 }).length = 129 := by decide +kernel
  rcases hiff.mp hinside with hshort | hlong
  · rw [hlength] at hshort
    exact absurd hshort (by decide)
  · rw [hlength] at hlong
    exact absurd hlong (by decide)

/-- Whether it is sent or received, and whether its text goes with it, all that
    is passed on for a message is within its buffers if its status line is. -/
theorem trace_tx_inside {msg : pjsip_msg} (hprints : msg.Prints) (hfits : msg.line.Fits) {pjsip_msg_print : Print}
    (hprint : pjsip_msg_print.Within) (raw_buf : List UInt8) (locals : Locals) :
    ∃ call, trace_tx msg pjsip_msg_print raw_buf locals = .ok call ∧ call.Inside := by
  have htraced {raw : Range} (hraw : raw.Inside) :
      ∃ call, extract_and_trace msg true raw locals = .ok call ∧ call.Inside := by
    obtain ⟨call, hcall, hinside⟩ := extract_and_trace_ok hprints true hraw locals
    exact ⟨call, hcall, hinside.mpr hfits⟩
  have hwithin := hprint raw_buf.length
  unfold trace_tx trace_tx_register
  split
  · cases hprinted : pjsip_msg_print raw_buf.length with | mk n text
    rw [hprinted] at hwithin
    dsimp only
    split
    · refine htraced fun buf hbuf => ?_
      cases hbuf
      rw [length_printed (by omega)]
      exact hwithin
    · exact htraced no_raw_inside
  · exact htraced no_raw_inside

/-- A message that arrives is traced within its buffers, with the packet as its raw
    text. -/
theorem trace_rx_inside {msg : pjsip_msg} (hprints : msg.Prints) (hfits : msg.line.Fits) {msg_buf : List UInt8}
    {len : Int} (hlen : len ≤ msg_buf.length) (locals : Locals) :
    ∃ call, trace_rx msg msg_buf len locals = .ok call ∧ call.Inside := by
  have htraced {raw : Range} (hraw : raw.Inside) :
      ∃ call, extract_and_trace msg false raw locals = .ok call ∧ call.Inside := by
    obtain ⟨call, hcall, hinside⟩ := extract_and_trace_ok hprints false hraw locals
    exact ⟨call, hcall, hinside.mpr hfits⟩
  unfold trace_rx
  split
  · refine htraced fun buf hbuf => ?_
    cases hbuf
    exact hlen
  · exact htraced no_raw_inside

end pjsua_rust.trace_module
