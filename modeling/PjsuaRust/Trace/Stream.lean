import PjsuaRust.App.Events
import PjsuaRust.Trace.Extract
import PjsuaRust.Trace.Headers

open transition pjsua_rust.event pjsua_rust.pjsua_app

namespace pjsua_rust.trace_module

/-- What a message says, as text. -/
structure SipText where
  line : List Char
  call_id : List Char
  body : Option (List Char)
  headers : List Header
  raw : Option (List Char)

/-- A print into `size` bytes leaves this text there, or nothing. -/
def Print.Says (print : Print) (size : Nat) : Option (List Char) → Prop
  | none => (print size).1 ≤ 0
  | some text =>
    text ≠ [] ∧ (encode text).length ≤ size ∧ (print size).1 = (encode text).length ∧ encode text <+: (print size).2

/-- How a message passes the module: to be sent, or with the text as it arrived. -/
inductive Passing where
  | tx (pjsip_msg_print : Print) (raw_buf : List UInt8)
  | rx (msg_buf : List UInt8) (len : Int)

def Passing.direction : Passing → TraceDirection
  | .tx .. => .Sent
  | .rx .. => .Received

def Passing.Says : Passing → Option (List Char) → Prop
  | .tx pjsip_msg_print raw_buf, raw => pjsip_msg_print.Says raw_buf.length raw
  | .rx msg_buf len, raw =>
    ∃ text, raw = some text ∧ text ≠ [] ∧ len = (encode text).length ∧ encode text <+: msg_buf

/-- The method of a request, or the code and the reason of a response. -/
def MsgLine.bytes : MsgLine → List UInt8
  | .req method => method.name.bytes
  | .status code reason => status_text code reason

/-- The message is made of the texts, each in UTF-8. Only for a REGISTER does its
    own text matter. -/
structure Says (msg : pjsip_msg) (passing : Passing) (text : SipText) : Prop where
  line : msg.line.bytes = encode text.line
  length_line : (encode text.line).length ≤ 127
  call_id : ((find_call_id msg).map pj_str_t.bytes).getD [] = encode text.call_id
  length_call_id : (encode text.call_id).length < 2 ^ 31
  body : msg.body.elim (text.body = none) fun print_body => print_body.Says 4096 text.body
  headers : List.Forall₂ PrintsHeader msg.hdr text.headers
  raw : if is_register_msg msg then passing.Says text.raw else text.raw = none

/-- The event tells what the message says: all of it but for headers that did not
    fit. -/
structure Tells (passing : Passing) (text : SipText) (trace : SipMessageTrace) : Prop where
  direction : trace.info.direction = passing.direction
  method_or_status : trace.info.method_or_status = text.line
  sip_call_id : trace.info.sip_call_id = text.call_id
  sdp : trace.info.sdp = text.body
  headers : ∀ name, trace.info.headers.lookup name = joined (fitting 1024 text.headers) name
  raw : trace.info.raw = text.raw

theorem encode_ne_nil {text : List Char} (hne : text ≠ []) : encode text ≠ [] := by
  intro hnil
  apply hne
  rw [← from_utf8_lossy_encode text, hnil]
  rfl

/-- A range that starts with a text, and is as long. An empty text comes out as
    none, which the callers that need one take for empty. -/
theorem slice_text {ptr : List UInt8} {text : List Char} (hprinted : encode text <+: ptr) :
    ∃ s, ({ ptr := some ptr, len := (encode text).length } : Range).slice = .ok s ∧
      (s.map from_utf8_lossy).getD [] = text ∧ (text ≠ [] → s.map from_utf8_lossy = some text) := by
  by_cases hnil : text = []
  · subst hnil
    exact ⟨none, rfl, rfl, fun h => absurd rfl h⟩
  · have hpos := List.length_pos_iff.mpr (encode_ne_nil hnil)
    refine ⟨some (encode text), ?_, ?_, fun _ => ?_⟩
    · rw [Range.slice]
      dsimp only
      rw [if_neg (by omega), Int.toNat_natCast, read_bytes_eq hprinted.length_le, ← List.prefix_iff_eq_take.mp hprinted]
      rfl
    · rw [Option.map_some, from_utf8_lossy_encode, Option.getD_some]
    · rw [Option.map_some, from_utf8_lossy_encode]

/-- What is printed at the start of a buffer is what the buffer begins with. -/
theorem prefix_printed_start {text out buf : List UInt8} {size : Nat} (hout : text <+: out)
    (hsize : text.length ≤ size) : text <+: printed buf 0 size out :=
  prefix_printed_text List.nil_prefix hout hsize

/-- What is in `mos_buf` is the line, if that is short enough. A method is cut at
    the end of the buffer, and a status line that does not fit would be given a
    length beyond it; with at most 127 bytes neither happens. -/
theorem method_or_status_text {line : MsgLine} {text : List Char} (hline : line.bytes = encode text)
    (hlength : (encode text).length ≤ 127) {mos_buf : List UInt8} (hbuf : mos_buf.length = 128) :
    ∃ buf, method_or_status line mos_buf = .ok (buf, (encode text).length) ∧ encode text <+: buf := by
  cases line with
  | req method =>
    rw [MsgLine.bytes] at hline
    have hmin : min method.name.bytes.length (mos_buf.length - 1) = (encode text).length := by
      rw [hline, hbuf]
      omega
    have htake : method.name.bytes.take (encode text).length = encode text := by
      rw [hline, List.take_length]
    have hcopy := pj_memcpy_eq (show (encode text).length ≤ mos_buf.length by omega)
    have hstore : store (encode text ++ mos_buf.drop (encode text).length) (encode text).length 0 =
        .ok ((encode text ++ mos_buf.drop (encode text).length).set (encode text).length 0) := by
      apply if_pos
      rw [List.length_append, List.length_drop]
      omega
    refine ⟨(encode text ++ mos_buf.drop (encode text).length).set (encode text).length 0, ?_, ?_⟩
    · simp only [method_or_status, hmin, htake, hcopy, hstore, bind, Except.bind, pure, Except.pure]
    · rw [List.set_append_right _ _ (Nat.le_refl _)]
      exact List.prefix_append _ _
  | status code reason =>
    rw [MsgLine.bytes] at hline
    have hreturned : (if (encode text).length < 2 ^ 31 then ((encode text).length : Int) else -1) =
        (encode text).length := if_pos (by omega)
    refine ⟨printed mos_buf 0 mos_buf.length (encode text ++ [0]), ?_, ?_⟩
    · simp only [method_or_status, pj_ansi_snprintf, hline, hbuf, hreturned]
      rw [List.take_of_length_le (by omega), if_neg (by omega)]
    · exact prefix_printed_start (List.prefix_append _ _) (by omega)

/-- What a print says is passed on, and nothing where it says nothing. A printer
    that fails and one that prints nothing are not told apart. -/
theorem sdp_body_text {body : Option Print} {text : Option (List Char)} {sdp_buf : List UInt8}
    (hreads : body.elim (text = none) fun print_body => print_body.Says sdp_buf.length text) :
    ∃ s, (sdp_body body sdp_buf).slice = .ok s ∧ s.map from_utf8_lossy = text := by
  cases body with
  | none => exact ⟨none, rfl, Eq.symm hreads⟩
  | some print_body =>
    cases text with
    | none =>
      have hnone : ¬0 < (print_body sdp_buf.length).1 := Int.not_lt.mpr hreads
      refine ⟨none, ?_, rfl⟩
      simp only [sdp_body, if_neg hnone]
      rfl
    | some text =>
      obtain ⟨hne, hsize, hn, hout⟩ := hreads
      obtain ⟨s, hslice, -, htext⟩ := slice_text (prefix_printed_start hout hsize)
      refine ⟨s, ?_, htext hne⟩
      have hpos := List.length_pos_iff.mpr (encode_ne_nil hne)
      rw [← hslice]
      simp only [sdp_body, hn]
      rw [if_pos (by omega)]

/-- The text behind a Call-ID header; without one there is none. The bytes are
    passed on as they are, so their number must fit a signed integer. -/
theorem call_id_text {msg : pjsip_msg} {text : List Char}
    (hreads : ((find_call_id msg).map pj_str_t.bytes).getD [] = encode text) (hint : (encode text).length < 2 ^ 31) :
    ∃ (r : Range) (s : Option (List UInt8)), r.slice = .ok s ∧ (s.map from_utf8_lossy).getD [] = text ∧
      (find_call_id msg = none ∧ r = { ptr := none, len := 0 } ∨
        ∃ id, find_call_id msg = some id ∧ r = { ptr := some id.bytes, len := c_int id.bytes.length }) := by
  cases hid : find_call_id msg with
  | none =>
    rw [hid] at hreads
    refine ⟨_, none, rfl, ?_, .inl ⟨rfl, rfl⟩⟩
    rw [← from_utf8_lossy_encode text, ← hreads]
    rfl
  | some id =>
    rw [hid, Option.map_some, Option.getD_some] at hreads
    have hlen : c_int id.bytes.length = (encode text).length := by
      rw [hreads, c_int, Int.bmod_def]
      split <;> omega
    obtain ⟨s, hslice, htext, -⟩ := slice_text (show encode text <+: id.bytes from hreads ▸ List.prefix_refl _)
    exact ⟨_, s, hlen ▸ hslice, htext, .inr ⟨id, rfl, rfl⟩⟩

/-- The block of headers is read back as far as it was written. An empty block is no
    slice at all, and parses as no headers. -/
theorem headers_slice {hdr_buf : List UInt8} {n : Nat} (hn : n ≤ hdr_buf.length) :
    ∃ s, ({ ptr := some hdr_buf, len := n } : Range).slice = .ok s ∧
      (s.map fun bytes => parse_trace_headers (from_utf8_lossy bytes)).getD [] =
        parse_trace_headers (from_utf8_lossy (hdr_buf.take n)) := by
  rw [Range.slice]
  dsimp only
  by_cases hzero : n = 0
  · subst hzero
    exact ⟨none, rfl, rfl⟩
  · rw [if_neg (by omega), Int.toNat_natCast, read_bytes_eq hn]
    exact ⟨_, rfl, rfl⟩

/-- From the message to the event: what Rust makes of what C passes on is what the
    message says. -/
theorem extract_and_trace_tells {msg : pjsip_msg} {passing : Passing} {text : SipText} (hreads : Says msg passing text)
    {is_outgoing : Bool} (hdirection : (if is_outgoing then .Sent else .Received) = passing.direction) {raw : Range}
    (hraw : ∃ s, raw.slice = .ok s ∧ s.map from_utf8_lossy = text.raw) (locals : Locals) :
    ∃ call trace, extract_and_trace msg is_outgoing raw locals = .ok call ∧ rust_sip_trace_on_msg call = .ok trace ∧
      Tells passing text trace := by
  obtain ⟨mos_buf, hmos, hprinted⟩ := method_or_status_text hreads.line hreads.length_line locals.length_mos_buf
  obtain ⟨mos, hmos_slice, hline, -⟩ := slice_text hprinted
  obtain ⟨call_id, cid, hcid_slice, hcid, hfound⟩ := call_id_text hreads.call_id hreads.length_call_id
  obtain ⟨sdp, hsdp_slice, hsdp⟩ := sdp_body_text (locals.length_sdp_buf.symm ▸ hreads.body)
  obtain ⟨n, hdr_buf, hheaders, hn, hlength, -, hlookup⟩ := extract_headers_fitting hreads.headers locals.hdr_buf
  obtain ⟨hdr, hhdr_slice, hhdr⟩ := headers_slice (hlength.symm ▸ hn)
  obtain ⟨r, hraw_slice, hr⟩ := hraw
  have hcall : extract_and_trace msg is_outgoing raw locals = .ok {
      is_outgoing
      method_or_status := { ptr := some mos_buf, len := (encode text.line).length }
      sip_call_id := call_id
      sdp_body := sdp_body msg.body locals.sdp_buf
      headers := { ptr := some hdr_buf, len := n }
      raw } := by
    rcases hfound with ⟨hnone, rfl⟩ | ⟨id, hid, rfl⟩
    · simp only [extract_and_trace, hmos, hheaders, hnone, bind, Except.bind, pure, Except.pure]
    · simp only [extract_and_trace, hmos, hheaders, hid, bind, Except.bind, pure, Except.pure]
  refine ⟨_, {
    call_id := -1
    account_id := -1
    info := {
      direction := if is_outgoing then .Sent else .Received
      method_or_status := text.line
      sip_call_id := text.call_id
      sdp := text.body
      headers := parse_trace_headers (from_utf8_lossy (hdr_buf.take n))
      raw := text.raw } }, hcall, ?_, hdirection, rfl, rfl, rfl, fun name => ?_, rfl⟩
  · simp only [rust_sip_trace_on_msg, hmos_slice, hcid_slice, hsdp_slice, hhdr_slice, hraw_slice, bind, Except.bind, pure,
      Except.pure, hline, hcid, hsdp, hhdr, hr]
  · rw [hlookup, locals.length_hdr_buf]

/-- A message that passes the module, whatever it is made of. -/
structure SipMessage where
  msg : pjsip_msg
  passing : Passing
  locals : Locals

/-- One of the module's four callbacks, down to the event. Whatever becomes of that,
    the message goes on to the other modules. -/
def SipMessage.trace (m : SipMessage) : Except Fault SipMessageTrace :=
  match m.passing with
  | .tx pjsip_msg_print raw_buf => trace_tx m.msg pjsip_msg_print raw_buf m.locals >>= rust_sip_trace_on_msg
  | .rx msg_buf len => trace_rx m.msg msg_buf len m.locals >>= rust_sip_trace_on_msg

/-- The text of an outgoing REGISTER is passed on as a body is. -/
theorem trace_tx_register_eq (msg : pjsip_msg) (pjsip_msg_print : Print) (raw_buf : List UInt8) (locals : Locals) :
    trace_tx_register msg pjsip_msg_print raw_buf locals =
      extract_and_trace msg true (sdp_body (some pjsip_msg_print) raw_buf) locals := by
  simp only [trace_tx_register, sdp_body]
  split <;> rfl

theorem no_raw_slice : ∃ s, ({ ptr := none, len := 0 } : Range).slice = .ok s ∧ s.map from_utf8_lossy = none :=
  ⟨none, rfl, rfl⟩

/-- The module gets through a message that is made of texts, and its event tells
    them. -/
theorem SipMessage.trace_tells (m : SipMessage) {text : SipText} (hreads : Says m.msg m.passing text) :
    ∃ trace, m.trace = .ok trace ∧ Tells m.passing text trace := by
  obtain ⟨msg, passing, locals⟩ := m
  have hraw := hreads.raw
  dsimp only [SipMessage.trace] at hreads hraw ⊢
  cases passing with
  | tx pjsip_msg_print raw_buf =>
    have hdirection : (if true then TraceDirection.Sent else .Received) = .Sent := rfl
    by_cases hregister : is_register_msg msg = true
    · rw [if_pos hregister] at hraw
      have hprinted : (some pjsip_msg_print).elim (text.raw = none) fun print => print.Says raw_buf.length text.raw :=
        hraw
      obtain ⟨call, trace, hcall, htrace, htells⟩ :=
        extract_and_trace_tells hreads hdirection (sdp_body_text hprinted) locals
      refine ⟨trace, ?_, htells⟩
      simp only [trace_tx, if_pos hregister, trace_tx_register_eq, hcall, bind, Except.bind]
      exact htrace
    · rw [if_neg hregister] at hraw
      obtain ⟨call, trace, hcall, htrace, htells⟩ :=
        extract_and_trace_tells hreads hdirection (hraw ▸ no_raw_slice) locals
      refine ⟨trace, ?_, htells⟩
      simp only [trace_tx, if_neg hregister, hcall, bind, Except.bind]
      exact htrace
  | rx msg_buf len =>
    have hdirection : (if false then TraceDirection.Sent else .Received) = .Received := rfl
    by_cases hregister : is_register_msg msg = true
    · rw [if_pos hregister] at hraw
      obtain ⟨t, ht, hne, rfl, hprinted⟩ := hraw
      obtain ⟨bytes, hslice, -, hbytes⟩ := slice_text hprinted
      obtain ⟨call, trace, hcall, htrace, htells⟩ :=
        extract_and_trace_tells hreads hdirection ⟨bytes, hslice, (hbytes hne).trans ht.symm⟩ locals
      refine ⟨trace, ?_, htells⟩
      simp only [trace_rx, if_pos hregister, hcall, bind, Except.bind]
      exact htrace
    · rw [if_neg hregister] at hraw
      obtain ⟨call, trace, hcall, htrace, htells⟩ :=
        extract_and_trace_tells hreads hdirection (hraw ▸ no_raw_slice) locals
      refine ⟨trace, ?_, htells⟩
      simp only [trace_rx, if_neg hregister, hcall, bind, Except.bind]
      exact htrace

/-- The event is the one the module makes of the message, and if the message is made
    of texts it tells them. -/
structure SipMessage.TracedAs (m : SipMessage) (trace : SipMessageTrace) : Prop where
  trace_eq : m.trace = .ok trace
  tells : ∀ text, Says m.msg m.passing text → Tells m.passing text trace

/-- A message the module gets through is traced as the event it made, which tells
    what the message says if that is made of texts. -/
theorem SipMessage.tracedAs {m : SipMessage} {trace : SipMessageTrace} (htrace : m.trace = .ok trace) :
    m.TracedAs trace := by
  refine ⟨htrace, fun text hreads => ?_⟩
  obtain ⟨trace', htrace', htells⟩ := m.trace_tells hreads
  rw [htrace] at htrace'
  cases htrace'
  exact htells

/-- The events of an app: those of the trace module, and the others. -/
inductive SipEvent (E : Type) where
  | SipMessageTrace (trace : event.SipMessageTrace)
  | other (event : E)

/-- The process with its channels and its SIP stack: for which app the module is
    registered there, and the messages that passed, newest first, each with who it
    was registered for. -/
structure Traced (E : Type) where
  bus : Bus (SipEvent E)
  registered : Option Nat
  wire : List (Option Nat × SipMessage)

inductive TracedOp (E : Type) where
  | process (op : ProcessOp)
  | message (m : SipMessage)
  | send_event (event : E)
  | recv (i : Nat)
  | drop_rx (i : Nat)

/-- `register_trace_module` and `unregister_trace_module`, as steps of `new` and of
    a drop. A failed registration is only logged. -/
def registration (p : Phase) (i : Nat) (status : Int) (registered : Option Nat) : Option Nat :=
  match p with
  | .starting _ .register_trace_module => if status = 0 then some i else registered
  | .dropping .unregister_trace_module => none
  | _ => registered

def Traced.registration {E : Type} (s : Traced E) : ProcessOp → Option Nat
  | .advance i status => trace_module.registration (s.bus.process.inst i) i status s.registered
  | _ => s.registered

section Traced

variable {E : Type}

/-- One step of the process. A message for which the module leaves one of its
    buffers has no next state. -/
def Traced.step (s : Traced E) : TracedOp E → Option (Traced E)
  | .process op =>
    (s.bus.step (.process op)).map fun bus =>
      { s with bus, registered := s.registration op }
  | .message m =>
    match s.registered with
    | none => some { s with wire := (none, m) :: s.wire }
    | some i =>
      match m.trace with
      | .error _ => none
      | .ok trace =>
        some { s with bus := s.bus.send_event (.SipMessageTrace trace), wire := (some i, m) :: s.wire }
  | .send_event event => some { s with bus := s.bus.send_event (.other event) }
  | .recv i => (s.bus.step (.recv i)).map fun bus => { s with bus }
  | .drop_rx i => (s.bus.step (.drop_rx i)).map fun bus => { s with bus }

def traced_stack (E : Type) : Machine (Traced E) (TracedOp E) where
  start := { bus := (bus (SipEvent E)).start, registered := none, wire := [] }
  step := Traced.step

def traces (events : List (SipEvent E)) : List event.SipMessageTrace :=
  events.filterMap fun
    | .SipMessageTrace trace => some trace
    | .other _ => none

/-- The module may be registered for the app: from the end of its `new` to the step
    of its drop that unregisters it. -/
def may_trace : Phase → Bool
  | .live | .dropping .pjsua_stop_worker_threads | .dropping .unregister_trace_module => true
  | _ => false

/-- The end of `new` is still to come. -/
def untraced : Phase → Bool
  | .absent | .starting .. => true
  | _ => false

/-- The module is registered only while the sender is installed. -/
theorem installed_of_may_trace {p : Phase} (h : may_trace p = true) : p.installed = true := by
  cases p with
  | live => rfl
  | dropping next => cases next <;> first | rfl | cases h
  | absent | starting | failing | returned | unwound | gone => cases h

/-- Registered is who was, or who comes to the end of its `new`; and that only
    once. -/
structure Registers (i : Nat) (p q : Phase) (before after : Option Nat) : Prop where
  now : after = some i → before = some i ∧ (may_trace p = true → may_trace q = true) ∨
    untraced p = true ∧ may_trace q = true
  once : untraced q = true → untraced p = true ∧ (after = some i → before = some i)

/-- The app that takes a step may register the module, or take it out, for itself. -/
theorem registers_self {i : Nat} {p q : Phase} {status : Int} {effect : Effect}
    (hadvance : p.advance status = some (q, effect)) (before : Option Nat) :
    Registers i p q before (registration p i status before) := by
  unfold Phase.advance at hadvance
  split at hadvance
  all_goals try split at hadvance
  all_goals try split at hadvance
  all_goals cases hadvance
  all_goals constructor <;> simp [registration, may_trace, untraced]

/-- No step of one app registers the module for another. It may take the
    registration away from it, since there is one module only. -/
theorem registers_other {i j : Nat} (hne : j ≠ i) (p q : Phase) (status : Int) (before : Option Nat) :
    Registers j p p before (registration q i status before) := by
  have hafter : registration q i status before = some j → before = some j := by
    unfold registration
    split
    · split
      · rintro h
        cases h
        exact absurd rfl hne
      · exact id
    · intro h
      cases h
    · exact id
  exact ⟨fun h => .inl ⟨hafter h, id⟩, fun h => ⟨h, hafter⟩⟩

/-- A step that sets the phase of one app, where that is the only app it may
    register the module for. -/
theorem Registers.set {p : Process} {i : Nat} {q : Phase} {before after : Option Nat}
    (hself : Registers i (p.inst i) q before after) (hothers : ∀ j ≠ i, ∀ r, Registers j r r before after) (j : Nat) :
    Registers j (p.inst j) ((p.set i q).inst j) before after := by
  by_cases hji : j = i
  · subst hji
    rw [Process.set_inst_self]
    exact hself
  · rw [Process.set_inst_of_ne _ hji]
    exact hothers j hji _

theorem Traced.registers (s : Traced E) {op : ProcessOp} {p : Process} (hstep : s.bus.process.step op = some p)
    (j : Nat) : Registers j (s.bus.process.inst j) (p.inst j) s.registered (s.registration op) := by
  have hsame (i : Nat) (q : Phase) : Registers i q q s.registered s.registered :=
    ⟨fun h => .inl ⟨h, id⟩, fun h => ⟨h, id⟩⟩
  cases Process.step_inv hstep with
  | @refused i config habsent =>
    refine Registers.set ?_ (fun k _ => hsame k) j
    rw [habsent]
    exact ⟨fun h => .inl ⟨h, fun h => absurd h (by decide)⟩, fun h => absurd h (by decide)⟩
  | @started i config habsent =>
    refine Registers.set ?_ (fun k _ => hsame k) j
    rw [habsent]
    exact ⟨fun h => .inl ⟨h, fun h => absurd h (by decide)⟩, fun _ => ⟨rfl, id⟩⟩
  | @advance i status q effect hadvance =>
    rw [← Process.apply_inst s.bus.process i effect]
    refine Registers.set ?_ (fun k hki p => registers_other hki p _ status s.registered) j
    rw [Process.apply_inst]
    exact registers_self hadvance s.registered
  | @drop i hlive =>
    refine Registers.set ?_ (fun k _ => hsame k) j
    rw [hlive]
    exact ⟨fun h => .inl ⟨h, fun _ => rfl⟩, fun h => absurd h (by decide)⟩

/-- The module is registered for an app whose sender is installed, the messages of
    one app are in one piece, and its events tell what they say. -/
structure Traced.Inv (s : Traced E) : Prop where
  may_trace : ∀ i, s.registered = some i → trace_module.may_trace (s.bus.process.inst i) = true
  untraced : ∀ i, trace_module.untraced (s.bus.process.inst i) = true →
    s.registered ≠ some i ∧ ∀ x ∈ s.wire, x.1 ≠ some i
  latest : ∀ i, s.registered = some i → Latest (·.1 = some i) s.wire
  together : ∀ i, Together (·.1 = some i) s.wire
  told : ∀ i, List.Forall₂ SipMessage.TracedAs (events_of i s.wire) (traces (events_of i s.bus.log))

theorem traces_append (events events' : List (SipEvent E)) :
    traces (events ++ events') = traces events ++ traces events' :=
  List.filterMap_append

/-- A step of `new` or of a drop lets no message pass. Whoever the module is
    registered for afterwards has had no gap in between, or comes to the end of its
    `new`. -/
theorem Traced.Inv.process {s : Traced E} (hinv : s.Inv) {op : ProcessOp} {p : Process}
    (hstep : s.bus.process.step op = some p) :
    ({ s with bus := { s.bus with process := p }, registered := s.registration op } : Traced E).Inv where
  may_trace i h := by
    rcases (s.registers hstep i).now h with ⟨hbefore, hkeeps⟩ | ⟨-, hnow⟩
    · exact hkeeps (hinv.may_trace i hbefore)
    · exact hnow
  untraced i h := by
    obtain ⟨hbefore, hafter⟩ := (s.registers hstep i).once h
    obtain ⟨hnot, hwire⟩ := hinv.untraced i hbefore
    exact ⟨fun hi => hnot (hafter hi), hwire⟩
  latest i h := by
    rcases (s.registers hstep i).now h with ⟨hbefore, -⟩ | ⟨huntraced, -⟩
    · exact hinv.latest i hbefore
    · exact latest_of_none (hinv.untraced i huntraced).2
  together := hinv.together
  told := hinv.told

/-- A message that passes while the module is not registered is told to nobody, and
    belongs to no app. -/
theorem Traced.Inv.pass {s : Traced E} (hinv : s.Inv) (hnone : s.registered = none) (m : SipMessage) :
    ({ s with wire := (none, m) :: s.wire } : Traced E).Inv where
  may_trace := hinv.may_trace
  untraced i h := by
    obtain ⟨hnot, hwire⟩ := hinv.untraced i h
    exact ⟨hnot, List.forall_mem_cons.mpr ⟨by simp, hwire⟩⟩
  latest i h := by
    rw [hnone] at h
    cases h
  together i := (hinv.together i).cons (by simp)
  told i := by
    rw [events_of_cons, if_neg (by simp), List.append_nil]
    exact hinv.told i

/-- A message that is traced: its event goes to the app it is registered for, and to
    no other. The sender of that app is the one installed. -/
theorem Traced.Inv.trace {s : Traced E} (hinv : s.Inv) {i : Nat} (hregistered : s.registered = some i)
    (htx : s.bus.process.event_tx = some i) {m : SipMessage} {trace : SipMessageTrace}
    (htraced : m.TracedAs trace) :
    ({ s with bus := s.bus.send_event (.SipMessageTrace trace), wire := (some i, m) :: s.wire } : Traced E).Inv where
  may_trace := hinv.may_trace
  untraced j h := by
    obtain ⟨hnot, hwire⟩ := hinv.untraced j h
    exact ⟨hnot, List.forall_mem_cons.mpr ⟨fun hij => hnot (hregistered.trans hij), hwire⟩⟩
  latest j h := by
    rw [hregistered] at h
    exact (hinv.latest j (hregistered.trans h)).cons h
  together j := by
    by_cases hij : some i = some j
    · exact ((hinv.latest j (hregistered.trans hij)).cons hij).together
    · exact (hinv.together j).cons hij
  told j := by
    rw [show (s.bus.send_event (.SipMessageTrace trace)).log = (some i, .SipMessageTrace trace) :: s.bus.log by
      rw [← htx]
      rfl, events_of_cons, events_of_cons, traces_append]
    by_cases hij : some i = some j
    · rw [if_pos hij, if_pos hij]
      exact List.rel_append (hinv.told j) (.cons htraced .nil)
    · rw [if_neg hij, if_neg hij, List.append_nil, show traces ([] : List (SipEvent E)) = [] from rfl,
        List.append_nil]
      exact hinv.told j

/-- Whatever else the bus does is none of the trace's business: neither the process
    nor the traces among the events are changed by it. -/
theorem Traced.Inv.other {s : Traced E} (hinv : s.Inv) {bus : Bus (SipEvent E)} (hprocess : bus.process = s.bus.process)
    (htraces : ∀ i, traces (events_of i bus.log) = traces (events_of i s.bus.log)) :
    ({ s with bus } : Traced E).Inv where
  may_trace i h := hprocess.symm ▸ hinv.may_trace i h
  untraced i h := hinv.untraced i (hprocess ▸ h)
  latest := hinv.latest
  together := hinv.together
  told i := htraces i ▸ hinv.told i

/-- Everything one step can do. -/
inductive TracedStep (s : Traced E) : TracedOp E → Traced E → Prop where
  | process {op : ProcessOp} {p : Process} (hstep : s.bus.process.step op = some p) :
      TracedStep s (.process op) { s with bus := { s.bus with process := p }, registered := s.registration op }
  | pass {m : SipMessage} (hnone : s.registered = none) :
      TracedStep s (.message m) { s with wire := (none, m) :: s.wire }
  | trace {m : SipMessage} {i : Nat} {trace : SipMessageTrace} (hregistered : s.registered = some i)
      (htrace : m.trace = .ok trace) :
      TracedStep s (.message m)
        { s with bus := s.bus.send_event (.SipMessageTrace trace), wire := (some i, m) :: s.wire }
  | send_event (event : E) :
      TracedStep s (.send_event event) { s with bus := s.bus.send_event (.other event) }
  | recv {i : Nat} {bus : Bus (SipEvent E)} (hstep : s.bus.step (.recv i) = some bus) :
      TracedStep s (.recv i) { s with bus }
  | drop_rx {i : Nat} {bus : Bus (SipEvent E)} (hstep : s.bus.step (.drop_rx i) = some bus) :
      TracedStep s (.drop_rx i) { s with bus }

theorem Traced.step_inv {s t : Traced E} {op : TracedOp E} (hstep : s.step op = some t) : TracedStep s op t := by
  cases op with
  | process op =>
    simp only [Traced.step, Bus.step, Option.map_map] at hstep
    obtain ⟨p, hp, rfl⟩ := Option.map_eq_some_iff.mp hstep
    exact .process hp
  | message m =>
    simp only [Traced.step] at hstep
    split at hstep
    · rename_i hnone
      cases hstep
      exact .pass hnone
    · rename_i i hregistered
      split at hstep
      · cases hstep
      · rename_i trace htrace
        cases hstep
        exact .trace hregistered htrace
  | send_event event =>
    cases hstep
    exact .send_event event
  | recv i =>
    obtain ⟨bus, hbus, rfl⟩ := Option.map_eq_some_iff.mp hstep
    exact .recv hbus
  | drop_rx i =>
    cases hstep
    exact .drop_rx rfl

/-- The receivers' own steps leave the process and the log alone. -/
theorem Bus.recv_same {s t : Bus E} {i : Nat} (hstep : s.step (.recv i) = some t) :
    t.process = s.process ∧ t.log = s.log := by
  simp only [Bus.step] at hstep
  split at hstep
  · cases hstep
    exact ⟨rfl, rfl⟩
  · cases hstep

/-- The bus goes through a run of its own, with the traces among its events. So
    every trace reaches its app as any event does. -/
theorem traced_bus {s : Traced E} (hreach : (traced_stack E).Reach (fun _ _ => True) s) :
    (bus (SipEvent E)).Reach (fun _ _ => True) s.bus := by
  refine hreach.refines Traced.bus rfl ?_
  intro s op t _ _ (hstep : s.step op = some t)
  cases Traced.step_inv hstep with
  | @process op p hp => exact .inr ⟨.process op, trivial, congrArg (Option.map _) hp⟩
  | pass => exact .inl rfl
  | @trace m i trace => exact .inr ⟨.send_event (.SipMessageTrace trace), trivial, rfl⟩
  | send_event event => exact .inr ⟨.send_event (.other event), trivial, rfl⟩
  | @recv i bus hbus => exact .inr ⟨.recv i, trivial, hbus⟩
  | @drop_rx i bus hbus => exact .inr ⟨.drop_rx i, trivial, hbus⟩

/-- The invariant holds in every reachable state, whatever apps, messages and other
    events there are. -/
theorem traced_inv {s : Traced E} (hreach : (traced_stack E).Reach (fun _ _ => True) s) : s.Inv := by
  refine hreach.invariant (P := Traced.Inv) ?_ ?_
  · have hnone : ∀ i, ∀ x ∈ (traced_stack E).start.wire, x.1 ≠ some i := by simp [traced_stack]
    refine ⟨fun i h => ?_, fun i _ => ⟨fun h => ?_, hnone i⟩, fun i _ => latest_of_none (hnone i),
      fun i => (latest_of_none (hnone i)).together, fun i => .nil⟩
    all_goals cases h
  · intro s op t hprev _ hstep hinv
    cases Traced.step_inv hstep with
    | process hp => exact hinv.process hp
    | @pass m hnone => exact hinv.pass hnone m
    | @trace m i trace hregistered htrace =>
      have hinstalled := installed_of_may_trace (hinv.may_trace i hregistered)
      exact hinv.trace hregistered (event_tx_of_reach (bus_process (traced_bus hprev)) i hinstalled)
        (SipMessage.tracedAs htrace)
    | send_event event =>
      refine hinv.other rfl fun i => ?_
      rw [show (s.bus.send_event (.other event)).log = (s.bus.process.event_tx, .other event) :: s.bus.log from rfl,
        events_of_cons, traces_append]
      split <;> exact List.append_nil _
    | recv hbus =>
      obtain ⟨hprocess, hlog⟩ := Bus.recv_same hbus
      exact hinv.other hprocess fun i => by rw [hlog]
    | drop_rx hbus =>
      cases hbus
      exact hinv.other rfl fun i => rfl

/-- However apps come and go, and events of other kinds in between: the trace
    events an app has received are, in order and each once, those the module made of
    the messages that passed while it was registered for the app, as far as the app
    has taken them; from the registration on no message is left out. Of the messages
    nothing is assumed but that the module gets through them. An event tells what
    its message says if that is made of texts (`Says`): a line of at most 127 bytes,
    a body, headers and, for a REGISTER, the message itself that print as UTF-8 in
    the space they are given or not at all. The module gets through every such
    message, so that it goes on. -/
theorem trace_stream {s : Traced E} (hreach : (traced_stack E).Reach (fun _ _ => True) s) (i : Nat) :
    List.Forall₂ SipMessage.TracedAs (events_of i s.wire) (traces (events_of i s.bus.log)) ∧
      (s.bus.rx i).Holds (events_of i s.bus.log) ∧ Together (·.1 = some i) s.wire ∧
      (s.registered = some i → Latest (·.1 = some i) s.wire) ∧
      ∀ m : SipMessage, ∀ text, Says m.msg m.passing text → ∃ t, s.step (.message m) = some t := by
  have hinv := traced_inv hreach
  refine ⟨hinv.told i, (bus_inv (traced_bus hreach)).holds i, hinv.together i, hinv.latest i, fun m text hreads => ?_⟩
  obtain ⟨trace, htrace, -⟩ := m.trace_tells hreads
  simp only [Traced.step, htrace]
  split
  · exact ⟨_, rfl⟩
  · exact ⟨_, rfl⟩

end Traced

/-- The answer to a REGISTER as it arrives, and what it says. -/
def ok_message : SipMessage where
  msg := registered_msg
  passing := .rx (encode registered_text) 14
  locals := .zero

def ok_text : SipText where
  line := ['2', '0', '0', ' ', 'O', 'K']
  call_id := ['1', '@', 'b']
  body := some ['v', '=', '0']
  headers := [cseq_hdr, call_id_hdr, to_hdr, from_hdr]
  raw := some registered_text

/-- The parts of the response that it says are texts, and fit. -/
theorem ok_message_says : Says ok_message.msg ok_message.passing ok_text where
  line := by decide +kernel
  length_line := by decide +kernel
  call_id := by decide +kernel
  length_call_id := by decide +kernel
  body := ⟨List.cons_ne_nil _ _, by decide +kernel, by decide +kernel, by decide +kernel⟩
  headers := .cons (printed_hdr_prints _ _) <| .cons (printed_hdr_prints _ _) <| .cons (printed_hdr_prints _ _) <|
    .cons (printed_hdr_prints _ _) .nil
  raw := by
    have hregister : is_register_msg ok_message.msg = true := by decide +kernel
    rw [if_pos hregister]
    exact ⟨registered_text, rfl, List.cons_ne_nil _ _, by decide +kernel, List.prefix_refl _⟩

/-- A call of `new` that goes through. -/
def started : List (TracedOp Nat) := .process (.new 0 {}) :: List.replicate 8 (.process (.advance 0 0))

/-- A response that passes while an app is registered: with a body, four headers and
    the text as it arrived, all of which its event tells. -/
theorem trace_stream_ok :
    ∃ s t, (traced_stack Nat).exec (traced_stack Nat).start started = some s ∧ s.step (.message ok_message) = some t ∧
      ∃ trace, traces (events_of 0 t.bus.log) = [trace] ∧ Tells ok_message.passing ok_text trace := by
  have hrun : ((traced_stack Nat).exec (traced_stack Nat).start started).map (fun s => (s.registered, s.wire.length)) =
      some (some 0, 0) := by decide +kernel
  obtain ⟨s, hs, hfields⟩ := Option.map_eq_some_iff.mp hrun
  obtain ⟨hregistered, hwire⟩ := Prod.mk.inj hfields
  have hreach := Machine.Reach.exec .start (Machine.admits_of_forall (fun _ _ => trivial) _ started) hs
  obtain ⟨t, hstep⟩ := (trace_stream hreach 0).2.2.2.2 ok_message ok_text ok_message_says
  have htaken : (traced_stack Nat).step s (.message ok_message) = some t := hstep
  have htold := (trace_stream (.step hreach trivial htaken) 0).1
  refine ⟨s, t, hs, hstep, ?_⟩
  have hmessages : events_of 0 t.wire = [ok_message] := by
    cases Traced.step_inv hstep with
    | pass hnone =>
      rw [hregistered] at hnone
      cases hnone
    | trace hi =>
      rw [hregistered] at hi
      cases hi
      rw [events_of_cons, List.eq_nil_of_length_eq_zero hwire]
      rfl
  rw [hmessages] at htold
  obtain ⟨trace, rest, htraced, hnil, htraces⟩ := List.forall₂_cons_left_iff.mp htold
  cases hnil
  exact ⟨trace, htraces, htraced.tells ok_text ok_message_says⟩

end pjsua_rust.trace_module
