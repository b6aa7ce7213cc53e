import PjsuaRust.Pjlib.Status
import PjsuaRust.Trace.Text

namespace pjsua_rust.event

/-- A pointer with a length, as C passes them: the memory behind the pointer,
    unless it is null. -/
structure Range where
  ptr : Option (List UInt8)
  len : Int
deriving DecidableEq, Repr

/-- The arguments of one `rust_sip_trace_on_msg`. -/
structure TraceCall where
  is_outgoing : Bool
  method_or_status : Range
  sip_call_id : Range
  sdp_body : Range
  headers : Range
  raw : Range
deriving DecidableEq, Repr

inductive TraceDirection where
  | Sent
  | Received
deriving DecidableEq, Repr

structure SipMessageInfo where
  direction : TraceDirection
  method_or_status : List Char
  sip_call_id : List Char
  sdp : Option (List Char)
  headers : HeaderMap
  raw : Option (List Char)
deriving DecidableEq, Repr

/-- `SipEvent::SipMessageTrace`. -/
structure SipMessageTrace where
  call_id : Int
  account_id : Int
  info : SipMessageInfo
deriving DecidableEq, Repr

/-- `slice::from_raw_parts` of a range, unless that is null or empty. -/
def Range.slice (r : Range) : Except Fault (Option (List UInt8)) :=
  match r.ptr with
  | none => .ok none
  | some buf => if r.len ≤ 0 then .ok none else (read_bytes buf r.len.toNat).map some

/-- The event for one message. -/
def rust_sip_trace_on_msg (call : TraceCall) : Except Fault SipMessageTrace := do
  let method_or_status ← call.method_or_status.slice
  let sip_call_id ← call.sip_call_id.slice
  let sdp ← call.sdp_body.slice
  let headers ← call.headers.slice
  let raw ← call.raw.slice
  return {
    call_id := -1
    account_id := -1
    info := {
      direction := if call.is_outgoing then .Sent else .Received
      method_or_status := (method_or_status.map from_utf8_lossy).getD []
      sip_call_id := (sip_call_id.map from_utf8_lossy).getD []
      sdp := sdp.map from_utf8_lossy
      headers := (headers.map fun bytes => parse_trace_headers (from_utf8_lossy bytes)).getD []
      raw := raw.map from_utf8_lossy } }

/-- The range lies within the memory behind its pointer. -/
def Range.Inside (r : Range) : Prop := ∀ buf ∈ r.ptr, r.len ≤ buf.length

structure TraceCall.Inside (call : TraceCall) : Prop where
  method_or_status : call.method_or_status.Inside
  sip_call_id : call.sip_call_id.Inside
  sdp_body : call.sdp_body.Inside
  headers : call.headers.Inside
  raw : call.raw.Inside

/-- Rust makes a slice of a range without a fault exactly if the range lies within
    its buffer. -/
theorem Range.slice_ok_iff (r : Range) : (∃ s, r.slice = .ok s) ↔ r.Inside := by
  obtain ⟨ptr, len⟩ := r
  cases ptr with
  | none => exact ⟨fun _ _ h => (by cases h), fun _ => ⟨none, rfl⟩⟩
  | some buf =>
    simp only [Range.slice, Range.Inside, Option.mem_some_iff, forall_eq']
    split
    · rename_i hle
      exact ⟨fun _ => by omega, fun _ => ⟨none, rfl⟩⟩
    · rename_i hpos
      constructor
      · rintro ⟨s, hs⟩
        by_contra hlong
        rw [read_bytes, if_neg (by omega)] at hs
        cases hs
      · intro hle
        rw [read_bytes, if_pos (by omega)]
        exact ⟨_, rfl⟩

/-- Rust reads what C passes if every range lies within its memory, and only
    then. -/
theorem rust_sip_trace_on_msg_ok_iff (call : TraceCall) :
    (∃ ev, rust_sip_trace_on_msg call = .ok ev) ↔ call.Inside := by
  constructor
  · rintro ⟨ev, hev⟩
    obtain ⟨mos, hmos, hrest⟩ := except_bind_ok hev
    obtain ⟨cid, hcid, hrest⟩ := except_bind_ok hrest
    obtain ⟨sdp, hsdp, hrest⟩ := except_bind_ok hrest
    obtain ⟨headers, hheaders, hrest⟩ := except_bind_ok hrest
    obtain ⟨raw, hraw, -⟩ := except_bind_ok hrest
    exact ⟨(Range.slice_ok_iff _).mp ⟨mos, hmos⟩, (Range.slice_ok_iff _).mp ⟨cid, hcid⟩,
      (Range.slice_ok_iff _).mp ⟨sdp, hsdp⟩, (Range.slice_ok_iff _).mp ⟨headers, hheaders⟩,
      (Range.slice_ok_iff _).mp ⟨raw, hraw⟩⟩
  · rintro ⟨hmos, hcid, hsdp, hheaders, hraw⟩
    obtain ⟨mos, hmos⟩ := (Range.slice_ok_iff _).mpr hmos
    obtain ⟨cid, hcid⟩ := (Range.slice_ok_iff _).mpr hcid
    obtain ⟨sdp, hsdp⟩ := (Range.slice_ok_iff _).mpr hsdp
    obtain ⟨headers, hheaders⟩ := (Range.slice_ok_iff _).mpr hheaders
    obtain ⟨raw, hraw⟩ := (Range.slice_ok_iff _).mpr hraw
    simp only [rust_sip_trace_on_msg, hmos, hcid, hsdp, hheaders, hraw, bind, Except.bind]
    exact ⟨_, rfl⟩

end pjsua_rust.event
