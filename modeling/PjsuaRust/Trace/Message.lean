import PjsuaRust.Pjlib.Printf

namespace pjsua_rust.trace_module

/-- A `pj_str_t`: the bytes of the string, which are not terminated, and those
    that follow it in memory. -/
structure pj_str_t where
  bytes : List UInt8
  tail : List UInt8 := []
deriving DecidableEq, Repr

/-- A function that prints into the space it is given, by its size: the value
    it returns, and what it leaves at the start of that space. -/
abbrev Print := Nat → Int × List UInt8

/-- A print returns a value that is not positive, or a length within the size it
    was given. -/
def Print.Within (print : Print) : Prop := ∀ size, (print size).1 ≤ size

inductive pjsip_method_e where
  | PJSIP_INVITE_METHOD
  | PJSIP_CANCEL_METHOD
  | PJSIP_ACK_METHOD
  | PJSIP_BYE_METHOD
  | PJSIP_REGISTER_METHOD
  | PJSIP_OPTIONS_METHOD
  | PJSIP_OTHER_METHOD
deriving DecidableEq, Repr

structure pjsip_method where
  id : pjsip_method_e
  name : pj_str_t
deriving DecidableEq, Repr

/-- What is read of a header by its type. -/
inductive HdrBody where
  | call_id (id : pj_str_t)
  | cseq (method : pjsip_method)
  | other
deriving DecidableEq, Repr

/-- A header, with the function its `pjsip_hdr_print_on` calls. -/
structure pjsip_hdr where
  name : pj_str_t
  body : HdrBody
  print_on : Print

inductive MsgLine where
  | req (method : pjsip_method)
  | status (code : Int) (reason : pj_str_t)
deriving DecidableEq, Repr

/-- A parsed message. `body` is the `print_body` of its body, if there is one
    and it can be printed. -/
structure pjsip_msg where
  line : MsgLine
  hdr : List pjsip_hdr
  body : Option Print

/-- `pjsip_msg_find_hdr` for `PJSIP_H_CALL_ID`. -/
def find_call_id (msg : pjsip_msg) : Option pj_str_t :=
  msg.hdr.findSome? fun hdr =>
    match hdr.body with
    | .call_id id => some id
    | _ => none

/-- `pjsip_msg_find_hdr` for `PJSIP_H_CSEQ`. -/
def find_cseq (msg : pjsip_msg) : Option pjsip_method :=
  msg.hdr.findSome? fun hdr =>
    match hdr.body with
    | .cseq method => some method
    | _ => none

/-- Whether this message belongs to a REGISTER transaction. A response names
    its transaction's method only in CSeq. -/
def is_register_msg (msg : pjsip_msg) : Bool :=
  match msg.line with
  | .req method => method.id = .PJSIP_REGISTER_METHOD
  | .status .. =>
    match find_cseq msg with
    | none => false
    | some method => method.id = .PJSIP_REGISTER_METHOD

/-- The bytes of a C string constant. -/
def c_str (s : String) : List UInt8 := s.toList.map fun c => UInt8.ofNat c.toNat

def TRACED_HDR_NAMES : List (List UInt8) :=
  [c_str "Warning", c_str "Reason", c_str "To", c_str "From", c_str "Contact"]

def to_lower (b : UInt8) : UInt8 := if 0x41 ≤ b ∧ b ≤ 0x5a then b + 0x20 else b

/-- `pj_stricmp2(name, s) == 0`. -/
def stricmp2_eq (name s : List UInt8) : Bool := name.map to_lower = s.map to_lower

def hdr_is_traced (name : pj_str_t) : Bool := TRACED_HDR_NAMES.any (stricmp2_eq name.bytes)

/-- What a print leaves in the `size` bytes of `buf` from `off` on. -/
def printed (buf : List UInt8) (off size : Nat) (text : List UInt8) : List UInt8 :=
  let text := text.take size
  buf.take off ++ text ++ buf.drop (off + text.length)

/-- `buf[i] = b`. -/
def store (buf : List UInt8) (i : Nat) (b : UInt8) : Except Fault (List UInt8) :=
  if i < buf.length then .ok (buf.set i b) else .error .out_of_bounds

/-- The loop of `extract_headers`: the number of bytes used, and the buffer. -/
def extract_headers_from (hdrs : List pjsip_hdr) (buf : List UInt8) (used : Nat) :
    Except Fault (Nat × List UInt8) := do
  match hdrs with
  | [] => return (used, buf)
  | hdr :: rest =>
    if !hdr_is_traced hdr.name then
      extract_headers_from rest buf used
    -- Leave room for the separator.
    else if buf.length ≤ used + 1 then
      return (used, buf)
    else
      let size := buf.length - used - 1
      let (n, text) := hdr.print_on size
      let buf := printed buf used size text
      -- What does not fit is skipped.
      if n ≤ 0 then
        extract_headers_from rest buf used
      else
        let used := used + n.toNat
        let buf ← store buf used 0x0a
        extract_headers_from rest buf (used + 1)

/-- The allowlisted headers, one a line, in a buffer of any size. -/
def extract_headers (msg : pjsip_msg) (buf : List UInt8) : Except Fault (Nat × List UInt8) :=
  extract_headers_from msg.hdr buf 0

/-- Printing within a buffer leaves it as long as it was. -/
theorem length_printed {buf : List UInt8} {off size : Nat} (hfits : off + size ≤ buf.length)
    (text : List UInt8) : (printed buf off size text).length = buf.length := by
  simp only [printed, List.length_append, List.length_take, List.length_drop]
  omega

theorem store_ok {buf : List UInt8} {i : Nat} (hi : i < buf.length) (b : UInt8) :
    ∃ buf', store buf i b = .ok buf' ∧ buf'.length = buf.length :=
  ⟨buf.set i b, if_pos hi, List.length_set⟩

/-- Whatever the headers, the loop stays inside the buffer: each is printed with
    room left for the separator, so that what is used never exceeds the size. -/
theorem extract_headers_from_ok {hdrs : List pjsip_hdr} (hwithin : ∀ hdr ∈ hdrs, hdr.print_on.Within)
    {buf : List UInt8} {used : Nat} (hused : used ≤ buf.length) :
    ∃ n buf', extract_headers_from hdrs buf used = .ok (n, buf') ∧ n ≤ buf.length ∧ buf'.length = buf.length := by
  induction hdrs generalizing buf used with
  | nil => exact ⟨used, buf, rfl, hused, rfl⟩
  | cons hdr rest ih =>
    have hrest : ∀ h ∈ rest, h.print_on.Within := fun h hh => hwithin h (List.mem_cons_of_mem _ hh)
    rw [extract_headers_from]
    split
    · exact ih hrest hused
    · split
      · exact ⟨used, buf, rfl, hused, rfl⟩
      · rename_i hroom
        have hprint := hwithin hdr List.mem_cons_self (buf.length - used - 1)
        cases hprinted : hdr.print_on (buf.length - used - 1) with | mk n text
        rw [hprinted] at hprint
        have hlen := length_printed (show used + (buf.length - used - 1) ≤ buf.length by omega) text
        simp only [hprinted]
        split
        · obtain ⟨m, buf', hrun, hm, hbuf'⟩ := ih hrest (hused.trans hlen.ge)
          exact ⟨m, buf', hrun, hlen ▸ hm, hbuf'.trans hlen⟩
        · obtain ⟨out, hstore, hout⟩ := store_ok (show used + n.toNat <
            (printed buf used (buf.length - used - 1) text).length by omega) 0x0a
          obtain ⟨m, buf', hrun, hm, hbuf'⟩ := ih hrest (show used + n.toNat + 1 ≤ out.length by omega)
          refine ⟨m, buf', ?_, by omega, by omega⟩
          simp only [hstore, bind, Except.bind]
          exact hrun

end pjsua_rust.trace_module
