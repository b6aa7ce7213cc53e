import PjsuaRust.Account.Config
import PjsuaRust.App.Lifecycle
import PjsuaRust.Ownership.Scope
import PjsuaRust.Trace.Utf8

open ownership
open pjsua_rust.event (encode)

namespace pjsua_rust

/-- What is on the heap here: the bytes of a string, or a list of ciphers. -/
inductive Block where
  | bytes (b : List UInt8)
  | ciphers (c : List UInt32)
deriving DecidableEq, Repr

structure pj_str_t where
  ptr : Nat
  slen : Nat
deriving DecidableEq, Repr

/-- A string on the heap, with a `pj_str_t` that points to it. -/
structure PjString where
  pj_str : pj_str_t

/-- `CString::new` refuses a null byte, and puts one behind the text. -/
def PjString.new (A : Allocator Block) (s : List Char) : Own Block PjString :=
  if pjsua_app.pj_string_ok s then do
    let ptr ← alloc A (.bytes (encode s ++ [0]))
    pure ⟨⟨ptr, (encode s).length⟩⟩
  else unwind

def PjString.as_pj_str (s : PjString) : pj_str_t := s.pj_str

/-- `strings.push(s)`. -/
def PjString.push (s : PjString) : Own Block Unit := ownership.push s.pj_str.ptr

/-- `let s = PjString::new(text); cfg.field = s.as_pj_str(); strings.push(s);`, with
    what the field is set to. -/
def PjString.stored (A : Allocator Block) (text : List Char) : Own Block pj_str_t := do
  let s ← PjString.new A text
  let pj_str := s.as_pj_str
  s.push
  pure pj_str

/-- What PJSUA reads of a string, if that is still there. -/
def pj_str_t.read (h : Heap Block) (s : pj_str_t) : Option (List UInt8) :=
  match h.read s.ptr with
  | some (.bytes b) => if s.slen ≤ b.length then some (b.take s.slen) else none
  | _ => none

/-- A `pj_str_t` may also be empty. -/
def read_opt (h : Heap Block) : Option pj_str_t → Option (Option (List UInt8))
  | none => some none
  | some s => (s.read h).map some

/-- A string in the vector of the scope. -/
def Shows (t : Scope Block) (s : pj_str_t) (text : List Char) : Prop :=
  s.slen = (encode text).length ∧ Held t s.ptr (.bytes (encode text ++ [0]))

/-- A string that a local variable owns. -/
def ShowsLocal (t : Scope Block) (s : pj_str_t) (text : List Char) : Prop :=
  s.slen = (encode text).length ∧ Local t s.ptr (.bytes (encode text ++ [0]))

/-- A string in the vector is shown for as long as the vector keeps what it owns. -/
theorem Shows.keeps {t u : Scope Block} {s : pj_str_t} {text : List Char} (hshows : Shows t s text)
    (hkeeps : Keeps t u) : Shows u s text :=
  ⟨hshows.1, hkeeps _ _ hshows.2⟩

/-- What shows a text is read back as its bytes. -/
theorem Shows.read {t : Scope Block} {s : pj_str_t} {text : List Char} (hshows : Shows t s text) :
    s.read t.heap = some (encode text) := by
  rw [pj_str_t.read, hshows.2.2]
  dsimp only
  rw [if_pos (by rw [hshows.1, List.length_append]; omega), hshows.1, List.take_left]

/-- A new string shows its text and is owned by a local variable; text with a null
    byte panics instead. -/
theorem ends_new {outer : Heap Block} {P : Prop} {s : Scope Block} (hs : Owns outer s) (A : Allocator Block)
    {text : List Char} (hP : pjsua_app.pj_string_ok text = false → P) :
    Ends outer P (PjString.new A text) s fun str t =>
      pjsua_app.pj_string_ok text = true ∧ Owns outer t ∧ Keeps s t ∧ ShowsLocal t str.pj_str text ∧
        ∀ other text', ShowsLocal s other text' → ShowsLocal t other text' ∧ other.ptr ≠ str.pj_str.ptr := by
  rw [PjString.new]
  split
  · rename_i hok
    apply Ends.bind
    refine (Ends.alloc hs A _).mono fun ptr t ht => ?_
    obtain ⟨hown, hkeeps, hlocal, hnew⟩ := ht
    refine ⟨hok, hown, hkeeps, ⟨rfl, hnew⟩, fun other text' hother => ?_⟩
    obtain ⟨hlen, hold⟩ := hother
    exact ⟨⟨hlen, (hlocal _ _ hold).1⟩, (hlocal _ _ hold).2⟩
  · rename_i hnot
    exact Ends.unwind hs (hP (Bool.eq_false_of_not_eq_true hnot))

/-- A string moved into the vector still shows its text, at the same address. It can
    no longer be moved a second time; the other strings that locals own are as they
    were. -/
theorem ends_push {outer : Heap Block} {P : Prop} {s : Scope Block} (hs : Owns outer s) {str : PjString}
    {text : List Char} (hstr : ShowsLocal s str.pj_str text) :
    Ends outer P str.push s fun _ t =>
      Owns outer t ∧ Keeps s t ∧ Shows t str.pj_str text ∧
        ∀ other text', ShowsLocal s other text' → other.ptr ≠ str.pj_str.ptr → ShowsLocal t other text' := by
  refine (Ends.push hs hstr.2).mono fun _ t ht => ?_
  obtain ⟨hown, hkeeps, hlocal, hheld⟩ := ht
  exact ⟨hown, hkeeps, ⟨hstr.1, hheld⟩, fun other text' hother hne => ⟨hother.1, hlocal _ _ hother.2 hne⟩⟩

/-- A string that is made and moved at once. Nothing is left in a local variable, so
    it is shown for as long as the vector lives, and a panic leaves nothing behind. -/
theorem ends_stored {outer : Heap Block} {P : Prop} {s : Scope Block} (hs : Owns outer s) (A : Allocator Block)
    {text : List Char} (hP : pjsua_app.pj_string_ok text = false → P) :
    Ends outer P (PjString.stored A text) s fun str t =>
      pjsua_app.pj_string_ok text = true ∧ Owns outer t ∧ Keeps s t ∧ Shows t str text := by
  apply Ends.bind
  refine (ends_new hs A hP).mono fun str t ht => ?_
  obtain ⟨hok, hown, hkeeps, hlocal, -⟩ := ht
  apply Ends.bind
  refine (ends_push hown hlocal).mono fun _ u hu => ?_
  obtain ⟨hown', hkeeps', hshows, -⟩ := hu
  exact ⟨hok, hown', hkeeps.trans hkeeps', hshows⟩

namespace types

inductive SrtpMode where
  | Disabled
  | Optional
  | Mandatory
deriving DecidableEq, Repr

def SrtpMode.to_pjsip : SrtpMode → UInt32
  | .Disabled => 0
  | .Optional => 1
  | .Mandatory => 2

inductive SrtpSecureSignaling where
  | Any
  | TlsOrSips
  | EndToEndSips
deriving DecidableEq, Repr

def SrtpSecureSignaling.to_pjsip : SrtpSecureSignaling → UInt32
  | .Any => 0
  | .TlsOrSips => 1
  | .EndToEndSips => 2

inductive Use100Rel where
  | NotUsed
  | Mandatory
  | Optional
deriving DecidableEq, Repr

def Use100Rel.to_pjsip : Use100Rel → UInt32
  | .NotUsed => 0
  | .Mandatory => 1
  | .Optional => 2

structure VideoDevices where
  capture : Int
  render : Int
deriving DecidableEq, Repr

/-- A whole `AccountConfig`: what its URIs are made of, and the rest. -/
structure AccountSettings extends AccountConfig where
  password : List Char := []
  srtp : SrtpMode := .Disabled
  auth_username : Option (List Char) := none
  realm : Option (List Char) := none
  reg_timeout : Option UInt32 := none
  proxy : Option (List Char) := none
  reg_retry_interval : Option UInt32 := none
  rtp_port_start : Option UInt16 := none
  rtp_port_range : Option UInt16 := none
  transport_id : Option Int := none
  require_100rel : Option Use100Rel := none
  srtp_secure_signaling : Option SrtpSecureSignaling := none
  video_devices : Option VideoDevices := none
deriving DecidableEq

end types

namespace pjsua_app

open types

/-- The fields of a `pjsua_acc_config` that are numbers and that an account sets. -/
structure AccNumbers where
  cred_count : UInt32
  use_srtp : UInt32
  srtp_secure_signaling : Int
  allow_contact_rewrite : UInt32
  allow_via_rewrite : UInt32
  allow_sdp_nat_rewrite : UInt32
  lock_codec : UInt32
  reg_timeout : UInt32
  proxy_cnt : UInt32
  reg_retry_interval : UInt32
  reg_first_retry_interval : UInt32
  reg_retry_random_interval : UInt32
  rtp_port : UInt32
  rtp_port_range : UInt32
  transport_id : Int
  require_100rel : UInt32
  vid_cap_dev : Int
  vid_rend_dev : Int
  vid_out_auto_transmit : UInt32
  vid_in_auto_show : UInt32
deriving DecidableEq, Repr

/-- A credential, with strings of either kind: pointers, or their bytes. -/
structure pjsip_cred_info (S : Type) where
  realm : S
  scheme : S
  username : S
  data_type : Int
  data : S
deriving DecidableEq, Repr

/-- An account's configuration. `cred_info` and `proxy` are the first entries of
    their arrays. -/
structure pjsua_acc_config (S : Type) extends AccNumbers where
  id : Option S
  reg_uri : Option S
  cred_info : Option (pjsip_cred_info S)
  proxy : Option S
deriving DecidableEq, Repr

/-- `pjsua_acc_config_default` sets no string that an account sets. -/
def pjsua_acc_config_default (S : Type) (dflt : AccNumbers) : pjsua_acc_config S :=
  { dflt with id := none, reg_uri := none, cred_info := none, proxy := none }

/-- What `populate_acc_cfg` does to the numbers, the counts aside. -/
def AccNumbers.populate (n : AccNumbers) (config : AccountSettings) : AccNumbers :=
  { n with
    use_srtp := config.srtp.to_pjsip
    srtp_secure_signaling := config.srtp_secure_signaling.elim n.srtp_secure_signaling fun level => level.to_pjsip.toNat
    allow_contact_rewrite := 0
    allow_via_rewrite := 0
    allow_sdp_nat_rewrite := 0
    lock_codec := 0
    reg_timeout := config.reg_timeout.getD n.reg_timeout
    reg_retry_interval := config.reg_retry_interval.getD n.reg_retry_interval
    reg_first_retry_interval := config.reg_retry_interval.getD n.reg_first_retry_interval
    reg_retry_random_interval := config.reg_retry_interval.elim n.reg_retry_random_interval (· / 4)
    rtp_port := config.rtp_port_start.elim n.rtp_port UInt16.toUInt32
    rtp_port_range :=
      if config.rtp_port_start.isSome then config.rtp_port_range.elim n.rtp_port_range UInt16.toUInt32
      else n.rtp_port_range
    transport_id := config.transport_id.getD n.transport_id
    require_100rel := config.require_100rel.elim n.require_100rel Use100Rel.to_pjsip
    vid_cap_dev := config.video_devices.elim n.vid_cap_dev VideoDevices.capture
    vid_rend_dev := config.video_devices.elim n.vid_rend_dev VideoDevices.render
    vid_out_auto_transmit := if config.video_devices.isSome then 1 else n.vid_out_auto_transmit
    vid_in_auto_show := if config.video_devices.isSome then 0 else n.vid_in_auto_show }

/-- The part about the credentials. -/
def fill_cred_info (A : Allocator Block) (config : AccountSettings) : Own Block (pjsip_cred_info pj_str_t) := do
  let realm_str ← PjString.new A (config.realm.getD ['*'])
  let scheme_str ← PjString.new A ['d', 'i', 'g', 'e', 's', 't']
  let username_str ← PjString.new A (config.auth_username.getD config.username)
  let password_str ← PjString.new A config.password
  let cred_info := {
    realm := realm_str.as_pj_str
    scheme := scheme_str.as_pj_str
    username := username_str.as_pj_str
    data_type := 0
    data := password_str.as_pj_str }
  realm_str.push
  scheme_str.push
  username_str.push
  password_str.push
  pure cred_info

/-- The vector it returns is that of the scope. -/
def populate_acc_cfg (A : Allocator Block) (acc_cfg : pjsua_acc_config pj_str_t) (config : AccountSettings) :
    Own Block (pjsua_acc_config pj_str_t) := do
  let id ← PjString.stored A config.sip_uri
  let reg_uri ← PjString.stored A config.registrar_uri
  let cred_info ← fill_cred_info A config
  let numbers := { acc_cfg.toAccNumbers.populate config with cred_count := 1 }
  let acc_cfg := { acc_cfg with
    toAccNumbers := numbers, id := some id, reg_uri := some reg_uri, cred_info := some cred_info }
  match config.proxy with
  | some proxy => do
    let proxy ← PjString.stored A proxy
    leave
    pure { acc_cfg with proxy_cnt := 1, proxy := some proxy }
  | none => do
    leave
    pure acc_cfg

/-- What a configuration says, its strings as bytes. -/
def acc_config_of (dflt : AccNumbers) (config : AccountSettings) : pjsua_acc_config (List UInt8) :=
  { dflt.populate config with
    cred_count := 1
    proxy_cnt := if config.proxy.isSome then 1 else dflt.proxy_cnt
    id := some (encode config.sip_uri)
    reg_uri := some (encode config.registrar_uri)
    cred_info := some {
      realm := encode (config.realm.getD ['*'])
      scheme := encode ['d', 'i', 'g', 'e', 's', 't']
      username := encode (config.auth_username.getD config.username)
      data_type := 0
      data := encode config.password }
    proxy := config.proxy.map encode }

/-- The strings `populate_acc_cfg` makes. -/
def acc_strings (config : AccountSettings) : List (List Char) :=
  [config.sip_uri, config.registrar_uri, config.realm.getD ['*'], ['d', 'i', 'g', 'e', 's', 't'],
    config.auth_username.getD config.username, config.password] ++ config.proxy.toList

/-- PJSUA copies the strings of a configuration it is given. -/
def pjsua_acc_config.copy (h : Heap Block) (cfg : pjsua_acc_config pj_str_t) : Option (pjsua_acc_config (List UInt8)) := do
  let id ← read_opt h cfg.id
  let reg_uri ← read_opt h cfg.reg_uri
  let cred_info ← match cfg.cred_info with
    | none => some none
    | some cred => do
      let realm ← cred.realm.read h
      let scheme ← cred.scheme.read h
      let username ← cred.username.read h
      let data ← cred.data.read h
      pure (some { realm, scheme, username, data_type := cred.data_type, data })
  let proxy ← read_opt h cfg.proxy
  pure { cfg.toAccNumbers with id, reg_uri, cred_info, proxy }

/-- Every string of a list can be converted. -/
def AllOk (texts : List (List Char)) : Prop := ∀ text ∈ texts, pj_string_ok text = true

theorem AllOk.append {texts texts' : List (List Char)} (h : AllOk texts) (h' : AllOk texts') : AllOk (texts ++ texts') := by
  intro text hmem
  cases List.mem_append.mp hmem with
  | inl hl => exact h text hl
  | inr hr => exact h' text hr

theorem read_opt_some {t : Scope Block} {s : pj_str_t} {text : List Char} (hshows : Shows t s text) :
    read_opt t.heap (some s) = some (some (encode text)) := by
  rw [read_opt, hshows.read]
  rfl

/-- What a scope shows for the credentials. -/
structure ShowsCred (t : Scope Block) (cred : pjsip_cred_info pj_str_t) (config : AccountSettings) : Prop where
  realm : Shows t cred.realm (config.realm.getD ['*'])
  scheme : Shows t cred.scheme ['d', 'i', 'g', 'e', 's', 't']
  username : Shows t cred.username (config.auth_username.getD config.username)
  data_type : cred.data_type = 0
  data : Shows t cred.data config.password

/-- The credentials too are shown for as long as the vector keeps their strings. -/
theorem ShowsCred.keeps {t u : Scope Block} {cred : pjsip_cred_info pj_str_t} {config : AccountSettings}
    (hcred : ShowsCred t cred config) (hkeeps : Keeps t u) : ShowsCred u cred config where
  realm := hcred.realm.keeps hkeeps
  scheme := hcred.scheme.keeps hkeeps
  username := hcred.username.keeps hkeeps
  data_type := hcred.data_type
  data := hcred.data.keeps hkeeps

/-- The strings of the credentials: local variables side by side, and then each in
    the vector. -/
theorem ends_cred_info {outer : Heap Block} {P : Prop} {s : Scope Block} (hs : Owns outer s) (A : Allocator Block)
    {config : AccountSettings} (hP : ∀ text ∈ acc_strings config, pj_string_ok text = false → P) :
    Ends outer P (fill_cred_info A config) s fun cred t =>
      (pj_string_ok (config.realm.getD ['*']) = true ∧
        pj_string_ok (config.auth_username.getD config.username) = true ∧ pj_string_ok config.password = true) ∧
      Owns outer t ∧ Keeps s t ∧ ShowsCred t cred config := by
  apply Ends.bind
  refine (ends_new hs A (hP _ (by simp [acc_strings]))).mono fun realm t₁ h₁ => ?_
  obtain ⟨ok_realm, own₁, keeps₁, realm₁, -⟩ := h₁
  apply Ends.bind
  refine (ends_new own₁ A (hP _ (by simp [acc_strings]))).mono fun scheme t₂ h₂ => ?_
  obtain ⟨-, own₂, keeps₂, scheme₂, other₂⟩ := h₂
  obtain ⟨realm₂, realm_scheme⟩ := other₂ _ _ realm₁
  apply Ends.bind
  refine (ends_new own₂ A (hP _ (by simp [acc_strings]))).mono fun username t₃ h₃ => ?_
  obtain ⟨ok_username, own₃, keeps₃, username₃, other₃⟩ := h₃
  obtain ⟨realm₃, realm_username⟩ := other₃ _ _ realm₂
  obtain ⟨scheme₃, scheme_username⟩ := other₃ _ _ scheme₂
  apply Ends.bind
  refine (ends_new own₃ A (hP _ (by simp [acc_strings]))).mono fun password t₄ h₄ => ?_
  obtain ⟨ok_password, own₄, keeps₄, password₄, other₄⟩ := h₄
  obtain ⟨realm₄, realm_password⟩ := other₄ _ _ realm₃
  obtain ⟨scheme₄, scheme_password⟩ := other₄ _ _ scheme₃
  obtain ⟨username₄, username_password⟩ := other₄ _ _ username₃
  -- They are at four different addresses, so each is still local when its turn comes.
  apply Ends.bind
  refine (ends_push own₄ realm₄).mono fun _ t₅ h₅ => ?_
  obtain ⟨own₅, keeps₅, realm₅, other₅⟩ := h₅
  have scheme₅ := other₅ _ _ scheme₄ realm_scheme.symm
  have username₅ := other₅ _ _ username₄ realm_username.symm
  have password₅ := other₅ _ _ password₄ realm_password.symm
  apply Ends.bind
  refine (ends_push own₅ scheme₅).mono fun _ t₆ h₆ => ?_
  obtain ⟨own₆, keeps₆, scheme₆, other₆⟩ := h₆
  have username₆ := other₆ _ _ username₅ scheme_username.symm
  have password₆ := other₆ _ _ password₅ scheme_password.symm
  apply Ends.bind
  refine (ends_push own₆ username₆).mono fun _ t₇ h₇ => ?_
  obtain ⟨own₇, keeps₇, username₇, other₇⟩ := h₇
  have password₇ := other₇ _ _ password₆ username_password.symm
  apply Ends.bind
  refine (ends_push own₇ password₇).mono fun _ t₈ h₈ => ?_
  obtain ⟨own₈, keeps₈, password₈, -⟩ := h₈
  have hkeeps := (((((keeps₁.trans keeps₂).trans keeps₃).trans keeps₄).trans keeps₅).trans keeps₆).trans
    (keeps₇.trans keeps₈)
  exact ⟨⟨ok_realm, ok_username, ok_password⟩, own₈, hkeeps,
    { realm := realm₅.keeps (keeps₆.trans (keeps₇.trans keeps₈))
      scheme := scheme₆.keeps (keeps₇.trans keeps₈)
      username := username₇.keeps keeps₈
      data_type := rfl
      data := password₈ }⟩

/-- What a scope shows for an account. -/
structure ShowsAcc (t : Scope Block) (cfg : pjsua_acc_config pj_str_t) (config : AccountSettings) : Prop where
  id : ∃ id, cfg.id = some id ∧ Shows t id config.sip_uri
  reg_uri : ∃ reg_uri, cfg.reg_uri = some reg_uri ∧ Shows t reg_uri config.registrar_uri
  cred_info : ∃ cred, cfg.cred_info = some cred ∧ ShowsCred t cred config
  proxy : match config.proxy with
    | some text => ∃ proxy, cfg.proxy = some proxy ∧ Shows t proxy text
    | none => cfg.proxy = none

/-- PJSUA copies what the configuration says, with its strings byte for byte. The
    numbers are taken over as they are, and need not be looked up in memory. -/
theorem ShowsAcc.copy {t : Scope Block} {cfg : pjsua_acc_config pj_str_t} {config : AccountSettings}
    (hshows : ShowsAcc t cfg config) {dflt : AccNumbers}
    (hnumbers : cfg.toAccNumbers = (acc_config_of dflt config).toAccNumbers) :
    cfg.copy t.heap = some (acc_config_of dflt config) := by
  obtain ⟨⟨id, hid, shows_id⟩, ⟨reg, hreg, shows_reg⟩, ⟨cred, hcred, shows_cred⟩, hproxy⟩ := hshows
  have hread_proxy : read_opt t.heap cfg.proxy = some (config.proxy.map encode) := by
    cases hconfig : config.proxy with
    | none =>
      rw [hconfig] at hproxy
      rw [hproxy]
      rfl
    | some text =>
      rw [hconfig] at hproxy
      obtain ⟨proxy, hcfg, shows_proxy⟩ := hproxy
      rw [hcfg]
      exact read_opt_some shows_proxy
  simp only [pjsua_acc_config.copy, hid, read_opt_some shows_id, hreg, read_opt_some shows_reg, hcred,
    shows_cred.realm.read, shows_cred.scheme.read, shows_cred.username.read, shows_cred.data.read, hread_proxy,
    hnumbers, shows_cred.data_type, Option.bind_eq_bind, Option.bind_some, Option.pure_def]
  rfl

/-- It unwinds exactly if a string has a null byte; otherwise PJSUA can copy what the
    configuration says. -/
theorem ends_populate {outer : Heap Block} {P : Prop} {s : Scope Block} (hs : Owns outer s) (A : Allocator Block)
    (dflt : AccNumbers) (config : AccountSettings)
    (hP : ∀ text ∈ acc_strings config, pj_string_ok text = false → P) :
    Ends outer P (populate_acc_cfg A (pjsua_acc_config_default _ dflt) config) s fun cfg t =>
      AllOk (acc_strings config) ∧ Owns outer t ∧ cfg.copy t.heap = some (acc_config_of dflt config) := by
  unfold populate_acc_cfg
  apply Ends.bind
  refine (ends_stored hs A (hP _ (by simp [acc_strings]))).mono fun id t₁ h₁ => ?_
  obtain ⟨ok_id, own₁, -, id₁⟩ := h₁
  apply Ends.bind
  refine (ends_stored own₁ A (hP _ (by simp [acc_strings]))).mono fun reg t₂ h₂ => ?_
  obtain ⟨ok_reg, own₂, keeps₂, reg₂⟩ := h₂
  apply Ends.bind
  refine (ends_cred_info own₂ A hP).mono fun cred t₃ h₃ => ?_
  obtain ⟨⟨ok_realm, ok_username, ok_password⟩, own₃, keeps₃, cred₃⟩ := h₃
  have hok : AllOk [config.sip_uri, config.registrar_uri, config.realm.getD ['*'], ['d', 'i', 'g', 'e', 's', 't'],
      config.auth_username.getD config.username, config.password] := by
    have ok_scheme : pj_string_ok ['d', 'i', 'g', 'e', 's', 't'] = true := by decide
    simp [AllOk, ok_id, ok_reg, ok_realm, ok_scheme, ok_username, ok_password]
  cases hproxy : config.proxy with
  | none =>
    apply Ends.bind
    refine (Ends.leave own₃).mono fun _ t₄ h₄ => ?_
    obtain ⟨own₄, keeps₄, -⟩ := h₄
    apply Ends.pure
    refine ⟨?_, own₄, ShowsAcc.copy
      { id := ⟨id, rfl, id₁.keeps (keeps₂.trans (keeps₃.trans keeps₄))⟩
        reg_uri := ⟨reg, rfl, reg₂.keeps (keeps₃.trans keeps₄)⟩
        cred_info := ⟨cred, rfl, cred₃.keeps keeps₄⟩
        proxy := by rw [hproxy]; rfl } ?_⟩
    · rw [acc_strings, hproxy, Option.toList_none, List.append_nil]
      exact hok
    · simp only [acc_config_of, hproxy]
      rfl
  | some text =>
    apply Ends.bind
    refine (ends_stored own₃ A (hP _ (by simp [acc_strings, hproxy]))).mono fun proxy t₄ h₄ => ?_
    obtain ⟨ok_proxy, own₄, keeps₄, proxy₄⟩ := h₄
    apply Ends.bind
    refine (Ends.leave own₄).mono fun _ t₅ h₅ => ?_
    obtain ⟨own₅, keeps₅, -⟩ := h₅
    apply Ends.pure
    refine ⟨?_, own₅, ShowsAcc.copy
      { id := ⟨id, rfl, id₁.keeps (keeps₂.trans (keeps₃.trans (keeps₄.trans keeps₅)))⟩
        reg_uri := ⟨reg, rfl, reg₂.keeps (keeps₃.trans (keeps₄.trans keeps₅))⟩
        cred_info := ⟨cred, rfl, cred₃.keeps (keeps₄.trans keeps₅)⟩
        proxy := by rw [hproxy]; exact ⟨proxy, rfl, proxy₄.keeps keeps₅⟩ } ?_⟩
    · rw [acc_strings, hproxy, Option.toList_some]
      exact hok.append (List.forall_mem_singleton.mpr ok_proxy)
    · simp only [acc_config_of, hproxy]
      rfl

end pjsua_app

end pjsua_rust
