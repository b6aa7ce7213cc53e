import PjsuaRust.Account.Populate

open ownership
open pjsua_rust.event (encode)

namespace pjsua_rust.pjsua_app

structure TlsConfig where
  ca_list_file : Option (List Char) := none
  ca_list_path : Option (List Char) := none
  cert_file : Option (List Char) := none
  privkey_file : Option (List Char) := none
  password : Option (List Char) := none
  verify_server : Bool := false
  verify_client : Bool := false
  security_level : Option UInt8 := none
deriving DecidableEq, Repr

/-- The arguments of `create_transport` that go into its `pjsua_transport_config`.
    The type of the transport goes to `pjsua_transport_create` as it is. -/
structure TransportArgs where
  bind_addr : Option (List Char) := none
  port : UInt16
  tls : Option TlsConfig := none
  qos_dscp : Option UInt8 := none
deriving DecidableEq, Repr

/-- TLS settings, with strings and a cipher list of either kind: pointers, or what
    they lead to. -/
structure pjsip_tls_setting (S C : Type) where
  ca_list_file : Option S
  ca_list_path : Option S
  cert_file : Option S
  privkey_file : Option S
  password : Option S
  verify_server : UInt32
  verify_client : UInt32
  ciphers : Option C
deriving DecidableEq, Repr

structure pjsua_transport_config (S C : Type) where
  port : UInt32
  bound_addr : Option S
  qos_flags : UInt32
  dscp_val : UInt8
  tls_setting : pjsip_tls_setting S C
deriving DecidableEq, Repr

/-- The numbers of `pjsua_transport_config_default`, which sets no string and no
    cipher list. -/
structure TransportNumbers where
  qos_flags : UInt32
  dscp_val : UInt8
  verify_server : UInt32
  verify_client : UInt32
deriving DecidableEq, Repr

def pjsip_tls_setting_default (S C : Type) (dflt : TransportNumbers) : pjsip_tls_setting S C where
  ca_list_file := none
  ca_list_path := none
  cert_file := none
  privkey_file := none
  password := none
  verify_server := dflt.verify_server
  verify_client := dflt.verify_client
  ciphers := none

def PJ_SSL_CIPHER_DEFAULT : UInt32 := 0xFF000000

/-- The list for a security level, of which there are 0 to 5. -/
def seclevel_ciphers (level : UInt8) : List UInt32 :=
  [PJ_SSL_CIPHER_DEFAULT, 0xFF000001 + (min level 5).toUInt32]

/-- `if let Some(ref text) = field`, with the string stored. -/
def store_opt (A : Allocator Block) : Option (List Char) → Own Block (Option pj_str_t)
  | some text => do
    let str ← PjString.stored A text
    pure (some str)
  | none => pure none

/-- The vector of ciphers, once both are pushed: `as_mut_ptr` and `len`. -/
def store_ciphers (A : Allocator Block) : Option UInt8 → Own Block (Option (Nat × Nat))
  | some level => do
    let ptr ← alloc A (.ciphers (seclevel_ciphers level))
    pure (some (ptr, 2))
  | none => pure none

def fill_tls (A : Allocator Block) (dflt : TransportNumbers) :
    Option TlsConfig → Own Block (pjsip_tls_setting pj_str_t (Nat × Nat))
  | some tls_cfg => do
    let ca_list_file ← store_opt A tls_cfg.ca_list_file
    let ca_list_path ← store_opt A tls_cfg.ca_list_path
    let cert_file ← store_opt A tls_cfg.cert_file
    let privkey_file ← store_opt A tls_cfg.privkey_file
    let password ← store_opt A tls_cfg.password
    let ciphers ← store_ciphers A tls_cfg.security_level
    pure {
      ca_list_file, ca_list_path, cert_file, privkey_file, password, ciphers
      verify_server := if tls_cfg.verify_server then 1 else 0
      verify_client := if tls_cfg.verify_client then 1 else 0 }
  | none => pure (pjsip_tls_setting_default _ _ dflt)

/-- `create_transport` up to the call of PJSUA. -/
def fill_tp_cfg (A : Allocator Block) (dflt : TransportNumbers) (args : TransportArgs) :
    Own Block (pjsua_transport_config pj_str_t (Nat × Nat)) := do
  let bound_addr ← store_opt A args.bind_addr
  let tls_setting ← fill_tls A dflt args.tls
  pure {
    port := args.port.toUInt32
    bound_addr
    qos_flags := if args.qos_dscp.isSome then 1 else dflt.qos_flags
    dscp_val := args.qos_dscp.getD dflt.dscp_val
    tls_setting }

/-- What the arguments say. -/
def tp_config_of (dflt : TransportNumbers) (args : TransportArgs) :
    pjsua_transport_config (List UInt8) (List UInt32) where
  port := args.port.toUInt32
  bound_addr := args.bind_addr.map encode
  qos_flags := if args.qos_dscp.isSome then 1 else dflt.qos_flags
  dscp_val := args.qos_dscp.getD dflt.dscp_val
  tls_setting :=
    match args.tls with
    | some tls_cfg => {
        ca_list_file := tls_cfg.ca_list_file.map encode
        ca_list_path := tls_cfg.ca_list_path.map encode
        cert_file := tls_cfg.cert_file.map encode
        privkey_file := tls_cfg.privkey_file.map encode
        password := tls_cfg.password.map encode
        verify_server := if tls_cfg.verify_server then 1 else 0
        verify_client := if tls_cfg.verify_client then 1 else 0
        ciphers := tls_cfg.security_level.map seclevel_ciphers }
    | none => pjsip_tls_setting_default _ _ dflt

/-- The strings `create_transport` makes of TLS settings, -/
def tls_strings (tls : TlsConfig) : List (List Char) :=
  tls.ca_list_file.toList ++ tls.ca_list_path.toList ++ tls.cert_file.toList ++ tls.privkey_file.toList ++
    tls.password.toList

/-- and of all its arguments. -/
def tp_strings (args : TransportArgs) : List (List Char) := args.bind_addr.toList ++ args.tls.elim [] tls_strings

/-- PJSUA copies a cipher list of a given length. -/
def read_ciphers (h : Heap Block) : Option (Nat × Nat) → Option (Option (List UInt32))
  | none => some none
  | some (ptr, num) =>
    match h.read ptr with
    | some (.ciphers c) => if num ≤ c.length then some (some (c.take num)) else none
    | _ => none

/-- PJSUA copies the strings and the ciphers of a transport. -/
def pjsua_transport_config.copy (h : Heap Block) (cfg : pjsua_transport_config pj_str_t (Nat × Nat)) :
    Option (pjsua_transport_config (List UInt8) (List UInt32)) := do
  let bound_addr ← read_opt h cfg.bound_addr
  let ca_list_file ← read_opt h cfg.tls_setting.ca_list_file
  let ca_list_path ← read_opt h cfg.tls_setting.ca_list_path
  let cert_file ← read_opt h cfg.tls_setting.cert_file
  let privkey_file ← read_opt h cfg.tls_setting.privkey_file
  let password ← read_opt h cfg.tls_setting.password
  let ciphers ← read_ciphers h cfg.tls_setting.ciphers
  pure {
    port := cfg.port
    bound_addr
    qos_flags := cfg.qos_flags
    dscp_val := cfg.dscp_val
    tls_setting := {
      ca_list_file, ca_list_path, cert_file, privkey_file, password, ciphers
      verify_server := cfg.tls_setting.verify_server
      verify_client := cfg.tls_setting.verify_client } }

/-- What `pj_dns_resolver_set_ns` gets from `set_nameservers`. -/
def fill_nameservers (A : Allocator Block) (servers : List (List Char)) : Own Block (List pj_str_t) :=
  (servers.take MAX_NAMESERVERS).mapM (PjString.stored A)

/-- An optional string: it is there to be read if it was given. -/
def ShowsOpt (t : Scope Block) (str : Option pj_str_t) (text : Option (List Char)) : Prop :=
  match text with
  | some text => ∃ s, str = some s ∧ Shows t s text
  | none => str = none

/-- An optional string is shown for as long as the vector keeps it. -/
theorem ShowsOpt.keeps {t u : Scope Block} {str : Option pj_str_t} {text : Option (List Char)}
    (hshows : ShowsOpt t str text) (hkeeps : Keeps t u) : ShowsOpt u str text := by
  cases text with
  | none => exact hshows
  | some text =>
    obtain ⟨s, hstr, hs⟩ := hshows
    exact ⟨s, hstr, hs.keeps hkeeps⟩

/-- It is read back as its bytes, or as no string at all. The heap is the one at the
    time of the call. -/
theorem ShowsOpt.read {t : Scope Block} {str : Option pj_str_t} {text : Option (List Char)}
    (hshows : ShowsOpt t str text) : read_opt t.heap str = some (text.map encode) := by
  cases text with
  | none =>
    rw [show str = none from hshows]
    rfl
  | some text =>
    obtain ⟨s, rfl, hs⟩ := hshows
    exact read_opt_some hs

section Bodies

variable {outer : Heap Block} {P : Prop} {s : Scope Block}

/-- An optional string is stored if it is there. Only then can it panic, and only
    because of a null byte in it. -/
theorem ends_store_opt (hs : Owns outer s) (A : Allocator Block) {text : Option (List Char)}
    (hP : ∀ t ∈ text.toList, pj_string_ok t = false → P) :
    Ends outer P (store_opt A text) s fun str t =>
      AllOk text.toList ∧ Owns outer t ∧ Keeps s t ∧ ShowsOpt t str text := by
  cases text with
  | none => exact Ends.pure ⟨fun _ h => absurd h List.not_mem_nil, hs, fun _ _ h => h, rfl⟩
  | some text =>
    apply Ends.bind
    refine (ends_stored hs A (hP text (List.mem_singleton_self text))).mono fun str t ht => ?_
    obtain ⟨hok, hown, hkeeps, hshows⟩ := ht
    exact Ends.pure ⟨fun _ h => List.mem_singleton.mp h ▸ hok, hown, hkeeps, str, rfl, hshows⟩

/-- The ciphers are read through the pointer and the length. The array outlives the
    call, and is dropped with the scope. -/
theorem ends_store_ciphers (hs : Owns outer s) (A : Allocator Block) (level : Option UInt8) :
    Ends outer P (store_ciphers A level) s fun ciphers t =>
      Owns outer t ∧ Keeps s t ∧ read_ciphers t.heap ciphers = some (level.map seclevel_ciphers) := by
  cases level with
  | none => exact Ends.pure ⟨hs, fun _ _ h => h, rfl⟩
  | some level =>
    apply Ends.bind
    refine (Ends.alloc hs A _).mono fun ptr t ht => ?_
    obtain ⟨hown, hkeeps, -, hlocal⟩ := ht
    refine Ends.pure ⟨hown, hkeeps, ?_⟩
    rw [read_ciphers, hlocal.2]
    rfl

/-- What a scope shows of TLS settings. -/
def ShowsTls (t : Scope Block) (tls : pjsip_tls_setting pj_str_t (Nat × Nat)) (tls_cfg : TlsConfig) : Prop :=
  ShowsOpt t tls.ca_list_file tls_cfg.ca_list_file ∧ ShowsOpt t tls.ca_list_path tls_cfg.ca_list_path ∧
    ShowsOpt t tls.cert_file tls_cfg.cert_file ∧ ShowsOpt t tls.privkey_file tls_cfg.privkey_file ∧
    ShowsOpt t tls.password tls_cfg.password ∧
    read_ciphers t.heap tls.ciphers = some (tls_cfg.security_level.map seclevel_ciphers) ∧
    tls.verify_server = (if tls_cfg.verify_server then 1 else 0) ∧
    tls.verify_client = if tls_cfg.verify_client then 1 else 0

/-- The TLS settings show what was asked for, with all their strings in the vector.
    A null byte in any of them panics, and then those made before it are dropped
    with the vector. -/
theorem ends_fill_tls (hs : Owns outer s) (A : Allocator Block) (dflt : TransportNumbers) (tls_cfg : TlsConfig)
    (hP : ∀ text ∈ tls_strings tls_cfg, pj_string_ok text = false → P) :
    Ends outer P (fill_tls A dflt (some tls_cfg)) s fun tls t =>
      AllOk (tls_strings tls_cfg) ∧ Owns outer t ∧ Keeps s t ∧ ShowsTls t tls tls_cfg := by
  have hfile (field : Option (List Char)) (hmem : ∀ t ∈ field.toList, t ∈ tls_strings tls_cfg) :
      ∀ t ∈ field.toList, pj_string_ok t = false → P := fun t ht => hP t (hmem t ht)
  apply Ends.bind
  refine (ends_store_opt hs A (hfile _ fun t ht => by simp [tls_strings, ht])).mono fun ca t₁ h₁ => ?_
  obtain ⟨ok_ca, own₁, keeps₁, ca₁⟩ := h₁
  apply Ends.bind
  refine (ends_store_opt own₁ A (hfile _ fun t ht => by simp [tls_strings, ht])).mono fun path t₂ h₂ => ?_
  obtain ⟨ok_path, own₂, keeps₂, path₂⟩ := h₂
  apply Ends.bind
  refine (ends_store_opt own₂ A (hfile _ fun t ht => by simp [tls_strings, ht])).mono fun cert t₃ h₃ => ?_
  obtain ⟨ok_cert, own₃, keeps₃, cert₃⟩ := h₃
  apply Ends.bind
  refine (ends_store_opt own₃ A (hfile _ fun t ht => by simp [tls_strings, ht])).mono fun key t₄ h₄ => ?_
  obtain ⟨ok_key, own₄, keeps₄, key₄⟩ := h₄
  apply Ends.bind
  refine (ends_store_opt own₄ A (hfile _ fun t ht => by simp [tls_strings, ht])).mono fun password t₅ h₅ => ?_
  obtain ⟨ok_password, own₅, keeps₅, password₅⟩ := h₅
  apply Ends.bind
  refine (ends_store_ciphers own₅ A _).mono fun ciphers t₆ h₆ => ?_
  obtain ⟨own₆, keeps₆, hciphers⟩ := h₆
  have keeps₄₆ := keeps₅.trans keeps₆
  have keeps₃₆ := keeps₄.trans keeps₄₆
  have keeps₂₆ := keeps₃.trans keeps₃₆
  have keeps₁₆ := keeps₂.trans keeps₂₆
  exact Ends.pure ⟨(((ok_ca.append ok_path).append ok_cert).append ok_key).append ok_password, own₆,
    keeps₁.trans keeps₁₆, ca₁.keeps keeps₁₆, path₂.keeps keeps₂₆, cert₃.keeps keeps₃₆, key₄.keeps keeps₄₆,
    password₅.keeps keeps₆, hciphers, rfl, rfl⟩

/-- `create_transport` unwinds exactly if one of its strings has a null byte;
    otherwise PJSUA can copy what the arguments say. -/
theorem ends_fill_tp_cfg (hs : Owns outer s) (A : Allocator Block) (dflt : TransportNumbers) (args : TransportArgs)
    (hP : ∀ text ∈ tp_strings args, pj_string_ok text = false → P) :
    Ends outer P (fill_tp_cfg A dflt args) s fun cfg t =>
      AllOk (tp_strings args) ∧ Owns outer t ∧ cfg.copy t.heap = some (tp_config_of dflt args) := by
  apply Ends.bind
  refine (ends_store_opt hs A fun text ht => hP text (by simp [tp_strings, ht])).mono fun bound t₁ h₁ => ?_
  obtain ⟨ok_bound, own₁, -, bound₁⟩ := h₁
  cases htls : args.tls with
  | none =>
    apply Ends.bind
    apply Ends.pure
    apply Ends.pure
    refine ⟨?_, own₁, ?_⟩
    · rw [tp_strings, htls, Option.elim_none, List.append_nil]
      exact ok_bound
    · have hnone : read_opt t₁.heap none = some none := rfl
      have hciphers : read_ciphers t₁.heap none = some none := rfl
      simp only [pjsua_transport_config.copy, bound₁.read, tp_config_of, htls, pjsip_tls_setting_default, hnone,
        hciphers, Option.bind_eq_bind, Option.bind_some, Option.pure_def]
  | some tls_cfg =>
    apply Ends.bind
    refine (ends_fill_tls own₁ A dflt tls_cfg fun text ht => hP text (by
      rw [tp_strings, htls, Option.elim_some]
      exact List.mem_append_right _ ht)).mono fun tls t₂ h₂ => ?_
    obtain ⟨ok_tls, own₂, keeps₂, hca, hpath, hcert, hkey, hpassword, hciphers, hserver, hclient⟩ := h₂
    apply Ends.pure
    refine ⟨?_, own₂, ?_⟩
    · rw [tp_strings, htls, Option.elim_some]
      exact ok_bound.append ok_tls
    · simp only [pjsua_transport_config.copy, (bound₁.keeps keeps₂).read, hca.read, hpath.read, hcert.read, hkey.read,
        hpassword.read, hciphers, hserver, hclient, tp_config_of, htls, Option.bind_eq_bind, Option.bind_some,
        Option.pure_def]

/-- The holders of a list of strings, made one after the other. Each of them still
    shows its text once the later ones are made. -/
theorem ends_stored_all (hs : Owns outer s) (A : Allocator Block) {texts : List (List Char)}
    (hP : ∀ text ∈ texts, pj_string_ok text = false → P) :
    Ends outer P (texts.mapM (PjString.stored A)) s fun strs t =>
      AllOk texts ∧ Owns outer t ∧ Keeps s t ∧ List.Forall₂ (fun str text => Shows t str text) strs texts := by
  induction texts generalizing s with
  | nil =>
    rw [List.mapM_nil]
    exact Ends.pure ⟨fun _ h => absurd h List.not_mem_nil, hs, fun _ _ h => h, .nil⟩
  | cons text texts ih =>
    rw [List.mapM_cons]
    apply Ends.bind
    refine (ends_stored hs A (hP text List.mem_cons_self)).mono fun str t ht => ?_
    obtain ⟨hok, hown, hkeeps, hshows⟩ := ht
    apply Ends.bind
    refine (ih hown fun text hmem => hP text (List.mem_cons_of_mem _ hmem)).mono fun strs u hu => ?_
    obtain ⟨hoks, hown', hkeeps', hall⟩ := hu
    exact Ends.pure ⟨List.forall_mem_cons.mpr ⟨hok, hoks⟩, hown', hkeeps.trans hkeeps',
      .cons (hshows.keeps hkeeps') hall⟩

end Bodies

/-- The nameservers are copied as they were given, one after the other; none of them
    is gone by then. -/
theorem mapM_read_of_shows {t : Scope Block} {strs : List pj_str_t} {texts : List (List Char)}
    (hall : List.Forall₂ (fun str text => Shows t str text) strs texts) :
    strs.mapM (fun str => str.read t.heap) = some (texts.map encode) := by
  induction hall with
  | nil => rfl
  | cons hshows _ ih =>
    rw [List.mapM_cons, hshows.read, ih]
    rfl

end pjsua_rust.pjsua_app
