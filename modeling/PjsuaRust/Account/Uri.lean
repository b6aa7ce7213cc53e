import PjsuaRust.Account.Config

open sip_grammar

namespace pjsua_rust.types

namespace AccountConfig

/-- The scheme `use_sips` chooses. -/
def scheme (cfg : AccountConfig) : Scheme := if cfg.use_sips then .sips else .sip

/-- The parameter `transport_param` writes, if it writes one: its value is behind
    `;transport=`. -/
def transport_params (cfg : AccountConfig) : List Param :=
  if cfg.transport_param = [] then []
  else [(['t', 'r', 'a', 'n', 's', 'p', 'o', 'r', 't'], some (cfg.transport_param.drop 11))]

/-- Who the account is: what its SIP URI is to be read as. -/
def identity (cfg : AccountConfig) : Address where
  display_name := cfg.display_name
  uri := { scheme := cfg.scheme, user := some cfg.username, host := cfg.server, params := cfg.transport_params }

theorem scheme_text (cfg : AccountConfig) :
    (if cfg.use_sips then ['s', 'i', 'p', 's'] else ['s', 'i', 'p']) = cfg.scheme.text := by
  unfold scheme
  split <;> rfl

/-- The transport parameter is read whatever it is, at the end of a URI and in
    angle brackets. -/
theorem params_transport (cfg : AccountConfig) {stop : List Char} (hstop : stop = [] ∨ stop = ['>']) :
    params (cfg.transport_param ++ stop).length (cfg.transport_param ++ stop) = some (cfg.transport_params, stop) := by
  unfold transport_params transport_param
  rcases hstop with rfl | rfl <;> cases cfg.transport <;> cases cfg.use_sips <;> rfl

/-- The transport parameter begins with a semicolon, if it is there. -/
theorem transport_head (cfg : AccountConfig) {stop : List Char} (hstop : stop = [] ∨ stop = ['>']) :
    ∀ c ∈ (cfg.transport_param ++ stop).head?, c = ';' ∨ c = '>' := by
  unfold transport_param
  rcases hstop with rfl | rfl <;> cases cfg.transport <;> cases cfg.use_sips <;> rintro c ⟨⟩ <;> decide

/-- So it ends the host or the port in front of it. -/
theorem transport_closes (cfg : AccountConfig) {stop : List Char} (hstop : stop = [] ∨ stop = ['>']) :
    Closes (cfg.transport_param ++ stop) := by
  intro c hc
  rcases cfg.transport_head hstop c hc with rfl | rfl <;> decide

theorem transport_not_port (cfg : AccountConfig) {stop : List Char} (hstop : stop = [] ∨ stop = ['>']) :
    (cfg.transport_param ++ stop).head? ≠ some ':' := by
  intro hport
  rcases cfg.transport_head hstop ':' hport with h | h <;> exact absurd h (by decide)

theorem dquote_not_mem_transport (cfg : AccountConfig) : DQUOTE ∉ cfg.transport_param := by
  unfold transport_param
  cases cfg.transport <;> cases cfg.use_sips <;> decide

/-- The URI of an account in `sip_uri`, and what is written behind it. -/
def spec (cfg : AccountConfig) (stop : List Char) : List Char :=
  cfg.scheme.text ++ ':' :: (cfg.username ++ '@' :: (cfg.server ++ (cfg.transport_param ++ stop)))

theorem sip_uri_none {cfg : AccountConfig} (hname : cfg.display_name = none) : cfg.sip_uri = cfg.spec [] := by
  unfold sip_uri spec
  rw [hname, scheme_text]
  simp

/-- With a display name the address is in angle brackets. -/
theorem sip_uri_some {cfg : AccountConfig} {name : List Char} (hname : cfg.display_name = some name) :
    cfg.sip_uri = DQUOTE :: (name ++ DQUOTE :: ' ' :: '<' :: cfg.spec ['>']) := by
  unfold sip_uri spec
  rw [hname, scheme_text]
  simp [DQUOTE]

/-- The part of the address behind the display name is read as the account it was
    written for. -/
theorem spec_read {cfg : AccountConfig} (huser : cfg.username ≠ [] ∧ Runs user_char cfg.username)
    (hserver : cfg.server ≠ [] ∧ Runs unreserved cfg.server) {stop : List Char} (hstop : stop = [] ∨ stop = ['>']) :
    addr_spec (cfg.spec stop) = some (cfg.identity.uri, stop) :=
  addr_spec_user cfg.scheme huser (HostPort.of_name hserver) (cfg.transport_closes hstop)
    (fun _ => cfg.transport_not_port hstop) (cfg.params_transport hstop)

theorem dquote_not_mem_spec {cfg : AccountConfig} (huser : Runs user_char cfg.username)
    (hserver : Runs unreserved cfg.server) : DQUOTE ∉ cfg.spec ['>'] := by
  have hscheme : DQUOTE ∉ cfg.scheme.text := by cases cfg.scheme <;> decide
  have hu := huser.dquote_not_mem (by decide)
  have hs := hserver.dquote_not_mem (by decide)
  have ht := cfg.dquote_not_mem_transport
  simp only [spec, List.mem_append, List.mem_cons, List.not_mem_nil, hscheme, hu, hs, ht, false_or, or_false]
  decide

/-- The SIP URI of an account is read as the account it was written for exactly if
    the user name and the server are what may stand in their places, and the display
    name has nothing in it that a quoted string does not leave as it is. Nothing is
    assumed of the account: the three strings are arbitrary. What may stand as a
    host is what `host` takes. -/
theorem sip_uri_identifies_iff (cfg : AccountConfig) :
    address cfg.sip_uri = some cfg.identity ↔
      (cfg.username ≠ [] ∧ Runs user_char cfg.username) ∧ (cfg.server ≠ [] ∧ Runs unreserved cfg.server) ∧
        ∀ name ∈ cfg.display_name, ∀ c ∈ name, qdtext c = true := by
  constructor
  · intro hread
    obtain ⟨⟨text, rest, hspec⟩, hname⟩ := address_sound hread
    obtain ⟨hserver, huser⟩ := addr_spec_sound hspec
    have huser := huser cfg.username rfl
    refine ⟨huser, hserver, ?_⟩
    intro name hsome
    obtain ⟨body, rest, hbody, hquoted⟩ := hname name hsome
    rw [sip_uri_some hsome] at hbody
    obtain rfl := (List.cons.inj hbody).2
    -- The quote behind the display name is the last one of the address.
    have htail : DQUOTE ∉ ' ' :: '<' :: cfg.spec ['>'] := by
      simp only [List.mem_cons, dquote_not_mem_spec huser.2 hserver.2, or_false]
      decide
    exact quoted_verbatim htail hquoted
  · rintro ⟨huser, hserver, hname⟩
    cases hsome : cfg.display_name with
    | none =>
      rw [sip_uri_none hsome, address_spec (spec_read huser hserver (.inl rfl))]
      · rw [← hsome]
        rfl
      · unfold spec
        cases cfg.scheme <;> simp [Scheme.text] <;> decide
    | some name =>
      rw [sip_uri_some hsome, address_name (hname name hsome) (spec_read huser hserver (.inr rfl)), ← hsome]
      rfl

/-- A display name with a quotation mark in it ends its quoted string early. The
    user name, the server and all other characters of the name are as they should
    be. -/
theorem not_sip_uri_identifies : ¬ ∀ cfg : AccountConfig,
    (cfg.username ≠ [] ∧ ∀ c ∈ cfg.username, unreserved c = true) →
    (cfg.server ≠ [] ∧ ∀ c ∈ cfg.server, unreserved c = true) →
    (∀ name ∈ cfg.display_name, ∀ c ∈ name, 0x20 ≤ c.toNat ∧ c.toNat ≠ 0x7f) →
    address cfg.sip_uri = some cfg.identity := by
  intro hall
  have hread := hall
    { username := ['6', '0', '1', '3'], server := ['p', 'b', 'x'],
      display_name := some ['A', 'l', ' ', DQUOTE, 'B', 'o', DQUOTE] }
    ⟨by decide, List.all_eq_true.mp (by decide)⟩ ⟨by decide, List.all_eq_true.mp (by decide)⟩
    (by rintro _ ⟨⟩; simp [DQUOTE])
  exact absurd hread (by decide +kernel)

/-- What the registrar URI of an account with this server is to be read as. -/
def registration (cfg : AccountConfig) (server : HostPort) : Uri where
  scheme := cfg.scheme
  host := server.name
  port := server.port <|> if cfg.dns_srv then none else some cfg.port.toNat
  params := cfg.transport_params

section

variable {cfg : AccountConfig} {server : HostPort} (hregistrar : cfg.registrar = none)
  (hserver : cfg.server = server.text)
include hregistrar hserver

/-- With `dns_srv` the port of the account is left out. -/
theorem registrar_uri_srv (hsrv : cfg.dns_srv = true) :
    cfg.registrar_uri = cfg.scheme.text ++ ':' :: (server.text ++ (cfg.transport_param ++ [])) := by
  unfold registrar_uri
  rw [hregistrar, scheme_text, hserver]
  simp [hsrv]

/-- The port of the account is written whether the server has a port already or
    not. -/
theorem registrar_uri_port (hsrv : cfg.dns_srv = false) :
    cfg.registrar_uri =
      cfg.scheme.text ++ ':' ::
        (server.text ++ ':' :: (Nat.toDigits 10 cfg.port.toNat ++ (cfg.transport_param ++ []))) := by
  unfold registrar_uri
  rw [hregistrar, scheme_text, hserver]
  simp [hsrv]

end

/-- The registrar URI is read as the scheme, the server, its own port or else that
    of the account, and the transport parameter exactly if not both ports are in it.
    The account has no registrar of its own, and its server is a host with or
    without a port; the rest of the account is arbitrary. -/
theorem registrar_uri_registers_iff (cfg : AccountConfig) (hregistrar : cfg.registrar = none) (server : HostPort)
    (hserver : cfg.server = server.text) :
    domain_uri cfg.registrar_uri = some (cfg.registration server) ↔ cfg.dns_srv = true ∨ server.digits = none := by
  have hnil : ([] : List Char) = [] ∨ ([] : List Char) = ['>'] := .inl rfl
  have hclose := cfg.transport_closes hnil
  have hparams := cfg.params_transport hnil
  cases hsrv : cfg.dns_srv with
  | true =>
    rw [registrar_uri_srv hregistrar hserver hsrv,
      domain_uri_text cfg.scheme server hclose (fun _ => cfg.transport_not_port hnil) hparams, if_pos rfl]
    simp [registration, hsrv]
  | false =>
    rw [registrar_uri_port hregistrar hserver hsrv]
    cases hdigits : server.digits with
    | none =>
      have htext : server.text ++ ':' :: (Nat.toDigits 10 cfg.port.toNat ++ (cfg.transport_param ++ [])) =
          (HostPort.of_port server.name_ok cfg.port.toNat).text ++ (cfg.transport_param ++ []) := by
        simp [HostPort.text, HostPort.of_port, hdigits]
      have hnone : server.port = none := congrArg (Option.map _) hdigits
      rw [htext, domain_uri_text cfg.scheme (HostPort.of_port server.name_ok cfg.port.toNat) hclose
        (fun _ => cfg.transport_not_port hnil) hparams, if_pos rfl, HostPort.of_port_port]
      simp [registration, hsrv, hnone, HostPort.of_port]
    | some digits =>
      -- What is left behind the server's own port is not a parameter.
      have hcolon : Closes (':' :: (Nat.toDigits 10 cfg.port.toNat ++ (cfg.transport_param ++ []))) := by
        rintro c ⟨⟩
        decide
      rw [domain_uri_text cfg.scheme server hcolon (by simp [hdigits]) rfl]
      simp

/-- Where the server has a port of its own, the condition finds what is wrong: with
    the defaults, the port of the account is put behind it. -/
theorem registrar_uri_registers_iff_two_ports :
    let cfg : AccountConfig := { server := ['p', 'b', 'x', ':', '5', '0', '7', '0'] }
    let server : HostPort :=
      { name := ['p', 'b', 'x'], digits := some ['5', '0', '7', '0'], name_ok := by decide,
        digits_ok := by rintro _ ⟨⟩; exact ⟨by decide, List.all_eq_true.mp (by decide)⟩ }
    domain_uri cfg.registrar_uri ≠ some (cfg.registration server) := by
  intro cfg server
  have hiff := registrar_uri_registers_iff cfg rfl server rfl
  exact fun hread => absurd (hiff.mp hread) (by rintro (h | h) <;> cases h)

/-- A server with a port of its own gets the port of the account behind it, and what
    comes out is not the URI of that server. -/
theorem not_registrar_uri_registers : ¬ ∀ (cfg : AccountConfig) (server : HostPort),
    cfg.registrar = none → cfg.server = server.text →
      domain_uri cfg.registrar_uri = some (cfg.registration server) := by
  intro hall
  have hread := hall { server := ['p', 'b', 'x', ':', '5', '0', '7', '0'] }
    { name := ['p', 'b', 'x'], digits := some ['5', '0', '7', '0'], name_ok := by decide,
      digits_ok := by rintro _ ⟨⟩; exact ⟨by decide, List.all_eq_true.mp (by decide)⟩ } rfl rfl
  exact absurd hread (by decide +kernel)

end AccountConfig

end pjsua_rust.types
