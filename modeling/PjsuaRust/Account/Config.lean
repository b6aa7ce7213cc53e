import PjsuaRust.Sip.Grammar

open sip_grammar (DQUOTE)

namespace pjsua_rust.types

inductive TransportType where
  | Udp
  | Tcp
  | Tls
deriving DecidableEq, Repr

/-- What the URIs of an account are made of. -/
structure AccountConfig where
  username : List Char := []
  server : List Char := []
  port : UInt16 := 5060
  transport : TransportType := .Udp
  display_name : Option (List Char) := none
  use_sips : Bool := false
  dns_srv : Bool := false
  registrar : Option (List Char) := none
deriving DecidableEq

namespace AccountConfig

def transport_param (self : AccountConfig) : List Char :=
  match self.transport, self.use_sips with
  | .Tcp, _ => [';', 't', 'r', 'a', 'n', 's', 'p', 'o', 'r', 't', '=', 't', 'c', 'p']
  | .Tls, false => [';', 't', 'r', 'a', 'n', 's', 'p', 'o', 'r', 't', '=', 't', 'l', 's']
  | _, _ => []

def sip_uri (self : AccountConfig) : List Char :=
  let scheme := if self.use_sips then ['s', 'i', 'p', 's'] else ['s', 'i', 'p']
  let tp := self.transport_param
  match self.display_name with
  | some name =>
    [DQUOTE] ++ name ++ [DQUOTE, ' ', '<'] ++ scheme ++ [':'] ++ self.username ++ ['@'] ++ self.server ++ tp ++ ['>']
  | none => scheme ++ [':'] ++ self.username ++ ['@'] ++ self.server ++ tp

def registrar_uri (self : AccountConfig) : List Char :=
  match self.registrar with
  | some reg => reg
  | none =>
    let scheme := if self.use_sips then ['s', 'i', 'p', 's'] else ['s', 'i', 'p']
    let tp := self.transport_param
    if self.dns_srv then scheme ++ [':'] ++ self.server ++ tp
    else scheme ++ [':'] ++ self.server ++ [':'] ++ Nat.toDigits 10 self.port.toNat ++ tp

end AccountConfig

end pjsua_rust.types
