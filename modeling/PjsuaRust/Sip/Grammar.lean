import Mathlib

namespace sip_grammar

def DQUOTE : Char := Char.ofNat 0x22

def BACKSLASH : Char := Char.ofNat 0x5c

def APOSTROPHE : Char := Char.ofNat 0x27

/-- Alphanumeric characters and marks. -/
def unreserved (c : Char) : Bool :=
  c.isAlphanum || c ∈ ['-', '_', '.', '!', '~', '*', APOSTROPHE, '(', ')']

def is_hex (c : Char) : Bool := c.isDigit || ('a' ≤ c && c ≤ 'f') || ('A' ≤ c && c ≤ 'F')

/-- The characters of a user name, apart from escapes. -/
def user_char (c : Char) : Bool := unreserved c || c ∈ ['&', '=', '+', '$', ',', ';', '?', '/']

def password_char (c : Char) : Bool := unreserved c || c ∈ ['&', '=', '+', '$', ',']

def param_char (c : Char) : Bool := unreserved c || c ∈ ['[', ']', '/', ':', '&', '+', '$']

/-- The characters of a quoted string that stand for themselves. -/
def qdtext (c : Char) : Bool :=
  (c = '\t' || 0x20 ≤ c.toNat) && c ≠ DQUOTE && c ≠ BACKSLASH && c.toNat ≠ 0x7f

/-- The longest run of characters of one class and of escapes, and what follows
    it. -/
def run (ok : Char → Bool) : List Char → List Char × List Char
  | [] => ([], [])
  | c :: text =>
    if ok c then (c :: (run ok text).1, (run ok text).2)
    else
      match text with
      | h :: l :: rest =>
        if c = '%' ∧ is_hex h = true ∧ is_hex l = true then (c :: h :: l :: (run ok rest).1, (run ok rest).2)
        else ([], c :: h :: l :: rest)
      | _ => ([], c :: text)

/-- A quoted string from behind its opening quote: the string it stands for, in
    which a backslash escapes the next character, and what follows it. -/
def quoted : List Char → Option (List Char × List Char)
  | [] => none
  | c :: text =>
    if c = DQUOTE then some ([], text)
    else if c = BACKSLASH then
      match text with
      | [] => none
      | d :: rest => (quoted rest).map fun (value, rest) => (d :: value, rest)
    else if qdtext c then (quoted text).map fun (value, rest) => (c :: value, rest)
    else none

inductive Scheme where
  | sip
  | sips
deriving DecidableEq, Repr

/-- A parameter with its value, if it has one. -/
abbrev Param := List Char × Option (List Char)

/-- A SIP or SIPS URI without headers. -/
structure Uri where
  scheme : Scheme
  user : Option (List Char) := none
  password : Option (List Char) := none
  host : List Char
  port : Option Nat := none
  params : List Param := []
deriving DecidableEq, Repr

/-- An address with a display name, or a URI alone. -/
structure Address where
  display_name : Option (List Char)
  uri : Uri
deriving DecidableEq, Repr

def Scheme.text : Scheme → List Char
  | .sip => ['s', 'i', 'p']
  | .sips => ['s', 'i', 'p', 's']

def scheme : List Char → Option (Scheme × List Char)
  | 's' :: 'i' :: 'p' :: ':' :: text => some (.sip, text)
  | 's' :: 'i' :: 'p' :: 's' :: ':' :: text => some (.sips, text)
  | _ => none

/-- A user name, a password if there is one, and the at sign. -/
def userinfo (text : List Char) : Option ((List Char × Option (List Char)) × List Char) :=
  let (user, text) := run user_char text
  if user = [] then none
  else
    match text with
    | '@' :: text => some ((user, none), text)
    | ':' :: text =>
      match run password_char text with
      | (password, '@' :: text) => some ((user, some password), text)
      | _ => none
    | _ => none

/-- A host name or an IPv4 address; both are runs of unreserved characters. This is
    wider than the `hostname` of RFC 3261, which has labels of letters, digits and
    inner hyphens only, and takes escapes; and it is narrower in that it has no IPv6
    references in brackets. -/
def host (text : List Char) : Option (List Char × List Char) :=
  let (host, text) := run unreserved text
  if host = [] then none else some (host, text)

def port : List Char → Option (Option Nat × List Char)
  | ':' :: text =>
    let digits := text.takeWhile Char.isDigit
    if digits = [] then none else some (some (Nat.ofDigitChars 10 digits 0), text.dropWhile Char.isDigit)
  | text => some (none, text)

/-- As many parameters as follow one another. Each takes a character at least, so
    that the length of the text is enough `fuel`. -/
def params : Nat → List Char → Option (List Param × List Char)
  | fuel + 1, ';' :: text =>
    match run param_char text with
    | ([], _) => none
    | (name, '=' :: text) =>
      match run param_char text with
      | ([], _) => none
      | (value, text) => (params fuel text).map fun (ps, rest) => ((name, some value) :: ps, rest)
    | (name, text) => (params fuel text).map fun (ps, rest) => ((name, none) :: ps, rest)
  | _, text => some ([], text)

/-- Host, port and parameters, behind a scheme and what belongs to the user. -/
def hostport (uri : List Char → Option Nat → List Param → Uri) (text : List Char) : Option (Uri × List Char) := do
  let (host, text) ← host text
  let (port, text) ← port text
  let (params, text) ← params text.length text
  return (uri host port params, text)

/-- A URI at the start of the text, and what follows it. -/
def addr_spec (text : List Char) : Option (Uri × List Char) := do
  let (scheme, text) ← scheme text
  match userinfo text with
  | some ((user, password), text) =>
    hostport (fun host port params => { scheme, user := some user, password, host, port, params }) text
  | none => hostport (fun host port params => { scheme, host, port, params }) text

/-- A URI of a domain: there is no user in it, and nothing behind it. -/
def domain_uri (text : List Char) : Option Uri := do
  let (scheme, text) ← scheme text
  let (uri, rest) ← hostport (fun host port params => { scheme, host, port, params }) text
  if rest = [] then return uri else none

/-- A quoted display name and a URI in angle brackets, or a URI alone, whose
    parameters are then its own. Nothing is left behind it. -/
def address : List Char → Option Address
  | [] => none
  | c :: text =>
    if c = DQUOTE then do
      let (name, text) ← quoted text
      match text.dropWhile (· ∈ [' ', '\t']) with
      | '<' :: text =>
        let (uri, rest) ← addr_spec text
        if rest = ['>'] then return { display_name := some name, uri } else none
      | _ => none
    else do
      let (uri, rest) ← addr_spec (c :: text)
      if rest = [] then return { display_name := none, uri } else none

/-- All of the text is one run. -/
def Runs (ok : Char → Bool) (text : List Char) : Prop := run ok text = (text, [])

instance (ok : Char → Bool) (text : List Char) : Decidable (Runs ok text) := inferInstanceAs (Decidable (_ = _))

/-- A host name, with an explicit port or without one. -/
structure HostPort where
  name : List Char
  digits : Option (List Char) := none
  name_ok : name ≠ [] ∧ Runs unreserved name
  digits_ok : ∀ ds ∈ digits, ds ≠ [] ∧ ∀ c ∈ ds, c.isDigit = true

def HostPort.text (h : HostPort) : List Char :=
  match h.digits with
  | none => h.name
  | some digits => h.name ++ ':' :: digits

def HostPort.port (h : HostPort) : Option Nat := h.digits.map (Nat.ofDigitChars 10 · 0)

def HostPort.of_name {name : List Char} (hname : name ≠ [] ∧ Runs unreserved name) : HostPort where
  name := name
  name_ok := hname
  digits_ok := by rintro ds ⟨⟩

/-- A port in decimal digits behind a name. -/
def HostPort.of_port {name : List Char} (hname : name ≠ [] ∧ Runs unreserved name) (port : Nat) : HostPort where
  name := name
  digits := some (Nat.toDigits 10 port)
  name_ok := hname
  digits_ok := by
    rintro ds ⟨⟩
    exact ⟨Nat.toDigits_ne_nil, fun c hc => Nat.isDigit_of_mem_toDigits (by decide) (by decide) hc⟩

theorem HostPort.of_port_port {name : List Char} (hname : name ≠ [] ∧ Runs unreserved name) (port : Nat) :
    (of_port hname port).port = some port :=
  congrArg some Nat.ofDigitChars_ten_toDigits

/-- What may stand behind a host: nothing that belongs to one. -/
def Closes (rest : List Char) : Prop := ∀ c ∈ rest.head?, unreserved c = false ∧ c ≠ '%'

variable {ok : Char → Bool} {text rest : List Char}

theorem run_cons {c : Char} (hc : ok c = true) (text : List Char) :
    run ok (c :: text) = (c :: (run ok text).1, (run ok text).2) := by
  conv => lhs; unfold run
  rw [if_pos hc]

/-- An escape of two digits is part of a run. -/
theorem run_escape {c h l : Char} (hc : ¬ ok c = true) (hescape : c = '%' ∧ is_hex h = true ∧ is_hex l = true)
    (rest : List Char) : run ok (c :: h :: l :: rest) = (c :: h :: l :: (run ok rest).1, (run ok rest).2) := by
  rw [run, if_neg hc]
  exact if_pos hescape

/-- A character that is neither of the class nor starts an escape ends a run. -/
theorem run_stop (hstop : ∀ c ∈ rest.head?, ok c = false ∧ c ≠ '%') : run ok rest = ([], rest) := by
  cases rest with
  | nil => rfl
  | cons c rest =>
    obtain ⟨hc, hescape⟩ := hstop c rfl
    unfold run
    rw [if_neg (by simp [hc])]
    split
    · rw [if_neg (fun h => hescape h.1)]
    · rfl

/-- A run that was read is one. -/
theorem runs_run (ok : Char → Bool) (text : List Char) : Runs ok (run ok text).1 := by
  fun_induction run ok text with
  | case1 => rfl
  | case2 c text hc ih => rw [Runs, run_cons hc, ih]
  | case3 c hc h l rest hescape ih => rw [Runs, run_escape hc hescape, ih]
  | case4 => rfl
  | case5 => rfl

/-- A run goes as far as its characters do, up to a character that is neither of the
    class nor the start of an escape. -/
theorem Runs.run_append (hruns : Runs ok text) (hstop : ∀ c ∈ rest.head?, ok c = false ∧ c ≠ '%') :
    run ok (text ++ rest) = (text, rest) := by
  unfold Runs at hruns
  fun_induction run ok text with
  | case1 => exact run_stop hstop
  | case2 c text hc ih =>
    obtain ⟨htext, hnil⟩ := Prod.mk.inj hruns
    rw [List.cons_append, run_cons hc, ih (Prod.ext (List.cons.inj htext).2 hnil)]
  | case3 c hc h l tail hescape ih =>
    obtain ⟨htext, hnil⟩ := Prod.mk.inj hruns
    simp only [List.cons.injEq, true_and] at htext
    rw [List.cons_append, List.cons_append, List.cons_append, run_escape hc hescape, ih (Prod.ext htext hnil)]
  | case4 => cases hruns
  | case5 => cases hruns

/-- The characters of a run are of the class, or belong to an escape. -/
theorem Runs.mem {c : Char} (hruns : Runs ok text) (hc : c ∈ text) : ok c = true ∨ c = '%' ∨ is_hex c = true := by
  unfold Runs at hruns
  fun_induction run ok text with
  | case1 => cases hc
  | case2 d text hd ih =>
    obtain ⟨htext, hnil⟩ := Prod.mk.inj hruns
    rcases List.mem_cons.mp hc with rfl | hc
    · exact .inl hd
    · exact ih (Prod.ext (List.cons.inj htext).2 hnil) hc
  | case3 d hd h l tail hescape ih =>
    obtain ⟨htext, hnil⟩ := Prod.mk.inj hruns
    simp only [List.cons.injEq, true_and] at htext
    simp only [List.mem_cons] at hc
    rcases hc with rfl | rfl | rfl | hc
    · exact .inr (.inl hescape.1)
    · exact .inr (.inr hescape.2.1)
    · exact .inr (.inr hescape.2.2)
    · exact ih (Prod.ext htext hnil) hc
  | case4 => cases hruns
  | case5 => cases hruns

theorem Runs.dquote_not_mem (hruns : Runs ok text) (hok : ok DQUOTE = false) : DQUOTE ∉ text := by
  intro hmem
  rcases hruns.mem hmem with hc | hc | hc
  · rw [hok] at hc
    cases hc
  · exact absurd hc (by decide)
  · exact absurd hc (by decide)

/-- The text behind the opening quote of a quoted string that stands for `value`,
    up to its closing quote. -/
inductive Quotes : List Char → List Char → Prop where
  | nil : Quotes [] []
  | plain {c : Char} {body value : List Char} (hc : qdtext c = true) (hbody : Quotes body value) :
      Quotes (c :: body) (c :: value)
  | escaped (c : Char) {body value : List Char} (hbody : Quotes body value) :
      Quotes (BACKSLASH :: c :: body) (c :: value)

theorem qdtext_ne {c : Char} (hc : qdtext c = true) : c ≠ DQUOTE ∧ c ≠ BACKSLASH := by
  simp only [qdtext, Bool.and_eq_true, decide_eq_true_eq, ne_eq] at hc
  exact ⟨hc.1.1.2, hc.1.2⟩

/-- What is read as a quoted string ends at an unescaped quotation mark, and what it
    stands for is what is left without the backslashes. -/
theorem quoted_sound {value rest : List Char} (hread : quoted text = some (value, rest)) :
    ∃ body, text = body ++ DQUOTE :: rest ∧ Quotes body value := by
  fun_induction quoted text generalizing value with
  | case1 => cases hread
  | case2 text =>
    cases hread
    exact ⟨[], rfl, .nil⟩
  | case3 => cases hread
  | case4 d rest' hne ih =>
    obtain ⟨⟨value', rest''⟩, hquoted, heq⟩ := Option.map_eq_some_iff.mp hread
    cases heq
    obtain ⟨body, hbody, hquotes⟩ := ih hquoted
    exact ⟨BACKSLASH :: d :: body, by rw [hbody]; rfl, .escaped d hquotes⟩
  | case5 c text hquote hescape hc ih =>
    obtain ⟨⟨value', rest''⟩, hquoted, heq⟩ := Option.map_eq_some_iff.mp hread
    cases heq
    obtain ⟨body, hbody, hquotes⟩ := ih hquoted
    exact ⟨c :: body, by rw [hbody]; rfl, .plain hc hquotes⟩
  | case6 => cases hread

/-- Escapes only make text longer. -/
theorem Quotes.length_le {body value : List Char} (hquotes : Quotes body value) : value.length ≤ body.length := by
  induction hquotes with
  | nil => exact Nat.le_refl _
  | plain hc _ ih => exact Nat.succ_le_succ ih
  | escaped c _ ih =>
    simp only [List.length_cons]
    omega

/-- Only a text without escapes is as long as what it stands for. -/
theorem Quotes.eq_of_length {body value : List Char} (hquotes : Quotes body value)
    (hlength : body.length ≤ value.length) : ∀ c ∈ value, qdtext c = true := by
  induction hquotes with
  | nil => exact fun c hc => absurd hc List.not_mem_nil
  | plain hc _ ih =>
    intro d hd
    rcases List.mem_cons.mp hd with rfl | hd
    · exact hc
    · exact ih (Nat.le_of_succ_le_succ hlength) d hd
  | escaped c hbody ih =>
    have hle := hbody.length_le
    simp only [List.length_cons] at hlength
    omega

/-- A name without quotation marks, backslashes and control characters is read as it
    is. -/
theorem quoted_plain {value : List Char} (hvalue : ∀ c ∈ value, qdtext c = true) (rest : List Char) :
    quoted (value ++ DQUOTE :: rest) = some (value, rest) := by
  induction value with
  | nil =>
    unfold quoted
    exact if_pos rfl
  | cons c value ih =>
    have hc := hvalue c List.mem_cons_self
    obtain ⟨hquote, hescape⟩ := qdtext_ne hc
    rw [List.cons_append]
    unfold quoted
    rw [if_neg hquote, if_neg hescape, if_pos hc, ih fun d hd => hvalue d (List.mem_cons_of_mem _ hd)]
    rfl

/-- A string put between quotes as it is stands for itself exactly if each of its
    characters does, provided that there is no other quote behind it. -/
theorem quoted_verbatim {value tail : List Char} (htail : DQUOTE ∉ tail) {rest : List Char}
    (hread : quoted (value ++ DQUOTE :: tail) = some (value, rest)) : ∀ c ∈ value, qdtext c = true := by
  obtain ⟨body, hbody, hquotes⟩ := quoted_sound hread
  apply hquotes.eq_of_length
  by_contra hlonger
  -- The closing quote would then stand in the tail.
  have hat : (value ++ DQUOTE :: tail)[body.length]? = some DQUOTE := by
    rw [hbody, List.getElem?_append_right (Nat.le_refl _), Nat.sub_self, List.getElem?_cons_zero]
  obtain ⟨k, hk⟩ : ∃ k, body.length = value.length + (k + 1) := ⟨body.length - value.length - 1, by omega⟩
  rw [hk, List.getElem?_append_right (Nat.le_add_right _ _), Nat.add_sub_cancel_left, List.getElem?_cons_succ] at hat
  exact htail (List.mem_of_getElem? hat)

/-- The two schemes are told apart. -/
theorem scheme_text (s : Scheme) (rest : List Char) : scheme (s.text ++ ':' :: rest) = some (s, rest) := by
  cases s <;> rfl

/-- What is read as a user name may stand as one: it is not empty, and of the
    characters RFC 3261 allows there, or escaped. -/
theorem userinfo_sound {user : List Char} {password : Option (List Char)}
    (hread : userinfo text = some ((user, password), rest)) : user ≠ [] ∧ Runs user_char user := by
  unfold userinfo at hread
  simp only at hread
  split at hread
  · cases hread
  · rename_i hne
    have huser : user = (run user_char text).1 := by
      split at hread
      · cases hread; rfl
      · split at hread
        · cases hread; rfl
        · cases hread
      · cases hread
    rw [huser]
    exact ⟨hne, runs_run user_char text⟩

/-- A user name that may stand as one is read whole. -/
theorem userinfo_user {user : List Char} (hne : user ≠ []) (hruns : Runs user_char user) (rest : List Char) :
    userinfo (user ++ '@' :: rest) = some ((user, none), rest) := by
  have hrun : run user_char (user ++ '@' :: rest) = (user, '@' :: rest) :=
    hruns.run_append (by rintro c ⟨⟩; decide)
  unfold userinfo
  simp only [hrun]
  rw [if_neg hne]

/-- What is read as a host may stand as one. -/
theorem host_sound {name : List Char} (hread : host text = some (name, rest)) : name ≠ [] ∧ Runs unreserved name := by
  unfold host at hread
  simp only at hread
  split at hread
  · cases hread
  · rename_i hne
    cases hread
    exact ⟨hne, runs_run unreserved text⟩

theorem Closes.not_digit (hrest : Closes rest) : ∀ c ∈ rest.head?, c.isDigit = false := by
  intro c hc
  have hunreserved := (hrest c hc).1
  simp only [unreserved, Char.isAlphanum, Bool.or_eq_false_iff] at hunreserved
  exact hunreserved.1.2

/-- A host that may stand as one is read whole, up to what ends it. -/
theorem host_name {name : List Char} (hne : name ≠ []) (hruns : Runs unreserved name) (hrest : Closes rest) :
    host (name ++ rest) = some (name, rest) := by
  unfold host
  rw [hruns.run_append hrest]
  exact if_neg hne

/-- Without a colon there is no port. -/
theorem port_none (hrest : rest.head? ≠ some ':') : port rest = some (none, rest) := by
  unfold port
  split
  · exact absurd rfl hrest
  · rfl

/-- With one, the port is the number behind it. -/
theorem port_digits {digits : List Char} (hne : digits ≠ []) (hdigits : ∀ c ∈ digits, c.isDigit = true)
    (hrest : ∀ c ∈ rest.head?, c.isDigit = false) :
    port (':' :: (digits ++ rest)) = some (some (Nat.ofDigitChars 10 digits 0), rest) := by
  have hnone : rest.takeWhile Char.isDigit = [] ∧ rest.dropWhile Char.isDigit = rest := by
    cases rest with
    | nil => exact ⟨rfl, rfl⟩
    | cons c rest =>
      have hc : ¬ c.isDigit = true := by simp [hrest c rfl]
      exact ⟨List.takeWhile_cons_of_neg hc, List.dropWhile_cons_of_neg hc⟩
  have htake : (digits ++ rest).takeWhile Char.isDigit = digits := by
    rw [List.takeWhile_append_of_pos hdigits, hnone.1, List.append_nil]
  have hdrop : (digits ++ rest).dropWhile Char.isDigit = rest := by
    rw [List.dropWhile_append_of_pos hdigits, hnone.2]
  unfold port
  simp only [htake, hdrop]
  rw [if_neg hne]

variable {uri : List Char → Option Nat → List Param → Uri}

/-- A host is read before its port. -/
theorem hostport_sound {u : Uri} (hread : hostport uri text = some (u, rest)) :
    ∃ name port params, u = uri name port params ∧ name ≠ [] ∧ Runs unreserved name := by
  obtain ⟨⟨name, text₁⟩, hhost, hread⟩ := Option.bind_eq_some_iff.mp hread
  obtain ⟨⟨port, text₂⟩, -, hread⟩ := Option.bind_eq_some_iff.mp hread
  obtain ⟨⟨params, text₃⟩, -, hread⟩ := Option.bind_eq_some_iff.mp hread
  cases hread
  exact ⟨name, port, params, rfl, host_sound hhost⟩

/-- A host is read with the port that belongs to it. What comes behind must end the
    host, and must not begin with a colon where there is no port. -/
theorem hostport_text (h : HostPort) {tail : List Char} (hclose : Closes tail)
    (hport : h.digits = none → tail.head? ≠ some ':') {ps : List Param}
    (hparams : params tail.length tail = some (ps, rest)) :
    hostport uri (h.text ++ tail) = some (uri h.name h.port ps, rest) := by
  obtain ⟨name, digits, hname, hdigits⟩ := h
  unfold hostport
  cases digits with
  | none => simp [HostPort.text, HostPort.port, host_name hname.1 hname.2 hclose, port_none (hport rfl), hparams]
  | some digits =>
    have hcolon : Closes (':' :: (digits ++ tail)) := by
      rintro c ⟨⟩
      decide
    obtain ⟨hne, hall⟩ := hdigits digits rfl
    simp [HostPort.text, HostPort.port, host_name hname.1 hname.2 hcolon, port_digits hne hall hclose.not_digit,
      hparams]

/-- An address with a user name, of any host with or without a port, is read as
    such. -/
theorem addr_spec_user (s : Scheme) {user : List Char} (huser : user ≠ [] ∧ Runs user_char user) (h : HostPort)
    {tail : List Char} (hclose : Closes tail) (hport : h.digits = none → tail.head? ≠ some ':') {ps : List Param}
    (hparams : params tail.length tail = some (ps, rest)) :
    addr_spec (s.text ++ ':' :: (user ++ '@' :: (h.text ++ tail))) =
      some ({ scheme := s, user := some user, host := h.name, port := h.port, params := ps }, rest) := by
  unfold addr_spec
  simp only [scheme_text, userinfo_user huser.1 huser.2, Option.bind_eq_bind, Option.bind_some]
  exact hostport_text h hclose hport hparams

/-- A URI without a user name is read as such, if nothing comes behind it. The host
    may have a port or none. -/
theorem domain_uri_text (s : Scheme) (h : HostPort) {tail : List Char} (hclose : Closes tail)
    (hport : h.digits = none → tail.head? ≠ some ':') {ps : List Param}
    (hparams : params tail.length tail = some (ps, rest)) :
    domain_uri (s.text ++ ':' :: (h.text ++ tail)) =
      if rest = [] then some { scheme := s, host := h.name, port := h.port, params := ps } else none := by
  unfold domain_uri
  simp only [scheme_text, Option.bind_eq_bind, Option.bind_some, hostport_text h hclose hport hparams]
  rfl

/-- The host and the user name of a URI that was read are runs of characters
    that may stand there. -/
theorem addr_spec_sound {u : Uri} (hread : addr_spec text = some (u, rest)) :
    (u.host ≠ [] ∧ Runs unreserved u.host) ∧ ∀ user ∈ u.user, user ≠ [] ∧ Runs user_char user := by
  obtain ⟨⟨s, text₁⟩, -, hread⟩ := Option.bind_eq_some_iff.mp hread
  simp only at hread
  split at hread
  · rename_i user password text₂ huser
    obtain ⟨name, port, params, rfl, hhost⟩ := hostport_sound hread
    refine ⟨hhost, ?_⟩
    rintro _ ⟨⟩
    exact userinfo_sound huser
  · obtain ⟨name, port, params, rfl, hhost⟩ := hostport_sound hread
    exact ⟨hhost, by rintro _ ⟨⟩⟩

/-- An address that does not begin with a quotation mark has no display name, and is
    all URI. -/
theorem address_spec {u : Uri} (hread : addr_spec text = some (u, [])) (hstart : text.head? ≠ some DQUOTE) :
    address text = some { display_name := none, uri := u } := by
  cases text with
  | nil => cases hread
  | cons c text =>
    have hne : c ≠ DQUOTE := fun h => hstart (congrArg some h)
    unfold address
    simp [hne, hread]

/-- A quoted display name is read as it is, and the address in the angle brackets
    behind it. -/
theorem address_name {u : Uri} {name : List Char} (hname : ∀ c ∈ name, qdtext c = true)
    (hread : addr_spec text = some (u, ['>'])) :
    address (DQUOTE :: (name ++ DQUOTE :: ' ' :: '<' :: text)) = some { display_name := some name, uri := u } := by
  unfold address
  simp [quoted_plain hname, hread]

/-- An address that was read holds a URI that was read, and a display name that
    was read from behind an opening quote. -/
theorem address_sound {a : Address} (hread : address text = some a) :
    (∃ spec rest, addr_spec spec = some (a.uri, rest)) ∧
      ∀ name ∈ a.display_name, ∃ body rest, text = DQUOTE :: body ∧ quoted body = some (name, rest) := by
  unfold address at hread
  split at hread
  · cases hread
  · rename_i c text
    split at hread
    · rename_i hquote
      obtain ⟨⟨name, behind⟩, hquoted, hread⟩ := Option.bind_eq_some_iff.mp hread
      simp only at hread
      split at hread
      · obtain ⟨⟨u, rest⟩, hspec, hread⟩ := Option.bind_eq_some_iff.mp hread
        simp only [Option.pure_def, Option.ite_none_right_eq_some, Option.some.injEq] at hread
        obtain ⟨-, rfl⟩ := hread
        refine ⟨⟨_, rest, hspec⟩, ?_⟩
        rintro _ ⟨⟩
        exact ⟨text, behind, by rw [hquote], hquoted⟩
      · cases hread
    · obtain ⟨⟨u, rest⟩, hspec, hread⟩ := Option.bind_eq_some_iff.mp hread
      simp only [Option.pure_def, Option.ite_none_right_eq_some, Option.some.injEq] at hread
      obtain ⟨-, rfl⟩ := hread
      exact ⟨⟨_, rest, hspec⟩, by rintro _ ⟨⟩⟩

end sip_grammar
