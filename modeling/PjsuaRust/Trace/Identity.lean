import PjsuaRust.Trace.Headers

namespace pjsua_rust.trace_module

open event

/-- The name is taken for `a` of the allowlist, whatever the case of its letters. -/
def TakenFor (a : List UInt8) (name : List Char) : Prop := stricmp2_eq (encode name) a = true

instance (a : List UInt8) (name : List Char) : Decidable (TakenFor a name) := inferInstanceAs (Decidable (_ = true))

def traced (hs : List Header) : List Header := hs.filter fun h => hdr_is_traced { bytes := encode h.name }

/-- The values of all headers taken for `a`, in message order. -/
def values_for (a : List UInt8) (hs : List Header) : List (List Char) :=
  (hs.filter fun h => TakenFor a h.name).map Header.value

/-- One entry for each name of the allowlist that is present, with all of its
    values, and no other entry. -/
structure Merged (headers : HeaderMap) (hs : List Header) : Prop where
  entry : ∀ a ∈ TRACED_HDR_NAMES, values_for a hs ≠ [] →
    ∃ key, TakenFor a key ∧ headers.lookup key = some ([',', ' '].intercalate (values_for a hs)) ∧
      ∀ key', TakenFor a key' → headers.lookup key' ≠ none → key' = key
  absent : ∀ a ∈ TRACED_HDR_NAMES, values_for a hs = [] → ∀ key, TakenFor a key → headers.lookup key = none
  listed : ∀ key, headers.lookup key ≠ none → ∃ a ∈ TRACED_HDR_NAMES, TakenFor a key

/-- Any two headers taken for the same name of the allowlist spell it alike. -/
def SpelledAlike (hs : List Header) : Prop :=
  ∀ a ∈ TRACED_HDR_NAMES, ∀ h ∈ hs, ∀ h' ∈ hs, TakenFor a h.name → TakenFor a h'.name → h.name = h'.name

/-- The allowlist takes a name in any letter case. -/
theorem hdr_is_traced_iff (name : List Char) :
    hdr_is_traced { bytes := encode name } = true ↔ ∃ a ∈ TRACED_HDR_NAMES, TakenFor a name :=
  List.any_eq_true

theorem mem_traced {hs : List Header} {h : Header} :
    h ∈ traced hs ↔ h ∈ hs ∧ ∃ a ∈ TRACED_HDR_NAMES, TakenFor a h.name := by
  rw [traced, List.mem_filter, hdr_is_traced_iff]

theorem block_append (hs hs' : List Header) : block (hs ++ hs') = block hs ++ block hs' := by
  simp only [block, List.flatMap_append, encode_append]

/-- In a buffer large enough for all of them, the headers of the allowlist fit, in
    the order of the message. -/
theorem foldl_keep_of_large {size : Nat} (kept : List Header) {hs : List Header}
    (hlarge : (block (kept ++ traced hs)).length ≤ size) :
    hs.foldl (keep size) kept = kept ++ traced hs := by
  induction hs generalizing kept with
  | nil => exact (List.append_nil kept).symm
  | cons h hs ih =>
    rw [List.foldl_cons]
    by_cases htraced : hdr_is_traced { bytes := encode h.name } = true
    · have hsplit : kept ++ traced (h :: hs) = kept ++ [h] ++ traced hs := by
        simp only [traced, List.filter_cons, htraced, if_true, List.append_assoc, List.singleton_append]
      rw [hsplit] at hlarge ⊢
      have hfits : fits size kept h = true := by
        rw [block_append, List.length_append] at hlarge
        rw [fits, htraced, Bool.true_and, decide_eq_true_iff]
        omega
      rw [keep_of_fits hfits, ih _ hlarge]
    · have hsplit : traced (h :: hs) = traced hs := List.filter_cons_of_neg htraced
      rw [hsplit] at hlarge ⊢
      have hskip : ¬ fits size kept h = true := fun hfits => htraced (fits_iff.mp hfits).1
      rw [keep_of_not_fits hskip, ih _ hlarge]

/-- A buffer large enough for all of them skips none. -/
theorem fitting_of_large {size : Nat} {hs : List Header} (hlarge : (block (traced hs)).length ≤ size) :
    fitting size hs = traced hs :=
  foldl_keep_of_large [] hlarge

/-- A name has an entry if a header is spelled so. -/
theorem joined_ne_none {hs : List Header} {key : List Char} : joined hs key ≠ none ↔ ∃ h ∈ hs, h.name = key := by
  have hvalues : values hs key = [] ↔ ∀ h ∈ hs, h.name ≠ key := by
    simp only [values, List.map_eq_nil_iff, List.filter_eq_nil_iff, decide_eq_true_eq, ne_eq]
  rw [joined]
  split
  · rename_i hnil
    refine iff_of_false (fun h => h rfl) ?_
    rintro ⟨h, hmem, hname⟩
    exact hvalues.mp hnil h hmem hname
  · rename_i hne
    refine iff_of_true (Option.some_ne_none _) ?_
    by_contra hnone
    exact hne (hvalues.mpr fun h hmem hname => hnone ⟨h, hmem, hname⟩)

/-- Where the headers taken for `a` are all spelled `key`, they are the ones whose
    values are joined under it. -/
theorem values_traced_of_alike {hs : List Header} {a : List UInt8} (ha : a ∈ TRACED_HDR_NAMES) {key : List Char}
    (hkey : TakenFor a key) (halike : ∀ h ∈ hs, TakenFor a h.name → h.name = key) :
    values (traced hs) key = values_for a hs := by
  rw [values, values_for, traced, List.filter_filter]
  congr 1
  apply List.filter_congr
  intro h hmem
  by_cases htaken : TakenFor a h.name
  · have hname := halike h hmem htaken
    have htraced := (hdr_is_traced_iff h.name).mpr ⟨a, ha, htaken⟩
    rw [htraced, Bool.and_true, decide_eq_true hname, decide_eq_true htaken]
  · have hname : h.name ≠ key := by
      rintro rfl
      exact htaken hkey
    rw [decide_eq_false hname, decide_eq_false htaken, Bool.false_and]

/-- The two sides agree on what the same header is exactly for the messages that
    spell it alike. -/
theorem merged_iff {headers : HeaderMap} {hs : List Header}
    (hlookup : ∀ name, headers.lookup name = joined (traced hs) name) : Merged headers hs ↔ SpelledAlike hs := by
  constructor
  · intro hmerged a ha h hmem h' hmem' htaken htaken'
    have hpresent : values_for a hs ≠ [] := by
      rw [values_for, ne_eq, List.map_eq_nil_iff]
      exact List.ne_nil_of_mem (List.mem_filter.mpr ⟨hmem, decide_eq_true htaken⟩)
    obtain ⟨key, -, -, honly⟩ := hmerged.entry a ha hpresent
    have hentry {g : Header} (hg : g ∈ hs) (hgtaken : TakenFor a g.name) : g.name = key := by
      apply honly g.name hgtaken
      rw [hlookup, joined_ne_none]
      exact ⟨g, mem_traced.mpr ⟨hg, a, ha, hgtaken⟩, rfl⟩
    exact (hentry hmem htaken).trans (hentry hmem' htaken').symm
  · intro halike
    refine ⟨?_, ?_, ?_⟩
    · intro a ha hpresent
      obtain ⟨h, hfilter⟩ := List.exists_mem_of_ne_nil _ (mt List.map_eq_nil_iff.mpr hpresent)
      rw [List.mem_filter, decide_eq_true_iff] at hfilter
      obtain ⟨hmem, htaken⟩ := hfilter
      have hvalues := values_traced_of_alike ha htaken fun g hg hgtaken => halike a ha g hg h hmem hgtaken htaken
      refine ⟨h.name, htaken, ?_, ?_⟩
      · rw [hlookup, joined, hvalues, if_neg hpresent]
      · intro key' htaken' hentry
        rw [hlookup, joined_ne_none] at hentry
        obtain ⟨g, hg, rfl⟩ := hentry
        exact halike a ha g (mem_traced.mp hg).1 h hmem htaken' htaken
    · intro a ha habsent key htaken
      by_contra hentry
      rw [hlookup] at hentry
      obtain ⟨g, hg, rfl⟩ := joined_ne_none.mp hentry
      rw [values_for, List.map_eq_nil_iff, List.filter_eq_nil_iff] at habsent
      exact habsent g (mem_traced.mp hg).1 (decide_eq_true htaken)
    · intro key hentry
      rw [hlookup, joined_ne_none] at hentry
      obtain ⟨g, hg, rfl⟩ := hentry
      exact (mem_traced.mp hg).2

/-- With a buffer large enough for all headers of the allowlist, they end up merged
    by name exactly if the message spells each name in one way. The allowlist takes
    a name in any letter case, and the parser groups by the exact text, so that two
    spellings stay apart; the values and the other headers do not matter. -/
theorem header_identity_iff {msg : pjsip_msg} {hs : List Header} (hprints : List.Forall₂ PrintsHeader msg.hdr hs)
    {buf : List UInt8} (hlarge : (block (traced hs)).length ≤ buf.length) :
    ∃ n buf', extract_headers msg buf = .ok (n, buf') ∧
      (Merged (parse_trace_headers (from_utf8_lossy (buf'.take n))) hs ↔ SpelledAlike hs) := by
  obtain ⟨n, buf', hrun, -, -, -, hlookup⟩ := extract_headers_fitting hprints buf
  rw [fitting_of_large hlarge] at hlookup
  exact ⟨n, buf', hrun, merged_iff hlookup⟩

instance (hs : List Header) : Decidable (SpelledAlike hs) :=
  inferInstanceAs (Decidable (∀ a ∈ TRACED_HDR_NAMES, ∀ h ∈ hs, ∀ h' ∈ hs, _ → _ → _))

/-- The message with these headers. -/
def message (hs : List Header) : pjsip_msg :=
  { line := .status 480 ⟨[], []⟩, hdr := printed_hdrs hs, body := none }

/-- Two headers of the same spelling are joined. -/
theorem header_identity_iff_alike :
    ∃ n buf', extract_headers (message [to_hdr, from_hdr, to_hdr]) (List.replicate 64 0) = .ok (n, buf') ∧
      Merged (parse_trace_headers (from_utf8_lossy (buf'.take n))) [to_hdr, from_hdr, to_hdr] := by
  obtain ⟨n, buf', hrun, hiff⟩ := header_identity_iff
    (show List.Forall₂ PrintsHeader (message [to_hdr, from_hdr, to_hdr]).hdr _ from printed_hdrs_print _)
    (show _ ≤ (List.replicate 64 (0 : UInt8)).length by decide +kernel)
  exact ⟨n, buf', hrun, hiff.mpr (by decide +kernel)⟩

def warning_hdr : Header where
  name := ['W', 'a', 'r', 'n', 'i', 'n', 'g']
  value := ['a']
  name_ne_nil := List.cons_ne_nil _ _
  name_plain := by simp
  value_plain := by simp
  name_trimmed := by simp [Trimmed, is_whitespace]
  value_trimmed := by simp [Trimmed, is_whitespace]

/-- A warning of a peer that writes header names in capitals. PJSIP has no header
    type for warnings, and leaves the name as it came. -/
def capital_warning_hdr : Header where
  name := ['W', 'A', 'R', 'N', 'I', 'N', 'G']
  value := ['b']
  name_ne_nil := List.cons_ne_nil _ _
  name_plain := by simp
  value_plain := by simp
  name_trimmed := by simp [Trimmed, is_whitespace]
  value_trimmed := by simp [Trimmed, is_whitespace]

/-- Two headers of the one name in different letter cases keep two entries. Both
    spellings are ones that a message may have. -/
theorem not_header_identity :
    ¬ ∀ (msg : pjsip_msg) (hs : List Header) (buf : List UInt8), List.Forall₂ PrintsHeader msg.hdr hs →
      (block (traced hs)).length ≤ buf.length →
      ∃ n buf', extract_headers msg buf = .ok (n, buf') ∧
        Merged (parse_trace_headers (from_utf8_lossy (buf'.take n))) hs := by
  intro hclaim
  have hprints : List.Forall₂ PrintsHeader (message [warning_hdr, capital_warning_hdr]).hdr [warning_hdr, capital_warning_hdr] :=
    printed_hdrs_print _
  have hlarge : (block (traced [warning_hdr, capital_warning_hdr])).length ≤ (List.replicate 64 (0 : UInt8)).length := by
    decide +kernel
  obtain ⟨n, buf', hrun, hmerged⟩ := hclaim _ _ (List.replicate 64 0) hprints hlarge
  obtain ⟨n', buf'', hrun', -, -, -, hlookup⟩ := extract_headers_fitting hprints (List.replicate 64 0)
  rw [fitting_of_large hlarge] at hlookup
  cases hrun.symm.trans hrun'
  exact absurd ((merged_iff hlookup).mp hmerged) (by decide +kernel)

end pjsua_rust.trace_module
