import N8n.Ssrf.SsrfProtection

/-! The verdicts of the three entry points on a target, and when they are those of the documented
precedence.
-/

namespace N8n.Ssrf.SsrfProtectionService

variable {service : SsrfProtectionService} {dns : DnsResolver service.platform}
variable {hostname : String} {options : LookupOptions} {ip : IpAddress}

/-- The address is in the allowed ranges, or not in the blocked ones. -/
def PermitsIp (service : SsrfProtectionService) (ip : IpAddress) : Prop :=
  service.allowedIps.check ip = true ∨ service.blockedIps.check ip = false

instance (service : SsrfProtectionService) (ip : IpAddress) : Decidable (service.PermitsIp ip) :=
  inferInstanceAs (Decidable (_ ∨ _))

/-- The hostname is in the allowlist, or every address is permitted. -/
def Permits (service : SsrfProtectionService) (hostname : String) (addresses : List IpAddress)
    : Prop :=
  hostnameMatches service.platform service.allowedHostnames hostname = true
  ∨ ∀ ip ∈ addresses, service.PermitsIp ip

/-- The address that a hostname is, brackets aside. -/
def literalIp (service : SsrfProtectionService) (hostname : String) : Option IpAddress :=
  service.platform.parseIp (normalizeIpInHostname hostname)

/-- The addresses that count for a target: its own, or the answer of the resolver. -/
def targetAddresses (service : SsrfProtectionService) (dns : DnsResolver service.platform)
    (hostname : String) (options : LookupOptions)
    : Except JsError (List IpAddress) :=
  match service.literalIp hostname with
  | some ip => .ok [ip]
  | none => (dns.lookup hostname options).map (fun found => found.map (fun address => address.ip))

/-- The target has addresses, and they are permitted. -/
def PermitsTarget (service : SsrfProtectionService) (dns : DnsResolver service.platform)
    (hostname : String) (options : LookupOptions)
    : Prop :=
  ∃ addresses,
    service.targetAddresses dns hostname options = .ok addresses
    ∧ service.Permits hostname addresses

def LookupResult.handed {platform : Platform}
    : LookupResult platform → List (LookupAddress platform)
  | .all addresses => addresses
  | .one address => [address]
  | .error _ => []

/-- Every entry point has the documented verdict on the targets with the hostname. -/
structure OneVerdict (service : SsrfProtectionService) (hostname : String) : Prop where
  validateUrl
    : ∀ (dns : DnsResolver service.platform) (url : String),
        service.platform.hostnameOf url = some hostname
        → (service.validateUrl dns url = .ok (.ok ())
          ↔ service.PermitsTarget dns hostname ⟨true, 0⟩)
  secureLookup
    : ∀ (dns : DnsResolver service.platform) (options : LookupOptions),
        (service.secureLookup dns hostname options).handed ≠ []
        ↔ service.PermitsTarget dns hostname options
  handed
    : ∀ (dns : DnsResolver service.platform) (options : LookupOptions),
        ∀ address ∈ (service.secureLookup dns hostname options).handed,
          service.Permits hostname [address.ip]
  validateRedirectSync
    : ∀ (url : String) (ip : IpAddress),
        service.platform.hostnameOf url = some hostname
        → service.literalIp hostname = some ip
        → ((∃ error, service.validateRedirectSync url = .error error)
          ↔ ¬ service.Permits hostname [ip])

/-- An address is checked against the allowed ranges first. -/
theorem validateIp_of_parse {text : String} (isIp : service.platform.parseIp text = some ip)
    : service.validateIp text
      = if service.PermitsIp ip then .ok (.ok ()) else .ok (.error (ssrfBlockedIpError text)) := by
  simp only [validateIp, isIp, PermitsIp]
  by_cases allowed : service.allowedIps.check ip = true
  · simp [allowed]
  · by_cases blocked : service.blockedIps.check ip = true <;> simp [allowed, blocked]

theorem validateAll_spec (found : List (LookupAddress service.platform))
    : if ∀ address ∈ found, service.PermitsIp address.ip then
        service.validateAll found = .ok (.ok ())
      else ∃ error, service.validateAll found = .ok (.error error) := by
  induction found with
  | nil => simp [validateAll]
  | cons first rest ih =>
      rw [validateAll, validateIp_of_parse first.isIp]
      by_cases permitted : service.PermitsIp first.ip
      · simpa [permitted] using ih
      · simp [permitted]

theorem directAddress_of_literal (literal : service.literalIp hostname = some ip)
    : ∃ direct,
        service.directAddress (normalizeIpInHostname hostname) = some direct ∧ direct.ip = ip := by
  unfold directAddress
  split
  · next none => exact absurd (none.symm.trans literal) (by simp)
  · next found isIp => exact ⟨_, rfl, Option.some.inj (isIp.symm.trans literal)⟩

theorem directAddress_of_name (named : service.literalIp hostname = none)
    : service.directAddress (normalizeIpInHostname hostname) = none := by
  unfold directAddress
  split
  · rfl
  · next found isIp => exact absurd (isIp.symm.trans named) (by simp)

/-- A literal address is checked without a look at the hostname allowlist. -/
theorem lookupAndValidate_literal (dns : DnsResolver service.platform) (options : LookupOptions)
    (literal : service.literalIp hostname = some ip)
    : if service.PermitsIp ip then
        ∃ direct,
          service.lookupAndValidate dns hostname options = .ok (.ok [direct]) ∧ direct.ip = ip
      else ∃ error, service.lookupAndValidate dns hostname options = .ok (.error error) := by
  obtain ⟨direct, isDirect, rfl⟩ := directAddress_of_literal literal
  simp only [lookupAndValidate, isDirect, validateIp_of_parse direct.isIp]
  by_cases permitted : service.PermitsIp direct.ip
  · simp only [permitted, if_true]
    exact ⟨direct, rfl, rfl⟩
  · simp only [permitted, if_false]
    exact ⟨_, rfl⟩

variable {found : List (LookupAddress service.platform)}

/-- A name is resolved first; its addresses are checked if it is not in the allowlist. -/
theorem lookupAndValidate_name (named : service.literalIp hostname = none)
    (answer : dns.lookup hostname options = .ok found)
    : (service.Permits hostname (found.map (fun address => address.ip))
        ∧ service.lookupAndValidate dns hostname options = .ok (.ok found))
      ∨ (¬ service.Permits hostname (found.map (fun address => address.ip))
        ∧ ∃ error, service.lookupAndValidate dns hostname options = .ok (.error error)) := by
  have some : found ≠ [] := dns.answers hostname options found answer
  have checked := validateAll_spec found
  simp only [lookupAndValidate, directAddress_of_name named, answer, Permits, List.forall_mem_map]
  by_cases listed : hostnameMatches service.platform service.allowedHostnames hostname = true
  · exact .inl ⟨.inl listed, by simp [listed, some, bind, Except.bind, pure, Except.pure]⟩
  · by_cases permitted : ∀ address ∈ found, service.PermitsIp address.ip
    · rw [if_pos permitted] at checked
      refine .inl ⟨.inr permitted, ?_⟩
      simp [listed, some, checked, bind, Except.bind, pure, Except.pure, Except.map]
    · rw [if_neg permitted] at checked
      obtain ⟨error, failed⟩ := checked
      refine .inr ⟨not_or.mpr ⟨listed, permitted⟩, error, ?_⟩
      simp [listed, some, failed, bind, Except.bind, pure, Except.pure, Except.map]

theorem lookupAndValidate_unresolved (named : service.literalIp hostname = none) {error : JsError}
    (failed : dns.lookup hostname options = .error error)
    : service.lookupAndValidate dns hostname options = .error error := by
  simp only [lookupAndValidate, directAddress_of_name named, failed]
  rfl

/-- The hostname is a literal address that the hostname allowlist lets pass and the ranges do
not.
-/
def IsListedBlockedIp (service : SsrfProtectionService) (hostname : String) : Prop :=
  ∃ ip,
    service.literalIp hostname = some ip
    ∧ hostnameMatches service.platform service.allowedHostnames hostname = true
    ∧ ¬ service.PermitsIp ip

theorem permits_literal (literal : service.literalIp hostname = some ip)
    (unlisted : ¬ service.IsListedBlockedIp hostname)
    : service.Permits hostname [ip] ↔ service.PermitsIp ip := by
  simp only [Permits, List.forall_mem_singleton]
  constructor
  · rintro (listed | permitted)
    · exact by_contra fun blocked => unlisted ⟨ip, literal, listed, blocked⟩
    · exact permitted
  · exact .inr

theorem permitsTarget_literal (dns : DnsResolver service.platform) (options : LookupOptions)
    (literal : service.literalIp hostname = some ip)
    : service.PermitsTarget dns hostname options ↔ service.Permits hostname [ip] := by
  simp [PermitsTarget, targetAddresses, literal]

theorem permitsTarget_name (named : service.literalIp hostname = none)
    (answer : dns.lookup hostname options = .ok found)
    : service.PermitsTarget dns hostname options
      ↔ service.Permits hostname (found.map (fun address => address.ip)) := by
  simp [PermitsTarget, targetAddresses, named, answer, Except.map]

/-- What a lookup and its check come to: there are addresses if and only if they are permitted. -/
theorem lookupAndValidate_cases (dns : DnsResolver service.platform) (options : LookupOptions)
    (unlisted : ¬ service.IsListedBlockedIp hostname)
    : (service.PermitsTarget dns hostname options
        ∧ ∃ found,
            service.lookupAndValidate dns hostname options = .ok (.ok found)
            ∧ found ≠ []
            ∧ service.Permits hostname (found.map (fun address => address.ip)))
      ∨ (¬ service.PermitsTarget dns hostname options
        ∧ ∀ found, service.lookupAndValidate dns hostname options ≠ .ok (.ok found)) := by
  cases literal : service.literalIp hostname with
  | some ip =>
      have checked := lookupAndValidate_literal dns options literal
      rw [permitsTarget_literal dns options literal, permits_literal literal unlisted]
      by_cases permitted : service.PermitsIp ip
      · rw [if_pos permitted] at checked
        obtain ⟨direct, found, rfl⟩ := checked
        exact .inl ⟨permitted, _, found, by simp, (permits_literal literal unlisted).mpr permitted⟩
      · rw [if_neg permitted] at checked
        obtain ⟨error, failed⟩ := checked
        exact .inr ⟨permitted, by simp [failed]⟩
  | none =>
      cases answer : dns.lookup hostname options with
      | ok found =>
          rw [permitsTarget_name literal answer]
          rcases lookupAndValidate_name literal answer with ⟨permitted, same⟩ | ⟨blocked, failed⟩
          · have nonempty := dns.answers hostname options found answer
            exact .inl ⟨permitted, found, same, nonempty, permitted⟩
          · obtain ⟨error, failed⟩ := failed
            exact .inr ⟨blocked, by simp [failed]⟩
      | error error =>
          refine .inr ⟨?_, by simp [lookupAndValidate_unresolved literal answer]⟩
          simp [PermitsTarget, targetAddresses, literal, answer, Except.map]

theorem validateUrl_iff {url : String} (parses : service.platform.hostnameOf url = some hostname)
    : service.validateUrl dns url = .ok (.ok ())
      ↔ ∃ found, service.lookupAndValidate dns hostname ⟨true, 0⟩ = .ok (.ok found) := by
  simp only [validateUrl, parses]
  rcases service.lookupAndValidate dns hostname ⟨true, 0⟩ with error | (error | found)
  all_goals simp [bind, Except.bind, pure, Except.pure, Except.map]

theorem handed_of_lookup (same : service.lookupAndValidate dns hostname options = .ok (.ok found))
    : (service.secureLookup dns hostname options).handed
      = if options.all then found else found.take 1 := by
  simp only [secureLookup, same]
  cases options.all <;> cases found <;> simp [LookupResult.handed]

theorem handed_of_failed
    (failed : ∀ found, service.lookupAndValidate dns hostname options ≠ .ok (.ok found))
    : (service.secureLookup dns hostname options).handed = [] := by
  unfold secureLookup
  split
  · rfl
  · rfl
  · next found same => exact absurd same (failed found)

theorem validateRedirectSync_literal {url : String}
    (parses : service.platform.hostnameOf url = some hostname)
    (literal : service.literalIp hostname = some ip)
    : (∃ error, service.validateRedirectSync url = .error error)
      ↔ ¬ service.Permits hostname [ip] := by
  have isIp : service.platform.parseIp (normalizeIpInHostname hostname) = some ip := literal
  simp only [validateRedirectSync, parses, isIp, validateIp_of_parse isIp, Permits,
    List.forall_mem_singleton]
  by_cases listed : hostnameMatches service.platform service.allowedHostnames hostname = true
  · simp [listed]
  · by_cases permitted : service.PermitsIp ip <;>
      simp [listed, permitted, bind, Except.bind]

/-- The lookups do not ask the hostname allowlist about a literal address. -/
theorem not_oneVerdict (differs : service.IsListedBlockedIp hostname)
    : ¬ service.OneVerdict hostname := by
  intro verdict
  obtain ⟨ip, literal, listed, blocked⟩ := differs
  let dns : DnsResolver service.platform := ⟨fun _ _ => .error .typeError, by simp⟩
  have checked := lookupAndValidate_literal dns ⟨true, 0⟩ literal
  rw [if_neg blocked] at checked
  obtain ⟨error, failed⟩ := checked
  have permits := (permitsTarget_literal dns ⟨true, 0⟩ literal).mpr (.inl listed)
  exact (verdict.secureLookup dns ⟨true, 0⟩).mpr permits (handed_of_failed (by simp [failed]))

/-- The entry points have the documented verdict unless the hostname is a literal address that
only the hostname allowlist lets pass.
-/
theorem oneVerdict_iff (service : SsrfProtectionService) (hostname : String)
    : service.OneVerdict hostname ↔ ¬ service.IsListedBlockedIp hostname := by
  constructor
  · exact fun verdict differs => not_oneVerdict differs verdict
  · intro unlisted
    refine ⟨?_, ?_, ?_, fun url ip => validateRedirectSync_literal⟩
    · intro dns url parses
      rw [validateUrl_iff parses]
      rcases lookupAndValidate_cases dns ⟨true, 0⟩ unlisted with
        ⟨permitted, found, same, -, -⟩ | ⟨blocked, failed⟩
      · exact iff_of_true ⟨found, same⟩ permitted
      · exact iff_of_false (not_exists.mpr failed) blocked
    · intro dns options
      rcases lookupAndValidate_cases dns options unlisted with
        ⟨permitted, found, same, nonempty, -⟩ | ⟨blocked, failed⟩
      · refine iff_of_true ?_ permitted
        rw [handed_of_lookup same]
        cases options.all <;> simp [nonempty]
      · exact iff_of_false (by simp [handed_of_failed failed]) blocked
    · intro dns options address handed
      rcases lookupAndValidate_cases dns options unlisted with
        ⟨-, found, same, -, permitted⟩ | ⟨-, failed⟩
      · have member : address ∈ found := by
          rw [handed_of_lookup same] at handed
          split at handed
          · exact handed
          · exact List.mem_of_mem_take handed
        refine permitted.imp_right (fun all => ?_)
        simpa using all address.ip (List.mem_map_of_mem member)
      · rw [handed_of_failed failed] at handed
        contradiction

/-- What the platform does with the texts of `loopback`. -/
def loopbackPlatform : Platform where
  parseIp text :=
    if text = "127.0.0.1" then some (.ipv4 0x7F000001)
    else if text = "127.0.0.0" then some (.ipv4 0x7F000000)
    else none
  isCidr text := text = "127.0.0.0/8"
  toLowerCase text := text
  parseInt text := if text = "8" then some 8 else none
  hostnameOf text := if text = "http://127.0.0.1/" then some "127.0.0.1" else none

/-- The ranges block the loopback addresses, one of which is an allowed hostname. -/
def loopback : SsrfProtectionService :=
  SsrfProtectionConfig.service loopbackPlatform
    {
      blockedIpRanges := ["127.0.0.0/8"]
      allowedIpRanges := []
      allowedHostnames := ["127.0.0.1"]
    }

theorem loopback_verdicts_differ : ¬ loopback.OneVerdict "127.0.0.1" :=
  not_oneVerdict ⟨.ipv4 0x7F000001, by decide, by decide, by decide⟩

end N8n.Ssrf.SsrfProtectionService
