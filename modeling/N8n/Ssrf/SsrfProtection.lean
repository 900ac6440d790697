import N8n.Library.JavaScript
import N8n.Library.Text

/-! The checks of outgoing requests (`packages/cli/src/services/ssrf`): the service, the hostname
matcher and the lists of IP ranges.
-/

namespace N8n.Ssrf

open N8n.Text

inductive IpAddress where
  | ipv4 (bits : BitVec 32)
  | ipv6 (bits : BitVec 128)
  deriving DecidableEq, Repr

def IpAddress.version : IpAddress → Nat
  | .ipv4 _ => 4
  | .ipv6 _ => 6

/-- What the platform does: `isIP` holds of the texts that `parseIp` reads, `isCidr` is the schema
of IP ranges, and `hostnameOf` is the hostname of a URL that parses.
-/
structure Platform where
  parseIp : String → Option IpAddress
  isCidr : String → Bool
  toLowerCase : String → String
  parseInt : String → Option Nat
  hostnameOf : String → Option String

structure Subnet where
  network : IpAddress
  length : Nat
  deriving DecidableEq, Repr

def Subnet.contains (subnet : Subnet) (ip : IpAddress) : Bool :=
  match subnet.network, ip with
  | .ipv4 network, .ipv4 bits => network >>> (32 - subnet.length) = bits >>> (32 - subnet.length)
  | .ipv6 network, .ipv6 bits => network >>> (128 - subnet.length) = bits >>> (128 - subnet.length)
  | _, _ => false

/-- `net.BlockList`. -/
abbrev BlockList := List Subnet

def BlockList.check (list : BlockList) (ip : IpAddress) : Bool :=
  list.any (fun subnet => subnet.contains ip)

structure IpRangeIssue where
  entry : String
  error : String
  deriving DecidableEq, Repr

variable (platform : Platform)

/-- Throws what is no length of a prefix. -/
def addSubnet (list : BlockList) (network : IpAddress) (length : Option Nat)
    : Except String BlockList :=
  let bits := if network.version = 4 then 32 else 128
  match length with
  | some length =>
      if length ≤ bits then .ok (list ++ [⟨network, length⟩])
      else .error "The value of \"prefix\" is out of range."
  | none => .error "The value of \"prefix\" is out of range."

/-- `entry.split('/')`, of which the first two parts count. -/
def splitRange (entry : String) : String × String :=
  let chars := entry.toList
  let network := chars.takeWhile (fun char => char ≠ '/')
  let behind := (chars.drop (network.length + 1)).takeWhile (fun char => char ≠ '/')
  (String.ofList network, String.ofList behind)

def parseCidr (entry : String) : Option (IpAddress × Option Nat) :=
  if platform.isCidr entry then
    let (network, length) := splitRange entry
    (platform.parseIp network).map (fun ip => (ip, platform.parseInt length))
  else none

def addRange (built : BlockList × List IpRangeIssue) (rawEntry : String)
    : BlockList × List IpRangeIssue :=
  let entry := String.ofList (trim rawEntry.toList)
  if entry = "" then built
  else
    match parseCidr platform entry with
    | none => (built.1, built.2 ++ [⟨entry, "Invalid CIDR notation"⟩])
    | some (network, length) =>
        match addSubnet built.1 network length with
        | .ok list => (list, built.2)
        | .error message => (built.1, built.2 ++ [⟨entry, "Failed to add IP range: " ++ message⟩])

def buildIpRangeList (cidrRanges : List String) : BlockList × List IpRangeIssue :=
  cidrRanges.foldl (addRange platform) ([], [])

inductive ParsedPattern where
  | wildcard (suffix : String)
  | exact (value : String)
  deriving DecidableEq, Repr

def normalizeHostname (hostname : String) : String :=
  platform.toLowerCase (String.ofList (trim hostname.toList))

def parsePattern (value : String) : ParsedPattern :=
  match value.toList with
  | '*' :: '.' :: rest => .wildcard (String.ofList ('.' :: rest))
  | _ => .exact value

/-- The constructor of `HostnameMatcher`. -/
def parsePatterns (patterns : List String) : List ParsedPattern :=
  ((patterns.map (normalizeHostname platform)).filter (fun value => value ≠ "")).map parsePattern

def ParsedPattern.matchesNormalized (normalizedHostname : String) : ParsedPattern → Bool
  | .wildcard suffix =>
      suffix.toList.isSuffixOf normalizedHostname.toList
        && normalizedHostname.length > suffix.length
  | .exact value => normalizedHostname = value

def hostnameMatches (parsed : List ParsedPattern) (hostname : String) : Bool :=
  parsed.any (fun pattern => pattern.matchesNormalized (normalizeHostname platform hostname))

structure SsrfProtectionConfig where
  blockedIpRanges : List String
  allowedIpRanges : List String
  allowedHostnames : List String

structure SsrfProtectionService where
  platform : Platform
  blockedIps : BlockList
  allowedIps : BlockList
  allowedHostnames : List ParsedPattern
  warnings : List String

def rangeWarning (variableName : String) (issue : IpRangeIssue) : String :=
  "Invalid value '" ++ issue.entry ++ "' in " ++ variableName ++ ": " ++ issue.error

/-- The constructor of the service, with what it warns of. -/
def SsrfProtectionConfig.service (config : SsrfProtectionConfig) : SsrfProtectionService :=
  let blocked := buildIpRangeList platform config.blockedIpRanges
  let allowed := buildIpRangeList platform config.allowedIpRanges
  {
    platform
    blockedIps := blocked.1
    allowedIps := allowed.1
    allowedHostnames := parsePatterns platform config.allowedHostnames
    warnings :=
      blocked.2.map (rangeWarning "N8N_SSRF_BLOCKED_IP_RANGES")
        ++ allowed.2.map (rangeWarning "N8N_SSRF_ALLOWED_IP_RANGES")
  }

/-- An address that a lookup has found. -/
structure LookupAddress (platform : Platform) where
  address : String
  ip : IpAddress
  isIp : platform.parseIp address = some ip

def LookupAddress.family {platform : Platform} (found : LookupAddress platform) : Nat :=
  found.ip.version

structure LookupOptions where
  all : Bool
  family : Nat
  deriving DecidableEq, Repr

/-- The answers of the DNS resolver, which has some address for a name or throws. -/
structure DnsResolver (platform : Platform) where
  lookup : String → LookupOptions → Except JsError (List (LookupAddress platform))
  answers : ∀ hostname options found, lookup hostname options = .ok found → found ≠ []

/-- `Result`, which holds an error without throwing it. -/
abbrev Result (α : Type) := Except JsError α

def ssrfBlockedIpError (ip : String) : JsError :=
  .error "SsrfBlockedIpError"
    "The request was blocked because it resolves to a restricted IP address"
    (some
      ("The target " ++ ip ++ " is not allowed. "
        ++ "This is a security measure to prevent Server-Side Request Forgery (SSRF). "
        ++ "If you need to access internal resources, ask your n8n administrator to allowlist "
        ++ "the hostname or IP range in the environment configuration."))

/-- Strips the brackets of IPv6. -/
def normalizeIpInHostname (hostname : String) : String :=
  let chars := hostname.toList
  if chars.head? = some '[' ∧ chars.getLast? = some ']' then
    String.ofList ((chars.drop 1).dropLast)
  else hostname

namespace SsrfProtectionService

variable (service : SsrfProtectionService)

def validateIp (ip : String) : Except JsError (Result Unit) :=
  match service.platform.parseIp ip with
  | none => .error (.assertion (some ("Invalid IP address: " ++ ip)))
  | some address =>
      if service.allowedIps.check address then .ok (.ok ())
      else if service.blockedIps.check address then .ok (.error (ssrfBlockedIpError ip))
      else .ok (.ok ())

/-- The loop over the resolved addresses. -/
def validateAll : List (LookupAddress service.platform) → Except JsError (Result Unit)
  | [] => .ok (.ok ())
  | ip :: rest =>
      match service.validateIp ip.address with
      | .error error => .error error
      | .ok (.error error) => .ok (.error error)
      | .ok (.ok ()) => validateAll rest

/-- An address that is no text of an IP does not come from here. -/
def directAddress (cleanIp : String) : Option (LookupAddress service.platform) :=
  match isIp : service.platform.parseIp cleanIp with
  | none => none
  | some ip => some ⟨cleanIp, ip, isIp⟩

def lookupAndValidate (dns : DnsResolver service.platform) (hostname : String)
    (options : LookupOptions)
    : Except JsError (Result (List (LookupAddress service.platform))) :=
  match service.directAddress (normalizeIpInHostname hostname) with
  | some direct => do
      let result ← service.validateIp direct.address
      return result.map (fun _ => [direct])
  | none => do
      let resolved ← dns.lookup hostname options
      if resolved = [] then
        throw (.assertion (some ("DNS lookup for " ++ hostname ++ " returned no results")))
      if hostnameMatches service.platform service.allowedHostnames hostname then
        return .ok resolved
      let result ← service.validateAll resolved
      return result.map (fun _ => resolved)

def validateUrl (dns : DnsResolver service.platform) (url : String) : Except JsError (Result Unit) :=
  match service.platform.hostnameOf url with
  | none => .ok (.error (.error "Error" ("Invalid URL: " ++ url) none))
  | some hostname => do
      let result ← service.lookupAndValidate dns hostname ⟨true, 0⟩
      return result.map (fun _ => ())

/-- What the callback of a lookup is told. -/
inductive LookupResult (platform : Platform) where
  | all (addresses : List (LookupAddress platform))
  | one (address : LookupAddress platform)
  | error (error : JsError)

def secureLookup (dns : DnsResolver service.platform) (hostname : String)
    (options : LookupOptions)
    : LookupResult service.platform :=
  match service.lookupAndValidate dns hostname options with
  | .error error => .error error
  | .ok (.error error) => .error error
  | .ok (.ok resolved) =>
      if options.all then .all resolved
      else
        match resolved with
        | first :: _ => .one first
        | [] => .error .typeError

/-- The error that is thrown, if one is. -/
def validateRedirectSync (url : String) : Except JsError Unit :=
  match service.platform.hostnameOf url with
  | none => .ok ()
  | some hostname =>
      if hostnameMatches service.platform service.allowedHostnames hostname then .ok ()
      else
        let cleanIp := normalizeIpInHostname hostname
        match service.platform.parseIp cleanIp with
        | none => .ok ()
        | some _ => do
            let result ← service.validateIp cleanIp
            result

end SsrfProtectionService

end N8n.Ssrf
