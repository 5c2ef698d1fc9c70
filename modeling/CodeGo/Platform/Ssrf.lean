import CodeGo.Gateway.RequestValidation
import CodeGo.Lib.Inet

/-!
# Outbound requests

`ValidateURL` refuses URLs that a server should not fetch: by their port, by the name of their host,
and by its addresses. What a client of the network library is told is a parameter (`Net`): URLs and
addresses as they are parsed, and the addresses of a name.
-/

namespace CodeGo.Platform.Ssrf

open Gateway.Validation (atoi)
open Lib.Inet
open Lib.Trim (isSpace trimList)

section Model

/-- A parsed URL. After the last colon of its host, outside of brackets, stand digits only. -/
structure URL where
  scheme : String
  host : List Char
  digits : ∀ before after, host = before ++ ':' :: after → ':' ∉ after →
    ']' ∈ after ∨ after.all Char.isDigit = true

structure Net where
  /-- `url.Parse` -/
  parse : List Char → Option URL
  /-- `netip.ParseAddr`: an address and its zone. -/
  parseAddr : List Char → Option (IP × List Char)
  parseCIDR : List Char → Option IPNet
  lookupIP : List Char → Option (List IP)
  toLower : Char → Char

/-- `net.ParseIP` takes no zone. -/
def Net.parseIP (net : Net) (s : List Char) : Option IP :=
  match net.parseAddr s with
  | some (ip, zone) => if zone = [] then some ip else none
  | none => none

structure SSRFProtection where
  allowPrivateIp : Bool := false
  domainFilterMode : Bool := true
  domainList : List (List Char) := []
  ipFilterMode : Bool := true
  ipList : List (List Char) := []
  allowedPorts : List Int := []
  applyIPFilterForDomain : Bool := false
  deriving DecidableEq, Repr

def privateIPv4Nets : List IPNet :=
  [net4 0 0 0 0 8, net4 10 0 0 0 8, net4 100 64 0 0 10, net4 127 0 0 0 8, net4 169 254 0 0 16,
    net4 172 16 0 0 12, net4 192 0 0 0 24, net4 192 0 2 0 24, net4 192 168 0 0 16,
    net4 198 18 0 0 15, net4 198 51 100 0 24, net4 203 0 113 0 24, net4 224 0 0 0 4,
    net4 240 0 0 0 4, net4 255 255 255 255 32]

def privateIPv6Nets : List IPNet :=
  [⟨0, 128⟩, ⟨1, 128⟩, net4 0 0 0 0 0, net6 0x0064ff9b00000000 96, net6 0x0100000000000000 64,
    net6 0x2001000000000000 23, net6 0x20010db800000000 32, net6 0xfc00000000000000 7,
    net6 0xfe80000000000000 10, net6 0xff00000000000000 8]

def isPrivateIP (ip : IP) : Bool :=
  if isUnspecified ip then true
  else if isLoopback ip || isLinkLocalUnicast ip || isLinkLocalMulticast ip then true
  else if isInterfaceLocalMulticast ip then true
  else if isV4 ip then privateIPv4Nets.any (·.contains ip)
  else if privateIPv6Nets.any (·.contains ip) then true
  else isPrivate ip

def SSRFProtection.isAllowedPort (p : SSRFProtection) (port : Int) : Bool :=
  p.allowedPorts.length == 0 || p.allowedPorts.any (port == ·)

variable (net : Net)

def lower (s : List Char) : List Char := s.map net.toLower

def isDomainListed (domain : List Char) (list : List (List Char)) : Bool :=
  let domain := lower net domain
  list.any fun item =>
    let item := lower net (trimList isSpace item)
    item != [] && (domain == item || (['*', '.'].isPrefixOf item &&
      (('.' :: item.drop 2).isSuffixOf domain || domain == item.drop 2)))

def SSRFProtection.isDomainAllowed (p : SSRFProtection) (domain : List Char) : Bool :=
  let listed := isDomainListed net domain p.domainList
  if p.domainFilterMode then listed else !listed

def isIPListed (ip : IP) (list : List (List Char)) : Bool :=
  list.any fun cidr =>
    match net.parseCIDR cidr with
    | none => match net.parseIP cidr with
      | some listedIP => ip == listedIP
      | none => false
    | some network => network.contains ip

def SSRFProtection.isIPAccessAllowed (p : SSRFProtection) (ip : IP) : Bool :=
  if isPrivateIP ip && !p.allowPrivateIp then false
  else
    let listed := isIPListed net ip p.ipList
    if p.ipFilterMode then listed else !listed

inductive Refusal where
  | invalidURL
  | unsupportedProtocol (scheme : String)
  | invalidPort (port : List Char)
  | portNotAllowed (port : Int)
  | privateIP (ip : IP)
  | ipNotInWhitelist (ip : IP)
  | ipInBlacklist (ip : IP)
  | domainNotInWhitelist (host : List Char)
  | domainInBlacklist (host : List Char)
  | dnsFailed (host : List Char)
  deriving DecidableEq, Repr

def defaultPort (scheme : String) : List Char :=
  if scheme = "https" then ['4', '4', '3'] else ['8', '0']

/-- The host and the port that are checked. -/
def hostAndPort (u : URL) : List Char × List Char :=
  match splitHostPort u.host with
  | some (host, port) => (host, port)
  | none => ((splitAuthority u.host).1, defaultPort u.scheme)

def SSRFProtection.checkIP (p : SSRFProtection) (privateRefused : Bool) (ip : IP) : Except Refusal Unit :=
  if !p.isIPAccessAllowed net ip then
    if isPrivateIP ip && privateRefused then .error (.privateIP ip)
    else if p.ipFilterMode then .error (.ipNotInWhitelist ip)
    else .error (.ipInBlacklist ip)
  else .ok ()

def SSRFProtection.checkHost (p : SSRFProtection) (host : List Char) : Except Refusal Unit :=
  match net.parseIP host with
  | some ip => p.checkIP net true ip
  | none =>
    if !p.isDomainAllowed net host then
      if p.domainFilterMode then .error (.domainNotInWhitelist host)
      else .error (.domainInBlacklist host)
    else if !p.applyIPFilterForDomain then .ok ()
    else match net.lookupIP host with
      | none => .error (.dnsFailed host)
      | some ips => ips.forM (p.checkIP net (!p.allowPrivateIp))

def SSRFProtection.validateURL (p : SSRFProtection) (urlStr : List Char) : Except Refusal Unit :=
  match net.parse urlStr with
  | none => .error .invalidURL
  | some u =>
    if u.scheme ≠ "http" ∧ u.scheme ≠ "https" then .error (.unsupportedProtocol u.scheme)
    else match atoi (String.ofList (hostAndPort u).2) with
      | none => .error (.invalidPort (hostAndPort u).2)
      | some port =>
        if !p.isAllowedPort port then .error (.portNotAllowed port)
        else p.checkHost net (hostAndPort u).1

end Model

section Specification

variable (net : Net) (p : SSRFProtection) (u : URL)

/-- The name without a dot at its end. -/
def dropDot (s : List Char) : List Char := if s.getLast? = some '.' then s.dropLast else s

/-- The name is the domain, or one of its subdomains. All names are under the root. -/
def Under (domain name : List Char) : Prop := name = domain ∨ '.' :: domain <:+ name ∨ domain = []

/-- The names that an entry of a list stands for in the name system. -/
def Covers (entry name : List Char) : Prop :=
  dropDot name = dropDot entry ∨ ∃ d, entry = '*' :: '.' :: d ∧ Under (dropDot d) (dropDot name)

def DnsListed (name : List Char) : Prop :=
  ∃ item ∈ p.domainList, lower net (trimList isSpace item) ≠ [] ∧
    Covers (lower net (trimList isSpace item)) (lower net name)

structure Passes (ip : IP) : Prop where
  isPublic : p.allowPrivateIp = false → isUnspecified ip = false ∧ isLoopback ip = false ∧
    isPrivate ip = false ∧ isLinkLocalUnicast ip = false ∧ isLinkLocalMulticast ip = false
  listed : isIPListed net ip p.ipList = p.ipFilterMode

/-- The host and the port a request for the URL goes to. -/
def URL.hostname : List Char := (splitAuthority u.host).1

def URL.port : List Char :=
  if (splitAuthority u.host).2 = [] then defaultPort u.scheme else (splitAuthority u.host).2

/-- The port is one of the list, if there is one. -/
def PortListed (port : List Char) : Prop :=
  p.allowedPorts ≠ [] → ∃ n ∈ p.allowedPorts, atoi (String.ofList port) = some n

/-- A request for the URL keeps within the configuration. -/
structure Guarded : Prop where
  port : PortListed p u.port
  literal : ∀ ip zone, net.parseAddr u.hostname = some (ip, zone) → Passes net p ip
  domain : net.parseAddr u.hostname = none →
    if p.domainFilterMode then DnsListed net p u.hostname else ¬ DnsListed net p u.hostname
  resolved : net.parseAddr u.hostname = none → p.applyIPFilterForDomain = true →
    ∃ ips, net.lookupIP u.hostname = some ips ∧ ∀ ip ∈ ips, Passes net p ip

/-- An address with a zone that should have been refused. -/
def ZonedRefused : Prop :=
  ∃ ip zone, net.parseAddr u.hostname = some (ip, zone) ∧ zone ≠ [] ∧ ¬ Passes net p ip

/-- A name that is on the black list, though not as it is spelled. -/
def ListedOtherwise : Prop :=
  net.parseAddr u.hostname = none ∧ p.domainFilterMode = false ∧ DnsListed net p u.hostname ∧
    isDomainListed net u.hostname p.domainList = false

/-- A port behind several colons or brackets, which the strict splitting does not find. -/
def HiddenPort : Prop :=
  splitHostPort u.host = none ∧ (splitAuthority u.host).2 ≠ [] ∧ ¬ PortListed p u.port

end Specification

section Names

theorem dropDot_append (before : List Char) {after : List Char} (h : after ≠ []) :
    dropDot (before ++ after) = before ++ dropDot after := by
  rw [dropDot, dropDot, List.getLast?_append_of_ne_nil before h]
  split
  · exact List.dropLast_append_of_ne_nil h
  · rfl

theorem under_dropDot_of_suffix {d name : List Char} (h : '.' :: d <:+ name) :
    Under (dropDot d) (dropDot name) := by
  obtain ⟨before, rfl⟩ := h
  by_cases hd : d = []
  · subst hd
    exact .inr (.inr rfl)
  · have hdot : '.' :: d = ['.'] ++ d := rfl
    rw [hdot, ← List.append_assoc, dropDot_append _ hd]
    exact .inr (.inl ⟨before, by simp⟩)

variable {net : Net} {domain : List Char} {list : List (List Char)}

theorem isDomainListed_eq_true : isDomainListed net domain list = true ↔
    ∃ item ∈ list, lower net (trimList isSpace item) ≠ [] ∧
      (lower net domain = lower net (trimList isSpace item) ∨
        ∃ d, lower net (trimList isSpace item) = '*' :: '.' :: d ∧
          ('.' :: d <:+ lower net domain ∨ lower net domain = d)) := by
  rw [isDomainListed, List.any_eq_true]
  apply exists_congr
  intro item
  generalize lower net (trimList isSpace item) = entry
  generalize lower net domain = name
  rw [Bool.and_eq_true, bne_iff_ne, Bool.or_eq_true, beq_iff_eq, Bool.and_eq_true,
    List.isPrefixOf_iff_prefix, Bool.or_eq_true, List.isSuffixOf_iff_suffix, beq_iff_eq]
  apply and_congr_right'
  apply and_congr_right'
  apply or_congr_right
  constructor
  · rintro ⟨⟨d, rfl⟩, h⟩
    exact ⟨d, rfl, h⟩
  · rintro ⟨d, rfl, h⟩
    exact ⟨⟨d, rfl⟩, h⟩

/-- What is listed as it is spelled is listed in the name system. -/
theorem dnsListed_of_isDomainListed {p : SSRFProtection}
    (h : isDomainListed net domain p.domainList = true) : DnsListed net p domain := by
  obtain ⟨item, hitem, hne, hlisted⟩ := isDomainListed_eq_true.1 h
  use item, hitem, hne
  rcases hlisted with heq | ⟨d, hentry, hsuffix | heq⟩
  · exact .inl (congrArg dropDot heq)
  · exact .inr ⟨d, hentry, under_dropDot_of_suffix hsuffix⟩
  · exact .inr ⟨d, hentry, .inl (congrArg dropDot heq)⟩

end Names

section Checks

variable {net : Net} {p : SSRFProtection}

theorem isPrivate_of_isV4 {ip : IP} (h : isV4 ip = true) :
    isPrivate ip = private4.any (·.contains ip) := by
  have hother : (net6 0xfc00000000000000 7).contains ip = false := by
    have hv6 : isV4 (net6 0xfc00000000000000 7).ip = false := by decide
    rw [IPNet.contains, h, hv6]
    rfl
  rw [isPrivate, hother, Bool.or_false]

/-- All the private networks of version 4 are in the table. -/
theorem private4_subset : private4 ⊆ privateIPv4Nets := by decide

theorem classes_of_isPrivateIP {ip : IP} (h : isPrivateIP ip = false) :
    isUnspecified ip = false ∧ isLoopback ip = false ∧ isPrivate ip = false ∧
      isLinkLocalUnicast ip = false ∧ isLinkLocalMulticast ip = false := by
  rw [isPrivateIP] at h
  split at h
  · cases h
  next hunspecified =>
  split at h
  · cases h
  next hlocal =>
  split at h
  · cases h
  rw [Bool.or_eq_true, Bool.or_eq_true, not_or, not_or] at hlocal
  obtain ⟨⟨hloopback, hunicast⟩, hmulticast⟩ := hlocal
  have hprivate : isPrivate ip = false := by
    split at h
    · next hv4 =>
      rw [isPrivate_of_isV4 hv4, List.any_eq_false]
      intro n hn
      exact List.any_eq_false.1 h n (private4_subset hn)
    · split at h
      · cases h
      · exact h
  exact ⟨eq_false_of_ne_true hunspecified, eq_false_of_ne_true hloopback,
    hprivate, eq_false_of_ne_true hunicast, eq_false_of_ne_true hmulticast⟩

theorem isIPAccessAllowed_eq_true {ip : IP} : p.isIPAccessAllowed net ip = true ↔
    (p.allowPrivateIp = false → isPrivateIP ip = false) ∧
      isIPListed net ip p.ipList = p.ipFilterMode := by
  rw [SSRFProtection.isIPAccessAllowed]
  cases isPrivateIP ip <;> cases p.allowPrivateIp <;> cases p.ipFilterMode <;>
    cases isIPListed net ip p.ipList <;> simp

theorem passes_of_isIPAccessAllowed {ip : IP} (h : p.isIPAccessAllowed net ip = true) :
    Passes net p ip := by
  obtain ⟨hpublic, hlisted⟩ := isIPAccessAllowed_eq_true.1 h
  exact ⟨fun hp => classes_of_isPrivateIP (hpublic hp), hlisted⟩

theorem isDomainAllowed_eq_true {domain : List Char} : p.isDomainAllowed net domain = true ↔
    isDomainListed net domain p.domainList = p.domainFilterMode := by
  rw [SSRFProtection.isDomainAllowed]
  cases p.domainFilterMode <;> cases isDomainListed net domain p.domainList <;> simp

theorem portListed_of_isAllowedPort {port : List Char} {n : Int}
    (hn : atoi (String.ofList port) = some n) (h : p.isAllowedPort n = true) :
    PortListed p port := by
  intro hports
  rw [SSRFProtection.isAllowedPort, Bool.or_eq_true] at h
  rcases h with hempty | hany
  · exact absurd (List.length_eq_zero_iff.1 (beq_iff_eq.1 hempty)) hports
  · obtain ⟨allowed, hmem, heq⟩ := List.any_eq_true.1 hany
    rw [beq_iff_eq] at heq
    subst heq
    exact ⟨n, hmem, hn⟩

theorem checkIP_eq_ok {privateRefused : Bool} {ip : IP} :
    p.checkIP net privateRefused ip = .ok () ↔ p.isIPAccessAllowed net ip = true := by
  rw [SSRFProtection.checkIP]
  cases p.isIPAccessAllowed net ip with
  | true => simp
  | false =>
    constructor
    · intro h
      simp only [Bool.not_false, if_true] at h
      split at h
      · cases h
      · split at h <;> cases h
    · intro h
      cases h

theorem forM_checkIP_eq_ok {privateRefused : Bool} {ips : List IP} :
    ips.forM (p.checkIP net privateRefused) = .ok () ↔
      ∀ ip ∈ ips, p.isIPAccessAllowed net ip = true := by
  induction ips with
  | nil => simp [pure, Except.pure]
  | cons ip ips ih =>
    rw [List.forall_mem_cons, ← ih, ← checkIP_eq_ok, List.forM]
    cases p.checkIP net privateRefused ip with
    | ok _ => simp [bind, Except.bind]
    | error e => simp [bind, Except.bind]

/-- What the check of a host asks of it. -/
def HostAdmitted (net : Net) (p : SSRFProtection) (host : List Char) : Prop :=
  match net.parseIP host with
  | some ip => p.isIPAccessAllowed net ip = true
  | none => p.isDomainAllowed net host = true ∧ (p.applyIPFilterForDomain = true →
      ∃ ips, net.lookupIP host = some ips ∧ ∀ ip ∈ ips, p.isIPAccessAllowed net ip = true)

theorem checkHost_eq_ok {host : List Char} :
    p.checkHost net host = .ok () ↔ HostAdmitted net p host := by
  rw [SSRFProtection.checkHost, HostAdmitted]
  cases net.parseIP host with
  | some ip => exact checkIP_eq_ok
  | none =>
    dsimp only
    cases p.isDomainAllowed net host with
    | false => cases p.domainFilterMode <;> simp
    | true =>
      cases p.applyIPFilterForDomain with
      | false => simp
      | true =>
        cases net.lookupIP host with
        | none => simp
        | some ips => simpa using forM_checkIP_eq_ok

/-- What all the checks ask of a URL. -/
structure Admitted (net : Net) (p : SSRFProtection) (u : URL) : Prop where
  scheme : u.scheme = "http" ∨ u.scheme = "https"
  port : ∃ n, atoi (String.ofList (hostAndPort u).2) = some n ∧ p.isAllowedPort n = true
  host : HostAdmitted net p (hostAndPort u).1

theorem validateURL_eq_ok {s : List Char} {u : URL} (hparse : net.parse s = some u) :
    p.validateURL net s = .ok () ↔ Admitted net p u := by
  rw [SSRFProtection.validateURL, hparse]
  dsimp only
  constructor
  · intro h
    split at h
    · cases h
    next hscheme =>
    split at h
    · cases h
    next port hport =>
    split at h
    · cases h
    next hallowed =>
    exact ⟨by tauto, ⟨port, hport, by simpa using hallowed⟩, checkHost_eq_ok.1 h⟩
  · rintro ⟨hscheme, ⟨port, hport, hallowed⟩, hhost⟩
    rw [if_neg (by tauto), hport]
    dsimp only
    rw [hallowed, if_neg (by simp)]
    exact checkHost_eq_ok.2 hhost

/-- The checked host is the one a request goes to. -/
theorem hostAndPort_fst (u : URL) : (hostAndPort u).1 = u.hostname := by
  rw [hostAndPort, URL.hostname]
  cases h : splitHostPort u.host with
  | none => rfl
  | some hp => rw [splitAuthority_of_splitHostPort u.digits h]

/-- A checked port is the one a request goes to, unless the strict splitting does not find it. -/
theorem portListed_of_admitted {u : URL} (h : Admitted net p u) (hfound : ¬ HiddenPort p u) :
    PortListed p u.port := by
  obtain ⟨n, hn, hallowed⟩ := h.port
  have hlisted := portListed_of_isAllowedPort hn hallowed
  rw [hostAndPort] at hn hlisted
  cases hstrict : splitHostPort u.host with
  | some hp =>
    rw [hstrict] at hn hlisted
    have hsplit := splitAuthority_of_splitHostPort u.digits hstrict
    have hne : hp.2 ≠ [] := by
      intro hempty
      have hatoi : atoi (String.ofList []) = none := by decide
      rw [hempty, hatoi] at hn
      cases hn
    rw [URL.port, hsplit, if_neg hne]
    exact hlisted
  | none =>
    rw [hstrict] at hlisted
    by_cases hempty : (splitAuthority u.host).2 = []
    · rw [URL.port, if_pos hempty]
      exact hlisted
    · by_contra hnot
      exact hfound ⟨hstrict, hempty, hnot⟩

end Checks

section Guarding

variable {net : Net} {p : SSRFProtection} {u : URL}

theorem parseIP_of_parseAddr_eq_none {host : List Char} (h : net.parseAddr host = none) :
    net.parseIP host = none := by
  rw [Net.parseIP, h]

theorem parseIP_of_parseAddr {host : List Char} {ip : IP} (h : net.parseAddr host = some (ip, [])) :
    net.parseIP host = some ip := by
  rw [Net.parseIP, h]
  exact if_pos rfl

theorem guarded_of_admitted (h : Admitted net p u) (hzone : ¬ ZonedRefused net p u)
    (hlist : ¬ ListedOtherwise net p u) (hport : ¬ HiddenPort p u) : Guarded net p u := by
  have hhost := h.host
  rw [hostAndPort_fst, HostAdmitted] at hhost
  constructor
  · exact portListed_of_admitted h hport
  · intro ip zone haddr
    by_cases hz : zone = []
    · subst hz
      rw [parseIP_of_parseAddr haddr] at hhost
      exact passes_of_isIPAccessAllowed hhost
    · by_contra hrefused
      exact hzone ⟨ip, zone, haddr, hz, hrefused⟩
  · intro haddr
    rw [parseIP_of_parseAddr_eq_none haddr] at hhost
    have hlisted := isDomainAllowed_eq_true.1 hhost.1
    split
    · next hmode => exact dnsListed_of_isDomainListed (hlisted.trans hmode)
    · next hmode =>
      intro hdns
      rw [Bool.not_eq_true] at hmode
      exact hlist ⟨haddr, hmode, hdns, hlisted.trans hmode⟩
  · intro haddr happly
    rw [parseIP_of_parseAddr_eq_none haddr] at hhost
    obtain ⟨ips, hips, hall⟩ := hhost.2 happly
    exact ⟨ips, hips, fun ip hip => passes_of_isIPAccessAllowed (hall ip hip)⟩

/-- An accepted URL keeps within the configuration except in three cases. -/
theorem validateURL_guarded_iff {s : List Char} (hparse : net.parse s = some u)
    (h : p.validateURL net s = .ok ()) :
    Guarded net p u ↔
      ¬ ZonedRefused net p u ∧ ¬ ListedOtherwise net p u ∧ ¬ HiddenPort p u := by
  constructor
  · intro hguarded
    refine ⟨?_, ?_, ?_⟩
    · rintro ⟨ip, zone, haddr, -, hrefused⟩
      exact hrefused (hguarded.literal ip zone haddr)
    · rintro ⟨haddr, hmode, hdns, -⟩
      have hdomain := hguarded.domain haddr
      rw [hmode] at hdomain
      exact hdomain hdns
    · rintro ⟨-, -, hnot⟩
      exact hnot hguarded.port
  · rintro ⟨hzone, hlist, hport⟩
    exact guarded_of_admitted ((validateURL_eq_ok hparse).1 h) hzone hlist hport

def dottedURL : URL where
  scheme := "http"
  host := "evil.com.".toList
  digits := by
    intro before after h
    have hcolon : ':' ∉ "evil.com.".toList := by decide
    rw [h] at hcolon
    exact absurd (List.mem_append_right _ List.mem_cons_self) hcolon

def dottedNet : Net where
  parse _ := some dottedURL
  parseAddr _ := none
  parseCIDR _ := none
  lookupIP _ := none
  toLower := Char.toLower

def blackList : SSRFProtection :=
  { domainFilterMode := false, domainList := ["evil.com".toList] }

theorem validateURL_guarded_iff_dotted :
    dottedNet.parse "http://evil.com./".toList = some dottedURL ∧
      blackList.validateURL dottedNet "http://evil.com./".toList = .ok () ∧
      (Guarded dottedNet blackList dottedURL ↔ ¬ ZonedRefused dottedNet blackList dottedURL ∧
        ¬ ListedOtherwise dottedNet blackList dottedURL ∧ ¬ HiddenPort blackList dottedURL) :=
  have hok : blackList.validateURL dottedNet "http://evil.com./".toList = .ok () := by
    decide
  ⟨rfl, hok, validateURL_guarded_iff rfl hok⟩

/-- A dot at the end of the name gets a host past the black list. -/
theorem dotted_host_accepted :
    blackList.validateURL dottedNet "http://evil.com./".toList = .ok () ∧
      DnsListed dottedNet blackList dottedURL.hostname ∧
      ¬ Guarded dottedNet blackList dottedURL := by
  have hdns : DnsListed dottedNet blackList dottedURL.hostname :=
    ⟨"evil.com".toList, List.mem_cons_self, by decide, .inl (by decide)⟩
  refine ⟨by decide, hdns, ?_⟩
  intro h
  exact h.domain rfl hdns

end Guarding

end CodeGo.Platform.Ssrf
