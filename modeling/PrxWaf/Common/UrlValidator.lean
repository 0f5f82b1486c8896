import PrxWaf.Http.Header
import PrxWaf.Net.IpParse
import PrxWaf.Net.Ranges

/-!
# Outbound URLs

A URL that a user gives for outbound requests has to lead to the public internet.
Its host is an address or a name; a name is resolved, and all answers are checked
and handed back, so that the request can be bound to them.
-/

namespace PrxWaf
namespace Common

open Lib Net Http

/-! ## The validator -/

inductive UrlHost where
  | domain (name : Text)
  | ipv4 (addr : Ipv4Addr)
  | ipv6 (addr : Ipv6Addr)

structure Url where
  scheme : Text
  host : Option UrlHost

structure SocketAddr where
  ip : IpAddr
  port : UInt16
  deriving DecidableEq

/-- What the validator takes from outside: the parser of URLs with the text of its
errors, and the resolver, which may fail. -/
structure UrlLibraries where
  parse : Text -> Except Text Url
  toSocketAddrs : Text -> Option (List SocketAddr)

inductive UrlValidationError where
  | parse (error : Text)
  | disallowedScheme (scheme : Text)
  | blockedHost (host reason : Text)
  deriving DecidableEq

def validateScheme (url : Url) : Except UrlValidationError Unit :=
  if url.scheme = "http".toList ∨ url.scheme = "https".toList then .ok ()
  else .error (.disallowedScheme url.scheme)

def blockedNames : List Text :=
  ["localhost".toList, "localhost.localdomain".toList, "ip6-localhost".toList,
    "ip6-loopback".toList, "broadcasthost".toList,
    "metadata.google.internal".toList, "169.254.169.254".toList,
    "fd00:ec2::254".toList, "100.100.100.200".toList, "0.0.0.0".toList,
    "::1".toList, "::ffff:0:0".toList, "::".toList]

def checkForbiddenHostname (host : Text) : Except UrlValidationError Unit :=
  if blockedNames.contains (toAsciiLowercase host) then
    .error (.blockedHost host "hostname is explicitly blocked".toList)
  else .ok ()

/-- 100.64.0.0/10. -/
def isCarrierGrade (ip : Ipv4Addr) : Bool :=
  match ip.octets with
  | a :: b :: _ => a == 100 && b &&& 0xC0 == 64
  | _ => false

def isReservedSegments (ip : Ipv6Addr) : Bool :=
  match ip.segments with
  | a :: b :: c :: d :: e :: f :: _ =>
    a &&& 0xfe00 == 0xfc00 || a &&& 0xffc0 == 0xfe80 ||
      (a == 0 && b == 0 && c == 0 && d == 0 && e == 0 && f == 0xffff) ||
      (a == 0x2001 && b == 0x0db8) || (a == 0x0064 && b == 0xff9b)
  | _ => false

def isPrivateOrReserved : IpAddr -> Bool
  | .v4 ip =>
    ip.isLoopback || ip.isPrivate || ip.isLinkLocal || ip.isUnspecified ||
      ip.isBroadcast || ip.isMulticast || isCarrierGrade ip
  | .v6 ip =>
    ip.isLoopback || ip.isUnspecified || ip.isMulticast || isReservedSegments ip

/-- The first answer that is reserved ends the loop; the port of an answer means
nothing. -/
def checkAnswers (hostname : Text) (validated : List SocketAddr) :
    List SocketAddr -> Except UrlValidationError (List SocketAddr)
  | [] => .ok validated
  | addr :: rest =>
    if isPrivateOrReserved addr.ip then
      .error (.blockedHost hostname "hostname resolves to a private or reserved IP address".toList)
    else checkAnswers hostname (validated ++ [⟨addr.ip, 0⟩]) rest

def resolveAndCheck (libs : UrlLibraries) (hostname : Text) :
    Except UrlValidationError (List SocketAddr) :=
  match libs.toSocketAddrs hostname with
  | none =>
    .error (.blockedHost hostname "hostname could not be resolved; cannot verify it is safe".toList)
  | some addrs =>
    match checkAnswers hostname [] addrs with
    | .error e => .error e
    | .ok validated =>
      if validated.isEmpty then
        .error (.blockedHost hostname
          "hostname resolved to no addresses; cannot verify it is safe".toList)
      else .ok validated

def checkLiteral (ip : IpAddr) : Except UrlValidationError (List SocketAddr) :=
  if isPrivateOrReserved ip then
    .error (.blockedHost ip.display "IP address is in a private or reserved range".toList)
  else .ok []

def checkHost (libs : UrlLibraries) : Option UrlHost -> Except UrlValidationError (List SocketAddr)
  | none => .error (.blockedHost [] "URL has no host component".toList)
  | some (.ipv4 v4) => checkLiteral (.v4 v4)
  | some (.ipv6 v6) => checkLiteral (.v6 v6)
  | some (.domain hostname) =>
    match checkForbiddenHostname hostname with
    | .error e => .error e
    | .ok () => resolveAndCheck libs hostname

def validatePublicUrlWithIps (libs : UrlLibraries) (rawUrl : Text) :
    Except UrlValidationError (Url × List SocketAddr) :=
  match libs.parse rawUrl with
  | .error e => .error (.parse e)
  | .ok url =>
    match validateScheme url with
    | .error e => .error e
    | .ok () =>
      match checkHost libs url.host with
      | .error e => .error e
      | .ok resolved => .ok (url, resolved)

/-- The ranges in the order of the validator, where two prefixes are left open. -/
def rangesWith (zeroLen : Fin 33) (translationLen : Fin 129) : List IpNet :=
  [.ofIpv4 (.new 127 0 0 0) 8, .ofIpv4 (.new 10 0 0 0) 8,
    .ofIpv4 (.new 172 16 0 0) 12, .ofIpv4 (.new 192 168 0 0) 16,
    .ofIpv4 (.new 169 254 0 0) 16, .ofIpv4 (.new 0 0 0 0) zeroLen,
    .ofIpv4 (.new 255 255 255 255) 32, .ofIpv4 (.new 224 0 0 0) 4,
    .ofIpv4 (.new 100 64 0 0) 10,
    .ofIpv6 (.new 0 0 0 0 0 0 0 1) 128, .ofIpv6 (.new 0 0 0 0 0 0 0 0) 128,
    .ofIpv6 (.new 0xff00 0 0 0 0 0 0 0) 8, .ofIpv6 (.new 0xfc00 0 0 0 0 0 0 0) 7,
    .ofIpv6 (.new 0xfe80 0 0 0 0 0 0 0) 10,
    .ofIpv6 (.new 0 0 0 0 0 0xffff 0 0) 96,
    .ofIpv6 (.new 0x2001 0xdb8 0 0 0 0 0 0) 32,
    .ofIpv6 (.new 0x64 0xff9b 0 0 0 0 0 0) translationLen]

def namedRanges : List IpNet :=
  rangesWith 8 96

/-- Of 0.0.0.0/8 one address is refused, of 64:ff9b:: more than the range that is named. -/
def refusedRanges : List IpNet :=
  rangesWith 32 32

/-- 0.0.0.0/8. -/
def thisNetwork : IpNet :=
  .ofIpv4 (.new 0 0 0 0) 8

/-- 0.0.0.1 to 0.255.255.255. -/
def inZeroNetwork (ip : IpAddr) : Bool :=
  thisNetwork.contains ip && ip != .v4 (.new 0 0 0 0)

def addressesOf (libs : UrlLibraries) (url : Url) : List IpAddr :=
  match url.host with
  | none => []
  | some (.ipv4 v4) => [.v4 v4]
  | some (.ipv6 v6) => [.v6 v6]
  | some (.domain hostname) =>
    ((libs.toSocketAddrs hostname).getD []).map SocketAddr.ip

structure PublicOnly (libs : UrlLibraries) (url : Url) (ips : List SocketAddr) : Prop where
  scheme : url.scheme = "http".toList ∨ url.scheme = "https".toList
  outside : forall ip, ip ∈ addressesOf libs url ->
    forall net, net ∈ namedRanges -> net.contains ip = false
  pinned : forall hostname, url.host = some (.domain hostname) ->
    exists answers, libs.toSocketAddrs hostname = some answers ∧
      ips.map SocketAddr.ip = answers.map SocketAddr.ip ∧ ips ≠ []

/-- The host is such an address, or a name that is not blocked and resolves to one
among answers none of which is in a refused range. -/
def ReachesZeroNetwork (libs : UrlLibraries) (url : Url) : Prop :=
  match url.host with
  | none => False
  | some (.ipv4 v4) => inZeroNetwork (.v4 v4) = true
  | some (.ipv6 _) => False
  | some (.domain hostname) =>
    blockedNames.contains (toAsciiLowercase hostname) = false ∧
      exists answers, libs.toSocketAddrs hostname = some answers ∧
        (forall addr, addr ∈ answers ->
          forall net, net ∈ refusedRanges -> net.contains addr.ip = false) ∧
        exists addr, addr ∈ answers ∧ inZeroNetwork addr.ip = true

theorem isPrivateOrReserved_v4 (a b c d : UInt8) :
    isPrivateOrReserved (.v4 (.new a b c d)) = true <-> a.toNat = 127 ∨ a.toNat = 10 ∨
        (a.toNat = 172 ∧ 16 ≤ b.toNat ∧ b.toNat ≤ 31) ∨
        (a.toNat = 192 ∧ b.toNat = 168) ∨ (a.toNat = 169 ∧ b.toNat = 254) ∨
        (a.toNat = 0 ∧ b.toNat = 0 ∧ c.toNat = 0 ∧ d.toNat = 0) ∨
        (a.toNat = 255 ∧ b.toNat = 255 ∧ c.toNat = 255 ∧ d.toNat = 255) ∨
        (224 ≤ a.toNat ∧ a.toNat ≤ 239) ∨ (a.toNat = 100 ∧ b.toNat / 64 = 1) := by
  have hmask : b &&& 0xC0 = 64 <-> b.toNat / 64 = 1 := by
    rw [octet_and_eq_iff 6 rfl]
    change b.toNat / 64 * 64 = 64 <-> _
    lia
  simp only [isPrivateOrReserved, Ipv4Addr.isLoopback, Ipv4Addr.isPrivate,
    Ipv4Addr.isLinkLocal, Ipv4Addr.isUnspecified, Ipv4Addr.isBroadcast,
    Ipv4Addr.isMulticast, isCarrierGrade, Ipv4Addr.new, Bool.or_eq_true,
    Bool.and_eq_true, beq_iff_eq, decide_eq_true_eq, List.head?_cons,
    List.take_succ_cons, List.take_zero, Option.some.injEq, List.cons.injEq,
    Ipv4Addr.mk.injEq, and_true, hmask, ← UInt8.toNat_inj,
    UInt8.le_iff_toNat_le, or_assoc, and_assoc]
  rfl

theorem reserved_v4 (ip : Ipv4Addr) :
    isPrivateOrReserved (.v4 ip) = refusedRanges.any (fun net => net.contains (.v4 ip)) := by
  obtain ⟨a, b, c, d, rfl⟩ := ip.exists_new
  have ha := a.toNat_lt
  have hb := b.toNat_lt
  have hc := c.toNat_lt
  have hd := d.toNat_lt
  rw [Bool.eq_iff_iff, isPrivateOrReserved_v4]
  simp only [refusedRanges, rangesWith, List.any_cons, List.any_nil, IpNet.contains_ofIpv6_v4,
    Bool.or_false, Bool.or_eq_true, IpNet.contains_ofIpv4, Ipv4Addr.toNat_new,
    UInt8.reduceToNat, Fin.coe_ofNat_eq_mod, Nat.reduceMod, Nat.reduceSub, Nat.reducePow,
    Nat.reduceMul, Nat.reduceAdd, Nat.reduceDiv]
  refine or_congr ?_ (or_congr ?_ (or_congr ?_ (or_congr ?_ (or_congr ?_ (or_congr ?_
    (or_congr ?_ (or_congr ?_ ?_)))))))
  all_goals lia

theorem reserved_v6 (ip : Ipv6Addr) :
    isPrivateOrReserved (.v6 ip) = refusedRanges.any (fun net => net.contains (.v6 ip)) := by
  obtain ⟨s0, s1, s2, s3, s4, s5, s6, s7, rfl⟩ := ip.exists_new
  have h0 := s0.toNat_lt
  have h1 := s1.toNat_lt
  have h2 := s2.toNat_lt
  have h3 := s3.toNat_lt
  have h4 := s4.toNat_lt
  have h5 := s5.toNat_lt
  have h6 := s6.toNat_lt
  have h7 := s7.toNat_lt
  have hmulticast : s0 &&& 0xff00 = 0xff00 <-> s0.toNat / 256 = 255 := by
    rw [segment_and_eq_iff 8 rfl]
    change s0.toNat / 256 * 256 = 65280 <-> _
    lia
  have hlocal : s0 &&& 0xfe00 = 0xfc00 <-> s0.toNat / 512 = 126 := by
    rw [segment_and_eq_iff 9 rfl]
    change s0.toNat / 512 * 512 = 64512 <-> _
    lia
  have hlink : s0 &&& 0xffc0 = 0xfe80 <-> s0.toNat / 64 = 1018 := by
    rw [segment_and_eq_iff 6 rfl]
    change s0.toNat / 64 * 64 = 65152 <-> _
    lia
  rw [Bool.eq_iff_iff]
  simp only [refusedRanges, rangesWith, List.any_cons, List.any_nil, IpNet.contains_ofIpv4_v6,
    Bool.or_false, Bool.false_or, Bool.or_eq_true, IpNet.contains_ofIpv6, Ipv6Addr.toNat_new,
    UInt16.reduceToNat, Fin.coe_ofNat_eq_mod, Nat.reduceMod, Nat.reduceSub, Nat.reducePow,
    Nat.reduceMul, Nat.reduceAdd, Nat.reduceDiv]
  simp only [isPrivateOrReserved, Ipv6Addr.isLoopback, Ipv6Addr.isUnspecified,
    Ipv6Addr.isMulticast, isReservedSegments, Ipv6Addr.new, Bool.or_eq_true, Bool.and_eq_true,
    beq_iff_eq, List.cons.injEq, Ipv6Addr.mk.injEq, and_true, hmulticast, hlocal, hlink,
    ← UInt16.toNat_inj, UInt16.reduceToNat, or_assoc, and_assoc]
  refine or_congr ?_ (or_congr ?_ (or_congr ?_ (or_congr ?_ (or_congr ?_ (or_congr ?_
    (or_congr ?_ ?_))))))
  all_goals omega

theorem public_iff {ip : IpAddr} : isPrivateOrReserved ip = false <->
    forall net, net ∈ refusedRanges -> net.contains ip = false := by
  have hany : isPrivateOrReserved ip = refusedRanges.any (fun net => net.contains ip) := by
    cases ip with
    | v4 ip => exact reserved_v4 ip
    | v6 ip => exact reserved_v6 ip
  rw [hany, List.any_eq_false]
  simp only [Bool.not_eq_true]

variable {net : IpNet}

theorem mem_refusedRanges (h : net ∈ namedRanges) : net ∈ refusedRanges ∨ net = thisNetwork ∨
    net = .ofIpv6 (.new 0x64 0xff9b 0 0 0 0 0 0) 96 := by
  unfold namedRanges rangesWith at h
  unfold refusedRanges rangesWith thisNetwork
  simp only [List.mem_cons, List.not_mem_nil, or_false] at h ⊢
  grind

theorem outside_of_named {ip : IpAddr} (hpublic : isPrivateOrReserved ip = false)
    (hnet : net ∈ namedRanges) (hother : thisNetwork.contains ip = false) :
    net.contains ip = false := by
  rw [public_iff] at hpublic
  rcases mem_refusedRanges hnet with hrefused | rfl | rfl
  · exact hpublic net hrefused
  · exact hother
  · cases ip with
    | v4 ip => rfl
    | v6 ip =>
      -- the longer of the two prefixes of the translated addresses
      have hwide := hpublic (.ofIpv6 (.new 0x64 0xff9b 0 0 0 0 0 0) 32) (by
        unfold refusedRanges rangesWith
        simp)
      rw [Bool.eq_false_iff, ne_eq, IpNet.contains_ofIpv6] at hwide ⊢
      simp only [Ipv6Addr.toNat_new, UInt16.reduceToNat, Fin.coe_ofNat_eq_mod, Nat.reduceMod,
        Nat.reduceSub, Nat.reducePow, Nat.reduceMul, Nat.reduceAdd, Nat.reduceDiv] at hwide ⊢
      omega

theorem thisNetwork_mem_namedRanges : thisNetwork ∈ namedRanges := by
  unfold namedRanges rangesWith thisNetwork
  simp

theorem isPrivateOrReserved_zero : isPrivateOrReserved (.v4 (.new 0 0 0 0)) = true := by
  decide

theorem inZeroNetwork_of_public {ip : IpAddr} (hthis : thisNetwork.contains ip = true)
    (hpublic : isPrivateOrReserved ip = false) : inZeroNetwork ip = true := by
  unfold inZeroNetwork
  rw [hthis, Bool.true_and, bne_iff_ne]
  rintro rfl
  rw [isPrivateOrReserved_zero] at hpublic
  cases hpublic

theorem thisNetwork_of_inZeroNetwork {ip : IpAddr} (h : inZeroNetwork ip = true) :
    thisNetwork.contains ip = true := by
  unfold inZeroNetwork at h
  exact (Bool.and_eq_true_iff.mp h).1

/-- The range that the validator means to refuse by `is_unspecified`. -/
theorem public_of_inZeroNetwork {ip : Ipv4Addr} (h : inZeroNetwork (.v4 ip) = true) :
    isPrivateOrReserved (.v4 ip) = false := by
  obtain ⟨a, b, c, d, rfl⟩ := ip.exists_new
  have ha := a.toNat_lt
  have hb := b.toNat_lt
  have hc := c.toNat_lt
  have hd := d.toNat_lt
  unfold inZeroNetwork thisNetwork at h
  rw [Bool.and_eq_true_iff, bne_iff_ne, IpNet.contains_ofIpv4] at h
  obtain ⟨hthis, hne⟩ := h
  simp only [Ipv4Addr.toNat_new, UInt8.reduceToNat, Fin.coe_ofNat_eq_mod, Nat.reduceMod,
    Nat.reduceSub, Nat.reducePow, Nat.reduceMul, Nat.reduceAdd, Nat.reduceDiv] at hthis
  rw [Bool.eq_false_iff, ne_eq, isPrivateOrReserved_v4]
  intro hreserved
  apply hne
  have hfirst : a.toNat = 0 := by omega
  have hzero : a.toNat = 0 ∧ b.toNat = 0 ∧ c.toNat = 0 ∧ d.toNat = 0 := by omega
  have octet_zero : forall x : UInt8, x.toNat = 0 -> x = 0 := fun x hx => UInt8.toNat_inj.mp hx
  rw [octet_zero a hzero.1, octet_zero b hzero.2.1, octet_zero c hzero.2.2.1,
    octet_zero d hzero.2.2.2]

/-! ## What is accepted -/

section Accepted

variable {libs : UrlLibraries} {rawUrl : Text} {url : Url}
variable {ips : List SocketAddr}

def withoutPort (addr : SocketAddr) : SocketAddr :=
  ⟨addr.ip, 0⟩

theorem map_ip_withoutPort (answers : List SocketAddr) :
    (answers.map withoutPort).map SocketAddr.ip = answers.map SocketAddr.ip :=
  List.map_map

theorem checkAnswers_ok_iff {hostname : Text} {addrs validated : List SocketAddr} :
    checkAnswers hostname validated addrs = .ok ips <->
      (forall addr, addr ∈ addrs -> isPrivateOrReserved addr.ip = false) ∧
        validated ++ addrs.map withoutPort = ips := by
  induction addrs generalizing validated with
  | nil => simp [checkAnswers]
  | cons addr rest ih =>
    rw [checkAnswers, List.forall_mem_cons]
    split
    · rename_i hreserved
      simp [hreserved]
    · rename_i hpublic
      simp [ih, hpublic, withoutPort]

theorem resolveAndCheck_ok_iff {hostname : Text} :
    resolveAndCheck libs hostname = .ok ips <->
      exists answers, libs.toSocketAddrs hostname = some answers ∧
        (forall addr, addr ∈ answers -> isPrivateOrReserved addr.ip = false) ∧
        answers.map withoutPort = ips ∧ ips ≠ [] := by
  unfold resolveAndCheck
  cases libs.toSocketAddrs hostname with
  | none => simp
  | some answers =>
    simp only [Option.some.injEq, exists_eq_left']
    rw [← and_assoc, ← List.nil_append (answers.map withoutPort),
      ← checkAnswers_ok_iff]
    cases checkAnswers hostname [] answers with
    | error e => simp
    | ok validated =>
      constructor
      · intro h
        dsimp only at h
        split at h
        · cases h
        · rename_i hne
          injection h with h
          subst h
          exact ⟨rfl, fun hnil => hne (List.isEmpty_iff.mpr hnil)⟩
      · rintro ⟨⟨rfl⟩, hne⟩
        exact if_neg (fun hnil => hne (List.isEmpty_iff.mp hnil))

theorem checkLiteral_ok_iff {ip : IpAddr} :
    checkLiteral ip = .ok ips <-> isPrivateOrReserved ip = false ∧ ips = [] := by
  unfold checkLiteral
  cases isPrivateOrReserved ip <;> simp [eq_comm]

theorem checkHost_domain_iff {hostname : Text} :
    checkHost libs (some (.domain hostname)) = .ok ips <->
      blockedNames.contains (toAsciiLowercase hostname) = false ∧
        resolveAndCheck libs hostname = .ok ips := by
  rw [checkHost, checkForbiddenHostname]
  cases blockedNames.contains (toAsciiLowercase hostname) <;> simp

theorem checkHost_ok (h : checkHost libs url.host = .ok ips) :
    (forall ip, ip ∈ addressesOf libs url -> isPrivateOrReserved ip = false) ∧
      forall hostname, url.host = some (.domain hostname) ->
        exists answers, libs.toSocketAddrs hostname = some answers ∧
          ips.map SocketAddr.ip = answers.map SocketAddr.ip ∧ ips ≠ [] := by
  unfold addressesOf
  cases hhost : url.host with
  | none =>
    rw [hhost] at h
    cases h
  | some host =>
    rw [hhost] at h
    cases host with
    | ipv4 v4 => simpa using (checkLiteral_ok_iff.mp h).1
    | ipv6 v6 => simpa using (checkLiteral_ok_iff.mp h).1
    | domain hostname =>
      obtain ⟨answers, hanswers, hpublic, rfl, hne⟩ :=
        resolveAndCheck_ok_iff.mp (checkHost_domain_iff.mp h).2
      dsimp only
      rw [hanswers]
      constructor
      · intro ip hip
        obtain ⟨addr, haddr, rfl⟩ := List.mem_map.mp hip
        exact hpublic addr haddr
      · rintro _ ⟨rfl⟩
        exact ⟨answers, hanswers, map_ip_withoutPort answers, hne⟩

theorem validateScheme_ok_iff : validateScheme url = .ok () <->
    url.scheme = "http".toList ∨ url.scheme = "https".toList := by
  unfold validateScheme
  split <;> simp only [*, reduceCtorEq]

theorem validatePublicUrlWithIps_ok_iff :
    validatePublicUrlWithIps libs rawUrl = .ok (url, ips) <->
      libs.parse rawUrl = .ok url ∧
        (url.scheme = "http".toList ∨ url.scheme = "https".toList) ∧
        checkHost libs url.host = .ok ips := by
  unfold validatePublicUrlWithIps
  cases libs.parse rawUrl with
  | error e => simp
  | ok parsed =>
    constructor
    · intro h
      dsimp only at h
      split at h
      · cases h
      · rename_i hscheme
        split at h
        · cases h
        · rename_i resolved hresolved
          cases h
          exact ⟨rfl, validateScheme_ok_iff.mp hscheme, hresolved⟩
    · rintro ⟨⟨rfl⟩, hscheme, hhost⟩
      dsimp only
      rw [validateScheme_ok_iff.mpr hscheme, hhost]

theorem publicOnly_iff (h : validatePublicUrlWithIps libs rawUrl = .ok (url, ips)) :
    PublicOnly libs url ips <-> forall ip, ip ∈ addressesOf libs url ->
        thisNetwork.contains ip = false := by
  obtain ⟨-, hscheme, hhost⟩ := validatePublicUrlWithIps_ok_iff.mp h
  obtain ⟨hpublic, hpinned⟩ := checkHost_ok hhost
  constructor
  · intro honly ip hip
    exact honly.outside ip hip thisNetwork thisNetwork_mem_namedRanges
  · intro houtside
    refine ⟨hscheme, ?_, hpinned⟩
    intro ip hip net hnet
    exact outside_of_named (hpublic ip hip) hnet (houtside ip hip)

theorem checkHost_of_reachesZeroNetwork (h : ReachesZeroNetwork libs url) :
    exists ips, checkHost libs url.host = .ok ips ∧
      exists ip, ip ∈ addressesOf libs url ∧ inZeroNetwork ip = true := by
  unfold ReachesZeroNetwork at h
  unfold addressesOf
  cases hhost : url.host with
  | none =>
    rw [hhost] at h
    exact absurd h id
  | some host =>
    rw [hhost] at h
    cases host with
    | ipv4 v4 =>
      exact ⟨[], checkLiteral_ok_iff.mpr ⟨public_of_inZeroNetwork h, rfl⟩, .v4 v4,
        List.mem_cons_self, h⟩
    | ipv6 v6 => exact absurd h id
    | domain hostname =>
      obtain ⟨hfree, answers, hanswers, hpublic, addr, haddr, hzero⟩ := h
      have hne : answers.map withoutPort ≠ [] := List.ne_nil_of_mem (List.mem_map_of_mem haddr)
      refine ⟨answers.map withoutPort, checkHost_domain_iff.mpr ⟨hfree, ?_⟩, addr.ip, ?_, hzero⟩
      · exact resolveAndCheck_ok_iff.mpr
          ⟨answers, hanswers, fun addr hmem => public_iff.mpr (hpublic addr hmem), rfl, hne⟩
      · dsimp only
        rw [hanswers]
        exact List.mem_map_of_mem haddr

theorem reachesZeroNetwork_of_ok (h : checkHost libs url.host = .ok ips) {ip : IpAddr}
    (hip : ip ∈ addressesOf libs url) (hthis : thisNetwork.contains ip = true) :
    ReachesZeroNetwork libs url := by
  have hzero := inZeroNetwork_of_public hthis ((checkHost_ok h).1 ip hip)
  unfold addressesOf at hip
  unfold ReachesZeroNetwork
  cases hhost : url.host with
  | none =>
    rw [hhost] at hip
    cases hip
  | some host =>
    rw [hhost] at hip h
    cases host with
    | ipv4 v4 =>
      rw [List.mem_singleton.mp hip] at hzero
      exact hzero
    | ipv6 v6 =>
      rw [List.mem_singleton.mp hip] at hthis
      cases hthis
    | domain hostname =>
      obtain ⟨hfree, hresolved⟩ := checkHost_domain_iff.mp h
      obtain ⟨answers, hanswers, hpublic, -, -⟩ := resolveAndCheck_ok_iff.mp hresolved
      dsimp only at hip
      rw [hanswers] at hip
      obtain ⟨addr, haddr, rfl⟩ := List.mem_map.mp hip
      exact ⟨hfree, answers, hanswers, fun addr hmem => public_iff.mp (hpublic addr hmem),
        addr, haddr, hzero⟩

end Accepted

/-- A URL leads to the public internet whenever it is accepted, exactly when its host
or an answer that would be accepted for it is not one of 0.0.0.1 to 0.255.255.255. -/
theorem accepted_publicOnly_iff (libs : UrlLibraries) (rawUrl : Text) :
    (forall url ips, validatePublicUrlWithIps libs rawUrl = .ok (url, ips) ->
        PublicOnly libs url ips) <->
      forall url, libs.parse rawUrl = .ok url ->
        url.scheme = "http".toList ∨ url.scheme = "https".toList ->
        ¬ ReachesZeroNetwork libs url := by
  constructor
  · intro honly url hparse hscheme hzero
    obtain ⟨ips, hhost, ip, hip, hin⟩ := checkHost_of_reachesZeroNetwork hzero
    have haccepted : validatePublicUrlWithIps libs rawUrl = .ok (url, ips) :=
      validatePublicUrlWithIps_ok_iff.mpr ⟨hparse, hscheme, hhost⟩
    have houtside := (publicOnly_iff haccepted).mp (honly url ips haccepted) ip hip
    rw [thisNetwork_of_inZeroNetwork hin] at houtside
    cases houtside
  · intro hnever url ips haccepted
    obtain ⟨hparse, hscheme, hhost⟩ := validatePublicUrlWithIps_ok_iff.mp haccepted
    refine (publicOnly_iff haccepted).mpr ?_
    intro ip hip
    rw [Bool.eq_false_iff]
    intro hthis
    exact hnever url hparse hscheme (reachesZeroNetwork_of_ok hhost hip hthis)

def zeroUrl : UrlLibraries where
  parse := fun raw =>
    if raw = "http://0.1.2.3/".toList then
      .ok
        { scheme := "http".toList
          host := some (.ipv4 (.new 0 1 2 3)) }
    else .error "relative URL without a base".toList
  toSocketAddrs := fun _ => none

theorem zero_network_accepted :
    exists url ips, validatePublicUrlWithIps zeroUrl "http://0.1.2.3/".toList = .ok (url, ips) ∧
        addressesOf zeroUrl url = [.v4 (.new 0 1 2 3)] ∧ ¬ PublicOnly zeroUrl url ips := by
  refine ⟨_, _, rfl, rfl, ?_⟩
  intro honly
  have hfalse := honly.outside (.v4 (.new 0 1 2 3)) List.mem_cons_self
    thisNetwork thisNetwork_mem_namedRanges
  revert hfalse
  decide

end Common
end PrxWaf
