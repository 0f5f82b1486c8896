import PrxWaf.Common.Tier
import PrxWaf.Http.Header

/-!
# Requests and routing

The router maps the `Host` header of a request to the configuration of a site.
The context of the request is built from that configuration: its host and port
are those of the site, whatever the header said.
-/

namespace PrxWaf
namespace Gateway

open Lib Http

structure HostConfig where
  host : Text
  port : UInt16
  code : Text := []
  deriving DecidableEq

/-- What is handed out for a site, by the keys of the site. -/
structure HostRoutes (shared : Type) where
  routes : AList (fun _ : Text => shared)

abbrev HostRouter := HostRoutes HostConfig

namespace HostRouter

def routeKey (host : Text) (port : UInt16) : Text :=
  host ++ ':' :: (Nat.repr port.toNat).toList

def isDefaultPort (port : UInt16) : Bool :=
  port == 80 || port == 443

end HostRouter

namespace HostRoutes

variable {shared : Type}

def new : HostRoutes shared :=
  { routes := ∅ }

def register (router : HostRoutes shared) (config : HostConfig) (value : shared) :
    HostRoutes shared :=
  let routes := router.routes.insert (HostRouter.routeKey config.host config.port) value
  if HostRouter.isDefaultPort config.port then
    { routes := routes.insert config.host value }
  else { routes := routes }

def unregister (router : HostRoutes shared) (host : Text) (port : UInt16) : HostRoutes shared :=
  let routes := router.routes.erase (HostRouter.routeKey host port)
  if HostRouter.isDefaultPort port then { routes := routes.erase host }
  else { routes := routes }

def resolve (router : HostRoutes shared) (hostHeader : Text) : Option shared :=
  match router.routes.lookup hostHeader with
  | some value => some value
  | none => router.routes.lookup (Text.beforeFirst ':' hostHeader)

end HostRoutes

def HostRouter.new : HostRouter :=
  HostRoutes.new

/-- The configuration is what is handed out for it. -/
def HostRouter.register (router : HostRouter) (config : HostConfig) : HostRouter :=
  HostRoutes.register router config config

structure Request where
  method : Text
  isToken : IsToken method
  path : Text
  query : Option Text
  headers : HeaderMap

def hostName : HeaderName :=
  headerName "host"

def Request.hostHeader (req : Request) : Text :=
  ((HeaderMap.get req.headers hostName).bind HeaderValue.fromUtf8).getD []

abbrev TextMap := AList (fun _ : Text => Text)

def parseCookiePair (pair : Text) : Option (Text × Text) :=
  match Text.splitOnce '=' (Text.trim pair) with
  | some (name, value) =>
    if Text.trim name = [] then none
    else some (Text.trim name, Text.trim value)
  | none => none

/-- Pairs without a name are skipped; the last pair of a name counts. -/
def parseCookieHeader (header : Text) : TextMap :=
  ((header.splitOn ';').filterMap parseCookiePair).foldl
    (fun cookies pair => cookies.insert pair.1 pair.2) ∅

/-- Lines that are not UTF-8 are left out; the last line of a name counts. -/
def collectHeaders (headers : HeaderMap) : TextMap :=
  headers.foldl
    (fun collected headerLine =>
      match headerLine.2.fromUtf8 with
      | some value => collected.insert headerLine.1.text value
      | none => collected)
    ∅

structure RequestParts where
  host : Text
  path : Text
  method : Text
  headers : HeaderMap

abbrev TierRegistry := RequestParts -> Tier × CachePolicy

structure RequestCtx where
  method : Text
  host : Text
  port : UInt16
  path : Text
  query : Text
  headers : TextMap
  tier : Tier
  cachePolicy : CachePolicy
  cookies : TextMap

def hostForClassify (headers : TextMap) (config : HostConfig) : Text :=
  match headers.lookup "host".toList with
  | some h => toAsciiLowercase (Text.beforeFirst ':' h)
  | none => toAsciiLowercase config.host

/-- Without a registry every request is in the last tier and is not cached. -/
def classify (registry : Option TierRegistry) (parts : RequestParts) : Tier × CachePolicy :=
  match registry with
  | some r => r parts
  | none => (.catchAll, .noCache)

def buildRequestCtx (registry : Option TierRegistry) (config : HostConfig)
    (req : Request) : RequestCtx :=
  let headers := collectHeaders req.headers
  let classified := classify registry
    { host := hostForClassify headers config
      path := req.path
      method := req.method
      headers := req.headers }
  { method := req.method
    host := config.host
    port := config.port
    path := req.path
    query := req.query.getD []
    headers := headers
    tier := classified.1
    cachePolicy := classified.2
    cookies :=
      match headers.lookup "cookie".toList with
      | some v => parseCookieHeader v
      | none => ∅ }

theorem text_ne_of_ne {name other : HeaderName} (h : name ≠ other) :
    name.text ≠ other.text := by
  intro htext
  cases name
  cases other
  cases htext
  exact h rfl

theorem lookup_foldl_collect (name : HeaderName) (headers : HeaderMap) (collected : TextMap) :
    (headers.foldl (fun collected headerLine =>
        match headerLine.2.fromUtf8 with
        | some value => collected.insert headerLine.1.text value
        | none => collected) collected).lookup name.text =
      (((HeaderMap.getAll headers name).filterMap
        HeaderValue.fromUtf8).getLast?).or (collected.lookup name.text) := by
  induction headers generalizing collected with
  | nil => rfl
  | cons first rest ih =>
    rcases first with ⟨other, value⟩
    rw [List.foldl_cons, ih]
    unfold HeaderMap.getAll
    rcases Decidable.em (other = name) with hname | hname
    · rw [List.filter_cons_of_pos (by simpa using hname), List.map_cons, List.filterMap_cons]
      cases hutf8 : value.fromUtf8 with
      | none => rfl
      | some text =>
        dsimp only
        rw [hname, AList.lookup_insert, List.getLast?_cons]
        cases (((rest.filter (fun line => line.1 = name)).map
          Prod.snd).filterMap HeaderValue.fromUtf8).getLast? with
        | none => rfl
        | some last => rfl
    · rw [List.filter_cons_of_neg (by simpa using hname)]
      cases hutf8 : value.fromUtf8 with
      | none => rfl
      | some text =>
        dsimp only
        rw [AList.lookup_insert_ne (text_ne_of_ne (Ne.symm hname))]

theorem lookup_collectHeaders (name : HeaderName) (headers : HeaderMap) :
    (collectHeaders headers).lookup name.text = ((HeaderMap.getAll headers name).filterMap
        HeaderValue.fromUtf8).getLast? := by
  unfold collectHeaders
  rw [lookup_foldl_collect, AList.lookup_empty, Option.or_none]

theorem mem_foldl_insert {key : Text} (pairs : List (Text × Text))
    {cookies : TextMap} (h : key ∈ cookies) :
    key ∈ pairs.foldl (fun cookies pair => cookies.insert pair.1 pair.2)
      cookies := by
  induction pairs generalizing cookies with
  | nil => exact h
  | cons pair rest ih => exact ih ((AList.mem_insert _).mpr (Or.inr h))

theorem keys_parseCookieHeader (header : Text) :
    (parseCookieHeader header).keys = [] <->
      forall part, part ∈ header.splitOn ';' -> parseCookiePair part = none := by
  rw [← List.filterMap_eq_nil_iff]
  unfold parseCookieHeader
  cases (header.splitOn ';').filterMap parseCookiePair with
  | nil => exact ⟨fun _ => rfl, fun _ => rfl⟩
  | cons pair rest =>
    have hmem : pair.1 ∈ (pair :: rest).foldl (fun cookies pair => cookies.insert pair.1 pair.2)
        (∅ : TextMap) := mem_foldl_insert rest ((AList.mem_insert _).mpr (Or.inl rfl))
    constructor
    · intro h
      rw [AList.mem_keys, h] at hmem
      cases hmem
    · intro h
      cases h

/-- `none` is a request that no site answers: it ends with status 503. -/
def requestCtx (router : HostRouter) (registry : Option TierRegistry)
    (req : Request) : Option RequestCtx :=
  (router.resolve req.hostHeader).map (fun config =>
    buildRequestCtx registry config req)

end Gateway
end PrxWaf
