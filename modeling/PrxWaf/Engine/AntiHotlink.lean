import PrxWaf.Engine.Context
import PrxWaf.Http.Url

/-!
# Hotlink protection

A request may name the page it comes from.  The host of that page is cut out of the
referer with a few splits and compared with the entries of a list.
-/

namespace PrxWaf
namespace Engine
namespace AntiHotlink

open Lib Http

def kelvinSign : Char := '\u212a'

/-- The lower case of a character where that is an ASCII one.  Outside of ASCII only
the Kelvin sign has such a lower case. -/
def lowerToAscii (c : Char) : Char :=
  if c = kelvinSign then 'k' else c.toLower

/-- The conversion of texts to lower case, as far as its results are ASCII. -/
structure LowerMap where
  toLowercase : Text -> Text
  eq_ascii_iff : forall s t : Text, (forall c, c ∈ t -> c.toNat < 128) ->
    (toLowercase s = t <-> s.map lowerToAscii = t)

structure HotlinkConfig where
  enabled : Bool
  allowEmptyReferer : Bool
  allowedDomains : List Text

def extractDomain (maps : LowerMap) (url : Text) : Text :=
  let s := Text.trim url
  let s := ((Text.stripFront "https://".toList s).orElse
    (fun _ => Text.stripFront "http://".toList s)).getD s
  let s := Text.beforeFirst '/' s
  let s := Text.beforeFirst ':' s
  maps.toLowercase s

def domainMatches (maps : LowerMap) (pattern domain : Text) : Bool :=
  let pat := maps.toLowercase (Text.trim pattern)
  if "*.".toList.isPrefixOf pat then
    domain = pat.drop 2 || (pat.drop 1).isSuffixOf domain
  else domain = pat

def HotlinkConfig.isAllowed (maps : LowerMap) (config : HotlinkConfig) (referer : Text) : Bool :=
  let domain := extractDomain maps referer
  config.allowedDomains.any (fun pat => domainMatches maps pat domain)

def detection (detail : Text) : DetectionResult :=
  { ruleId := none
    ruleName := "Anti-Hotlink".toList
    phase := .antiHotlink
    detail := detail }

def check (maps : LowerMap) (configs : AList (fun _ : Text => HotlinkConfig))
    (ctx : InspectCtx) : Option DetectionResult :=
  match configs.lookup ctx.hostConfig.code with
  | none => none
  | some config =>
    if config.enabled = false then none
    else
      let referer := (ctx.headers.lookup "referer".toList).getD []
      if referer = [] then
        if config.allowEmptyReferer then none
        else some (detection "Request blocked: missing Referer header".toList)
      else if config.isAllowed maps referer then none
      else some (detection ("Referer '".toList ++ referer ++ "' not in allow-list".toList))

variable {maps : LowerMap} {pattern s : Text} {c : Char} {url : HttpUrl}

/-- A pattern with a star covers its base and the subdomains of the base. -/
def Covers (pattern host : Text) : Prop :=
  host = pattern ∨
    exists base, pattern = '*' :: '.' :: base ∧ (host = base ∨ ('.' :: base) <:+ host)

def Permits (entry host : Text) : Prop :=
  Covers (toAsciiLowercase (Text.trim entry)) (toAsciiLowercase host)

theorem covers_self (pattern : Text) : Covers pattern pattern :=
  Or.inl rfl

theorem domainMatches_iff {domain : Text} :
    domainMatches maps pattern domain = true <->
      Covers (maps.toLowercase (Text.trim pattern)) domain := by
  unfold domainMatches Covers
  dsimp only
  generalize maps.toLowercase (Text.trim pattern) = pat
  split
  · rename_i hstar
    obtain ⟨base, rfl⟩ := List.isPrefixOf_iff_prefix.mp hstar
    rw [Bool.or_eq_true, decide_eq_true_eq, List.isSuffixOf_iff_suffix]
    change domain = base ∨ ('.' :: base) <:+ domain <-> domain = '*' :: '.' :: base ∨
        exists base', '*' :: '.' :: base = '*' :: '.' :: base' ∧
          (domain = base' ∨ ('.' :: base') <:+ domain)
    constructor
    · intro h
      exact Or.inr ⟨base, rfl, h⟩
    · rintro (rfl | ⟨base', hbase, h⟩)
      · exact Or.inr (List.suffix_cons '*' ('.' :: base))
      · cases hbase
        exact h
  · rename_i hplain
    rw [decide_eq_true_eq]
    constructor
    · exact Or.inl
    · rintro (h | ⟨base, rfl, _⟩)
      · exact h
      · exact absurd rfl hplain

theorem isAllowed_iff {config : HotlinkConfig} {referer : Text} :
    config.isAllowed maps referer = true <->
      exists entry, entry ∈ config.allowedDomains ∧ Covers (maps.toLowercase (Text.trim entry))
          (extractDomain maps referer) := by
  unfold HotlinkConfig.isAllowed
  dsimp only
  rw [List.any_eq_true]
  constructor
  · rintro ⟨entry, hmem, hmatch⟩
    exact ⟨entry, hmem, domainMatches_iff.mp hmatch⟩
  · rintro ⟨entry, hmem, hcovers⟩
    exact ⟨entry, hmem, domainMatches_iff.mpr hcovers⟩

theorem forall_mem_of_covers {P : Char -> Prop} {host : Text}
    (h : Covers pattern host) (hstar : P '*') (hdot : P '.') (hhost : forall c, c ∈ host -> P c) :
    forall c, c ∈ pattern -> P c := by
  rcases h with rfl | ⟨base, rfl, hbase⟩
  · exact hhost
  · intro c hc
    rcases List.mem_cons.mp hc with rfl | hc
    · exact hstar
    · rcases List.mem_cons.mp hc with rfl | hc
      · exact hdot
      · rcases hbase with rfl | hsuffix
        · exact hhost c hc
        · exact hhost c (hsuffix.subset (List.mem_cons_of_mem '.' hc))

theorem forall_covers_iff {domain host : Text} :
    (forall pattern, Covers pattern domain -> Covers pattern host) <-> domain = host ∨
        exists rest, domain = '*' :: '.' :: rest ∧ ('.' :: domain) <:+ host := by
  constructor
  · intro h
    by_cases hstar : exists rest, domain = '*' :: '.' :: rest
    · obtain ⟨rest, hdomain⟩ := hstar
      have hcovered : Covers ('*' :: '.' :: domain) host := h _ (Or.inr ⟨domain, rfl, Or.inl rfl⟩)
      rcases hcovered with hhost | ⟨base, hbase, hcase⟩
      · refine Or.inr ⟨rest, hdomain, ?_⟩
        rw [hhost]
        exact List.suffix_cons '*' ('.' :: domain)
      · cases hbase
        rcases hcase with rfl | hsuffix
        · exact Or.inl rfl
        · exact Or.inr ⟨rest, hdomain, hsuffix⟩
    · rcases h domain (covers_self domain) with hhost | ⟨base, hbase, _⟩
      · exact Or.inl hhost.symm
      · exact absurd ⟨base, hbase⟩ hstar
  · rintro (rfl | ⟨rest, hdomain, hsuffix⟩) pattern hcovers
    · exact hcovers
    · rcases hcovers with rfl | ⟨base, rfl, hbase⟩
      · refine Or.inr ⟨rest, hdomain, Or.inr ?_⟩
        rw [hdomain] at hsuffix
        exact ((List.suffix_cons '*' ('.' :: rest)).trans (List.suffix_cons '.' _)).trans hsuffix
      · refine Or.inr ⟨base, rfl, Or.inr ?_⟩
        rcases hbase with rfl | hbase
        · exact hsuffix
        · exact (hbase.trans (List.suffix_cons '.' domain)).trans hsuffix

theorem ne_kelvinSign (h : isUrlChar c = true) :
    c ≠ kelvinSign := by
  rintro rfl
  exact absurd h (by decide)

theorem lt_of_isUrlChar (h : isUrlChar c = true) :
    c.toNat < 128 := by
  unfold isUrlChar at h
  rw [Bool.and_eq_true, decide_eq_true_eq, decide_eq_true_eq] at h
  lia

theorem map_lowerToAscii (h : kelvinSign ∉ s) :
    s.map lowerToAscii = toAsciiLowercase s := by
  refine List.map_congr_left ?_
  intro c hc
  unfold lowerToAscii
  rw [if_neg]
  rintro rfl
  exact h hc

theorem not_mem_of_isUrlText (h : IsUrlText s) :
    kelvinSign ∉ s :=
  fun hmem => ne_kelvinSign (h _ hmem) rfl

theorem toLowercase_of_isUrlText (h : IsUrlText s) : maps.toLowercase s = toAsciiLowercase s := by
  rw [maps.eq_ascii_iff _ _ (fun c hc =>
    lt_of_isUrlChar (isUrlText_toAsciiLowercase.mpr h c hc))]
  exact map_lowerToAscii (not_mem_of_isUrlText h)

def withoutScheme (url : Text) : Text :=
  ((Text.stripFront "https://".toList url).orElse
    (fun _ => Text.stripFront "http://".toList url)).getD url

def beforeDelimiters (s : Text) : Text :=
  Text.beforeFirst ':' (Text.beforeFirst '/' s)

/-- What is left of a URL after the cuts, in its own case. -/
def cut (url : Text) : Text :=
  beforeDelimiters (withoutScheme url)

theorem mem_of_mem_withoutScheme {url : Text} (h : c ∈ withoutScheme url) : c ∈ url := by
  unfold withoutScheme at h
  cases hsecure : Text.stripFront "https://".toList url with
  | some rest =>
    rw [hsecure] at h
    rw [Text.eq_append_of_stripFront hsecure]
    exact List.mem_append_right _ h
  | none =>
    rw [hsecure] at h
    cases hplain : Text.stripFront "http://".toList url with
    | some rest =>
      rw [hplain] at h
      rw [Text.eq_append_of_stripFront hplain]
      exact List.mem_append_right _ h
    | none =>
      rw [hplain] at h
      exact h

theorem mem_of_mem_cut {url : Text} (h : c ∈ cut url) : c ∈ url :=
  mem_of_mem_withoutScheme ((List.takeWhile_sublist _).subset ((List.takeWhile_sublist _).subset h))

theorem extractDomain_render (maps : LowerMap) (url : HttpUrl) :
    extractDomain maps url.render = toAsciiLowercase (cut url.render) := by
  unfold extractDomain
  rw [trim_of_isUrlText url.isUrlText_render]
  exact toLowercase_of_isUrlText (fun c hc => url.isUrlText_render c (mem_of_mem_cut hc))

/-!
## The part of a URL that is compared

The cuts know nothing of user names, addresses in brackets and queries without a path.
Which part of a URL they leave depends on where its delimiters are.
-/

def HasLowerScheme (url : HttpUrl) : Prop :=
  url.scheme = "http".toList ∨ url.scheme = "https".toList

/-- The text is left of the URL: the scheme if that has a capital letter, the user if
there is a colon after it, or the host if it has no colon and is followed by a port, a
path or nothing. -/
inductive LeavesPart (url : HttpUrl) : Text -> Prop where
  | scheme (hscheme : ¬ HasLowerScheme url) : LeavesPart url url.scheme
  | user {user password : Text} (hscheme : HasLowerScheme url)
      (huserinfo : url.userinfo = some (user ++ ':' :: password)) (hcolon : ':' ∉ user) :
      LeavesPart url user
  | host (hscheme : HasLowerScheme url) (huserinfo : url.userinfo = none)
      (hcolon : ':' ∉ url.host)
      (hend : url.port ≠ none ∨ url.path ≠ [] ∨ (url.query = none ∧ url.fragment = none)) :
      LeavesPart url url.host

theorem beforeDelimiters_append (hslash : '/' ∉ s) (hcolon : ':' ∉ s) (rest : Text) :
    beforeDelimiters (s ++ rest) = s ++ beforeDelimiters rest := by
  unfold beforeDelimiters Text.beforeFirst
  rw [List.takeWhile_append_of_pos, List.takeWhile_append_of_pos]
  · intro c hc
    refine decide_eq_true ?_
    rintro rfl
    exact hcolon hc
  · intro c hc
    refine decide_eq_true ?_
    rintro rfl
    exact hslash hc

theorem beforeDelimiters_at_colon (hslash : '/' ∉ s) (hcolon : ':' ∉ s) (rest : Text) :
    beforeDelimiters (s ++ ':' :: rest) = s := by
  rw [beforeDelimiters_append hslash hcolon]
  exact List.append_nil s

theorem withoutScheme_render (hscheme : HasLowerScheme url) :
    withoutScheme url.render = url.authority ++ url.tail := by
  unfold withoutScheme HttpUrl.render
  rcases hscheme with hscheme | hscheme
  · rw [hscheme]
    exact congrArg (fun stripped => Option.getD stripped _)
      (Text.stripFront_append "http://".toList (url.authority ++ url.tail))
  · rw [hscheme]
    exact congrArg (fun stripped => Option.getD (Option.orElse stripped _) _)
      (Text.stripFront_append "https://".toList (url.authority ++ url.tail))

theorem not_mem_scheme (hlower : c.toLower = c) (hc : c ∉ "https".toList) : c ∉ url.scheme := by
  intro hmem
  have hlowered : c ∈ toAsciiLowercase url.scheme := List.mem_map.mpr ⟨c, hmem, hlower⟩
  rcases url.scheme_http with hscheme | hscheme
  · rw [hscheme] at hlowered
    have hsub : "http".toList ⊆ "https".toList := by decide
    exact hc (hsub hlowered)
  · rw [hscheme] at hlowered
    exact hc hlowered

theorem colon_not_mem_scheme : ':' ∉ url.scheme :=
  not_mem_scheme (by decide) (by decide)

theorem stripFront_render {name : Text} (hname : ':' ∉ name) (hscheme : url.scheme ≠ name) :
    Text.stripFront (name ++ "://".toList) url.render = none := by
  cases hstrip : Text.stripFront (name ++ "://".toList) url.render with
  | none => rfl
  | some rest =>
    have hrender := Text.eq_append_of_stripFront hstrip
    rw [List.append_assoc] at hrender
    have hfirst := congrArg (Text.beforeFirst ':') hrender
    unfold HttpUrl.render at hfirst
    have hleft : Text.beforeFirst ':'
        (url.scheme ++ ("://".toList ++ (url.authority ++ url.tail))) = url.scheme :=
      Text.beforeFirst_append_cons colon_not_mem_scheme _
    have hright : Text.beforeFirst ':' (name ++ ("://".toList ++ rest)) = name :=
      Text.beforeFirst_append_cons hname _
    exact absurd (hleft.symm.trans (hfirst.trans hright)) hscheme

theorem withoutScheme_of_capital (hscheme : ¬ HasLowerScheme url) :
    withoutScheme url.render = url.render := by
  unfold withoutScheme
  have hsecure : Text.stripFront "https://".toList url.render = none :=
    stripFront_render (by decide : ':' ∉ "https".toList) (fun h => hscheme (Or.inr h))
  have hplain : Text.stripFront "http://".toList url.render = none :=
    stripFront_render (by decide : ':' ∉ "http".toList) (fun h => hscheme (Or.inl h))
  rw [hsecure, hplain]
  rfl

theorem isUserinfoChar_or_bracket (hc : c ∈ url.host) :
    (isUserinfoChar c || c = '[' || c = ']') = true := by
  rcases url.host_chars with hname | ⟨inner, hhost, hinner⟩
  · have hchar := List.all_eq_true.mp hname c hc
    unfold isUserinfoChar
    rw [hchar]
    rfl
  · rw [hhost, List.mem_cons, List.mem_append, List.mem_singleton] at hc
    rcases hc with rfl | hc | rfl
    · decide
    · rw [List.all_eq_true.mp hinner c hc]
      rfl
    · decide

theorem slash_not_mem_host (url : HttpUrl) : '/' ∉ url.host :=
  fun hmem => absurd (isUserinfoChar_or_bracket hmem) (by decide)

theorem slash_not_mem_userinfo {info : Text} (h : url.userinfo = some info) : '/' ∉ info :=
  fun hmem => absurd (List.all_eq_true.mp (url.userinfo_chars info h) '/' hmem) (by decide)

theorem cut_of_capital (hscheme : ¬ HasLowerScheme url) : cut url.render = url.scheme := by
  unfold cut
  rw [withoutScheme_of_capital hscheme]
  exact beforeDelimiters_at_colon (not_mem_scheme (by decide) (by decide)) colon_not_mem_scheme _

theorem cut_of_userinfo (hscheme : HasLowerScheme url) {info : Text}
    (huserinfo : url.userinfo = some info) :
    exists rest, cut url.render = beforeDelimiters (info ++ '@' :: rest) := by
  unfold cut
  rw [withoutScheme_render hscheme, HttpUrl.authority, huserinfo, HttpUrl.before]
  exact ⟨url.host ++ HttpUrl.after ':' url.port ++ url.tail, by simp⟩

theorem cut_of_host (hscheme : HasLowerScheme url) (huserinfo : url.userinfo = none) :
    cut url.render =
      beforeDelimiters (url.host ++ (HttpUrl.after ':' url.port ++ url.tail)) := by
  unfold cut
  rw [withoutScheme_render hscheme, HttpUrl.authority, huserinfo, HttpUrl.before, List.nil_append,
    List.append_assoc]

theorem cut_of_leavesPart (h : LeavesPart url s) : cut url.render = s := by
  cases h with
  | scheme hscheme => exact cut_of_capital hscheme
  | user hscheme huserinfo hcolon =>
    rcases cut_of_userinfo hscheme huserinfo with ⟨rest, hcut⟩
    rw [hcut, List.append_assoc, List.cons_append]
    refine beforeDelimiters_at_colon (fun hmem => ?_) hcolon _
    exact slash_not_mem_userinfo huserinfo (List.mem_append_left _ hmem)
  | host hscheme huserinfo hcolon hend =>
    rw [cut_of_host hscheme huserinfo, beforeDelimiters_append (slash_not_mem_host url) hcolon]
    refine (congrArg (fun rest => url.host ++ rest) ?_).trans (List.append_nil _)
    cases hport : url.port with
    | some port => rfl
    | none =>
      unfold HttpUrl.tail
      rcases url.path_start with hpath | hpath
      · rcases hend with hp | hp | ⟨hquery, hfragment⟩
        · exact absurd hport hp
        · exact absurd hpath hp
        · rw [hpath, hquery, hfragment]
          rfl
      · rcases List.head?_eq_some_iff.mp hpath with ⟨rest, hrest⟩
        rw [hrest]
        rfl

/-- The text is the host, or begins as a pattern and the host is a subdomain of it. -/
def NamesHost (text host : Text) : Prop :=
  toAsciiLowercase text = toAsciiLowercase host ∨
    exists rest, toAsciiLowercase text = '*' :: '.' :: rest ∧
      ('.' :: toAsciiLowercase text) <:+ toAsciiLowercase host

theorem NamesHost.length_le {host : Text} (h : NamesHost s host) : s.length ≤ host.length := by
  have hlength : (toAsciiLowercase s).length ≤ (toAsciiLowercase host).length := by
    rcases h with heq | ⟨_, _, hsuffix⟩
    · rw [heq]
    · exact (Nat.le_succ _).trans hsuffix.length_le
  simpa [toAsciiLowercase] using hlength

theorem eq_of_toLower_eq {d : Char} (hletter : ¬ (97 ≤ d.toNat ∧ d.toNat ≤ 122))
    (h : c.toLower = d) : c = d := by
  have hnat := toNat_toLower c
  rw [h] at hnat
  refine Char.toNat_inj.mp ?_
  split at hnat
  · lia
  · exact hnat.symm

theorem NamesHost.mem {host : Text} (h : NamesHost s host)
    (hletter : ¬ (97 ≤ c.toNat ∧ c.toNat ≤ 122)) (hlower : c.toLower = c) (hc : c ∈ s) :
    c ∈ host := by
  have hmem : c ∈ toAsciiLowercase s := List.mem_map.mpr ⟨c, hc, hlower⟩
  have hhost : c ∈ toAsciiLowercase host := by
    rcases h with heq | ⟨_, _, hsuffix⟩
    · rw [← heq]
      exact hmem
    · exact hsuffix.subset (List.mem_cons_of_mem '.' hmem)
  rcases List.mem_map.mp hhost with ⟨d, hd, heq⟩
  rw [← eq_of_toLower_eq hletter heq]
  exact hd

/-- A host with a colon begins with a bracket, so the part before the colon names
nothing. -/
theorem not_namesHost_of_colon {first rest : Text}
    (hhost : url.host = first ++ ':' :: rest) : ¬ NamesHost first url.host := by
  have hcolon : ':' ∈ url.host := by
    rw [hhost]
    exact List.mem_append_right _ List.mem_cons_self
  rcases url.host_chars with hname | ⟨inner, hbracket, _⟩
  · exact absurd (List.all_eq_true.mp hname ':' hcolon) (by decide)
  rintro (hsame | ⟨base, hstar, _⟩)
  · have hlength := congrArg List.length hsame
    rw [hhost] at hlength
    simp [toAsciiLowercase] at hlength
  · rw [hhost] at hbracket
    cases first with
    | nil => cases hstar
    | cons c more =>
      injection hbracket with hc
      injection hstar with hc'
      rw [hc] at hc'
      exact absurd hc' (by decide)

/-- Without a path, what stands between the host and the first delimiter of the query
or the fragment is left with the host. -/
theorem not_namesHost_of_query (hscheme : HasLowerScheme url) (huserinfo : url.userinfo = none)
    (hcolon : ':' ∉ url.host) (hport : url.port = none) (hpath : url.path = [])
    (hrest : ¬ (url.query = none ∧ url.fragment = none)) :
    ¬ NamesHost (cut url.render) url.host := by
  intro h
  have hlength := h.length_le
  rw [cut_of_host hscheme huserinfo, beforeDelimiters_append (slash_not_mem_host url) hcolon,
    List.length_append] at hlength
  have hempty : beforeDelimiters (HttpUrl.after ':' url.port ++ url.tail) = [] :=
    List.eq_nil_of_length_eq_zero (by lia)
  unfold HttpUrl.tail at hempty
  rw [hport, hpath] at hempty
  cases hquery : url.query with
  | some query =>
    rw [hquery] at hempty
    cases hempty
  | none =>
    cases hfragment : url.fragment with
    | some fragment =>
      rw [hquery, hfragment] at hempty
      cases hempty
    | none => exact hrest ⟨hquery, hfragment⟩

theorem leavesPart_of_namesHost (h : NamesHost (cut url.render) url.host) :
    LeavesPart url (cut url.render) := by
  by_cases hscheme : HasLowerScheme url
  · cases huserinfo : url.userinfo with
    | some info =>
      rcases cut_of_userinfo hscheme huserinfo with ⟨rest, hcut⟩
      have hslash := slash_not_mem_userinfo huserinfo
      rcases Decidable.em (':' ∈ info) with hcolon | hcolon
      · rcases List.eq_append_cons_of_mem hcolon with ⟨user, password, rfl, huser⟩
        have hpart := LeavesPart.user hscheme huserinfo huser
        rw [cut_of_leavesPart hpart]
        exact hpart
      · -- the sign after the user name is left, which no host has
        rw [hcut, beforeDelimiters_append hslash hcolon] at h
        have hat : '@' ∈ url.host :=
          h.mem (by decide) (by decide) (List.mem_append_right _ List.mem_cons_self)
        exact absurd (isUserinfoChar_or_bracket hat) (by decide)
    | none =>
      have hcut := cut_of_host hscheme huserinfo
      rcases Decidable.em (':' ∈ url.host) with hcolon | hcolon
      · rcases List.eq_append_cons_of_mem hcolon with ⟨first, rest, hhost, hfirst⟩
        have hslash : '/' ∉ first := by
          intro hmem
          refine slash_not_mem_host url ?_
          rw [hhost]
          exact List.mem_append_left _ hmem
        rw [hcut, hhost, List.append_assoc, List.cons_append,
          beforeDelimiters_at_colon hslash hfirst, ← hhost] at h
        exact absurd h (not_namesHost_of_colon hhost)
      · by_cases hend : url.port ≠ none ∨ url.path ≠ [] ∨ (url.query = none ∧ url.fragment = none)
        · have hpart := LeavesPart.host hscheme huserinfo hcolon hend
          rw [cut_of_leavesPart hpart]
          exact hpart
        · rw [not_or, not_or, not_not, not_not] at hend
          rcases hend with ⟨hport, hpath, hrest⟩
          exact absurd h (not_namesHost_of_query hscheme huserinfo hcolon hport hpath hrest)
  · rw [cut_of_capital hscheme]
    exact .scheme hscheme

def IsLowered (c : Char) : Prop :=
  isUrlChar c = true ∧ c.toLower = c

theorem isLowered_of_mem_extractDomain (h : c ∈ extractDomain maps url.render) : IsLowered c := by
  rw [extractDomain_render] at h
  obtain ⟨d, hd, rfl⟩ := List.mem_map.mp h
  refine ⟨?_, toLower_toLower d⟩
  rw [isUrlChar_toLower]
  exact url.isUrlText_render d (mem_of_mem_cut hd)

theorem isLowered_of_covers (h : Covers pattern (extractDomain maps url.render)) :
    forall c, c ∈ pattern -> IsLowered c :=
  forall_mem_of_covers h ⟨by decide, by decide⟩ ⟨by decide, by decide⟩
    (fun _ hc => isLowered_of_mem_extractDomain hc)

theorem toAsciiLowercase_of_isLowered
    (h : forall c, c ∈ s -> IsLowered c) : toAsciiLowercase s = s := by
  unfold toAsciiLowercase
  rw [List.map_congr_left (fun c hc => (h c hc).right), List.map_id']

/-! ## Soundness -/

section Soundness

def Sound (maps : LowerMap) (config : HotlinkConfig) (url : HttpUrl) : Prop :=
  config.isAllowed maps url.render = true ->
    exists entry, entry ∈ config.allowedDomains ∧ Permits entry url.host

theorem namesHost_cut_iff :
    NamesHost (cut url.render) url.host <->
      forall pattern, Covers pattern (extractDomain maps url.render) ->
        Covers pattern (toAsciiLowercase url.host) := by
  rw [extractDomain_render]
  exact forall_covers_iff.symm

theorem sound_of_namesHost {config : HotlinkConfig} (hhost : NamesHost (cut url.render) url.host)
    (hentries : forall entry, entry ∈ config.allowedDomains ->
      Covers (maps.toLowercase (Text.trim entry))
        (extractDomain maps url.render) -> kelvinSign ∉ Text.trim entry) :
    Sound maps config url := by
  intro hallowed
  obtain ⟨entry, hmem, hcovers⟩ := isAllowed_iff.mp hallowed
  refine ⟨entry, hmem, ?_⟩
  have hlowered := isLowered_of_covers hcovers
  have hpattern := (maps.eq_ascii_iff (Text.trim entry) _
    (fun c hc => lt_of_isUrlChar (hlowered c hc).left)).mp rfl
  unfold Permits
  rw [← map_lowerToAscii (hentries entry hmem hcovers), hpattern]
  exact namesHost_cut_iff.mp hhost _ hcovers

def onlyEntry (entry : Text) : HotlinkConfig :=
  { enabled := true, allowEmptyReferer := true, allowedDomains := [entry] }

theorem permits_of_sound {entry : Text} (h : Sound maps (onlyEntry entry) url)
    (hcovers : Covers (maps.toLowercase (Text.trim entry))
      (extractDomain maps url.render)) : Permits entry url.host := by
  obtain ⟨other, hmem, hpermits⟩ := h (isAllowed_iff.mpr
    ⟨entry, List.mem_singleton_self entry, hcovers⟩)
  rw [List.mem_singleton.mp hmem] at hpermits
  exact hpermits

theorem namesHost_of_sound (h : forall config : HotlinkConfig,
      (forall entry, entry ∈ config.allowedDomains -> kelvinSign ∉ entry) ->
        Sound maps config url) : NamesHost (cut url.render) url.host := by
  rw [namesHost_cut_iff]
  intro pattern hcovers
  have hlowered := isLowered_of_covers hcovers
  have htext : IsUrlText pattern := fun c hc => (hlowered c hc).left
  have hsame := toAsciiLowercase_of_isLowered hlowered
  have hsound : Sound maps (onlyEntry pattern) url := by
    refine h _ ?_
    intro entry hmem
    rw [List.mem_singleton.mp hmem]
    exact not_mem_of_isUrlText htext
  have hpermits := permits_of_sound hsound (by
    rw [trim_of_isUrlText htext, toLowercase_of_isUrlText htext, hsame]
    exact hcovers)
  unfold Permits at hpermits
  rw [trim_of_isUrlText htext, hsame] at hpermits
  exact hpermits

/-- The sign stands for the letter wherever the letter occurs. -/
def withKelvinSign (s : Text) : Text :=
  s.map (fun c => if c = 'k' then kelvinSign else c)

section KelvinSign

variable (hlowered : forall c, c ∈ s -> IsLowered c)

include hlowered

theorem trim_withKelvinSign :
    Text.trim (withKelvinSign s) = withKelvinSign s := by
  refine Text.trim_eq_self ?_
  intro c hc
  obtain ⟨d, hd, rfl⟩ := List.mem_map.mp hc
  split
  · decide
  · exact isWhitespace_of_isUrlChar (hlowered d hd).left

theorem map_withKelvinSign : (withKelvinSign s).map lowerToAscii = s := by
  unfold withKelvinSign
  rw [List.map_map]
  refine (List.map_congr_left ?_).trans (List.map_id s)
  intro c hc
  rw [Function.comp_apply, id]
  split
  · rename_i hk
    rw [hk]
    rfl
  · unfold lowerToAscii
    rw [if_neg (ne_kelvinSign (hlowered c hc).left), (hlowered c hc).right]

theorem toLowercase_withKelvinSign :
    maps.toLowercase (withKelvinSign s) = s :=
  (maps.eq_ascii_iff _ s (fun c hc => lt_of_isUrlChar (hlowered c hc).left)).mpr
      (map_withKelvinSign hlowered)

end KelvinSign

theorem not_mem_of_sound (h : forall config, Sound maps config url) :
    'k' ∉ extractDomain maps url.render := by
  intro hletter
  have hlowered : forall c, c ∈ extractDomain maps url.render ->
      IsLowered c := fun _ hc => isLowered_of_mem_extractDomain hc
  have hpermits := permits_of_sound
    (h (onlyEntry (withKelvinSign (extractDomain maps url.render)))) (by
      rw [trim_withKelvinSign hlowered, toLowercase_withKelvinSign hlowered]
      exact covers_self _)
  unfold Permits at hpermits
  rw [trim_withKelvinSign hlowered] at hpermits
  have hsign : kelvinSign ∈ toAsciiLowercase (withKelvinSign (extractDomain maps url.render)) :=
    List.mem_map.mpr ⟨kelvinSign, List.mem_map.mpr ⟨'k', hletter, rfl⟩, by decide⟩
  -- a pattern that covers the host has no character but those of URLs
  have hurl := forall_mem_of_covers hpermits (by decide) (by decide)
    (isUrlText_toAsciiLowercase.mpr url.isUrlText_host) kelvinSign hsign
  exact ne_kelvinSign hurl rfl

theorem kelvinSign_not_mem_of_covers {entry : Text} (hletter : 'k' ∉ extractDomain maps url.render)
    (hcovers : Covers (maps.toLowercase (Text.trim entry))
      (extractDomain maps url.render)) : kelvinSign ∉ Text.trim entry := by
  intro hsign
  have hlowered := isLowered_of_covers hcovers
  have hpattern := (maps.eq_ascii_iff (Text.trim entry) _
    (fun c hc => lt_of_isUrlChar (hlowered c hc).left)).mp rfl
  have hne := forall_mem_of_covers hcovers (by decide) (by decide)
    (fun c hc (hk : c = 'k') => hletter (hk ▸ hc)) 'k'
  refine hne ?_ rfl
  rw [← hpattern]
  exact List.mem_map.mpr ⟨kelvinSign, hsign, rfl⟩

end Soundness

theorem exists_leavesPart_iff {P : Text -> Prop} :
    (exists text, LeavesPart url text ∧ NamesHost text url.host ∧ P text) <->
      NamesHost (cut url.render) url.host ∧ P (cut url.render) := by
  constructor
  · rintro ⟨text, hpart, h⟩
    rw [cut_of_leavesPart hpart]
    exact h
  · intro h
    exact ⟨_, leavesPart_of_namesHost h.1, h⟩

/-- The check is sound for a URL, whatever the list, exactly when the part of it that is
compared names the host, and has no letter that another character is lowered to. -/
theorem sound_iff_namesHost (maps : LowerMap) (url : HttpUrl) :
    ((forall config, Sound maps config url) <->
      exists text, LeavesPart url text ∧ NamesHost text url.host ∧
        'k' ∉ toAsciiLowercase text) ∧
    ((forall config : HotlinkConfig,
      (forall entry, entry ∈ config.allowedDomains -> kelvinSign ∉ entry) ->
        Sound maps config url) <-> exists text, LeavesPart url text ∧ NamesHost text url.host) := by
  rw [exists_leavesPart_iff, ← extractDomain_render maps]
  refine ⟨⟨?_, ?_⟩, ?_, ?_⟩
  · intro h
    exact ⟨namesHost_of_sound (fun config _ => h config), not_mem_of_sound h⟩
  · rintro ⟨hhost, hletter⟩ config
    exact sound_of_namesHost hhost
      (fun _ _ hcovers => kelvinSign_not_mem_of_covers hletter hcovers)
  · intro h
    have hhost := namesHost_of_sound h
    exact ⟨_, leavesPart_of_namesHost hhost, hhost⟩
  · rintro ⟨text, hpart, hhost⟩ config hentries
    rw [← cut_of_leavesPart hpart] at hhost
    refine sound_of_namesHost hhost ?_
    intro entry hmem _ hsign
    exact hentries entry hmem (Text.mem_of_mem_trimMatches hsign)

def spoofedUrl : HttpUrl where
  scheme := "https".toList
  userinfo := some "good.example:x".toList
  host := "evil.example".toList
  port := none
  path := "/".toList
  query := none
  fragment := none
  scheme_http := Or.inr (by decide)
  userinfo_chars := by
    rintro s hs
    cases hs
    decide
  host_ne := by decide
  host_chars := Or.inl (by decide)
  port_digits := by
    rintro s hs
    cases hs
  path_start := Or.inr rfl
  path_chars := by decide
  query_chars := by
    rintro s hs
    cases hs
  fragment_chars := by
    rintro s hs
    cases hs

theorem spoofed_referer_allowed :
    spoofedUrl.render = "https://good.example:x@evil.example/".toList ∧
    forall maps : LowerMap,
      HotlinkConfig.isAllowed maps
        { enabled := true
          allowEmptyReferer := true
          allowedDomains := ["good.example".toList] }
        spoofedUrl.render = true ∧
      ¬ Permits "good.example".toList spoofedUrl.host := by
  refine ⟨rfl, ?_⟩
  intro maps
  constructor
  · refine isAllowed_iff.mpr ⟨_, List.mem_singleton_self _, ?_⟩
    have htext : IsUrlText "good.example".toList :=
      isUrlText_of_all (fun _ h => h) (by decide)
    have hcut : cut spoofedUrl.render = "good.example".toList := by decide
    rw [extractDomain_render, hcut, trim_of_isUrlText htext,
      toLowercase_of_isUrlText htext]
    exact covers_self _
  · rintro (hsame | ⟨base, hbase, _⟩)
    · exact absurd hsame (by decide)
    · cases hbase

end AntiHotlink
end Engine
end PrxWaf
