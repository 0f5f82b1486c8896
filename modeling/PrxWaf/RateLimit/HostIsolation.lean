import PrxWaf.RateLimit.Check

/-!
# Limits of different hosts

The keys of the store begin with the code of the host.  Code and client follow each
other with a colon between them, and each of them may contain colons itself.  The
results of a host are compared in two runs that differ in the requests of the other
hosts.
-/

namespace PrxWaf
namespace RateLimit

open Lib Net Engine

def KeyKind.host : KeyKind -> Text
  | .ip host _ => host
  | .session host _ => host

/-- The second code is the first one, a colon and more. -/
def Continues (first second : Text) : Prop :=
  exists w, second = first ++ ':' :: w

def HostsApart (first second : Text) : Prop :=
  ¬ Continues first second ∧ ¬ Continues second first

theorem append_colon_ne_of_apart {first second : Text} (hne : first ≠ second)
    (hapart : HostsApart first second) (rest rest' : Text) :
    first ++ ':' :: rest ≠ second ++ ':' :: rest' := by
  rw [ne_eq, Text.append_cons_eq_iff]
  rintro (⟨hsame, -⟩ | ⟨w, hw, -⟩ | ⟨w, hw, -⟩)
  · exact hne hsame
  · exact hapart.left ⟨w, hw⟩
  · exact hapart.right ⟨w, hw⟩

theorem render_ip (host : Text) (addr : IpAddr) :
    (KeyKind.ip host addr).render = "ip:".toList ++ (host ++ ':' :: addr.display) := by
  change "ip:".toList ++ host ++ ":".toList ++ addr.display = _
  rw [List.append_assoc, List.append_assoc]
  rfl

theorem render_session (host sid : Text) :
    (KeyKind.session host sid).render = "sess:".toList ++ (host ++ ':' :: sid) := by
  change "sess:".toList ++ host ++ ":".toList ++ sid = _
  rw [List.append_assoc, List.append_assoc]
  rfl

theorem render_ne_of_apart {k k' : KeyKind} (hne : k.host ≠ k'.host)
    (hapart : HostsApart k.host k'.host) : k.render ≠ k'.render := by
  intro heq
  cases k with
  | ip host addr =>
    cases k' with
    | ip host' addr' =>
      rw [render_ip, render_ip] at heq
      exact append_colon_ne_of_apart hne hapart _ _ (List.append_cancel_left heq)
    | session host' sid' => exact render_ip_ne_session _ _ _ _ heq
  | session host sid =>
    cases k' with
    | ip host' addr' => exact render_ip_ne_session _ _ _ _ heq.symm
    | session host' sid' =>
      rw [render_session, render_session] at heq
      exact append_colon_ne_of_apart hne hapart _ _ (List.append_cancel_left heq)

/-- A request, or a round of the background task. -/
inductive SiteEvent where
  | request (ctx : InspectCtx) (nowMs : Int)
  | cleanup (nowMs : Int)

namespace MemoryStore

/-- The first part of a cleanup. -/
def expire (nowMs : Int) (map : MemoryStore) : MemoryStore :=
  map.retain (fun entry => nowMs - entry.lastTouchMs < entryTtlMs)

end MemoryStore

def resultsOf (clean : Int -> MemoryStore -> MemoryStore) (config : RateLimitConfig) (code : Text) :
    MemoryStore -> List SiteEvent -> List (Option DetectionResult)
  | _, [] => []
  | map, .cleanup nowMs :: rest =>
    resultsOf clean config code (clean nowMs map) rest
  | map, .request ctx nowMs :: rest =>
    let checked := check config nowMs map ctx
    let later := resultsOf clean config code checked.1 rest
    if ctx.hostConfig.code = code then checked.2 :: later else later

def NoEviction (config : RateLimitConfig) : MemoryStore -> List SiteEvent -> Prop
  | _, [] => True
  | map, .cleanup nowMs :: rest =>
    (map.expire nowMs).entries.length ≤ maxEntries ∧ NoEviction config (map.cleanup nowMs) rest
  | map, .request ctx nowMs :: rest =>
    NoEviction config (check config nowMs map ctx).1 rest

/-- Only the requests of the other hosts are left out. -/
def isOwn (code : Text) : SiteEvent -> Bool
  | .request ctx _ => ctx.hostConfig.code = code
  | .cleanup _ => true

def Within (code : Text) (others : Text -> Prop) : SiteEvent -> Prop
  | .request ctx _ => ctx.hostConfig.code = code ∨ others ctx.hostConfig.code
  | .cleanup _ => True

/-- What the other hosts get makes no difference to the host. -/
def Isolated (code : Text) (others : Text -> Prop) : Prop :=
  forall (config : RateLimitConfig) (events events' : List SiteEvent),
    NoEviction config MemoryStore.empty events ->
    NoEviction config MemoryStore.empty events' ->
    (forall event, event ∈ events -> Within code others event) ->
    (forall event, event ∈ events' -> Within code others event) ->
    events.filter (isOwn code) = events'.filter (isOwn code) ->
      resultsOf MemoryStore.cleanup config code MemoryStore.empty events =
        resultsOf MemoryStore.cleanup config code MemoryStore.empty events'

section Requests

variable {clean : Int -> MemoryStore -> MemoryStore} {config : RateLimitConfig}
variable {code : Text} {ctx : InspectCtx}

theorem resultsOf_own (hown : ctx.hostConfig.code = code) (map : MemoryStore)
    (nowMs : Int) (rest : List SiteEvent) :
    resultsOf clean config code map (.request ctx nowMs :: rest) = (check config nowMs map ctx).2 ::
        resultsOf clean config code (check config nowMs map ctx).1 rest := by
  rw [resultsOf, if_pos hown]

theorem resultsOf_other (hother : ctx.hostConfig.code ≠ code)
    (map : MemoryStore) (nowMs : Int) (rest : List SiteEvent) :
    resultsOf clean config code map (.request ctx nowMs :: rest) =
      resultsOf clean config code (check config nowMs map ctx).1 rest := by
  rw [resultsOf, if_neg hother]

theorem filter_isOwn_own (hown : ctx.hostConfig.code = code) (nowMs : Int) (rest : List SiteEvent) :
    (SiteEvent.request ctx nowMs :: rest).filter (isOwn code) =
      .request ctx nowMs :: rest.filter (isOwn code) :=
  List.filter_cons_of_pos (by simpa [isOwn] using hown)

theorem filter_isOwn_other (hother : ctx.hostConfig.code ≠ code) (nowMs : Int)
    (rest : List SiteEvent) :
    (SiteEvent.request ctx nowMs :: rest).filter (isOwn code) = rest.filter (isOwn code) :=
  List.filter_cons_of_neg (by simpa [isOwn] using hother)

end Requests

section Agreement

variable {code : Text} {config : RateLimitConfig} {map map' : MemoryStore}

def AgreeOn (code : Text) (map map' : MemoryStore) : Prop :=
  forall k : KeyKind, k.host = code -> map.lookup k.render = map'.lookup k.render

theorem agreeOn_checkAndConsume {k : KeyKind} (hk : k.host = code)
    (h : AgreeOn code map map') (cfg : LimitCfg) (nowMs : Int) :
    (map.checkAndConsume k.render cfg nowMs).2 = (map'.checkAndConsume k.render cfg nowMs).2 ∧
      AgreeOn code (map.checkAndConsume k.render cfg nowMs).1
        (map'.checkAndConsume k.render cfg nowMs).1 := by
  constructor
  · unfold MemoryStore.checkAndConsume
    rw [h k hk]
  · intro k' hk'
    rcases eq_or_ne k'.render k.render with hsame | hne
    · rw [hsame, MemoryStore.lookup_checkAndConsume_self,
        MemoryStore.lookup_checkAndConsume_self, h k hk]
    · rw [MemoryStore.lookup_checkAndConsume_of_ne hne,
        MemoryStore.lookup_checkAndConsume_of_ne hne]
      exact h k' hk'

theorem check_of_agreeOn {ctx : InspectCtx} (hctx : ctx.hostConfig.code = code)
    (h : AgreeOn code map map') (nowMs : Int) :
    (check config nowMs map ctx).2 = (check config nowMs map' ctx).2 ∧
      AgreeOn code (check config nowMs map ctx).1 (check config nowMs map' ctx).1 := by
  unfold check
  cases config.forTier ctx.tier with
  | none => exact ⟨rfl, h⟩
  | some cfg =>
    obtain ⟨hfirst, hagree⟩ := agreeOn_checkAndConsume
      (k := .ip ctx.hostConfig.code ctx.clientIp) hctx h cfg nowMs
    change (map.checkAndConsume (ipKey ctx) cfg nowMs).2 =
      (map'.checkAndConsume (ipKey ctx) cfg nowMs).2 at hfirst
    dsimp only [RateLimitStore.checkAndConsume]
    rw [← hfirst]
    split
    · cases ctx.cookies.lookup config.sessionCookie with
      | none => exact ⟨rfl, hagree⟩
      | some sid =>
        obtain ⟨hsecond, hagree⟩ := agreeOn_checkAndConsume
          (k := .session ctx.hostConfig.code sid) hctx hagree cfg nowMs
        exact ⟨congrArg (fun decision =>
          verdict ctx "RL-SESSION" "per-session" (some decision)) hsecond, hagree⟩
    · exact ⟨rfl, hagree⟩

theorem agreeOn_check_of_apart {ctx : InspectCtx} (hne : ctx.hostConfig.code ≠ code)
    (hapart : HostsApart code ctx.hostConfig.code) (h : AgreeOn code map map') (nowMs : Int) :
    AgreeOn code (check config nowMs map ctx).1 map' := by
  have hkeeps : Keeps (fun map => AgreeOn code map map') config ctx nowMs := by
    intro key cfg map _ hkey h k hk
    have hother : k.render ≠ key := by
      rw [← hk] at hne hapart
      rcases hkey with hip | ⟨sid, hsession⟩
      · rw [hip]
        exact @render_ne_of_apart k (.ip ctx.hostConfig.code ctx.clientIp) hne.symm hapart
      · rw [hsession]
        exact @render_ne_of_apart k (.session ctx.hostConfig.code sid) hne.symm hapart
    exact (MemoryStore.lookup_checkAndConsume_of_ne hother cfg nowMs map).trans (h k hk)
  exact check_keeps hkeeps h

theorem agreeOn_cleanup {nowMs : Int} (h : AgreeOn code map map')
    (hfew : (map.expire nowMs).entries.length ≤ maxEntries) :
    AgreeOn code (map.cleanup nowMs) (map'.expire nowMs) := by
  have hcleanup : map.cleanup nowMs = map.expire nowMs := if_neg (Nat.not_lt.mpr hfew)
  intro k hk
  rw [hcleanup]
  unfold MemoryStore.expire
  rw [Table.lookup_retain, Table.lookup_retain, h k hk]

theorem resultsOf_filter_isOwn {events : List SiteEvent}
    (h : AgreeOn code map map') (hfew : NoEviction config map events)
    (hapart : forall ctx nowMs, SiteEvent.request ctx nowMs ∈ events ->
      ctx.hostConfig.code ≠ code -> HostsApart code ctx.hostConfig.code) :
    resultsOf MemoryStore.cleanup config code map events =
      resultsOf MemoryStore.expire config code map' (events.filter (isOwn code)) := by
  induction events generalizing map map' with
  | nil => rfl
  | cons event rest ih =>
    have hrest : forall ctx nowMs, SiteEvent.request ctx nowMs ∈ rest ->
        ctx.hostConfig.code ≠ code -> HostsApart code ctx.hostConfig.code :=
      fun ctx nowMs hmem => hapart ctx nowMs (List.mem_cons_of_mem _ hmem)
    cases event with
    | cleanup nowMs =>
      rw [List.filter_cons_of_pos rfl, resultsOf, resultsOf]
      exact ih (agreeOn_cleanup h hfew.left) hfew.right hrest
    | request ctx nowMs =>
      rcases Decidable.em (ctx.hostConfig.code = code) with hown | hother
      · obtain ⟨hsame, hagree⟩ := @check_of_agreeOn code config map map' ctx hown h nowMs
        rw [filter_isOwn_own hown, resultsOf_own hown, resultsOf_own hown,
          hsame, ih hagree hfew hrest]
      · rw [filter_isOwn_other hother, resultsOf_other hother]
        exact ih (agreeOn_check_of_apart hother
          (hapart ctx nowMs List.mem_cons_self hother) h nowMs) hfew hrest

theorem isolated_of_apart {others : Text -> Prop}
    (hapart : forall other, others other -> other ≠ code ->
      HostsApart code other) : Isolated code others := by
  intro config events events' hfew hfew' hwithin hwithin' hown
  have hrequests : forall events : List SiteEvent,
      (forall event, event ∈ events -> Within code others event) ->
      forall ctx nowMs, SiteEvent.request ctx nowMs ∈ events -> ctx.hostConfig.code ≠ code ->
          HostsApart code ctx.hostConfig.code := by
    intro events hwithin ctx nowMs hmem hne
    rcases hwithin _ hmem with hcode | hother
    · exact absurd hcode hne
    · exact hapart _ hother hne
  have hempty : AgreeOn code MemoryStore.empty MemoryStore.empty := fun _ _ => rfl
  rw [resultsOf_filter_isOwn hempty hfew (hrequests events hwithin),
    resultsOf_filter_isOwn hempty hfew' (hrequests events' hwithin'), hown]

end Agreement

section Shared

def oneRequest : RateLimitConfig :=
  { sessionCookie := "SID".toList
    tiers := fun _ => some (oneToken 0) }

def siteCtx (code sid : Text) : InspectCtx :=
  { plainCtx with
    hostConfig := {
      code := code
      guardStatus := true
      logOnlyMode := false }
    cookies := AList.insert "SID".toList sid ∅ }

def spentEntry : Entry :=
  ((Entry.fresh (oneToken 0) 0).consume (oneToken 0) 0).1

theorem fresh_allows :
    ((Entry.fresh (oneToken 0) 0).consume (oneToken 0) 0).2 = .allow := by
  decide +kernel

theorem spentEntry_refuses :
    (spentEntry.consume (oneToken 0) 0).2 = .burstExceeded := by
  decide +kernel

variable {map : MemoryStore} {code sid : Text}

theorem siteCtx_code (code sid : Text) :
    (siteCtx code sid).hostConfig.code = code :=
  rfl

theorem checkAndConsume_unknown {key : Text} (hkey : map.lookup key = none) :
    (map.checkAndConsume key (oneToken 0) 0).2 = .allow ∧
      (map.checkAndConsume key (oneToken 0) 0).1.lookup key = some spentEntry := by
  rw [MemoryStore.lookup_checkAndConsume_self, hkey]
  refine ⟨?_, rfl⟩
  unfold MemoryStore.checkAndConsume
  rw [hkey]
  exact fresh_allows

theorem sessionKey_ne_ipKey (ctx ctx' : InspectCtx) (sid : Text) :
    sessionKey ctx sid ≠ ipKey ctx' :=
  Ne.symm (render_ip_ne_session _ _ sid _)

theorem check_of_session {config : RateLimitConfig} {cfg : LimitCfg}
    {ctx : InspectCtx} {nowMs : Int} (hcfg : config.forTier ctx.tier = some cfg)
    (hallow : (map.checkAndConsume (ipKey ctx) cfg nowMs).2 = .allow)
    (hcookie : ctx.cookies.lookup config.sessionCookie = some sid) :
    check config nowMs map ctx =
      let second := (map.checkAndConsume (ipKey ctx) cfg
        nowMs).1.checkAndConsume (sessionKey ctx sid) cfg nowMs
      (second.1, verdict ctx "RL-SESSION" "per-session" (some second.2)) := by
  unfold check
  rw [hcfg]
  dsimp only [RateLimitStore.checkAndConsume]
  rw [hallow]
  dsimp only
  rw [hcookie]

theorem check_siteCtx (hip : map.lookup (ipKey (siteCtx code sid)) = none) :
    check oneRequest 0 map (siteCtx code sid) =
      let second := (map.checkAndConsume (ipKey (siteCtx code sid))
        (oneToken 0) 0).1.checkAndConsume (sessionKey (siteCtx code sid) sid) (oneToken 0) 0
      (second.1, verdict (siteCtx code sid) "RL-SESSION" "per-session" (some second.2)) :=
  check_of_session rfl (checkAndConsume_unknown hip).left (AList.lookup_insert _)

theorem check_first (hip : map.lookup (ipKey (siteCtx code sid)) = none)
    (hsession : map.lookup (sessionKey (siteCtx code sid) sid) = none) :
    (check oneRequest 0 map (siteCtx code sid)).2 = none ∧
      (check oneRequest 0 map (siteCtx code sid)).1.lookup
        (sessionKey (siteCtx code sid) sid) = some spentEntry := by
  have hnew : (map.checkAndConsume (ipKey (siteCtx code sid)) (oneToken 0)
      0).1.lookup (sessionKey (siteCtx code sid) sid) = none := by
    rw [MemoryStore.lookup_checkAndConsume_of_ne (sessionKey_ne_ipKey _ _ sid), hsession]
  obtain ⟨hallow, hspent⟩ := checkAndConsume_unknown hnew
  rw [check_siteCtx hip]
  dsimp only
  rw [hallow]
  exact ⟨rfl, hspent⟩

theorem check_spent (hip : map.lookup (ipKey (siteCtx code sid)) = none)
    (hsession : map.lookup (sessionKey (siteCtx code sid) sid) = some spentEntry) :
    (check oneRequest 0 map (siteCtx code sid)).2 =
      some (block "RL-SESSION" "per-session" .burstExceeded) := by
  have hspent : (map.checkAndConsume (ipKey (siteCtx code sid)) (oneToken 0)
      0).1.lookup (sessionKey (siteCtx code sid) sid) = some spentEntry := by
    rw [MemoryStore.lookup_checkAndConsume_of_ne (sessionKey_ne_ipKey _ _ sid), hsession]
  rw [check_siteCtx hip]
  dsimp only
  rw [MemoryStore.checkAndConsume, hspent]
  dsimp only [Option.getD_some]
  rw [spentEntry_refuses]
  rfl

variable {other sid' : Text}

theorem lookup_ipKey_check (hne : other ≠ code)
    (hip : map.lookup (ipKey (siteCtx other sid')) = none) :
    (check oneRequest 0 map (siteCtx other sid')).1.lookup (ipKey (siteCtx code sid)) =
      map.lookup (ipKey (siteCtx code sid)) := by
  have hkey : ipKey (siteCtx code sid) ≠ ipKey (siteCtx other sid') := by
    unfold ipKey
    rw [render_ip, render_ip]
    intro heq
    exact hne (List.append_cancel_right (List.append_cancel_left heq)).symm
  rw [check_siteCtx hip]
  dsimp only
  rw [MemoryStore.lookup_checkAndConsume_of_ne (Ne.symm (sessionKey_ne_ipKey _ _ sid')),
    MemoryStore.lookup_checkAndConsume_of_ne hkey]

theorem results_of_shared_session (hne : other ≠ code)
    (hshared : sessionKey (siteCtx other sid') sid' = sessionKey (siteCtx code sid) sid) :
    resultsOf MemoryStore.cleanup oneRequest code MemoryStore.empty
        [.request (siteCtx code sid) 0] = [none] ∧
      resultsOf MemoryStore.cleanup oneRequest code MemoryStore.empty
        [.request (siteCtx other sid') 0, .request (siteCtx code sid) 0] =
        [some (block "RL-SESSION" "per-session" .burstExceeded)] := by
  have hother := @check_first MemoryStore.empty other sid' rfl rfl
  have hip := @lookup_ipKey_check MemoryStore.empty code sid other sid' hne rfl
  have hspent := hother.right
  rw [hshared] at hspent
  constructor
  · rw [resultsOf_own (siteCtx_code code sid), (check_first rfl rfl).left]
    rfl
  · rw [resultsOf_other hne, resultsOf_own (siteCtx_code code sid), check_spent hip hspent]
    rfl

theorem not_isolated_of_shared {others : Text -> Prop}
    (hother : others other) (hne : other ≠ code) (hshared : sessionKey (siteCtx other sid') sid' =
      sessionKey (siteCtx code sid) sid) : ¬ Isolated code others := by
  intro hisolated
  have hsame := hisolated oneRequest [.request (siteCtx code sid) 0]
    [.request (siteCtx other sid') 0, .request (siteCtx code sid) 0]
    trivial trivial ?_ ?_ ?_
  · obtain ⟨halone, hafter⟩ := results_of_shared_session hne hshared
    rw [halone, hafter] at hsame
    cases hsame
  · intro event hevent
    rw [List.mem_singleton.mp hevent]
    exact Or.inl rfl
  · intro event hevent
    rcases List.mem_cons.mp hevent with hfirst | hlast
    · rw [hfirst]
      exact Or.inr hother
    · rw [List.mem_singleton.mp hlast]
      exact Or.inl rfl
  · exact (@filter_isOwn_other code (siteCtx other sid') hne 0 _).symm

theorem sessionKey_continued (code w sid : Text) :
    sessionKey (siteCtx (code ++ ':' :: w) sid) sid =
      sessionKey (siteCtx code (w ++ ':' :: sid)) (w ++ ':' :: sid) := by
  unfold sessionKey
  rw [render_session, render_session]
  exact congrArg ("sess:".toList ++ ·) (List.append_assoc _ _ _)

end Shared

/-- A host is isolated from others exactly when neither code continues the other
one after a colon. -/
theorem isolated_iff (code : Text) (others : Text -> Prop) :
    Isolated code others <->
      forall other, others other -> other ≠ code -> HostsApart code other := by
  constructor
  · intro hisolated other hother hne
    constructor
    · rintro ⟨w, hw⟩
      rw [hw] at hother hne
      exact not_isolated_of_shared hother hne (sessionKey_continued code w []) hisolated
    · rintro ⟨w, hw⟩
      have hshared := (sessionKey_continued other w []).symm
      rw [← hw] at hshared
      exact not_isolated_of_shared hother hne hshared hisolated
  · exact isolated_of_apart

/-- The session "b:x" of the host "a" and the session "x" of the host "a:b" have
one key. -/
theorem shared_session_not_isolated :
    (siteCtx "a:b".toList "x".toList).hostConfig.code ≠ "a".toList ∧
      resultsOf MemoryStore.cleanup oneRequest "a".toList MemoryStore.empty
        [.request (siteCtx "a".toList "b:x".toList) 0] = [none] ∧
      resultsOf MemoryStore.cleanup oneRequest "a".toList MemoryStore.empty
        [.request (siteCtx "a:b".toList "x".toList) 0,
          .request (siteCtx "a".toList "b:x".toList) 0] =
        [some (block "RL-SESSION" "per-session" .burstExceeded)] ∧
      ¬ Isolated "a".toList (fun other => other = "a:b".toList) := by
  have hne : "a:b".toList ≠ "a".toList := by decide
  have hshared : sessionKey (siteCtx "a:b".toList "x".toList) "x".toList =
      sessionKey (siteCtx "a".toList "b:x".toList) "b:x".toList := by decide
  obtain ⟨halone, hafter⟩ := results_of_shared_session hne hshared
  exact ⟨hne, halone, hafter, not_isolated_of_shared rfl hne hshared⟩

end RateLimit
end PrxWaf
