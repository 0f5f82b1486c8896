import PrxWaf.Lib.KeywiseSwap
import PrxWaf.Lib.Text
import PrxWaf.Net.Ranges

/-!
# Rule lists by host

The sets of address rules and of path rules keep a list for each host and one for all
hosts.  A reload swaps the content of a set while requests are looked up in it.
-/

namespace PrxWaf
namespace Rules

open Lib Net

abbrev HostLists (rule : Type) := Table Text (List rule)

def anyHost : Text := "*".toList

structure IpRuleSet where
  entries : HostLists IpNet

namespace IpRuleSet

def matches_ (set : IpRuleSet) (hostCode : Text) (ip : IpAddr) : Bool :=
  if (set.entries.lookup hostCode).any (fun nets =>
      nets.any (fun net => net.contains ip)) then
    true
  else if (set.entries.lookup anyHost).any (fun nets =>
      nets.any (fun net => net.contains ip)) then
    true
  else false

end IpRuleSet

inductive UrlMatchType where
  | exact_
  | prefix_
  | contains
  | suffix

structure UrlRule where
  id : Text
  pattern : Text
  matchType : UrlMatchType

def UrlRule.matches_ (rule : UrlRule) (path : Text) : Bool :=
  match rule.matchType with
  | .exact_ => rule.pattern = path
  | .prefix_ => rule.pattern.isPrefixOf path
  | .contains => rule.pattern <:+: path
  | .suffix => rule.pattern.isSuffixOf path

structure UrlRuleSet where
  entries : HostLists UrlRule

namespace UrlRuleSet

def matches_ (set : UrlRuleSet) (hostCode path : Text) : Option Text :=
  match (set.entries.lookup hostCode).bind (fun rules =>
      rules.find? (fun r => r.matches_ path)) with
  | some rule => some rule.id
  | none =>
    match (set.entries.lookup anyHost).bind (fun rules =>
        rules.find? (fun r => r.matches_ path)) with
    | some rule => some rule.id
    | none => none

end UrlRuleSet

section Lists

variable {rule : Type}

def Hits (accepts : rule -> Bool) (entries : HostLists rule) (key : Text) : Prop :=
  (entries.lookup key).any (fun rules => rules.any accepts) = true

instance (accepts : rule -> Bool) (entries : HostLists rule) (key : Text) :
    Decidable (Hits accepts entries key) :=
  inferInstanceAs (Decidable (_ = true))

def Found (accepts : rule -> Bool) (entries : HostLists rule) (host : Text) : Prop :=
  Hits accepts entries host ∨ Hits accepts entries anyHost

/-- The rules that accept move between the list of the host and the one for all, and
the new content has both lists. -/
def Moves (accepts : rule -> Bool) (old new : HostLists rule) (host : Text) : Prop :=
  (new.lookup host).isSome = true ∧ (new.lookup anyHost).isSome = true ∧
    (Hits accepts old host ∧ ¬ Hits accepts old anyHost ∧
        ¬ Hits accepts new host ∧ Hits accepts new anyHost ∨
      ¬ Hits accepts old host ∧ Hits accepts old anyHost ∧
        Hits accepts new host ∧ ¬ Hits accepts new anyHost)

variable {accepts : rule -> Bool} {old new entries : HostLists rule}
  {host key : Text}

theorem hits_congr (h : entries.lookup key = new.lookup key) :
    Hits accepts entries key <-> Hits accepts new key := by
  unfold Hits
  rw [h]

theorem isSome_of_hits (h : Hits accepts entries key) :
    (entries.lookup key).isSome = true := by
  unfold Hits at h
  cases hlist : entries.lookup key with
  | none =>
    rw [hlist] at h
    cases h
  | some rules => rfl

/-- Before all keys are written, a reader can see one list from before and the other
from after. -/
theorem found_while_written (hold : Found accepts old host)
    (hnew : Found accepts new host) (hstays : ¬ Moves accepts old new host)
    (order : SwapOrder old new) {n : Nat} (hn : n ≤ order.visited.length) :
    Found accepts (order.after n) host := by
  have hown := order.lookup_after_of_le hn host
  have hshared := order.lookup_after_of_le hn anyHost
  have hwritten : forall {key}, key ∈ (order.visited.take n).map Sigma.fst ->
        (new.lookup key).isSome = true := by
    intro key hmem
    obtain ⟨entry, hentry, heq⟩ := List.mem_map.mp hmem
    exact order.mem_visited_iff.mp (List.mem_map.mpr ⟨entry, List.mem_of_mem_take hentry, heq⟩)
  unfold Found
  split at hown
  · rename_i hhost
    split at hshared
    · rw [hits_congr hown, hits_congr hshared]
      exact hnew
    · rw [hits_congr hown, hits_congr hshared]
      refine Decidable.byContradiction (fun hgap => hstays ?_)
      rw [not_or] at hgap
      have hstar := hnew.resolve_left hgap.1
      exact ⟨hwritten hhost, isSome_of_hits hstar,
        Or.inl ⟨hold.resolve_right hgap.2, hgap.2, hgap.1, hstar⟩⟩
  · split at hshared
    · rename_i hstar
      rw [hits_congr hown, hits_congr hshared]
      refine Decidable.byContradiction (fun hgap => hstays ?_)
      rw [not_or] at hgap
      have hhost := hnew.resolve_right hgap.2
      exact ⟨isSome_of_hits hhost, hwritten hstar,
        Or.inr ⟨hgap.1, hold.resolve_left hgap.1, hhost, hgap.2⟩⟩
    · rw [hits_congr hown, hits_congr hshared]
      exact hold

theorem found_while_removed (hnew : Found accepts new host)
    (order : SwapOrder old new) {n : Nat} (hn : order.visited.length ≤ n) :
    Found accepts (order.after n) host := by
  have hkeeps : forall {key}, Hits accepts new key -> Hits accepts (order.after n) key := by
    intro key hkey
    exact (hits_congr (order.lookup_after_of_ge hn (isSome_of_hits hkey))).mpr hkey
  rcases hnew with hhost | hstar
  · exact Or.inl (hkeeps hhost)
  · exact Or.inr (hkeeps hstar)

theorem exists_gap_of_first {first second : Text} (hdiffer : first ≠ second)
    (hsome : (new.lookup first).isSome = true) (hfirst : ¬ Hits accepts new first)
    (hsecond : ¬ Hits accepts old second) :
    exists (order : SwapOrder old new) (n : Nat), ¬ Hits accepts (order.after n) first ∧
        ¬ Hits accepts (order.after n) second := by
  obtain ⟨rules, hrules⟩ := Option.isSome_iff_exists.mp hsome
  obtain ⟨order, hlength, htaken⟩ := @SwapOrder.exists_first _ _ _ old _ _ _ hrules
  have hstep := order.lookup_after_of_le (Nat.succ_le_of_lt hlength)
  rw [htaken] at hstep
  refine ⟨order, 1, ?_, ?_⟩
  · rw [hits_congr ((hstep first).trans (if_pos List.mem_cons_self))]
    exact hfirst
  · rw [hits_congr ((hstep second).trans
      (if_neg (fun hmem => hdiffer (List.mem_singleton.mp hmem).symm)))]
    exact hsecond

theorem exists_gap (hmoves : Moves accepts old new host) :
    exists (order : SwapOrder old new) (n : Nat), ¬ Found accepts (order.after n) host := by
  obtain ⟨hhost, hstar, hsides⟩ := hmoves
  have hne : host ≠ anyHost := by
    rintro rfl
    rcases hsides with ⟨hown, hnot, -⟩ | ⟨hnot, hown, -⟩
    · exact hnot hown
    · exact hnot hown
  rcases hsides with ⟨-, hold, hnew, -⟩ | ⟨hold, -, -, hnew⟩
  · obtain ⟨order, n, hown, hshared⟩ := exists_gap_of_first hne hhost hnew hold
    exact ⟨order, n, fun hfound => hfound.elim hown hshared⟩
  · obtain ⟨order, n, hshared, hown⟩ := exists_gap_of_first hne.symm hstar hnew hold
    exact ⟨order, n, fun hfound => hfound.elim hown hshared⟩

theorem found_of_moves (h : Moves accepts old new host) :
    Found accepts old host ∧ Found accepts new host := by
  rcases h.2.2 with ⟨hold, -, -, hnew⟩ | ⟨-, hold, hnew, -⟩
  · exact ⟨Or.inl hold, Or.inr hnew⟩
  · exact ⟨Or.inr hold, Or.inl hnew⟩

theorem found_throughout_iff :
    (Found accepts old host -> Found accepts new host ->
      forall (order : SwapOrder old new) (n : Nat), Found accepts (order.after n) host) <->
      ¬ Moves accepts old new host := by
  constructor
  · intro hall hmoves
    obtain ⟨hold, hnew⟩ := found_of_moves hmoves
    obtain ⟨order, n, hgap⟩ := exists_gap hmoves
    exact hgap (hall hold hnew order n)
  · intro hstays hold hnew order n
    rcases Nat.le_total n order.visited.length with hn | hn
    · exact found_while_written hold hnew hstays order hn
    · exact found_while_removed hnew order hn

end Lists

theorem IpRuleSet.matches_iff (set : IpRuleSet) (hostCode : Text) (ip : IpAddr) :
    set.matches_ hostCode ip = true <->
      Found (fun net => net.contains ip) set.entries hostCode := by
  unfold IpRuleSet.matches_ Found Hits
  split
  · rename_i hown
    simp [hown]
  · rename_i hown
    split
    · rename_i hshared
      simp [hshared]
    · rename_i hshared
      simp [hown, hshared]

theorem isSome_find?_iff (entries : HostLists UrlRule) (key path : Text) :
    ((entries.lookup key).bind (fun rules =>
        rules.find? (fun r => r.matches_ path))).isSome = true <->
      Hits (fun r => r.matches_ path) entries key := by
  unfold Hits
  cases entries.lookup key with
  | none => simp
  | some rules => simp

theorem UrlRuleSet.matches_iff (set : UrlRuleSet) (hostCode path : Text) :
    (set.matches_ hostCode path).isSome = true <->
      Found (fun r => r.matches_ path) set.entries hostCode := by
  unfold UrlRuleSet.matches_ Found
  rw [← isSome_find?_iff, ← isSome_find?_iff]
  split
  · rename_i rule hown
    simp [hown]
  · rename_i hown
    split
    · rename_i rule hshared
      simp [hshared]
    · rename_i hshared
      simp [hown, hshared]

/-- Lookups between the steps of a swap. -/
def IpRuleSet.SwapsWithoutGap (old new : IpRuleSet) (hostCode : Text) (ip : IpAddr) : Prop :=
  old.matches_ hostCode ip = true -> new.matches_ hostCode ip = true ->
    forall (order : SwapOrder old.entries new.entries) (n : Nat),
      IpRuleSet.matches_ { entries := order.after n } hostCode ip = true

def UrlRuleSet.SwapsWithoutGap (old new : UrlRuleSet) (hostCode path : Text) : Prop :=
  (old.matches_ hostCode path).isSome = true ->
    (new.matches_ hostCode path).isSome = true ->
    forall (order : SwapOrder old.entries new.entries) (n : Nat),
      (UrlRuleSet.matches_ { entries := order.after n } hostCode path).isSome = true

/-- A swap ends with the new content in any order.  What is matched before and after
is matched throughout, unless the rules for it move between the list of the host and
the one for all hosts. -/
theorem swap_from_gapless_iff (oldIps newIps : IpRuleSet)
    (oldUrls newUrls : UrlRuleSet) (hostCode : Text) (ip : IpAddr) (path : Text) :
    ((oldIps.SwapsWithoutGap newIps hostCode ip <->
        ¬ Moves (fun net => net.contains ip) oldIps.entries newIps.entries hostCode) ∧
      forall (order : SwapOrder oldIps.entries newIps.entries) (key : Text),
        order.result.lookup key = newIps.entries.lookup key) ∧
    (oldUrls.SwapsWithoutGap newUrls hostCode path <->
        ¬ Moves (fun r => r.matches_ path) oldUrls.entries newUrls.entries hostCode) ∧
      forall (order : SwapOrder oldUrls.entries newUrls.entries) (key : Text),
        order.result.lookup key = newUrls.entries.lookup key := by
  constructor
  · refine ⟨?_, fun order key => order.lookup_result key⟩
    unfold IpRuleSet.SwapsWithoutGap
    simp only [IpRuleSet.matches_iff]
    exact found_throughout_iff
  · refine ⟨?_, fun order key => order.lookup_result key⟩
    unfold UrlRuleSet.SwapsWithoutGap
    simp only [UrlRuleSet.matches_iff]
    exact found_throughout_iff

def office : IpNet :=
  .ofIpv4 (.new 10 0 0 0) ⟨8, Nat.le_of_ble_eq_true rfl⟩

def shopOnly : IpRuleSet :=
  { entries :=
      ((Table.empty : HostLists IpNet).insert anyHost []).insert "shop".toList [office] }

def everyHost : IpRuleSet :=
  { entries :=
      ((Table.empty : HostLists IpNet).insert anyHost [office]).insert "shop".toList [] }

def shopFirst : SwapOrder shopOnly.entries everyHost.entries where
  visited := [⟨"shop".toList, []⟩, ⟨anyHost, [office]⟩]
  removed := []
  visits := List.Perm.refl _
  prunes := List.Perm.refl _

/-- An address that was and will be matched gets through after the first step. -/
theorem swap_leaves_gap :
    shopOnly.matches_ "shop".toList (.v4 (.new 10 0 0 1)) = true ∧
      everyHost.matches_ "shop".toList (.v4 (.new 10 0 0 1)) = true ∧
      IpRuleSet.matches_ { entries := shopFirst.after 1 } "shop".toList
        (.v4 (.new 10 0 0 1)) = false := by
  decide

end Rules
end PrxWaf
