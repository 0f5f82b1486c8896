import PrxWaf.Lib.StableOrder
import PrxWaf.Rules.Engine

/-!
# Lookup of custom rules

Whatever calls have built up an engine, its buckets hold what has arrived and was not
removed, by ascending priority and then by arrival, and a lookup finds the first
enabled rule that holds for the request.
-/

namespace PrxWaf
namespace Rules

open Lib Engine

variable {regex glob : Type}

inductive RuleCall where
  | loadHost (hostCode : Text) (rules : List CustomRule)
  | addRule (rule : CustomRule)
  | addFileRule (rule : CustomRule)
  | clearFileRules
  | removeRule (hostCode ruleId : Text)

def perform (ext : Externals regex glob) (engine : CustomRulesEngine regex glob) :
    RuleCall -> CustomRulesEngine regex glob
  | .loadHost hostCode rules => engine.loadHost ext hostCode rules
  | .addRule rule => engine.addRule ext rule
  | .addFileRule rule => engine.addFileRule ext rule
  | .clearFileRules => engine.clearFileRules
  | .removeRule hostCode ruleId => engine.removeRule hostCode ruleId

def engineAfter (ext : Externals regex glob) (calls : List RuleCall) :
    CustomRulesEngine regex glob :=
  calls.foldl (perform ext) .empty

/-- A rule as it was handed to the engine. -/
structure Arrival where
  rule : CustomRule
  source : RuleSource

def Arrival.entry (ext : Externals regex glob) (arrival : Arrival) : RuleEntry regex glob :=
  .fromRuleWithSource ext arrival.rule arrival.source

def RuleCall.puts (hostCode : Text) : RuleCall -> List Arrival
  | .loadHost loaded rules =>
    if loaded = hostCode then
      (rules.filter (fun rule => rule.enabled)).map (fun rule => ⟨rule, .db⟩)
    else []
  | .addRule rule => if rule.hostCode = hostCode then [⟨rule, .db⟩] else []
  | .addFileRule rule => if rule.hostCode = hostCode then [⟨rule, .file⟩] else []
  | .clearFileRules => []
  | .removeRule _ _ => []

def RuleCall.drops (hostCode : Text) (arrival : Arrival) : RuleCall -> Bool
  | .loadHost loaded _ => loaded = hostCode
  | .addRule _ => false
  | .addFileRule _ => false
  | .clearFileRules => arrival.source = .file
  | .removeRule removed ruleId => removed = hostCode && arrival.rule.id = ruleId

def arrive (hostCode : Text) (arrivals : List Arrival) (call : RuleCall) : List Arrival :=
  arrivals.filter (fun arrival => !call.drops hostCode arrival) ++ call.puts hostCode

/-- What calls have put into a bucket and not dropped since, in the order of arrival. -/
def arrivalsAfter (calls : List RuleCall) (hostCode : Text) : List Arrival :=
  calls.foldl (arrive hostCode) []

/-!
## The order of the buckets

Every call keeps the buckets sorted by priority, and rules of one priority in the
order in which they arrived.
-/

section Order

variable {ext : Externals regex glob} {hostCode : Text} {arrivals : List Arrival}
  {engine : CustomRulesEngine regex glob} {calls : List RuleCall} {entry : RuleEntry regex glob}

abbrev RuleEntry.priority (entry : RuleEntry regex glob) : Int :=
  entry.raw.priority

/-- The bucket is sorted by priority and then by arrival. -/
def Sorted (ext : Externals regex glob) (arrivals : List Arrival)
    (bucket : List (RuleEntry regex glob)) : Prop :=
  InStableOrder RuleEntry.priority (arrivals.map (Arrival.entry ext)) bucket

theorem arrive_of_kept {call : RuleCall}
    (hdrops : forall arrival, call.drops hostCode arrival = false) (arrivals : List Arrival) :
    arrive hostCode arrivals call = arrivals ++ call.puts hostCode := by
  unfold arrive
  rw [List.filter_eq_self.mpr]
  intro arrival _
  rw [hdrops]
  rfl

theorem sorted_insertRule (h : Sorted ext arrivals (engine.rules hostCode)) {rule : CustomRule}
    {source : RuleSource} :
    Sorted ext (arrivals ++ if rule.hostCode = hostCode then [⟨rule, source⟩] else [])
      ((engine.insertRule ext source rule).rules hostCode) := by
  split
  · rename_i hhost
    subst hhost
    unfold Sorted
    rw [List.map_append, CustomRulesEngine.insertRule_rules_self]
    exact h.insertionSort_append _
  · rename_i hother
    rw [List.append_nil, CustomRulesEngine.insertRule_rules_of_ne (Ne.symm hother)]
    exact h

theorem sorted_filter {bucket : List (RuleEntry regex glob)} (h : Sorted ext arrivals bucket)
    {keep : RuleEntry regex glob -> Bool} {call : RuleCall}
    (hkeep : forall arrival, keep (arrival.entry ext) = !call.drops hostCode arrival)
    (hputs : call.puts hostCode = []) :
    Sorted ext (arrive hostCode arrivals call) (bucket.filter keep) := by
  have hsame : arrivals.filter (keep ∘ Arrival.entry ext) =
      arrivals.filter (fun arrival => !call.drops hostCode arrival) :=
    List.filter_congr (fun arrival _ => hkeep arrival)
  have hfilter := h.filter keep
  rw [List.filter_map, hsame] at hfilter
  rw [arrive, hputs, List.append_nil]
  exact hfilter

theorem sorted_perform (h : Sorted ext arrivals (engine.rules hostCode)) (call : RuleCall) :
    Sorted ext (arrive hostCode arrivals call) ((perform ext engine call).rules hostCode) := by
  cases call with
  | loadHost loaded rules =>
    unfold perform
    rcases eq_or_ne loaded hostCode with rfl | hother
    · have hloaded : arrive loaded arrivals (.loadHost loaded rules) =
          (rules.filter (fun rule => rule.enabled)).map (fun rule => ⟨rule, .db⟩) := by
        simp [arrive, RuleCall.drops, RuleCall.puts]
      rw [hloaded, CustomRulesEngine.loadHost_rules_self]
      unfold Sorted
      rw [List.map_map]
      exact inStableOrder_insertionSort _ _
    · have hkept : forall arrival,
          (RuleCall.loadHost loaded rules).drops hostCode arrival = false :=
        fun _ => decide_eq_false hother
      rw [arrive_of_kept hkept, RuleCall.puts, if_neg hother, List.append_nil,
        CustomRulesEngine.loadHost_rules_of_ne (Ne.symm hother)]
      exact h
  | addRule rule =>
    rw [arrive_of_kept (fun _ => rfl)]
    exact sorted_insertRule h
  | addFileRule rule =>
    rw [arrive_of_kept (fun _ => rfl)]
    exact sorted_insertRule h
  | clearFileRules =>
    refine sorted_filter h (fun arrival => ?_) rfl
    exact decide_not
  | removeRule removed ruleId =>
    unfold perform CustomRulesEngine.removeRule
    dsimp only
    rcases eq_or_ne removed hostCode with rfl | hother
    · rw [Function.update_self]
      refine sorted_filter h (fun arrival => ?_) rfl
      rw [RuleCall.drops, decide_eq_true rfl, Bool.true_and]
      exact decide_not
    · have hkept : forall arrival,
          (RuleCall.removeRule removed ruleId).drops hostCode arrival = false := by
        intro arrival
        simp [RuleCall.drops, hother]
      rw [arrive_of_kept hkept, RuleCall.puts, List.append_nil,
        Function.update_of_ne (Ne.symm hother)]
      exact h

theorem sorted_engineAfter (ext : Externals regex glob) (calls : List RuleCall) (hostCode : Text) :
    Sorted ext (arrivalsAfter calls hostCode) ((engineAfter ext calls).rules hostCode) := by
  unfold arrivalsAfter engineAfter
  induction calls using List.reverseRecOn with
  | nil => exact inStableOrder_nil _
  | append_singleton calls call ih =>
    rw [List.foldl_concat, List.foldl_concat]
    exact sorted_perform ih call

theorem mem_engineAfter : entry ∈ (engineAfter ext calls).rules hostCode <->
    exists arrival, arrival ∈ arrivalsAfter calls hostCode ∧ arrival.entry ext = entry :=
  (sorted_engineAfter ext calls hostCode).mem_iff.trans List.mem_map

theorem entry_of_mem_engineAfter (h : entry ∈ (engineAfter ext calls).rules hostCode) :
    entry = RuleEntry.fromRuleWithSource ext entry.raw entry.source := by
  rcases mem_engineAfter.mp h with ⟨arrival, -, rfl⟩
  rfl

end Order

/-!
## Which rules are there

A rule is there when a call put it in and no call since has dropped it.
-/

section Origin

variable {hostCode : Text} {arrival : Arrival} {calls : List RuleCall}

def PutAndKept (calls : List RuleCall) (hostCode : Text) (arrival : Arrival) : Prop :=
  exists before call after, calls = before ++ call :: after ∧ arrival ∈ call.puts hostCode ∧
    forall later, later ∈ after -> later.drops hostCode arrival = false

theorem putAndKept_append {last : RuleCall} :
    PutAndKept (calls ++ [last]) hostCode arrival <-> arrival ∈ last.puts hostCode ∨
      PutAndKept calls hostCode arrival ∧ last.drops hostCode arrival = false := by
  constructor
  · rintro ⟨before, call, after, hcalls, hputs, hkept⟩
    rcases List.eq_nil_or_concat after with rfl | ⟨front, final, rfl⟩
    · rcases List.append_inj' hcalls rfl with ⟨-, hlast⟩
      rw [List.singleton_inj.mp hlast]
      exact Or.inl hputs
    · have hsplit : calls ++ [last] = (before ++ call :: front) ++ [final] := by
        simpa using hcalls
      rcases List.append_inj' hsplit rfl with ⟨hfront, hlast⟩
      rw [List.singleton_inj.mp hlast]
      refine Or.inr ⟨⟨before, call, front, hfront, hputs, ?_⟩, hkept final (by simp)⟩
      intro later hlater
      exact hkept later (by simp [hlater])
  · rintro (hputs | ⟨⟨before, call, after, rfl, hputs, hkept⟩, hlast⟩)
    · exact ⟨calls, last, [], rfl, hputs, fun _ hlater => nomatch hlater⟩
    · refine ⟨before, call, after ++ [last], by simp, hputs, ?_⟩
      intro later hlater
      rcases List.mem_append.mp hlater with hafter | hfinal
      · exact hkept later hafter
      · rw [List.mem_singleton.mp hfinal]
        exact hlast

theorem mem_arrivalsAfter :
    arrival ∈ arrivalsAfter calls hostCode <-> PutAndKept calls hostCode arrival := by
  induction calls using List.reverseRecOn with
  | nil =>
    refine iff_of_false (fun h => nomatch h) ?_
    rintro ⟨before, call, after, hcalls, -⟩
    exact List.append_ne_nil_of_right_ne_nil before (List.cons_ne_nil call after) hcalls.symm
  | append_singleton calls last ih =>
    unfold arrivalsAfter at ih ⊢
    rw [List.foldl_concat, putAndKept_append, ← ih, arrive, List.mem_append, List.mem_filter,
      Bool.not_eq_true', or_comm]

theorem exists_entry_iff {ext : Externals regex glob} {rule : CustomRule} {source : RuleSource} :
    (exists entry, entry ∈ (engineAfter ext calls).rules hostCode ∧ entry.raw = rule ∧
        entry.source = source) <-> PutAndKept calls hostCode ⟨rule, source⟩ := by
  rw [← mem_arrivalsAfter]
  constructor
  · rintro ⟨entry, hmem, rfl, rfl⟩
    rcases mem_engineAfter.mp hmem with ⟨arrival, harrival, rfl⟩
    exact harrival
  · intro harrival
    exact ⟨_, mem_engineAfter.mpr ⟨_, harrival, rfl⟩, rfl, rfl⟩

end Origin

def ruleHolds (ext : Externals regex glob) (rhai : Rhai) (ctx : InspectCtx)
    (rule : CustomRule) : Bool :=
  (RuleEntry.fromRuleWithSource ext rule .db).matched ext rhai ctx

def firstEnabled (holds : CustomRule -> Bool)
    (bucket : List (RuleEntry regex glob)) : Option CustomRule :=
  (bucket.map RuleEntry.raw).find? (fun rule => rule.enabled && holds rule)

theorem evalList_eq_firstEnabled {ext : Externals regex glob} {rhai : Rhai}
    {ctx : InspectCtx} {bucket : List (RuleEntry regex glob)} (h : forall entry, entry ∈ bucket ->
      entry = RuleEntry.fromRuleWithSource ext entry.raw entry.source) :
    evalList ext rhai ctx bucket =
      (firstEnabled (ruleHolds ext rhai ctx) bucket).map detection := by
  have hfind : bucket.find? (RuleEntry.applies ext rhai ctx) = bucket.find? (fun entry =>
        entry.raw.enabled && ruleHolds ext rhai ctx entry.raw) := by
    refine List.find?_congr ?_
    intro entry hmem
    unfold RuleEntry.applies
    rw [h entry hmem]
    rfl
  unfold firstEnabled
  rw [evalList_eq, List.find?_map, Option.map_map, hfind]
  rfl

/-- After any calls, the buckets are sorted by priority and then by arrival, hold the
rules that were put in and not dropped since, clearing the rules of files removes the
entries that `add_file_rule` put there and no others, and a lookup reports the first
enabled rule that holds, of the site before those of all sites. -/
theorem lookup_follows_priority (ext : Externals regex glob) (calls : List RuleCall) :
    (forall hostCode,
        Sorted ext (arrivalsAfter calls hostCode) ((engineAfter ext calls).rules hostCode)) ∧
      (forall hostCode, (engineAfter ext calls).clearFileRules.rules hostCode =
          ((engineAfter ext calls).rules hostCode).filter (fun entry => entry.source = .db)) ∧
      (forall hostCode rule source,
        (exists entry, entry ∈ (engineAfter ext calls).rules hostCode ∧ entry.raw = rule ∧
          entry.source = source) <-> PutAndKept calls hostCode ⟨rule, source⟩) ∧
      forall (rhai : Rhai) (ctx : InspectCtx), (engineAfter ext calls).check ext rhai ctx =
          ((firstEnabled (ruleHolds ext rhai ctx)
            ((engineAfter ext calls).rules ctx.hostConfig.code)).or
          (firstEnabled (ruleHolds ext rhai ctx)
            ((engineAfter ext calls).rules "*".toList))).map detection := by
  refine ⟨sorted_engineAfter ext calls, ?_, fun _ _ _ => exists_entry_iff, ?_⟩
  · intro hostCode
    unfold CustomRulesEngine.clearFileRules
    refine List.filter_congr ?_
    intro entry _
    cases entry.source with
    | db => rfl
    | file => rfl
  · intro rhai ctx
    unfold CustomRulesEngine.check
    rw [evalList_eq_firstEnabled (fun _ => entry_of_mem_engineAfter),
      evalList_eq_firstEnabled (fun _ => entry_of_mem_engineAfter)]
    cases firstEnabled (ruleHolds ext rhai ctx)
        ((engineAfter ext calls).rules ctx.hostConfig.code) with
    | none => rfl
    | some rule => rfl

end Rules
end PrxWaf
