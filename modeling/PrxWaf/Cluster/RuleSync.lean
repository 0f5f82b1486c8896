import PrxWaf.Lib.Edits
import PrxWaf.Lib.Run
import PrxWaf.Lib.Text

/-!
# Rule synchronisation

The main node keeps the last changes of its rules with their versions.  A worker
asks with the version it has; it gets the changes after that version, or all
rules if the main node no longer knows what it missed.  Rules travel as JSON,
snapshots are compressed: both are taken to arrive as they were sent.
-/

namespace PrxWaf
namespace Cluster

open Lib

structure Rule where
  id : Text
  name : Text
  description : Option Text
  category : Text
  source : Text
  enabled : Bool
  action : Text
  severity : Option Text
  pattern : Option Text
  tags : List Text
  metadata : List (Text × Text)
  deriving DecidableEq

structure RuleRegistry where
  rules : Text -> Option Rule
  byCategory : Text -> List Text
  bySource : Text -> List Text
  version : Nat

namespace RuleRegistry

def new : RuleRegistry :=
  { rules := fun _ => none
    byCategory := fun _ => []
    bySource := fun _ => []
    version := 0 }

def removeIndex (registry : RuleRegistry) (id : Text) : RuleRegistry :=
  { registry with
    byCategory := fun category =>
      (registry.byCategory category).filter (fun x => x ≠ id)
    bySource := fun source =>
      (registry.bySource source).filter (fun x => x ≠ id) }

def insert (registry : RuleRegistry) (rule : Rule) : RuleRegistry :=
  let cleaned :=
    if (registry.rules rule.id).isSome then registry.removeIndex rule.id
    else registry
  { rules := Function.update cleaned.rules rule.id (some rule)
    byCategory := Function.update cleaned.byCategory rule.category
      (cleaned.byCategory rule.category ++ [rule.id])
    bySource := Function.update cleaned.bySource rule.source
      (cleaned.bySource rule.source ++ [rule.id])
    version := cleaned.version + 1 }

def remove (registry : RuleRegistry) (id : Text) : RuleRegistry :=
  match registry.rules id with
  | none => registry
  | some _ =>
    let cleaned := registry.removeIndex id
    { cleaned with
      rules := Function.update cleaned.rules id none
      version := cleaned.version + 1 }

def clear (_ : RuleRegistry) : RuleRegistry :=
  new

theorem rules_insert (registry : RuleRegistry) (rule : Rule) :
    (registry.insert rule).rules = Function.update registry.rules rule.id (some rule) := by
  simp only [insert]
  split
  · rfl
  · rfl

theorem rules_remove (registry : RuleRegistry) (id : Text) :
    (registry.remove id).rules = Function.update registry.rules id none := by
  unfold remove
  split
  · rename_i hnone
    rw [← hnone, Function.update_eq_self]
  · rfl

end RuleRegistry

/-! ## The changelog of the main node -/

inductive ChangeOp where
  | upsert
  | delete
  deriving DecidableEq

structure RuleChange where
  op : ChangeOp
  ruleId : Text
  ruleJson : Option Rule

inductive SyncType where
  | incremental
  | full
  deriving DecidableEq

structure RuleSyncRequest where
  currentVersion : Nat

structure RuleSyncResponse where
  version : Nat
  syncType : SyncType
  changes : List RuleChange
  snapshot : List Rule

structure RuleChangelog where
  changes : List (Nat × RuleChange)
  maxRetained : Nat
  currentVersion : Nat

namespace RuleChangelog

def new (maxRetained : Nat) : RuleChangelog :=
  { changes := []
    maxRetained := maxRetained
    currentVersion := 0 }

def push (log : RuleChangelog) (version : Nat) (change : RuleChange) : RuleChangelog :=
  let kept :=
    if log.maxRetained ≤ log.changes.length then log.changes.tail
    else log.changes
  { log with changes := kept ++ [(version, change)] }

def recordChange (log : RuleChangelog) (op : ChangeOp) (ruleId : Text)
    (rule : Option Rule) : RuleChangelog :=
  { log with currentVersion := log.currentVersion + 1 }.push
    (log.currentVersion + 1) { op := op, ruleId := ruleId, ruleJson := rule }

/-- `none` means that the worker needs a full snapshot. -/
def deltaSince (log : RuleChangelog) (fromVersion : Nat) : Option (List RuleChange) :=
  match log.changes with
  | [] => some []
  | (first, _) :: _ =>
    if fromVersion < first then none
    else
      some ((log.changes.filter (fun entry => fromVersion < entry.1)).map Prod.snd)

def buildResponse (log : RuleChangelog) (fromVersion : Nat) : RuleSyncResponse :=
  match log.deltaSince fromVersion with
  | none =>
    { version := log.currentVersion
      syncType := .full
      changes := []
      snapshot := [] }
  | some changes =>
    { version := log.currentVersion
      syncType := .incremental
      changes := changes
      snapshot := [] }

end RuleChangelog

def handleSyncRequest (log : RuleChangelog) (request : RuleSyncRequest)
    (rules : List Rule) : RuleSyncResponse :=
  let response := log.buildResponse request.currentVersion
  if response.syncType = .full then { response with snapshot := rules }
  else response

def applyRuleChange (registry : RuleRegistry) (change : RuleChange) : RuleRegistry :=
  match change.op with
  | .delete => registry.remove change.ruleId
  | .upsert =>
    match change.ruleJson with
    | some rule => registry.insert rule
    | none => registry

def applyRuleChanges (registry : RuleRegistry) (changes : List RuleChange) : RuleRegistry :=
  changes.foldl applyRuleChange registry

def applyFullSnapshot (registry : RuleRegistry) (rules : List Rule) : RuleRegistry :=
  rules.foldl RuleRegistry.insert registry.clear

/-- The version of the response replaces the one that was counted. -/
def applySyncResponse (response : RuleSyncResponse) (registry : RuleRegistry) : RuleRegistry :=
  let updated :=
    match response.syncType with
    | .incremental => applyRuleChanges registry response.changes
    | .full => applyFullSnapshot registry response.snapshot
  { updated with version := response.version }

inductive RuleEdit where
  | upsert (rule : Rule)
  | delete (ruleId : Text)

namespace RuleEdit

def apply (rules : List Rule) : RuleEdit -> List Rule
  | upsert rule => rules.filter (fun r => r.id ≠ rule.id) ++ [rule]
  | delete ruleId => rules.filter (fun r => r.id ≠ ruleId)

def toChange : RuleEdit -> RuleChange
  | upsert rule =>
    { op := .upsert, ruleId := rule.id, ruleJson := some rule }
  | delete ruleId => { op := .delete, ruleId := ruleId, ruleJson := none }

def toEdit : RuleEdit -> Edit Text Rule
  | upsert rule => .put rule.id rule
  | delete ruleId => .del ruleId

def ruleId : RuleEdit -> Text
  | upsert rule => rule.id
  | delete ruleId => ruleId

end RuleEdit

structure MainRules where
  rules : List Rule
  changelog : RuleChangelog

namespace MainRules

def start (initial : List Rule) (maxRetained : Nat) : MainRules :=
  { rules := initial
    changelog := .new maxRetained }

def edit (main : MainRules) (e : RuleEdit) : MainRules :=
  { rules := e.apply main.rules
    changelog := main.changelog.recordChange e.toChange.op e.toChange.ruleId e.toChange.ruleJson }

def after (initial : List Rule) (maxRetained : Nat) (edits : List RuleEdit) : MainRules :=
  edits.foldl edit (start initial maxRetained)

end MainRules

def sync (main : MainRules) (worker : RuleRegistry) : RuleRegistry :=
  applySyncResponse
    (handleSyncRequest main.changelog { currentVersion := worker.version } main.rules)
    worker

def putRule (rule : Rule) : Edit Text Rule :=
  .put rule.id rule

/-- The map of a list of rules; of two rules with one id the later counts. -/
def rulesOf (rules : List Rule) : Text -> Option Rule :=
  Edit.applyAll (fun _ => none) (rules.map putRule)

theorem applyAll_filter_of_ne (m : Text -> Option Rule) (rules : List Rule)
    {id k : Text} (hne : k ≠ id) :
    Edit.applyAll m ((rules.filter (fun r => r.id ≠ id)).map putRule) k =
      Edit.applyAll m (rules.map putRule) k := by
  induction rules generalizing m with
  | nil => rfl
  | cons rule rest ih =>
    rw [List.map_cons, Edit.applyAll_cons]
    rcases Decidable.em (rule.id = id) with heq | hother
    · rw [List.filter_cons_of_neg (by simpa using heq), ih]
      apply Edit.applyAll_congr
      right
      exact (Function.update_of_ne (fun h => hne (h.trans heq)) _ _).symm
    · rw [List.filter_cons_of_pos (by simpa using hother), List.map_cons, Edit.applyAll_cons, ih]

variable (registry : RuleRegistry) (rules : List Rule) (maxRetained version : Nat)
  (e : RuleEdit) {main : MainRules}

theorem rulesOf_filter (id : Text) :
    rulesOf (rules.filter (fun r => r.id ≠ id)) = Function.update (rulesOf rules) id none := by
  funext k
  rcases Decidable.em (k = id) with heq | hne
  · rw [heq, Function.update_self, rulesOf, Edit.applyAll_of_untouched]
    rw [List.map_map, List.mem_map]
    rintro ⟨rule, hrule, hid⟩
    have hkept := (List.mem_filter.mp hrule).right
    rw [decide_eq_true_eq] at hkept
    exact hkept hid
  · rw [Function.update_of_ne hne, rulesOf, rulesOf, applyAll_filter_of_ne _ _ hne]

theorem rulesOf_apply :
    rulesOf (e.apply rules) = Edit.apply (rulesOf rules) e.toEdit := by
  cases e with
  | upsert rule =>
    rw [RuleEdit.apply, rulesOf, List.map_append, Edit.applyAll_append]
    have hfilter := rulesOf_filter rules rule.id
    rw [rulesOf] at hfilter
    rw [hfilter]
    exact Function.update_idem _ _ _
  | delete ruleId => exact rulesOf_filter rules ruleId

theorem rulesOf_after (initial : List Rule) (maxRetained : Nat) (edits : List RuleEdit) :
    rulesOf (MainRules.after initial maxRetained edits).rules =
      Edit.applyAll (rulesOf initial) (edits.map RuleEdit.toEdit) := by
  induction edits using List.reverseRecOn with
  | nil => rfl
  | append_singleton front e ih =>
    rw [List.map_append, Edit.applyAll_append, ← ih, MainRules.after, List.foldl_append]
    exact rulesOf_apply _ e

theorem rules_applyRuleChange :
    (applyRuleChange registry e.toChange).rules = Edit.apply registry.rules e.toEdit := by
  cases e with
  | upsert rule => exact registry.rules_insert rule
  | delete ruleId => exact registry.rules_remove ruleId

theorem rules_applyRuleChanges (edits : List RuleEdit) :
    (applyRuleChanges registry (edits.map RuleEdit.toChange)).rules =
      Edit.applyAll registry.rules (edits.map RuleEdit.toEdit) := by
  induction edits generalizing registry with
  | nil => rfl
  | cons e rest ih =>
    have hrest := ih (applyRuleChange registry e.toChange)
    rw [rules_applyRuleChange] at hrest
    exact hrest

theorem rules_applyFullSnapshot :
    (applyFullSnapshot registry rules).rules = rulesOf rules := by
  have hfold : forall (start : RuleRegistry), (rules.foldl RuleRegistry.insert start).rules =
        Edit.applyAll start.rules (rules.map putRule) := by
    induction rules with
    | nil =>
      intro start
      rfl
    | cons rule rest ih =>
      intro start
      rw [List.foldl_cons, ih, RuleRegistry.rules_insert]
      rfl
  exact hfold registry.clear

/-!
## What the main node remembers

The changelog is the end of the numbered list of edits, so a worker gets the edits from
its version on or, if these were dropped, the whole list of rules.
-/

/-- The changes with their versions, the first being `version`. -/
def numbered : Nat -> List RuleEdit -> List (Nat × RuleChange)
  | _, [] => []
  | version, e :: rest => (version, e.toChange) :: numbered (version + 1) rest

theorem numbered_length (edits : List RuleEdit) :
    (numbered version edits).length = edits.length := by
  induction edits generalizing version with
  | nil => rfl
  | cons e rest ih => rw [numbered, List.length_cons, ih, List.length_cons]

theorem numbered_append (edits : List RuleEdit) (e : RuleEdit) :
    numbered version (edits ++ [e]) =
      numbered version edits ++ [(version + edits.length, e.toChange)] := by
  induction edits generalizing version with
  | nil => rfl
  | cons first rest ih =>
    rw [List.cons_append, numbered, ih, numbered, List.length_cons,
      List.cons_append, show version + 1 + rest.length = version + (rest.length + 1) by lia]

theorem numbered_drop (n : Nat) (edits : List RuleEdit) :
    (numbered version edits).drop n = numbered (version + n) (edits.drop n) := by
  induction n generalizing version edits with
  | zero => rfl
  | succ n ih =>
    cases edits with
    | nil => rfl
    | cons e rest =>
      rw [numbered, List.drop_succ_cons, List.drop_succ_cons, ih,
        show version + 1 + n = version + (n + 1) by lia]

theorem numbered_filter (fromVersion : Nat) (edits : List RuleEdit) :
    ((numbered version edits).filter (fun entry => fromVersion < entry.1)).map Prod.snd =
      (edits.drop (fromVersion + 1 - version)).map RuleEdit.toChange := by
  induction edits generalizing version with
  | nil => rw [List.drop_nil]; rfl
  | cons e rest ih =>
    rw [numbered]
    rcases Nat.lt_or_ge fromVersion version with hnew | hold
    · rw [List.filter_cons_of_pos (by simpa using hnew), List.map_cons, ih,
        show fromVersion + 1 - version = 0 by lia,
        show fromVersion + 1 - (version + 1) = 0 by lia]
      rfl
    · rw [List.filter_cons_of_neg (by simpa using hold), ih,
        show fromVersion + 1 - version =
          fromVersion + 1 - (version + 1) + 1 by lia,
        List.drop_succ_cons]

theorem changelog_after (initial : List Rule) (maxRetained : Nat)
    (edits : List RuleEdit) :
    (MainRules.after initial maxRetained edits).changelog =
      { changes :=
          (numbered 1 edits).drop (edits.length - max 1 maxRetained)
        maxRetained := maxRetained
        currentVersion := edits.length } := by
  induction edits using List.reverseRecOn with
  | nil =>
    rw [numbered, List.drop_nil]
    rfl
  | append_singleton front e ih =>
    have hlast : MainRules.after initial maxRetained (front ++ [e]) =
        (MainRules.after initial maxRetained front).edit e :=
      List.foldl_append
    have hkept : (if maxRetained ≤ ((numbered 1 front).drop
          (front.length - max 1 maxRetained)).length then
          ((numbered 1 front).drop
            (front.length - max 1 maxRetained)).tail
        else (numbered 1 front).drop (front.length - max 1 maxRetained)) =
        (numbered 1 front).drop
          (front.length + 1 - max 1 maxRetained) := by
      rw [List.length_drop, numbered_length, List.tail_drop]
      rcases Nat.lt_or_ge front.length (max 1 maxRetained) with hfew | hmany
      · rw [show front.length - max 1 maxRetained = 0 by lia,
          show front.length + 1 - max 1 maxRetained = 0 by lia]
        split
        · have hnone : front = [] :=
            List.eq_nil_of_length_eq_zero (by lia)
          rw [hnone]
          rfl
        · rfl
      · rw [if_pos (by lia), show front.length - max 1 maxRetained + 1 =
          front.length + 1 - max 1 maxRetained by lia]
    rw [hlast, MainRules.edit, ih, RuleChangelog.recordChange,
      RuleChangelog.push]
    simp only [hkept, numbered_append, List.length_append,
      List.length_singleton]
    rw [List.drop_append_of_le_length (by rw [numbered_length]; lia),
      Nat.add_comm 1 front.length]

theorem deltaSince_after (initial : List Rule) (maxRetained : Nat)
    (edits : List RuleEdit) (version : Nat) :
    (MainRules.after initial maxRetained edits).changelog.deltaSince version =
      if edits ≠ [] ∧ version ≤ edits.length - max 1 maxRetained then none
      else some ((edits.drop version).map RuleEdit.toChange) := by
  rw [changelog_after, numbered_drop]
  have hfilter := numbered_filter (1 + (edits.length - max 1 maxRetained))
    version (edits.drop (edits.length - max 1 maxRetained))
  rw [List.drop_drop] at hfilter
  cases hkept : edits.drop (edits.length - max 1 maxRetained) with
  | nil =>
    have hshort := List.drop_eq_nil_iff.mp hkept
    have hnone : edits = [] := List.eq_nil_of_length_eq_zero (by lia)
    rw [hnone, if_neg (fun h => h.left rfl), List.drop_nil]
    rfl
  | cons e rest =>
    have hsome : edits ≠ [] := by
      intro hnone
      rw [hnone, List.drop_nil] at hkept
      cases hkept
    rw [hkept] at hfilter
    simp only [RuleChangelog.deltaSince, numbered]
    rw [numbered] at hfilter
    rcases Nat.lt_or_ge (edits.length - max 1 maxRetained) version with hclose | hfar
    · rw [if_neg (by lia), if_neg (fun h => Nat.not_le_of_lt hclose h.right),
        hfilter, show edits.length - max 1 maxRetained +
          (version + 1 - (1 + (edits.length - max 1 maxRetained))) = version by lia]
    · rw [if_pos (by lia), if_pos ⟨hsome, hfar⟩]

variable {worker : RuleRegistry} {initial : List Rule} {edits : List RuleEdit}

theorem sync_of_none (h : main.changelog.deltaSince worker.version = none) :
    sync main worker = { applyFullSnapshot worker main.rules with
        version := main.changelog.currentVersion } := by
  simp only [sync, handleSyncRequest, RuleChangelog.buildResponse, h]
  rfl

theorem sync_of_some {changes : List RuleChange}
    (h : main.changelog.deltaSince worker.version = some changes) :
    sync main worker = { applyRuleChanges worker changes with
        version := main.changelog.currentVersion } := by
  simp only [sync, handleSyncRequest, RuleChangelog.buildResponse, h]
  rfl

theorem rules_sync (initial : List Rule) (maxRetained : Nat)
    (edits : List RuleEdit) (worker : RuleRegistry) :
    (sync (.after initial maxRetained edits) worker).rules =
      if edits ≠ [] ∧ worker.version ≤ edits.length - max 1 maxRetained then
        rulesOf (MainRules.after initial maxRetained edits).rules
      else
        Edit.applyAll worker.rules ((edits.drop worker.version).map RuleEdit.toEdit) := by
  have hdelta := deltaSince_after initial maxRetained edits worker.version
  split
  · rename_i hbehind
    rw [if_pos hbehind] at hdelta
    rw [sync_of_none hdelta]
    exact rules_applyFullSnapshot worker _
  · rename_i hclose
    rw [if_neg hclose] at hdelta
    rw [sync_of_some hdelta]
    exact rules_applyRuleChanges worker _

theorem version_sync (main : MainRules) (worker : RuleRegistry) :
    (sync main worker).version = main.changelog.currentVersion := by
  cases hdelta : main.changelog.deltaSince worker.version with
  | none => rw [sync_of_none hdelta]
  | some changes => rw [sync_of_some hdelta]

theorem touched_toEdit : e.toEdit.touched = e.ruleId := by
  cases e with
  | upsert rule => rfl
  | delete ruleId => rfl

/-- A request makes the rules of a worker those of the main node exactly if it is
answered with a snapshot, or the worker already agrees about every rule that no
change after its version is about. -/
theorem sync_converges_iff (initial : List Rule) (maxRetained : Nat)
    (edits : List RuleEdit) (worker : RuleRegistry) :
    (sync (.after initial maxRetained edits) worker).rules =
        rulesOf (MainRules.after initial maxRetained edits).rules <->
      (edits ≠ [] ∧ worker.version ≤ edits.length - max 1 maxRetained) ∨
        forall id, id ∉ (edits.drop worker.version).map RuleEdit.ruleId -> worker.rules id =
            rulesOf (MainRules.after initial maxRetained edits).rules id := by
  have hkeys : ((edits.drop worker.version).map RuleEdit.toEdit).map
      Edit.touched = (edits.drop worker.version).map RuleEdit.ruleId := by
    rw [List.map_map]
    exact List.map_congr_left (fun e _ => touched_toEdit e)
  -- The main node's map is what the same changes make of its earlier map.
  have hmain : rulesOf (MainRules.after initial maxRetained edits).rules = Edit.applyAll
        (Edit.applyAll (rulesOf initial) ((edits.take worker.version).map RuleEdit.toEdit))
        ((edits.drop worker.version).map RuleEdit.toEdit) := by
    rw [rulesOf_after, ← Edit.applyAll_append, ← List.map_append, List.take_append_drop]
  rw [rules_sync]
  split
  · rename_i hbehind
    exact iff_of_true rfl (Or.inl hbehind)
  · rename_i hclose
    rw [or_iff_right hclose, hmain, Edit.applyAll_eq_iff, hkeys]
    apply forall_congr'
    intro id
    apply imp_congr_right
    intro hid
    rw [← hkeys] at hid
    rw [Edit.applyAll_of_untouched hid]

def initialRule : Rule :=
  { id := "sqli-001".toList
    name := "union select".toList
    description := none
    category := "sqli".toList
    source := "owasp".toList
    enabled := true
    action := "block".toList
    severity := none
    pattern := none
    tags := []
    metadata := [] }

/-- Without a recorded change a new worker is told that nothing is missing. -/
theorem new_worker_misses_initial_rule :
    rulesOf (MainRules.after [initialRule] 500 []).rules initialRule.id = some initialRule ∧
      (sync (.after [initialRule] 500 []) .new).rules initialRule.id =
        none := by
  constructor
  · rfl
  · rfl

def InStep (initial : List Rule) (edits : List RuleEdit) (worker : RuleRegistry) : Prop :=
  worker.version ≤ edits.length ∧ worker.rules = Edit.applyAll (rulesOf initial)
      ((edits.take worker.version).map RuleEdit.toEdit)

theorem sync_inStep (h : (sync (.after initial maxRetained edits) worker).rules =
      rulesOf (MainRules.after initial maxRetained edits).rules) :
    InStep initial edits (sync (.after initial maxRetained edits) worker) := by
  rw [InStep, version_sync, changelog_after]
  refine ⟨Nat.le_refl _, ?_⟩
  rw [h, rulesOf_after, List.take_length]

theorem sync_converges_of_inStep (h : InStep initial edits worker) :
    (sync (.after initial maxRetained edits) worker).rules =
      rulesOf (MainRules.after initial maxRetained edits).rules := by
  rw [rules_sync]
  split
  · rfl
  · rw [h.right, ← Edit.applyAll_append, ← List.map_append, List.take_append_drop, rulesOf_after]

inductive SyncAction where
  | edit (e : RuleEdit)
  | sync

structure SyncRun where
  edits : List RuleEdit
  worker : RuleRegistry

def SyncRun.step (initial : List Rule) (maxRetained : Nat) (s : SyncRun) :
    SyncAction -> Option SyncRun
  | .edit e => some { s with edits := s.edits ++ [e] }
  | .sync =>
    some
      { s with
        worker := Cluster.sync (.after initial maxRetained s.edits)
          s.worker }

variable {s t : SyncRun}

theorem inStep_step {maxRetained : Nat} {a : SyncAction} (hs : InStep initial s.edits s.worker)
    (hstep : s.step initial maxRetained a = some t) :
    InStep initial t.edits t.worker := by
  cases a with
  | edit e =>
    cases hstep
    refine ⟨?_, ?_⟩
    · rw [List.length_append]
      exact Nat.le_add_right_of_le hs.left
    · rw [List.take_append_of_le_length hs.left]
      exact hs.right
  | sync =>
    cases hstep
    exact sync_inStep maxRetained (sync_converges_of_inStep maxRetained hs)

theorem run_sync_converges {maxRetained : Nat} {acts : List SyncAction}
    (hs : InStep initial s.edits s.worker)
    (hrun : runFrom (SyncRun.step initial maxRetained) s acts = some t) :
    (sync (.after initial maxRetained t.edits) t.worker).rules =
      rulesOf (MainRules.after initial maxRetained t.edits).rules :=
  sync_converges_of_inStep maxRetained
    (runFrom_invariant (fun hi _ hstep => inStep_step hi hstep) hs (stepsMeet_true s acts) hrun)

theorem run_sync_converges_removed :
    exists t, runFrom (SyncRun.step [] 0) ⟨[], .new⟩
        [.edit (.upsert initialRule), .sync, .edit (.delete initialRule.id)] = some t ∧
      (sync (.after [] 0 t.edits) t.worker).rules =
        rulesOf (MainRules.after [] 0 t.edits).rules := by
  have hruns : exists t, runFrom (SyncRun.step [] 0) ⟨[], .new⟩
      [.edit (.upsert initialRule), .sync, .edit (.delete initialRule.id)] = some t := ⟨_, rfl⟩
  rcases hruns with ⟨t, hrun⟩
  exact ⟨t, hrun, run_sync_converges ⟨Nat.le_refl 0, rfl⟩ hrun⟩

end Cluster
end PrxWaf
