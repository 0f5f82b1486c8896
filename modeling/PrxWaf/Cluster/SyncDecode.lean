import PrxWaf.Cluster.RuleSync
import PrxWaf.Lib.Json
import PrxWaf.Lib.Traverse

/-!
# Rule synchronisation with undecoded rules

A worker decodes a response while it applies it.  A snapshot is decoded before the
registry is touched, the changes of an incremental response one by one, and the
first one that cannot be decoded ends the application.
-/

namespace PrxWaf
namespace Cluster

open Lib

namespace Rule

def fieldNames : List Text :=
  ["id".toList, "name".toList, "description".toList, "category".toList,
    "source".toList, "enabled".toList, "action".toList, "severity".toList,
    "pattern".toList, "tags".toList, "metadata".toList]

def readBool : Json -> Option Bool
  | .bool b => some b
  | _ => none

/-- A missing field is read as `null`. -/
def readOptional : Option Json -> Option (Option Text)
  | none => some none
  | some .null => some none
  | some value => value.toText.map some

def readTexts : Option Json -> Option (List Text)
  | none => some []
  | some value => value.toTexts

def readMap : Option Json -> Option (List (Text × Text))
  | none => some []
  | some (.object fields) =>
    fields.mapM (fun entry => entry.2.toText.map (fun v => (entry.1, v)))
  | some _ => none

def fromFields (get : Text -> Option Json) : Option Rule := do
  let id <- (get "id".toList).bind Json.toText
  let name <- (get "name".toList).bind Json.toText
  let description <- readOptional (get "description".toList)
  let category <- (get "category".toList).bind Json.toText
  let source <- (get "source".toList).bind Json.toText
  let enabled <- (get "enabled".toList).bind readBool
  let action <- (get "action".toList).bind Json.toText
  let severity <- readOptional (get "severity".toList)
  let pattern <- readOptional (get "pattern".toList)
  let tags <- readTexts (get "tags".toList)
  let metadata <- readMap (get "metadata".toList)
  return {
    id := id
    name := name
    description := description
    category := category
    source := source
    enabled := enabled
    action := action
    severity := severity
    pattern := pattern
    tags := tags
    metadata := metadata }

/-- Only the last two fields may be missing at the end of an array. -/
def fromValue : Json -> Option Rule
  | .object fields => fromFields (fun name => fields.lookup name)
  | .array items =>
    if 9 ≤ items.length ∧ items.length ≤ 11 then
      fromFields (fun name => (fieldNames.zip items).lookup name)
    else none
  | _ => none

end Rule

structure WireChange where
  op : ChangeOp
  ruleId : Text
  ruleJson : Option Json

structure WireResponse where
  version : Nat
  syncType : SyncType
  changes : List WireChange
  snapshotLz4 : List UInt8

structure SnapshotCodec where
  decompressSizePrepended : List UInt8 -> Option (List UInt8)
  rulesFromSlice : List UInt8 -> Option (List Rule)

inductive SyncError where
  | change
  | decompress
  | snapshot
  | reload (message : Text)

def SyncError.isDecode : SyncError -> Bool
  | reload _ => false
  | _ => true

/-- The rule of a deleted change is not looked at. -/
def WireChange.decode (change : WireChange) : Option RuleChange :=
  match change.op, change.ruleJson with
  | .delete, _ =>
    some { op := .delete, ruleId := change.ruleId, ruleJson := none }
  | .upsert, none =>
    some { op := .upsert, ruleId := change.ruleId, ruleJson := none }
  | .upsert, some value =>
    (Rule.fromValue value).map (fun rule =>
      { op := .upsert, ruleId := change.ruleId, ruleJson := some rule })

def restoreSnapshot (codec : SnapshotCodec) (data : List UInt8) : Except SyncError (List Rule) :=
  match codec.decompressSizePrepended data with
  | none => .error .decompress
  | some json =>
    match codec.rulesFromSlice json with
    | none => .error .snapshot
    | some rules => .ok rules

/-- The registry is changed in place: an error leaves it as it is by then. -/
def receiveChanges : RuleRegistry -> List WireChange -> RuleRegistry × Except SyncError Unit
  | registry, [] => (registry, .ok ())
  | registry, change :: rest =>
    match change.op with
    | .delete => receiveChanges (registry.remove change.ruleId) rest
    | .upsert =>
      match change.ruleJson with
      | none => receiveChanges registry rest
      | some value =>
        match Rule.fromValue value with
        | none => (registry, .error .change)
        | some rule => receiveChanges (registry.insert rule) rest

def receiveSnapshot (codec : SnapshotCodec) (registry : RuleRegistry)
    (data : List UInt8) : RuleRegistry × Except SyncError Unit :=
  match restoreSnapshot codec data with
  | .error e => (registry, .error e)
  | .ok rules => (applyFullSnapshot registry rules, .ok ())

/-- `apply_sync_response`; the reloader is told the version last. -/
def receiveSyncResponse (codec : SnapshotCodec)
    (onRulesUpdated : Nat -> Except Text Unit) (response : WireResponse)
    (registry : RuleRegistry) : RuleRegistry × Except SyncError Unit :=
  let applied :=
    match response.syncType with
    | .incremental => receiveChanges registry response.changes
    | .full => receiveSnapshot codec registry response.snapshotLz4
  match applied.2 with
  | .error e => (applied.1, .error e)
  | .ok () =>
    ({ applied.1 with version := response.version },
      (onRulesUpdated response.version).mapError .reload)

variable (registry : RuleRegistry) (changes : List RuleChange) {change : WireChange}

theorem receiveChanges_cons_of_some {decoded : RuleChange}
    (hdecode : change.decode = some decoded) (registry : RuleRegistry) (rest : List WireChange) :
    receiveChanges registry (change :: rest) =
      receiveChanges (applyRuleChange registry decoded) rest := by
  rw [receiveChanges]
  unfold WireChange.decode at hdecode
  cases hop : change.op with
  | delete =>
    rw [hop] at hdecode
    injection hdecode with hdecode
    rw [← hdecode]
    rfl
  | upsert =>
    cases hjson : change.ruleJson with
    | none =>
      rw [hop, hjson] at hdecode
      injection hdecode with hdecode
      rw [← hdecode]
      rfl
    | some value =>
      rw [hop, hjson] at hdecode
      rcases Option.map_eq_some_iff.mp hdecode with ⟨rule, hrule, rfl⟩
      dsimp only
      rw [hrule]
      rfl

theorem receiveChanges_cons_of_none
    (hdecode : change.decode = none) (registry : RuleRegistry) (rest : List WireChange) :
    receiveChanges registry (change :: rest) = (registry, .error .change) := by
  rw [receiveChanges]
  unfold WireChange.decode at hdecode
  cases hop : change.op with
  | delete =>
    rw [hop] at hdecode
    cases hdecode
  | upsert =>
    cases hjson : change.ruleJson with
    | none =>
      rw [hop, hjson] at hdecode
      cases hdecode
    | some value =>
      rw [hop, hjson] at hdecode
      dsimp only
      rw [Option.map_eq_none_iff.mp hdecode]

/-- The changes before the first one that cannot be decoded. -/
def decodedChanges (changes : List WireChange) : List RuleChange :=
  (changes.takeWhile (fun change => change.decode.isSome)).filterMap WireChange.decode

theorem receiveChanges_eq (changes : List WireChange) :
    receiveChanges registry changes = (applyRuleChanges registry (decodedChanges changes),
        if changes.all (fun change => change.decode.isSome) then .ok ()
        else .error .change) := by
  induction changes generalizing registry with
  | nil => rfl
  | cons change rest ih =>
    unfold decodedChanges
    cases hdecode : change.decode with
    | none =>
      rw [receiveChanges_cons_of_none hdecode, List.takeWhile_cons, List.all_cons, hdecode]
      rfl
    | some decoded =>
      rw [receiveChanges_cons_of_some hdecode, ih, List.takeWhile_cons, List.all_cons, hdecode]
      dsimp only [Option.isSome_some, if_true]
      rw [if_pos rfl, List.filterMap_cons_some hdecode]
      rfl

def WireResponse.decode (codec : SnapshotCodec) (response : WireResponse) :
    Except SyncError RuleSyncResponse :=
  match response.syncType with
  | .incremental =>
    if response.changes.all (fun change => change.decode.isSome) then
      .ok { version := response.version
            syncType := .incremental
            changes := decodedChanges response.changes
            snapshot := [] }
    else .error .change
  | .full =>
    (restoreSnapshot codec response.snapshotLz4).map (fun rules =>
      { version := response.version
        syncType := .full
        changes := []
        snapshot := rules })

theorem receiveSyncResponse_of_decode {codec : SnapshotCodec}
    {onRulesUpdated : Nat -> Except Text Unit} {response : WireResponse}
    {decoded : RuleSyncResponse} (h : response.decode codec = .ok decoded)
    (registry : RuleRegistry) :
    receiveSyncResponse codec onRulesUpdated response registry =
      (applySyncResponse decoded registry, (onRulesUpdated response.version).mapError .reload) := by
  unfold WireResponse.decode at h
  unfold receiveSyncResponse receiveSnapshot
  cases htype : response.syncType with
  | incremental =>
    rw [htype] at h
    dsimp only at h ⊢
    split at h
    · rename_i hall
      injection h with h
      rw [receiveChanges_eq, hall, ← h]
      rfl
    · cases h
  | full =>
    rw [htype] at h
    rcases map_ok h with ⟨rules, hrules, rfl⟩
    rw [hrules]
    rfl

/-- The change is the removal of a rule that is not there, or has no rule. -/
def RuleChange.Idle (registry : RuleRegistry) (change : RuleChange) : Prop :=
  match change.op with
  | .delete => registry.rules change.ruleId = none
  | .upsert => change.ruleJson = none

theorem RuleChange.idle_or_lt (change : RuleChange) :
    change.Idle registry ∧ applyRuleChange registry change = registry ∨ ¬ change.Idle registry ∧
        registry.version < (applyRuleChange registry change).version := by
  unfold RuleChange.Idle applyRuleChange
  cases change.op with
  | delete =>
    dsimp only [RuleRegistry.remove]
    cases registry.rules change.ruleId with
    | none => exact Or.inl ⟨rfl, rfl⟩
    | some rule =>
      refine Or.inr ⟨?_, ?_⟩
      · intro hidle
        cases hidle
      · exact Nat.lt_succ_self registry.version
  | upsert =>
    cases change.ruleJson with
    | none => exact Or.inl ⟨rfl, rfl⟩
    | some rule =>
      refine Or.inr ⟨?_, ?_⟩
      · intro hidle
        cases hidle
      · unfold RuleRegistry.insert
        dsimp only
        split
        · exact Nat.lt_succ_self registry.version
        · exact Nat.lt_succ_self registry.version

theorem version_le_applyRuleChanges :
    registry.version ≤ (applyRuleChanges registry changes).version := by
  induction changes generalizing registry with
  | nil => exact Nat.le_refl _
  | cons change rest ih =>
    refine Nat.le_trans ?_ (ih (applyRuleChange registry change))
    rcases change.idle_or_lt registry with ⟨-, hsame⟩ | ⟨-, hlt⟩
    · rw [hsame]
    · exact Nat.le_of_lt hlt

def Unchanged (before after : RuleRegistry) : Prop :=
  after.rules = before.rules ∧ after.version = before.version

theorem applyRuleChanges_unchanged_iff :
    Unchanged registry (applyRuleChanges registry changes) <->
      forall change, change ∈ changes -> change.Idle registry := by
  induction changes with
  | nil =>
    refine iff_of_true ⟨rfl, rfl⟩ ?_
    intro change hmem
    cases hmem
  | cons change rest ih =>
    rw [List.forall_mem_cons]
    unfold applyRuleChanges at ih ⊢
    rw [List.foldl_cons]
    rcases change.idle_or_lt registry with ⟨hidle, hsame⟩ | ⟨hbusy, hlt⟩
    · rw [hsame, ih]
      exact ⟨fun hrest => ⟨hidle, hrest⟩, fun hboth => hboth.2⟩
    · refine iff_of_false ?_ (fun hboth => hbusy hboth.1)
      rintro ⟨-, hversion⟩
      have hle := version_le_applyRuleChanges (applyRuleChange registry change) rest
      unfold applyRuleChanges at hle
      lia

section Responses

variable (codec : SnapshotCodec) (onRulesUpdated : Nat -> Except Text Unit)

/-- A response that cannot be decoded leaves the registry as it was. -/
def AtomicFor (response : WireResponse) (registry : RuleRegistry) : Prop :=
  forall e, (receiveSyncResponse codec onRulesUpdated response registry).2 =
      .error e -> e.isDecode = true ->
    Unchanged registry (receiveSyncResponse codec onRulesUpdated response registry).1

theorem isDecode_reload {result : Except Text Unit} {e : SyncError}
    (h : result.mapError SyncError.reload = .error e) : e.isDecode = false := by
  cases result with
  | ok => cases h
  | error message =>
    injection h with h
    rw [← h]
    rfl

theorem atomicFor_full {response : WireResponse}
    (hfull : response.syncType = .full) (registry : RuleRegistry) :
    AtomicFor codec onRulesUpdated response registry := by
  intro e herror hdecode
  unfold receiveSyncResponse receiveSnapshot at herror ⊢
  rw [hfull] at herror ⊢
  dsimp only at herror ⊢
  cases hrestore : restoreSnapshot codec response.snapshotLz4 with
  | error cause =>
    rw [hrestore] at herror
    exact ⟨rfl, rfl⟩
  | ok rules =>
    rw [hrestore] at herror
    rw [isDecode_reload herror] at hdecode
    cases hdecode

/-- A response that cannot be decoded leaves the rules and the version as they were
exactly if it is a snapshot, or all of its changes can be decoded, or those before
the first one that cannot are without effect. -/
theorem receiveSyncResponse_atomic_iff (response : WireResponse) (registry : RuleRegistry) :
    AtomicFor codec onRulesUpdated response registry <-> response.syncType = .full ∨
        (forall change, change ∈ response.changes -> change.decode.isSome = true) ∨
        forall change, change ∈ decodedChanges response.changes -> change.Idle registry := by
  cases htype : response.syncType with
  | full =>
    exact iff_of_true (atomicFor_full codec onRulesUpdated htype registry) (Or.inl rfl)
  | incremental =>
    rw [← applyRuleChanges_unchanged_iff, ← List.all_eq_true]
    unfold AtomicFor receiveSyncResponse
    rw [htype]
    dsimp only
    rw [receiveChanges_eq]
    cases hall : response.changes.all (fun change => change.decode.isSome) with
    | true =>
      refine iff_of_true ?_ (Or.inr (Or.inl rfl))
      intro e herror hdecode
      rw [isDecode_reload herror] at hdecode
      cases hdecode
    | false =>
      constructor
      · intro hatomic
        exact Or.inr (Or.inr (hatomic .change rfl rfl))
      · rintro (hfalse | hfalse | hunchanged)
        · cases hfalse
        · cases hfalse
        · intro e _ _
          exact hunchanged

end Responses

def halfDecodable : WireResponse where
  version := 9
  syncType := .incremental
  changes :=
    [{ op := .delete, ruleId := initialRule.id, ruleJson := none },
      { op := .upsert, ruleId := "sqli-002".toList
        ruleJson := some (.object []) }]
  snapshotLz4 := []

def noSnapshots : SnapshotCodec where
  decompressSizePrepended := fun _ => none
  rulesFromSlice := fun _ => none

def oneRule : RuleRegistry :=
  RuleRegistry.new.insert initialRule

/-- The response fails, but the rule is gone and the version has been counted on. -/
theorem malformed_change_after_removal :
    exists after, receiveSyncResponse noSnapshots (fun _ => .ok ())
        halfDecodable oneRule = (after, .error .change) ∧
      oneRule.rules initialRule.id = some initialRule ∧ after.rules initialRule.id = none ∧
      oneRule.version = 1 ∧ after.version = 2 :=
  ⟨_, rfl, rfl, rfl, rfl, rfl⟩

theorem receiveSyncResponse_removal :
    receiveSyncResponse noSnapshots (fun _ => .ok ())
        { halfDecodable with changes := halfDecodable.changes.take 1 } oneRule =
      (applySyncResponse { version := 9, syncType := .incremental, snapshot := [], changes :=
        [{ op := .delete, ruleId := initialRule.id, ruleJson := none }] } oneRule, .ok ()) :=
  receiveSyncResponse_of_decode rfl oneRule

end Cluster
end PrxWaf
