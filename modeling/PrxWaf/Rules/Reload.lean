import PrxWaf.Rules.Engine

/-!
# Reloading custom rules

Custom rules come from rows of the database and from files of a directory.  A
reload replaces the buckets of the sites that rows name and then adds the rules
of the files.
-/

namespace PrxWaf
namespace Rules

open Lib Http Engine

variable {regex glob : Type}

/-- What deserialization makes of the conditions column: an object with a match
tree, or anything else, which is read as a list of conditions. -/
inductive ConditionsColumn where
  | tree (parsed : Option ConditionNode)
  | list (parsed : Option (List Condition))

structure DbCustomRule where
  id : Text
  hostCode : Text
  name : Text
  priority : Int
  enabled : Bool
  conditionOp : Text
  conditions : ConditionsColumn
  action : Text
  actionStatus : Int
  actionMsg : Option Text
  script : Option Text

def ConditionOp.parseStr (s : Text) : ConditionOp :=
  if eqIgnoreAsciiCase s "or".toList then .or else .and

def RuleAction.parseStr (ext : Externals regex glob) (s : Text) : RuleAction :=
  let lower := ext.toLowercase s
  if lower = "allow".toList then .allow
  else if lower = "log".toList then .log
  else if lower = "challenge".toList then .challenge
  else .block

def statusOf (n : Int) : UInt16 :=
  if 0 ≤ n ∧ n < 2 ^ 16 then n.toNat.toUInt16 else 403

/-- The conditions and the tree of a column; only a tree can fail to parse. -/
def ConditionsColumn.read : ConditionsColumn -> Option (List Condition × Option ConditionNode)
  | .tree none => none
  | .tree (some node) => some ([], some node)
  | .list parsed => some (parsed.getD [], none)

def fromDbRule (ext : Externals regex glob) (row : DbCustomRule) : Option CustomRule :=
  row.conditions.read.map (fun columns =>
    { id := row.id
      hostCode := row.hostCode
      name := row.name
      priority := row.priority
      enabled := row.enabled
      conditionOp := ConditionOp.parseStr row.conditionOp
      conditions := columns.1
      action := RuleAction.parseStr ext row.action
      actionStatus := statusOf row.actionStatus
      actionMsg := row.actionMsg
      script := row.script
      matchTree := columns.2 })

/-- The keys of a rule document; those that may be missing are optional. -/
structure YamlCustomRule where
  id : Text
  hostCode : Option Text
  name : Text
  priority : Option Int
  enabled : Option Bool
  conditionOp : Option ConditionOp
  conditions : Option (List Condition)
  matchTree : Option ConditionNode
  action : Option RuleAction
  actionStatus : Option UInt16
  actionMsg : Option Text
  script : Option Text

def toCustomRule (dto : YamlCustomRule) : CustomRule :=
  { id := dto.id
    hostCode := dto.hostCode.getD "*".toList
    name := dto.name
    priority := dto.priority.getD 0
    enabled := dto.enabled.getD true
    conditionOp := dto.conditionOp.getD .and
    conditions := dto.conditions.getD []
    action := dto.action.getD .block
    actionStatus := dto.actionStatus.getD 403
    actionMsg := dto.actionMsg
    script := dto.script
    matchTree := dto.matchTree }

/-- A document of a rule file as the deserializer sees it. -/
inductive YamlDoc where
  | invalid
  | unrelated
  | mapping (kind : Text) (rule : Option YamlCustomRule)

inductive YamlError where
  | invalidYaml (document : Nat)
  | unsupportedKind (document : Nat) (kind : Text)
  | invalidRule (document : Nat)

def kindV1 : Text :=
  "custom_rule_v1".toList

def kindStart : Text :=
  "custom_rule_".toList

/-- Parse the documents that follow `idx` others. -/
def parseFrom : Nat -> List YamlDoc -> Except YamlError (List CustomRule)
  | _, [] => .ok []
  | idx, .invalid :: _ => .error (.invalidYaml (idx + 1))
  | idx, .unrelated :: rest => parseFrom (idx + 1) rest
  | idx, .mapping kind rule :: rest =>
    if kind = kindV1 then
      match rule with
      | none => .error (.invalidRule (idx + 1))
      | some dto =>
        (parseFrom (idx + 1) rest).map (fun rules => toCustomRule dto :: rules)
    else if kindStart.isPrefixOf kind then
      .error (.unsupportedKind (idx + 1) kind)
    else parseFrom (idx + 1) rest

def parse (docs : List YamlDoc) : Except YamlError (List CustomRule) :=
  parseFrom 0 docs

/-- An entry of the rules directory.  Subdirectories and other extensions are
skipped, and so are entries and files that cannot be read. -/
inductive DirEntry where
  | skipped
  | yaml (content : List YamlDoc)

inductive RulesDir where
  | missing
  | unreadable
  | readable (entries : List DirEntry)

/-- The rules of an entry.  A file with an error has none. -/
def DirEntry.rules : DirEntry -> List CustomRule
  | .skipped => []
  | .yaml content =>
    match parse content with
    | .ok rules => rules
    | .error _ => []

def loadDir : RulesDir -> Option (List CustomRule)
  | .missing => some []
  | .unreadable => none
  | .readable entries => some (entries.flatMap DirEntry.rules)

/-- What the database answers during a reload: whether the address and path
rules could be read, the rows of custom rules, and whether the queries that
follow them succeed. -/
structure Database where
  reloadAll : Bool
  customRules : Option (List DbCustomRule)
  sensitivePatterns : Bool
  hotlinkConfigs : Bool

section Reload

variable (ext : Externals regex glob)

def databaseRules (rows : List DbCustomRule) : List CustomRule :=
  rows.filterMap (fromDbRule ext)

def hostsOf (rules : List CustomRule) : List Text :=
  (rules.map CustomRule.hostCode).dedup

def loadHosts (rules : List CustomRule) (hosts : List Text)
    (engine : CustomRulesEngine regex glob) : CustomRulesEngine regex glob :=
  hosts.foldl (fun engine hostCode =>
    engine.loadHost ext hostCode (rulesOf hostCode rules)) engine

def addFileRules (dir : RulesDir) (engine : CustomRulesEngine regex glob) :
    CustomRulesEngine regex glob :=
  match loadDir dir with
  | some rules => rules.foldl (CustomRulesEngine.addFileRule ext) engine
  | none => engine

/-- The part of a reload that concerns custom rules. -/
def reloadCustomRules (rows : List DbCustomRule) (dir : RulesDir)
    (engine : CustomRulesEngine regex glob) : CustomRulesEngine regex glob :=
  let rules := databaseRules ext rows
  addFileRules ext dir (loadHosts ext rules (hostsOf rules) engine)

def reloadRules (db : Database) (dir : RulesDir) (engine : CustomRulesEngine regex glob) :
    CustomRulesEngine regex glob × Bool :=
  if db.reloadAll then
    match db.customRules with
    | none => (engine, false)
    | some rows =>
      (reloadCustomRules ext rows dir engine, db.sensitivePatterns && db.hotlinkConfigs)
  else (engine, false)

end Reload

/-! ## What a bucket holds after a reload -/

section Buckets

variable {ext : Externals regex glob}

variable {rules : List CustomRule}

theorem mem_hostsOf {hostCode : Text} :
    hostCode ∈ hostsOf rules <-> rulesOf hostCode rules ≠ [] := by
  unfold hostsOf rulesOf
  rw [List.mem_dedup, List.mem_map, Ne, List.filter_eq_nil_iff]
  simp

theorem loadHosts_rules_of_not_mem {hosts : List Text} {hostCode : Text} (hnot : hostCode ∉ hosts)
    (engine : CustomRulesEngine regex glob) :
    (loadHosts ext rules hosts engine).rules hostCode = engine.rules hostCode := by
  induction hosts generalizing engine with
  | nil => rfl
  | cons first rest ih =>
    rw [List.mem_cons, not_or] at hnot
    exact (ih hnot.2 _).trans (CustomRulesEngine.loadHost_rules_of_ne hnot.1)

theorem loadHosts_rules_of_mem {hosts : List Text} {hostCode : Text} (hmem : hostCode ∈ hosts)
    (engine : CustomRulesEngine regex glob) :
    (loadHosts ext rules hosts engine).rules hostCode = sortByPriority (entriesOf ext .db
        ((rulesOf hostCode rules).filter (fun rule => rule.enabled))) := by
  induction hosts generalizing engine with
  | nil => cases hmem
  | cons first rest ih =>
    rcases Decidable.em (hostCode ∈ rest) with hrest | hrest
    · exact ih hrest _
    · have hfirst : hostCode = first := (List.mem_cons.mp hmem).resolve_right hrest
      refine (loadHosts_rules_of_not_mem hrest _).trans ?_
      rw [hfirst]
      exact CustomRulesEngine.loadHost_rules_self

def fileRules (dir : RulesDir) : List CustomRule :=
  (loadDir dir).getD []

theorem addFileRules_eq (dir : RulesDir) (engine : CustomRulesEngine regex glob) :
    addFileRules ext dir engine = (fileRules dir).foldl (CustomRulesEngine.insertRule ext .file)
        engine := by
  unfold addFileRules fileRules
  cases loadDir dir with
  | none => rfl
  | some rules => rfl

theorem addFileRules_perm (dir : RulesDir) (hostCode : Text)
    (engine : CustomRulesEngine regex glob) :
    ((addFileRules ext dir engine).rules hostCode).Perm (engine.rules hostCode ++
        entriesOf ext .file (rulesOf hostCode (fileRules dir))) := by
  rw [addFileRules_eq]
  exact CustomRulesEngine.foldl_insertRule_perm ext .file _ hostCode engine

/-- A bucket holds the enabled rules of the rows and the rules of the files,
each once. -/
def HoldsExactly (ext : Externals regex glob) (rows : List DbCustomRule)
    (dir : RulesDir) (hostCode : Text)
    (bucket : List (RuleEntry regex glob)) : Prop :=
  bucket.Perm
    (entriesOf ext .db ((rulesOf hostCode (databaseRules ext rows)).filter
        (fun rule => rule.enabled)) ++
      entriesOf ext .file (rulesOf hostCode (fileRules dir)))

variable {rows : List DbCustomRule} {dir : RulesDir} {hostCode : Text}

theorem reloadCustomRules_of_mem (hmem : hostCode ∈ hostsOf (databaseRules ext rows))
    (engine : CustomRulesEngine regex glob) :
    HoldsExactly ext rows dir hostCode
      ((reloadCustomRules ext rows dir engine).rules hostCode) := by
  unfold HoldsExactly
  refine (addFileRules_perm dir hostCode _).trans ?_
  rw [loadHosts_rules_of_mem hmem]
  exact (sortByPriority_perm _).append_right _

theorem reloadCustomRules_congr_of_mem (hmem : hostCode ∈ hostsOf (databaseRules ext rows))
    (left right : CustomRulesEngine regex glob) :
    (reloadCustomRules ext rows dir left).rules hostCode =
      (reloadCustomRules ext rows dir right).rules hostCode := by
  unfold reloadCustomRules
  rw [addFileRules_eq, addFileRules_eq]
  refine CustomRulesEngine.foldl_insertRule_congr ext .file ?_
  rw [loadHosts_rules_of_mem hmem, loadHosts_rules_of_mem hmem]

theorem reloadCustomRules_of_not_mem
    (hnot : hostCode ∉ hostsOf (databaseRules ext rows)) (dir : RulesDir)
    (engine : CustomRulesEngine regex glob) :
    ((reloadCustomRules ext rows dir engine).rules hostCode).Perm (engine.rules hostCode ++
        entriesOf ext .file (rulesOf hostCode (fileRules dir))) := by
  refine (addFileRules_perm dir hostCode _).trans ?_
  rw [loadHosts_rules_of_not_mem hnot]

theorem holdsExactly_of_not_mem (hnot : hostCode ∉ hostsOf (databaseRules ext rows))
    {bucket : List (RuleEntry regex glob)} :
    HoldsExactly ext rows dir hostCode bucket <-> bucket.Perm
        (entriesOf ext .file (rulesOf hostCode (fileRules dir))) := by
  rw [mem_hostsOf, Ne, not_not] at hnot
  unfold HoldsExactly
  rw [hnot]
  rfl

theorem reloadCustomRules_exact_iff_of_not_mem (hnot : hostCode ∉ hostsOf (databaseRules ext rows))
    (engine : CustomRulesEngine regex glob) :
    HoldsExactly ext rows dir hostCode ((reloadCustomRules ext rows dir engine).rules hostCode) <->
      engine.rules hostCode = [] := by
  rw [holdsExactly_of_not_mem hnot]
  have hperm := reloadCustomRules_of_not_mem hnot dir engine
  constructor
  · intro h
    have hlength := (hperm.symm.trans h).length_eq
    rw [List.length_append] at hlength
    exact List.eq_nil_of_length_eq_zero (by lia)
  · intro h
    rw [h] at hperm
    exact hperm

theorem reloadCustomRules_again_iff_of_not_mem (hnot : hostCode ∉ hostsOf (databaseRules ext rows))
    (engine : CustomRulesEngine regex glob) :
    (reloadCustomRules ext rows dir (reloadCustomRules ext rows dir engine)).rules hostCode =
        (reloadCustomRules ext rows dir engine).rules hostCode <->
      rulesOf hostCode (fileRules dir) = [] := by
  constructor
  · intro h
    have hperm := reloadCustomRules_of_not_mem hnot dir (reloadCustomRules ext rows dir engine)
    rw [h] at hperm
    have hlength := hperm.length_eq
    rw [List.length_append] at hlength
    have hentries : entriesOf ext .file (rulesOf hostCode (fileRules dir)) = [] :=
      List.eq_nil_of_length_eq_zero (by lia)
    exact List.map_eq_nil_iff.mp hentries
  · intro h
    unfold reloadCustomRules
    rw [addFileRules_eq, CustomRulesEngine.foldl_insertRule_of_none ext .file h,
      loadHosts_rules_of_not_mem hnot]

/-- The buckets that no row names were empty and gain nothing. -/
def OthersEmpty (ext : Externals regex glob) (rows : List DbCustomRule)
    (dir : RulesDir) (engine : CustomRulesEngine regex glob) : Prop :=
  forall hostCode, hostCode ∉ hostsOf (databaseRules ext rows) ->
    engine.rules hostCode = [] ∧ rulesOf hostCode (fileRules dir) = []

end Buckets

theorem reloadRules_of_done {ext : Externals regex glob} {db : Database}
    {dir : RulesDir} {rows : List DbCustomRule} {engine reloaded : CustomRulesEngine regex glob}
    (hrows : db.customRules = some rows) (hdone : reloadRules ext db dir engine = (reloaded, true))
    (start : CustomRulesEngine regex glob) :
    reloadRules ext db dir start = (reloadCustomRules ext rows dir start, true) := by
  unfold reloadRules at hdone ⊢
  rw [hrows] at hdone ⊢
  split at hdone
  · rename_i hall
    rw [if_pos hall]
    injection hdone with hengine hqueries
    rw [hqueries]
  · cases hdone

/-- A reload that completes leaves in every bucket exactly the enabled rules of
the database and the rules of the files, and a second reload changes nothing,
exactly when the sites that no row names had no rules and have none in the
files. -/
theorem reloadRules_exact_iff {ext : Externals regex glob} {db : Database}
    {dir : RulesDir} {rows : List DbCustomRule} {engine reloaded : CustomRulesEngine regex glob}
    (hrows : db.customRules = some rows)
    (hdone : reloadRules ext db dir engine = (reloaded, true)) :
    (forall hostCode, HoldsExactly ext rows dir hostCode (reloaded.rules hostCode)) ∧
        reloadRules ext db dir reloaded = (reloaded, true) <-> OthersEmpty ext rows dir engine := by
  have hreload := reloadRules_of_done hrows hdone
  rw [hreload] at hdone ⊢
  injection hdone with hreloaded
  rw [← hreloaded]
  constructor
  · rintro ⟨hexact, hagain⟩ hostCode hnot
    injection hagain with hagain
    have hbucket := congrArg (fun e => e.rules hostCode) hagain
    exact ⟨(reloadCustomRules_exact_iff_of_not_mem hnot engine).mp (hexact hostCode),
      (reloadCustomRules_again_iff_of_not_mem hnot engine).mp hbucket⟩
  · intro hothers
    refine ⟨?_, ?_⟩
    · intro hostCode
      rcases Decidable.em (hostCode ∈ hostsOf (databaseRules ext rows)) with hmem | hnot
      · exact reloadCustomRules_of_mem hmem engine
      · exact (reloadCustomRules_exact_iff_of_not_mem hnot engine).mpr (hothers hostCode hnot).1
    · refine congrArg (fun e => (e, true)) ?_
      ext1
      funext hostCode
      rcases Decidable.em (hostCode ∈ hostsOf (databaseRules ext rows)) with hmem | hnot
      · exact reloadCustomRules_congr_of_mem hmem _ _
      · exact (reloadCustomRules_again_iff_of_not_mem hnot engine).mpr (hothers hostCode hnot).2

def Database.ofRows (rows : List DbCustomRule) : Database :=
  { reloadAll := true
    customRules := some rows
    sensitivePatterns := true
    hotlinkConfigs := true }

def shopRow : DbCustomRule :=
  { id := "r1".toList
    hostCode := "shop".toList
    name := "admin".toList
    priority := 1
    enabled := true
    conditionOp := "and".toList
    conditions := .list (some adminRule.conditions)
    action := "block".toList
    actionStatus := 403
    actionMsg := none
    script := none }

/-- A directory with one rule, for all sites unless a site is named. -/
def oneFile (hostCode : Option Text) : RulesDir :=
  .readable [.yaml [.mapping kindV1 (some
    { id := "f1".toList
      hostCode := hostCode
      name := "file rule".toList
      priority := none
      enabled := none
      conditionOp := none
      conditions := none
      matchTree := none
      action := none
      actionStatus := none
      actionMsg := none
      script := none })]]

/-- A row and a file for one site, loaded into an engine without rules. -/
theorem shopRow_reload_exact :
    exists reloaded, reloadRules literalExternals (Database.ofRows [shopRow])
          (oneFile (some "shop".toList)) CustomRulesEngine.empty = (reloaded, true) ∧
      (forall hostCode, HoldsExactly literalExternals [shopRow]
        (oneFile (some "shop".toList)) hostCode (reloaded.rules hostCode)) := by
  refine ⟨_, rfl, ?_⟩
  have hothers : OthersEmpty literalExternals [shopRow]
      (oneFile (some "shop".toList)) CustomRulesEngine.empty := by
    intro hostCode hnot
    have hne : hostCode ≠ "shop".toList := by
      intro h
      exact hnot (h ▸ by decide)
    refine ⟨rfl, ?_⟩
    exact rulesOf_cons_of_ne (Ne.symm hne)
  have hrows : (Database.ofRows [shopRow]).customRules = some [shopRow] := rfl
  exact ((reloadRules_exact_iff hrows rfl).mpr hothers).1

/-- A file rule for all sites, none of which has a row for them, is there twice
after a second reload. -/
theorem file_rule_loaded_twice :
    exists once twice, reloadRules literalExternals (Database.ofRows []) (oneFile none)
          CustomRulesEngine.empty = (once, true) ∧
      reloadRules literalExternals (Database.ofRows []) (oneFile none) once = (twice, true) ∧
      ((once.rules "*".toList).map (fun entry => entry.raw.id) = ["f1".toList]) ∧
      ((twice.rules "*".toList).map (fun entry => entry.raw.id) = ["f1".toList, "f1".toList]) :=
  ⟨_, _, rfl, rfl, by decide, by decide⟩

end Rules
end PrxWaf
