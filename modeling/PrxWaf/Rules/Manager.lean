import PrxWaf.Cluster.RuleSync
import PrxWaf.Lib.Versioned

/-!
# The rule manager

The manager fills the registry from the rules that are built in, from a directory and
from files.  The registry counts its insertions and removals, so that a reader can
see whether a copy of the rules is out of date.  Logging and remote sources are left
out; a reload is taken as one operation.
-/

namespace PrxWaf
namespace Rules
namespace Manager

open Lib Cluster

inductive RuleFormat where
  | yaml
  | modSec
  | json

/-- What is on the disk, and what the parsers make of it. -/
structure Disk where
  isDir : Text -> Bool
  isFile : Text -> Bool
  readDir : Text -> Option (List Text)
  readToString : Text -> Option Text
  fromPath : Text -> Option RuleFormat
  parseRules : Text -> RuleFormat -> Option (List Rule)

def loadFile (disk : Disk) (path : Text) (format : RuleFormat) : Except Text (List Rule) :=
  match disk.readToString path with
  | none => .error ("Cannot read ".toList ++ path)
  | some content =>
    match disk.parseRules content format with
    | none => .error ("Failed to parse ".toList ++ path)
    | some rules => .ok rules

inductive RuleSource where
  | localFile (name path : Text) (format : RuleFormat)
  | localDir (name path glob : Text)
  | remoteUrl (name url : Text) (format : RuleFormat)
      (updateIntervalSecs : Nat)
  | builtin (name : Text)

structure RuleLoadReport where
  sourcesLoaded : Nat
  rulesLoaded : Nat
  rulesSkipped : Nat
  errors : List Text

namespace RuleLoadReport

def default : RuleLoadReport :=
  { sourcesLoaded := 0, rulesLoaded := 0, rulesSkipped := 0, errors := [] }

def merge (report other : RuleLoadReport) : RuleLoadReport :=
  { sourcesLoaded := report.sourcesLoaded + other.sourcesLoaded
    rulesLoaded := report.rulesLoaded + other.rulesLoaded
    rulesSkipped := report.rulesSkipped + other.rulesSkipped
    errors := report.errors ++ other.errors }

def loaded (report : RuleLoadReport) (count : Nat) : RuleLoadReport :=
  { report with
    rulesLoaded := report.rulesLoaded + count
    sourcesLoaded := report.sourcesLoaded + 1 }

def failed (report : RuleLoadReport) (error : Text) : RuleLoadReport :=
  { report with errors := report.errors ++ [error] }

end RuleLoadReport

/-! ## The manager -/

structure Builtins where
  owasp : List Rule
  bot : List Rule
  scanner : List Rule

def allBuiltinRules (builtins : Builtins)
    (enableOwasp enableBot enableScanner : Bool) : List Rule :=
  (if enableOwasp then builtins.owasp else []) ++ (if enableBot then builtins.bot else []) ++
    (if enableScanner then builtins.scanner else [])

structure RuleManager where
  registry : RuleRegistry
  sources : List RuleSource
  rulesDir : Text
  enableBuiltinOwasp : Bool
  enableBuiltinBot : Bool
  enableBuiltinScanner : Bool

def insertRules (registry : RuleRegistry) (rules : List Rule) : RuleRegistry :=
  rules.foldl RuleRegistry.insert registry

/-- Load one entry of a directory; what is not a file of rules is skipped. -/
def loadEntry (disk : Disk) (state : RuleRegistry × RuleLoadReport)
    (path : Text) : RuleRegistry × RuleLoadReport :=
  if disk.isFile path then
    match disk.fromPath path with
    | none => state
    | some format =>
      match loadFile disk path format with
      | .ok rules =>
        (insertRules state.1 rules, state.2.loaded rules.length)
      | .error e => (state.1, state.2.failed (path ++ ": ".toList ++ e))
  else state

def loadFromDir (disk : Disk) (registry : RuleRegistry) (dir : Text) :
    Except Text (RuleRegistry × RuleLoadReport) :=
  if disk.isDir dir then
    match disk.readDir dir with
    | none => .error ("Cannot read rules dir: ".toList ++ dir)
    | some entries =>
      .ok (entries.foldl (loadEntry disk) (registry, .default))
  else .ok (registry, .default)

/-- The directory is merged into the report, or its error noted. -/
def mergeDir (disk : Disk) (label dir : Text)
    (state : RuleRegistry × RuleLoadReport) : RuleRegistry × RuleLoadReport :=
  match loadFromDir disk state.1 dir with
  | .ok sub => (sub.1, state.2.merge sub.2)
  | .error e => (state.1, state.2.failed (label ++ ": ".toList ++ e))

def loadSource (disk : Disk) (state : RuleRegistry × RuleLoadReport) :
    RuleSource -> RuleRegistry × RuleLoadReport
  | .localFile name path format =>
    match loadFile disk path format with
    | .ok rules => (insertRules state.1 rules, state.2.loaded rules.length)
    | .error e => (state.1, state.2.failed (name ++ ": ".toList ++ e))
  | .localDir name path _ => mergeDir disk name path state
  | .remoteUrl _ _ _ _ => state
  | .builtin _ => state

def loadAll (builtins : Builtins) (disk : Disk) (manager : RuleManager) :
    RuleManager × RuleLoadReport :=
  let builtin := allBuiltinRules builtins manager.enableBuiltinOwasp
    manager.enableBuiltinBot manager.enableBuiltinScanner
  let state := (insertRules manager.registry.clear builtin,
    RuleLoadReport.default.loaded builtin.length)
  let state :=
    if disk.isDir manager.rulesDir then
      mergeDir disk "rules dir".toList manager.rulesDir state
    else state
  let state := manager.sources.foldl (loadSource disk) state
  ({ manager with registry := state.1 }, state.2)

def setEnabled (enabled : Bool) (manager : RuleManager) (id : Text) :
    RuleManager × Except Text Unit :=
  match manager.registry.rules id with
  | some rule =>
    ({ manager with
        registry := { manager.registry with
          rules := Function.update manager.registry.rules id
            (some { rule with enabled := enabled }) } },
      .ok ())
  | none => (manager, .error ("Rule not found: ".toList ++ id))

def enableRule (manager : RuleManager) (id : Text) : RuleManager × Except Text Unit :=
  setEnabled true manager id

def disableRule (manager : RuleManager) (id : Text) : RuleManager × Except Text Unit :=
  setEnabled false manager id

variable (registry : RuleRegistry)

theorem version_insert (rule : Rule) :
    (registry.insert rule).version = registry.version + 1 := by
  unfold RuleRegistry.insert
  dsimp only
  split
  · rfl
  · rfl

theorem version_insertRules (rules : List Rule) :
    (insertRules registry rules).version = registry.version + rules.length := by
  induction rules generalizing registry with
  | nil => rfl
  | cons rule rest ih =>
    refine (ih (registry.insert rule)).trans ?_
    rw [version_insert, List.length_cons]
    lia

/-!
## What a reload loads

The rules that are built in, those of the directory and those of the sources come one
after the other.  Of rules with the same id the last one stays.
-/

def fileRules (disk : Disk) (path : Text) (format : RuleFormat) : List Rule :=
  ((disk.readToString path).bind (fun content => disk.parseRules content format)).getD []

def entryRules (disk : Disk) (path : Text) : List Rule :=
  if disk.isFile path then ((disk.fromPath path).map (fileRules disk path)).getD [] else []

def dirRules (disk : Disk) (dir : Text) : List Rule :=
  if disk.isDir dir then ((disk.readDir dir).getD []).flatMap (entryRules disk) else []

def sourceRules (disk : Disk) : RuleSource -> List Rule
  | .localFile _ path format => fileRules disk path format
  | .localDir _ path _ => dirRules disk path
  | .remoteUrl _ _ _ _ => []
  | .builtin _ => []

def rulesToLoad (builtins : Builtins) (disk : Disk) (manager : RuleManager) : List Rule :=
  allBuiltinRules builtins manager.enableBuiltinOwasp manager.enableBuiltinBot
      manager.enableBuiltinScanner ++
    dirRules disk manager.rulesDir ++ manager.sources.flatMap (sourceRules disk)

def lastRule (id : Text) (rules : List Rule) : Option Rule :=
  (rules.filter (fun rule => rule.id = id)).getLast?

theorem rules_insertRules (rules : List Rule) (id : Text) :
    (insertRules registry rules).rules id = (lastRule id rules).or (registry.rules id) := by
  induction rules using List.reverseRecOn with
  | nil => rfl
  | append_singleton front rule ih =>
    unfold insertRules lastRule at ih ⊢
    rw [List.foldl_append, List.foldl_cons, List.foldl_nil, RuleRegistry.rules_insert,
      List.filter_append]
    rcases Decidable.em (rule.id = id) with hid | hid
    · rw [List.filter_cons_of_pos (by simpa using hid), List.filter_nil, List.getLast?_concat,
        ← hid, Function.update_self]
      rfl
    · rw [List.filter_cons_of_neg (by simpa using hid), List.filter_nil, List.append_nil,
        Function.update_of_ne (Ne.symm hid), ih]

/-- The rules have been put into the registry, and the report counts them. -/
structure Loads (start : RuleRegistry) (rules : List Rule)
    (state : RuleRegistry × RuleLoadReport) : Prop where
  registry : state.1 = insertRules start rules
  count : state.2.rulesLoaded = rules.length

section Load

variable {start : RuleRegistry} {rules : List Rule} {state : RuleRegistry × RuleLoadReport}

theorem Loads.loaded (h : Loads start rules state) (more : List Rule) :
    Loads start (rules ++ more) (insertRules state.1 more, state.2.loaded more.length) where
  registry := by
    rw [h.registry]
    exact List.foldl_append.symm
  count := by
    unfold RuleLoadReport.loaded
    rw [h.count, List.length_append]

theorem Loads.nothing (h : Loads start rules state) (error : Text) :
    Loads start (rules ++ []) (state.1, state.2.failed error) := by
  rw [List.append_nil]
  exact ⟨h.registry, h.count⟩

theorem loads_foldl {α : Type} {f : α -> List Rule}
    {g : RuleRegistry × RuleLoadReport -> α -> RuleRegistry × RuleLoadReport}
    (hstep : forall {rules state}, Loads start rules state ->
      forall x, Loads start (rules ++ f x) (g state x))
    (h : Loads start rules state) (items : List α) :
    Loads start (rules ++ items.flatMap f) (items.foldl g state) := by
  induction items generalizing rules state with
  | nil =>
    rw [List.flatMap_nil, List.append_nil]
    exact h
  | cons x rest ih =>
    rw [List.flatMap_cons, ← List.append_assoc]
    exact ih (hstep h x)

theorem fileRules_of_ok {disk : Disk} {path : Text} {format : RuleFormat} {more : List Rule}
    (h : loadFile disk path format = .ok more) : fileRules disk path format = more := by
  unfold loadFile at h
  unfold fileRules
  split at h
  · cases h
  · rename_i content hcontent
    split at h
    · cases h
    · rename_i rules hrules
      cases h
      rw [hcontent, Option.bind_some, hrules, Option.getD_some]

theorem fileRules_of_error {disk : Disk} {path : Text} {format : RuleFormat} {e : Text}
    (h : loadFile disk path format = .error e) : fileRules disk path format = [] := by
  unfold loadFile at h
  unfold fileRules
  split at h
  · rename_i hcontent
    rw [hcontent]
    rfl
  · rename_i content hcontent
    split at h
    · rename_i hrules
      rw [hcontent, Option.bind_some, hrules, Option.getD_none]
    · cases h

theorem Loads.loadEntry (h : Loads start rules state) (disk : Disk) (path : Text) :
    Loads start (rules ++ entryRules disk path) (loadEntry disk state path) := by
  unfold Manager.loadEntry entryRules
  split
  · split
    · rename_i hformat
      rw [hformat, Option.map_none, Option.getD_none, List.append_nil]
      exact h
    · rename_i format hformat
      rw [hformat, Option.map_some, Option.getD_some]
      split
      · rename_i more hmore
        rw [fileRules_of_ok hmore]
        exact h.loaded more
      · rename_i e herror
        rw [fileRules_of_error herror]
        exact h.nothing _
  · rw [List.append_nil]
    exact h

theorem loads_nil (start : RuleRegistry) : Loads start [] (start, .default) :=
  ⟨rfl, rfl⟩

theorem loads_loadFromDir {disk : Disk} {dir : Text} {sub : RuleRegistry × RuleLoadReport}
    (hok : loadFromDir disk start dir = .ok sub) : Loads start (dirRules disk dir) sub := by
  unfold loadFromDir at hok
  unfold dirRules
  split at hok
  · rename_i hisDir
    rw [if_pos hisDir]
    split at hok
    · cases hok
    · rename_i entries hentries
      cases hok
      rw [hentries, Option.getD_some]
      exact loads_foldl (fun hstate path => Loads.loadEntry hstate disk path)
        (loads_nil start) entries
  · rename_i hisDir
    rw [if_neg hisDir]
    cases hok
    exact loads_nil start

theorem dirRules_of_error {disk : Disk} {dir e : Text} {registry : RuleRegistry}
    (h : loadFromDir disk registry dir = .error e) : dirRules disk dir = [] := by
  unfold loadFromDir at h
  unfold dirRules
  split at h
  · rename_i hisDir
    split at h
    · rename_i hentries
      rw [if_pos hisDir, hentries]
      rfl
    · cases h
  · cases h

theorem Loads.mergeDir (h : Loads start rules state) (disk : Disk) (label dir : Text) :
    Loads start (rules ++ dirRules disk dir) (mergeDir disk label dir state) := by
  unfold Manager.mergeDir
  split
  · rename_i sub hsub
    have hdir := loads_loadFromDir hsub
    refine ⟨?_, ?_⟩
    · dsimp only
      rw [hdir.registry, h.registry]
      exact List.foldl_append.symm
    · unfold RuleLoadReport.merge
      dsimp only
      rw [List.length_append, h.count, hdir.count]
  · rename_i e herror
    rw [dirRules_of_error herror]
    exact h.nothing _

theorem Loads.loadSource (h : Loads start rules state) (disk : Disk) (source : RuleSource) :
    Loads start (rules ++ sourceRules disk source) (loadSource disk state source) := by
  cases source with
  | localFile name path format =>
    unfold Manager.loadSource sourceRules
    dsimp only
    split
    · rename_i more hmore
      rw [fileRules_of_ok hmore]
      exact h.loaded more
    · rename_i e herror
      rw [fileRules_of_error herror]
      exact h.nothing _
  | localDir name path glob => exact h.mergeDir disk name path
  | remoteUrl name url format updateIntervalSecs =>
    unfold sourceRules
    rw [List.append_nil]
    exact h
  | builtin name =>
    unfold sourceRules
    rw [List.append_nil]
    exact h

theorem loads_loadAll (builtins : Builtins) (disk : Disk) (manager : RuleManager) :
    Loads .new (rulesToLoad builtins disk manager)
      ((loadAll builtins disk manager).1.registry, (loadAll builtins disk manager).2) := by
  have hbuiltin := (loads_nil manager.registry.clear).loaded (allBuiltinRules builtins
    manager.enableBuiltinOwasp manager.enableBuiltinBot manager.enableBuiltinScanner)
  unfold loadAll rulesToLoad
  dsimp only
  refine loads_foldl (fun hstate source => Loads.loadSource hstate disk source) ?_ manager.sources
  split
  · exact hbuiltin.mergeDir disk _ _
  · rename_i hisDir
    unfold dirRules
    rw [if_neg hisDir, List.append_nil]
    exact hbuiltin

theorem version_loadAll (builtins : Builtins) (disk : Disk) (manager : RuleManager) :
    (loadAll builtins disk manager).1.registry.version =
      (rulesToLoad builtins disk manager).length := by
  have hregistry := congrArg RuleRegistry.version (loads_loadAll builtins disk manager).registry
  rw [version_insertRules] at hregistry
  exact hregistry.trans (Nat.zero_add _)

theorem rules_loadAll (builtins : Builtins) (disk : Disk) (manager : RuleManager) (id : Text) :
    (loadAll builtins disk manager).1.registry.rules id =
      lastRule id (rulesToLoad builtins disk manager) := by
  have hregistry := congrArg (fun registry => registry.rules id)
    (loads_loadAll builtins disk manager).registry
  dsimp only at hregistry
  rw [rules_insertRules] at hregistry
  exact hregistry.trans Option.or_none

end Load

theorem version_remove (id : Text) :
    registry.remove id = registry ∨ registry.version < (registry.remove id).version := by
  unfold RuleRegistry.remove
  split
  · exact Or.inl rfl
  · exact Or.inr (Nat.lt_succ_self registry.version)

/-!
## Runs

What can be read of the registry is remembered after each operation. If reloads load ahead,
only enabling or disabling a rule changes it under one version.
-/

inductive RuleOp where
  | insert (rule : Rule)
  | remove (id : Text)
  | enableRule (id : Text)
  | disableRule (id : Text)
  | loadAll (disk : Disk)

abbrev Snapshot := Versioned (Text -> Option Rule)

structure RuleRun where
  manager : RuleManager
  seen : List Snapshot

def RuleManager.snapshot (manager : RuleManager) : Snapshot :=
  { version := manager.registry.version, content := manager.registry.rules }

def RuleManager.perform (builtins : Builtins) (manager : RuleManager) : RuleOp -> RuleManager
  | .insert rule =>
    { manager with registry := manager.registry.insert rule }
  | .remove id => { manager with registry := manager.registry.remove id }
  | .enableRule id => (Manager.enableRule manager id).1
  | .disableRule id => (Manager.disableRule manager id).1
  | .loadAll disk => (Manager.loadAll builtins disk manager).1

namespace RuleRun

def start (manager : RuleManager) : RuleRun :=
  { manager := manager, seen := [manager.snapshot] }

def step (builtins : Builtins) (s : RuleRun) (op : RuleOp) : Option RuleRun :=
  let manager := s.manager.perform builtins op
  some { manager := manager, seen := manager.snapshot :: s.seen }

/-- A reload finds more rules than the version says, or as many, and of each id the
rule that the registry has. -/
def LoadsAhead (builtins : Builtins) (s : RuleRun) : RuleOp -> Prop
  | .loadAll disk =>
    s.manager.registry.version < (rulesToLoad builtins disk s.manager).length ∨
      s.manager.registry.version = (rulesToLoad builtins disk s.manager).length ∧
        forall id, s.manager.registry.rules id = lastRule id (rulesToLoad builtins disk s.manager)
  | _ => True

/-- A rule is enabled or disabled only if it is so already. -/
def TogglesNothing (s : RuleRun) : RuleOp -> Prop
  | .enableRule id =>
    forall rule, s.manager.registry.rules id = some rule -> rule.enabled = true
  | .disableRule id =>
    forall rule, s.manager.registry.rules id = some rule -> rule.enabled = false
  | _ => True

variable (enabled : Bool) (manager : RuleManager) (id : Text)

theorem version_setEnabled :
    (setEnabled enabled manager id).1.registry.version =
      manager.registry.version := by
  unfold setEnabled
  split
  · rfl
  · rfl

theorem rules_setEnabled_iff :
    (setEnabled enabled manager id).1.registry.rules = manager.registry.rules <->
      forall rule, manager.registry.rules id = some rule -> rule.enabled = enabled := by
  unfold setEnabled
  cases hrule : manager.registry.rules id with
  | none => simp
  | some rule =>
    dsimp only
    constructor
    · intro heq found hfound
      have hsame := congrFun heq id
      rw [Function.update_self, hrule, Option.some_inj] at hsame
      rw [← Option.some.inj hfound]
      exact (congrArg Rule.enabled hsame).symm
    · intro hsame
      have hrest : { rule with enabled := enabled } = rule := by
        rw [← hsame rule rfl]
      rw [hrest, ← hrule, Function.update_eq_self]

section Operations

variable {builtins : Builtins} {s : RuleRun}

theorem snapshot_perform {op : RuleOp} (hload : s.LoadsAhead builtins op)
    (htoggle : s.TogglesNothing op) :
    (s.manager.perform builtins op).snapshot = s.manager.snapshot ∨ s.manager.snapshot.version <
        (s.manager.perform builtins op).snapshot.version := by
  have htoggled : forall {enabled id}, (forall rule, s.manager.registry.rules id = some rule ->
        rule.enabled = enabled) ->
      (setEnabled enabled s.manager id).1.snapshot = s.manager.snapshot := by
    intro enabled id hsame
    unfold RuleManager.snapshot
    rw [version_setEnabled, (rules_setEnabled_iff _ _ _).mpr hsame]
  cases op with
  | insert rule =>
    apply Or.inr
    exact Nat.lt_of_lt_of_eq (Nat.lt_succ_self _) (version_insert s.manager.registry rule).symm
  | remove id =>
    rcases version_remove s.manager.registry id with hsame | hlt
    · apply Or.inl
      unfold RuleManager.perform RuleManager.snapshot
      dsimp only
      rw [hsame]
    · exact Or.inr hlt
  | enableRule id => exact Or.inl (htoggled htoggle)
  | disableRule id => exact Or.inl (htoggled htoggle)
  | loadAll disk =>
    rcases hload with hlt | ⟨hversion, hrules⟩
    · apply Or.inr
      exact Nat.lt_of_lt_of_eq hlt (version_loadAll builtins disk s.manager).symm
    · apply Or.inl
      unfold RuleManager.perform RuleManager.snapshot
      dsimp only
      rw [version_loadAll, hversion]
      refine congrArg (Versioned.mk _) (funext ?_)
      intro id
      rw [rules_loadAll, hrules]

theorem snapshot_toggled {op : RuleOp} (htoggle : ¬ s.TogglesNothing op) :
    (s.manager.perform builtins op).snapshot.version = s.manager.snapshot.version ∧
      (s.manager.perform builtins op).snapshot.content ≠
        s.manager.snapshot.content := by
  cases op with
  | insert rule => exact absurd trivial htoggle
  | remove id => exact absurd trivial htoggle
  | enableRule id =>
    exact ⟨version_setEnabled true s.manager id,
      fun heq => htoggle ((rules_setEnabled_iff _ _ _).mp heq)⟩
  | disableRule id =>
    exact ⟨version_setEnabled false s.manager id,
      fun heq => htoggle ((rules_setEnabled_iff _ _ _).mp heq)⟩
  | loadAll disk => exact absurd trivial htoggle

theorem mem_seen_of_run {t : RuleRun} {ops : List RuleOp} {p : Snapshot}
    (hp : p ∈ s.seen) (hrun : runFrom (step builtins) s ops = some t) :
    p ∈ t.seen :=
  runFrom_invariant (I := fun s => p ∈ s.seen) (fun hs _ hstep => by
      cases hstep
      exact List.mem_cons_of_mem _ hs)
    hp (stepsMeet_true s ops) hrun

theorem distinguishes_iff_of_newest {t : RuleRun} {ops : List RuleOp}
    (hnewest : Newest s.seen s.manager.snapshot)
    (hloads : StepsMeet (step builtins) (LoadsAhead builtins) s ops)
    (hrun : runFrom (step builtins) s ops = some t) :
    Distinguishes t.seen <-> StepsMeet (step builtins) TogglesNothing s ops := by
  induction ops generalizing s with
  | nil =>
    cases hrun
    exact ⟨fun _ => trivial, fun _ => hnewest.distinguishes⟩
  | cons op rest ih =>
    obtain ⟨next, hstep, hrest⟩ := runFrom_cons_some hrun
    obtain ⟨hload, hlater⟩ := stepsMeet_cons_of_some hloads hstep
    cases hstep
    rcases Classical.em (s.TogglesNothing op) with htoggle | htoggle
    · have hagain := ih (hnewest.next (snapshot_perform hload htoggle)) hlater hrest
      rw [hagain]
      exact ⟨fun hmeet => ⟨htoggle, hmeet⟩, fun hmeet => hmeet.right⟩
    · refine iff_of_false ?_ (fun hmeet => htoggle hmeet.left)
      intro hall
      obtain ⟨hversion, hcontent⟩ := snapshot_toggled htoggle
      refine hcontent (hall _ _ ?_ ?_ hversion)
      · exact mem_seen_of_run List.mem_cons_self hrest
      · exact mem_seen_of_run (List.mem_cons_of_mem _ hnewest.mem) hrest

end Operations

/-- As long as reloads raise the version, equal versions mean equal rules exactly if
no rule is changed in its place. -/
theorem versions_distinguish_iff {builtins : Builtins} {manager : RuleManager}
    {ops : List RuleOp} {s : RuleRun}
    (hloads : StepsMeet (step builtins) (LoadsAhead builtins) (start manager) ops)
    (hrun : runFrom (step builtins) (start manager) ops = some s) :
    Distinguishes s.seen <-> StepsMeet (step builtins) TogglesNothing (start manager) ops :=
  distinguishes_iff_of_newest (newest_singleton manager.snapshot) hloads hrun

def scanRule (id : Text) : Rule :=
  { id := id
    name := "scan".toList
    description := none
    category := "scanner".toList
    source := "file".toList
    enabled := true
    action := "block".toList
    severity := none
    pattern := none
    tags := []
    metadata := [] }

def bare : RuleManager :=
  { registry := .new
    sources := []
    rulesDir := "rules".toList
    enableBuiltinOwasp := false
    enableBuiltinBot := false
    enableBuiltinScanner := false }

def noBuiltins : Builtins :=
  { owasp := [], bot := [], scanner := [] }

def diskWith (rules : List Rule) : Disk where
  isDir := fun _ => true
  isFile := fun _ => true
  readDir := fun _ => some ["rules/a.json".toList]
  readToString := fun _ => some []
  fromPath := fun _ => some .json
  parseRules := fun _ _ => some rules

/-- A rule is inserted, enabled as it is, and then three are loaded. -/
def growing : List RuleOp :=
  [.insert (scanRule "a".toList), .enableRule "a".toList,
    .loadAll (diskWith [scanRule "b".toList, scanRule "c".toList, scanRule "d".toList])]

theorem versions_distinguish_growing :
    exists s, runFrom (step noBuiltins) (start bare) growing = some s ∧ Distinguishes s.seen := by
  have hloads : StepsMeet (step noBuiltins) (LoadsAhead noBuiltins) (start bare) growing :=
    ⟨trivial, trivial, Or.inl (by decide), trivial⟩
  refine ⟨_, rfl, (versions_distinguish_iff hloads rfl).mpr ?_⟩
  refine ⟨trivial, ?_, trivial, trivial⟩
  intro rule hrule
  cases hrule
  rfl

/-- A rule is disabled, and a file with one rule is replaced by another: in both cases
the version stays the same. -/
theorem version_hides_changes :
    (runFrom (step noBuiltins) (start bare)
        [.insert (scanRule "a".toList), .disableRule "a".toList]).map (fun s => s.seen.map (fun p =>
          (p.version, (p.content "a".toList).map Rule.enabled))) =
      some [(1, some false), (1, some true), (0, none)] ∧
    (runFrom (step noBuiltins) (start bare) [.loadAll (diskWith [scanRule "a".toList]),
          .loadAll (diskWith [scanRule "b".toList])]).map (fun s => s.seen.map (fun p =>
          (p.version, (p.content "a".toList).isSome))) =
      some [(1, false), (1, true), (0, false)] := by
  decide

end RuleRun

end Manager
end Rules
end PrxWaf
