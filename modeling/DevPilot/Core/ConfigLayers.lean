import DevPilot.Coordinator.IdeaTree
import DevPilot.Lib.Layers

/-!
The layered configuration: the layers that are merged, and how the typed config reads the
merged mapping, in which a field may be spelt in several ways.
-/

namespace DevPilot

open PyJson Layers

variable {F : Type}

inductive ConfigRole
  | coordinator | executor

def ConfigRole.name : ConfigRole → String
  | .coordinator => "coordinator"
  | .executor => "executor"

/-- `SHARED_FLAT`: flat names and the groups and fields they stand for. -/
def sharedFlat : List (String × String × String) :=
  [("provider", "llm", "provider"), ("model", "llm", "model"), ("api_key", "llm", "api_key"),
    ("base_url", "llm", "base_url"), ("openai_api", "llm", "openai_api"),
    ("reasoning_effort", "llm", "reasoning_effort"),
    ("reasoning_summary", "llm", "reasoning_summary"), ("text_verbosity", "llm", "text_verbosity"),
    ("parallel_tool_calls", "llm", "parallel_tool_calls"),
    ("thinking_budget_tokens", "llm", "thinking_budget_tokens"), ("max_tokens", "llm", "max_tokens"),
    ("llm_timeout", "llm", "llm_timeout"), ("llm_provider_retries", "llm", "llm_provider_retries"),
    ("llm_retry_attempts", "llm", "llm_retry_attempts"),
    ("llm_retry_base_delay", "llm", "llm_retry_base_delay"),
    ("llm_retry_max_delay", "llm", "llm_retry_max_delay"),
    ("executor_timeout", "timeout", "executor"), ("eval_timeout", "timeout", "eval"),
    ("lifecycle_script_timeout", "timeout", "lifecycle_script"),
    ("time_budget", "timeout", "time_budget"),
    ("nested_executor_timeout", "timeout", "nested_executor"),
    ("bash_timeout_default", "timeout", "bash_default"), ("bash_timeout_max", "timeout", "bash_max"),
    ("run_training_timeout_default", "timeout", "run_training_default"),
    ("run_training_timeout_max", "timeout", "run_training_max"),
    ("run_training_stall_timeout", "timeout", "run_training_stall"),
    ("heartbeat_interval", "timeout", "heartbeat_interval"),
    ("context_window", "context", "window"), ("compact_threshold", "context", "compact_threshold"),
    ("compact_keep_recent", "context", "compact_keep_recent")]

def proxy (key : String) : Option (String × String) := sharedFlat.lookup key

def flatNames (group field : String) : List String :=
  (sharedFlat.filter fun e => e.2 = (group, field)).map (·.1)

def legacyAliases : List (String × String) :=
  [("max_depth", "max_tree_depth"), ("branch_prefix", "git_branch_prefix")]

/-- `LLMConfig.FIELD_ALIASES`. -/
def llmAliases : List (String × String) := [("timeout", "llm_timeout")]

/-- The other names under which `BudgetPolicy.from_dict` looks for a field. -/
def policyAliases (field : String) : List String :=
  match field with
  | "global_time_budget" => ["total_time_budget", "time_budget"]
  | "run_training_timeout_default" => ["run_training_default"]
  | "run_training_timeout_max" => ["run_training_max"]
  | _ => []

def erase (key : String) (ms : Members F) : Members F := ms.filter (·.1 ≠ key)

/-- `out[new] = out.pop(old)`, unless `new` is there. -/
def coerceAlias (out : Members F) (names : String × String) : Members F :=
  match out.lookup names.1, out.lookup names.2 with
  | some value, none => Members.insert names.2 value (erase names.1 out)
  | _, _ => out

/-- `_coerce_structured_blocks`, which leaves values as they are here. -/
def coerceStructuredBlocks (data : Members F) : Members F := legacyAliases.foldl coerceAlias data

def groupFlat (grouped : List (String × Members F)) (p : String × Json F) :
    List (String × Members F) :=
  match proxy p.1 with
  | none => grouped
  | some (group, field) =>
      Members.insert group (Members.insert field p.2 ((grouped.lookup group).getD [])) grouped

def membersOf (value : Option (Json F)) : Members F :=
  match value with
  | some (.obj members) => members
  | _ => []

def update (base values : Members F) : Members F :=
  values.foldl (fun base p => Members.insert p.1 p.2 base) base

def routeFlatKeys (data : Members F) : Members F :=
  (data.foldl groupFlat []).foldl
    (fun passthrough g => Members.insert g.1
      (.obj (update (membersOf (passthrough.lookup g.1)) g.2)) passthrough)
    (data.filter fun p => (proxy p.1).isNone)

def applyFieldAlias (data : Members F) (names : String × String) : Members F :=
  match data.lookup names.1 with
  | none => data
  | some value =>
      let patched := erase names.1 data
      if (patched.lookup names.2).isSome then patched else Members.insert names.2 value patched

def applyFieldAliases (data : Members F) : Members F := llmAliases.foldl applyFieldAlias data

def firstPresent (data : Members F) (keys : List String) : Option (Json F) :=
  keys.findSome? fun key => data.lookup key

def groupValue (group : String) (data : Members F) (field : String) : Option (Json F) :=
  if group = "llm" then (applyFieldAliases data).lookup field
  else if group = "budget_policy" then firstPresent data (field :: policyAliases field)
  else data.lookup field

inductive ConfigField
  | top (key : String)
  | nested (group field : String)
  deriving DecidableEq

/-- The fields of `timeout` that an explicit field of the budget policy overrides. -/
def policyOverrides : List (String × String) :=
  [("executor", "executor_timeout"), ("nested_executor", "nested_executor_timeout"),
    ("bash_default", "bash_timeout_default"), ("bash_max", "bash_timeout_max"),
    ("run_training_default", "run_training_timeout_default"),
    ("run_training_max", "run_training_timeout_max")]

def isNone (value : Option (Json F)) : Bool :=
  match value with
  | none | some .null => true
  | _ => false

def policyValue (merged : Members F) (field : String) : Option (Json F) :=
  (groupValue "budget_policy" (membersOf (merged.lookup "budget_policy")) field).filter
    fun v => !isNone (some v)

/-- What the `before` validators hand to the field, if anything: otherwise it has its
default. -/
def validatedValue (role : ConfigRole) (merged : Members F) (field : ConfigField) :
    Option (Json F) :=
  let data := routeFlatKeys <| match role with
    | .coordinator => coerceStructuredBlocks merged
    | .executor => merged
  match field with
  | .top key => data.lookup key
  | .nested group key => match data.lookup group with
    | some (.obj members) => groupValue group members key
    | _ => none

/-- `_apply_budget_policy_overrides`: what is put in a field's place. -/
def policyOverride (role : ConfigRole) (merged : Members F) (field : ConfigField) :
    Option (Json F) :=
  match role, field with
  | .coordinator, .nested "timeout" key =>
      if key = "time_budget" then
        if isNone (validatedValue role merged field) then policyValue merged "global_time_budget"
        else none
      else (policyOverrides.lookup key).bind (policyValue merged)
  | _, _ => none

/-- The value of a field of `CoordinatorConfig(**merged)` or `AgentConfig(**merged)`. -/
def fieldValue (role : ConfigRole) (merged : Members F) (field : ConfigField) : Option (Json F) :=
  (policyOverride role merged field).or (validatedValue role merged field)

def directiveKeys : List String := ["plugin", "plugin_profile", "coordinator", "executor"]

def splitSection (raw : Members F) (role : ConfigRole) : Members F :=
  let shared := raw.filter (·.1 ∉ directiveKeys)
  match raw.lookup role.name with
  | some (.obj members) => deepMerge shared members
  | _ => shared

def dropNone (ms : Members F) : Members F := ms.filter fun p => !isNone (some p.2)

structure ConfigPlugin (F : Type) where
  configOverrides : Members F
  profiles : List (String × Members F)

structure ConfigSources (F : Type) where
  runtime : Runtime F
  yaml : Members F
  cliOverrides : Members F
  role : ConfigRole
  baseOverrides : Members F
  loadPlugin : String → Option (ConfigPlugin F)

namespace ConfigSources

variable (s : ConfigSources F)

def flag (key : String) : Bool := (s.cliOverrides.lookup key).any s.runtime.isTrue

def directiveRaw : Members F :=
  if s.flag "_plugin_disabled" then erase "plugin_profile" (erase "plugin" s.yaml)
  else
    let merged := deepMerge s.yaml
      (s.cliOverrides.filter fun p => p.1 ∈ directiveKeys ∧ !isNone (some p.2))
    if s.flag "_plugin_profile_cleared" then erase "plugin_profile" merged else merged

def directive (key : String) : Option String :=
  ((s.directiveRaw.lookup key).bind Json.str?).filter (!·.isEmpty)

/-- The layers of the plugin and of its profile, unless one of them is missing. -/
def pluginLayers : Option (List (Members F)) :=
  match s.directive "plugin" with
  | none => some [[], []]
  | some name => (s.loadPlugin name).bind fun plugin =>
      match s.directive "plugin_profile" with
      | none => some [plugin.configOverrides, []]
      | some profile => (plugin.profiles.lookup profile).map fun layer =>
          [plugin.configOverrides, layer]

/-- Plugin, profile, user defaults, YAML and CLI, each over those before it. -/
def layers : Option (List (Members F)) :=
  s.pluginLayers.map (· ++ [dropNone s.baseOverrides, dropNone (splitSection s.yaml s.role),
    s.cliOverrides.filter fun p => !isNone (some p.2) ∧ p.1 ∉ directiveKeys ∧
      !"_plugin_".toList.isPrefixOf p.1.toList])

def resolveConfig : Option (ConfigField → Option (Json F)) :=
  s.layers.map fun layers => fieldValue s.role (mergeAll layers)

end ConfigSources

end DevPilot
