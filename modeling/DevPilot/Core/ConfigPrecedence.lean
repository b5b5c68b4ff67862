import DevPilot.Coordinator.TreeShape
import DevPilot.Core.ConfigLayers

/-!
Which value a field of the configuration is given, by the layers and by the spellings that
set it.
-/

namespace DevPilot

open PyJson Layers

variable {F : Type}

theorem findSome?_congr {α β : Type} {f g : α → Option β} {l : List α} (h : ∀ x ∈ l, f x = g x) :
    l.findSome? f = l.findSome? g := by
  induction l with
  | nil => rfl
  | cons x l ih =>
      rw [List.forall_mem_cons] at h
      rw [List.findSome?_cons, List.findSome?_cons, h.1, ih h.2]

theorem lookup_erase (key k : String) (ms : Members F) :
    (erase key ms).lookup k = if k = key then none else ms.lookup k := by
  induction ms with
  | nil => simp [erase]
  | cons p ms ih =>
      rw [erase] at ih
      rw [erase, List.filter_cons, Members.lookup_cons]
      by_cases hp : p.1 = key
      · rw [if_neg (by simpa using hp), ih, hp]
        split_ifs <;> rfl
      · rw [if_pos (by simpa using hp), Members.lookup_cons, ih]
        by_cases hk : k = p.1
        · rw [if_pos hk, if_neg (hk ▸ hp), if_pos hk]
        · rw [if_neg hk, if_neg hk]

theorem nodup_keys_filter {β : Type} {ms : List (String × β)} (h : (Members.keys ms).Nodup)
    (q : String × β → Bool) : (Members.keys (ms.filter q)).Nodup :=
  h.sublist (List.filter_sublist.map _)

theorem lookup_filter_of_key {q : String → Bool} (ms : Members F) {k : String} (hk : q k = true) :
    (ms.filter fun p => q p.1).lookup k = ms.lookup k := by
  induction ms with
  | nil => rfl
  | cons p ms ih =>
      rw [List.filter_cons, Members.lookup_cons]
      by_cases hp : q p.1 = true
      · rw [if_pos hp, Members.lookup_cons, ih]
      · rw [if_neg hp, ih, if_neg]
        rintro rfl
        exact hp hk

theorem lookup_update (base : Members F) {values : Members F} (h : (Members.keys values).Nodup)
    (k : String) : (update base values).lookup k = (values.lookup k).or (base.lookup k) := by
  induction values generalizing base with
  | nil => rfl
  | cons p values ih =>
      rw [Members.keys, List.map_cons, List.nodup_cons] at h
      change (update (Members.insert p.1 p.2 base) values).lookup k = _
      rw [ih _ h.2, Members.lookup_cons]
      by_cases hk : k = p.1
      · subst hk
        have hnone : values.lookup p.1 = none := by
          refine Option.eq_none_iff_forall_ne_some.mpr fun w hw => h.1 ?_
          exact List.mem_map.mpr ⟨_, Members.mem_of_lookup hw, rfl⟩
        rw [hnone, Option.none_or, Members.lookup_insert_self, if_pos rfl, Option.some_or]
      · rw [Members.lookup_insert_ne hk, if_neg hk]

theorem proxy_of_mem_flatNames {group field key : String} (h : key ∈ flatNames group field) :
    proxy key = some (group, field) := by
  have htable : ∀ e ∈ sharedFlat, proxy e.1 = some e.2 := by decide
  obtain ⟨e, he, rfl⟩ := List.mem_map.mp h
  obtain ⟨he, heq⟩ := List.mem_filter.mp he
  rw [htable e he, of_decide_eq_true heq]

theorem flatNames_of_proxy {group field key : String} (h : proxy key = some (group, field)) :
    flatNames group field = [key] := by
  have htable : ∀ e ∈ sharedFlat, flatNames e.2.1 e.2.2 = [e.1] := by decide
  exact htable _ (Members.mem_of_lookup h)

theorem findSome?_lookup_append {names : List String} {p : String × Json F}
    (h : ∀ key ∈ names, key ≠ p.1) (data : Members F) :
    names.findSome? (fun key => (data ++ [p]).lookup key) =
      names.findSome? fun key => data.lookup key := by
  apply findSome?_congr
  intro key hkey
  rw [List.lookup_append, Members.lookup_cons, if_neg (h key hkey), List.lookup_nil, Option.or_none]

theorem lookup_groupFlat {data : Members F} (h : (Members.keys data).Nodup)
    (group field : String) :
    ((data.foldl groupFlat []).lookup group).bind (·.lookup field) =
      (flatNames group field).findSome? (fun key => data.lookup key) := by
  induction data using List.reverseRecOn with
  | nil => exact (List.findSome?_eq_none_iff.mpr fun _ _ => rfl).symm
  | append_singleton data p ih =>
      rw [Members.keys, List.map_append, List.nodup_append] at h
      have hfresh : data.lookup p.1 = none := by
        refine Option.eq_none_iff_forall_ne_some.mpr fun w hw => ?_
        exact h.2.2 p.1 (List.mem_map.mpr ⟨_, Members.mem_of_lookup hw, rfl⟩) p.1
          (List.mem_singleton_self _) rfl
      rw [List.foldl_append, List.foldl_cons, List.foldl_nil, groupFlat.eq_def]
      by_cases hproxy : proxy p.1 = some (group, field)
      · rw [hproxy, flatNames_of_proxy hproxy]
        simp only [List.findSome?_cons, List.lookup_append, hfresh, Members.lookup_cons, if_true,
          Option.none_or, Members.lookup_insert_self, Option.bind_some]
      · have hnames : ∀ key ∈ flatNames group field, key ≠ p.1 := by
          rintro key hkey rfl
          exact hproxy (proxy_of_mem_flatNames hkey)
        rw [findSome?_lookup_append hnames, ← ih h.1]
        cases hother : proxy p.1 with
        | none => rfl
        | some target =>
            obtain ⟨group', field'⟩ := target
            by_cases hgroup : group = group'
            · subst hgroup
              have hfield : field ≠ field' := by
                rintro rfl
                exact hproxy hother
              simp only [Members.lookup_insert_self, Option.bind_some,
                Members.lookup_insert_ne hfield]
              cases (data.foldl groupFlat []).lookup group <;> rfl
            · simp only [Members.lookup_insert_ne hgroup]

theorem nodup_groupFlat (data : Members F) :
    (Members.keys (data.foldl groupFlat [])).Nodup ∧
      ∀ g ∈ data.foldl groupFlat [], (Members.keys g.2).Nodup ∧ ∃ e ∈ sharedFlat, e.2.1 = g.1 := by
  induction data using List.reverseRecOn with
  | nil => simp [Members.keys]
  | append_singleton data p ih =>
      rw [List.foldl_append, List.foldl_cons, List.foldl_nil, groupFlat.eq_def]
      cases hproxy : proxy p.1 with
      | none => exact ih
      | some target =>
          refine ⟨Members.nodup_keys_insert ih.1, fun g hg => ?_⟩
          rcases Members.eq_or_mem_of_mem_insert hg with rfl | hg
          · refine ⟨Members.nodup_keys_insert ?_, _, Members.mem_of_lookup hproxy, rfl⟩
            cases hold : (data.foldl groupFlat []).lookup target.1 with
            | none => exact List.nodup_nil
            | some old => exact (ih.2 _ (Members.mem_of_lookup hold)).1
          · exact ih.2 g hg

theorem lookup_groups {groups : List (String × Members F)} (h : (Members.keys groups).Nodup)
    (passthrough : Members F) (group : String) :
    (groups.foldl (fun passthrough g => Members.insert g.1
      (.obj (update (membersOf (passthrough.lookup g.1)) g.2)) passthrough) passthrough).lookup group =
    match groups.lookup group with
    | some values => some (.obj (update (membersOf (passthrough.lookup group)) values))
    | none => passthrough.lookup group := by
  induction groups generalizing passthrough with
  | nil => rfl
  | cons g groups ih =>
      rw [Members.keys, List.map_cons, List.nodup_cons] at h
      rw [List.foldl_cons, ih h.2, Members.lookup_cons]
      by_cases hg : group = g.1
      · subst hg
        have hnone : groups.lookup g.1 = none := by
          refine Option.eq_none_iff_forall_ne_some.mpr fun w hw => h.1 ?_
          exact List.mem_map.mpr ⟨_, Members.mem_of_lookup hw, rfl⟩
        rw [if_pos rfl, hnone, Members.lookup_insert_self]
      · rw [if_neg hg, Members.lookup_insert_ne hg]

theorem get_routeFlatKeys {data : Members F} (h : (Members.keys data).Nodup) {group : String}
    (hgroup : proxy group = none) (field : String) :
    (Place.within group field).get (routeFlatKeys data) =
      ((flatNames group field).findSome? fun key => data.lookup key).or
        ((Place.within group field).get data) := by
  obtain ⟨hnodup, hvalues⟩ := nodup_groupFlat data
  have hpass : (data.filter fun p => (proxy p.1).isNone).lookup group = data.lookup group :=
    lookup_filter_of_key (q := fun k => (proxy k).isNone) data (by rw [hgroup]; rfl)
  rw [← lookup_groupFlat h, Place.get, Place.get, routeFlatKeys, lookup_groups hnodup, hpass]
  cases hlookup : (data.foldl groupFlat []).lookup group with
  | none => rfl
  | some values =>
      rw [Option.bind_some]
      simp only
      rw [lookup_update _ (hvalues _ (Members.mem_of_lookup hlookup)).1]
      congr 1
      cases hold : data.lookup group with
      | none => rfl
      | some v => cases v <;> rfl

theorem lookup_routeFlatKeys (data : Members F) {key : String} (hproxy : proxy key = none)
    (hgroup : ∀ e ∈ sharedFlat, e.2.1 ≠ key) :
    (routeFlatKeys data).lookup key = data.lookup key := by
  obtain ⟨hnodup, hvalues⟩ := nodup_groupFlat data
  have hnone : (data.foldl groupFlat []).lookup key = none := by
    refine Option.eq_none_iff_forall_ne_some.mpr fun values hlookup => ?_
    obtain ⟨-, e, he, heq⟩ := hvalues _ (Members.mem_of_lookup hlookup)
    exact hgroup e he heq
  rw [routeFlatKeys, lookup_groups hnodup, hnone]
  exact lookup_filter_of_key (q := fun k => (proxy k).isNone) data (by rw [hproxy]; rfl)

theorem lookup_coerceAlias (out : Members F) {names : String × String} {k : String}
    (hk : k ≠ names.1) : (coerceAlias out names).lookup k =
      if k = names.2 then (out.lookup names.2).or (out.lookup names.1) else out.lookup k := by
  rw [coerceAlias.eq_def]
  split
  · rename_i value hold hnew
    by_cases h : k = names.2
    · rw [h, Members.lookup_insert_self, if_pos rfl, hold, hnew, Option.none_or]
    · rw [Members.lookup_insert_ne h, lookup_erase, if_neg hk, if_neg h]
  · rename_i h
    split_ifs with hnew
    · subst hnew
      cases hold : out.lookup names.1 with
      | none => rw [Option.or_none]
      | some value =>
          cases hnew : out.lookup names.2 with
          | none => exact absurd hnew (h value hold)
          | some w => rfl
    · rfl

theorem nodup_coerceAlias {out : Members F} (h : (Members.keys out).Nodup)
    (names : String × String) : (Members.keys (coerceAlias out names)).Nodup := by
  rw [coerceAlias.eq_def]
  split
  · exact Members.nodup_keys_insert (nodup_keys_filter h _)
  · exact h

theorem nodup_coerceStructuredBlocks {data : Members F} (h : (Members.keys data).Nodup) :
    (Members.keys (coerceStructuredBlocks data)).Nodup :=
  nodup_coerceAlias (nodup_coerceAlias h _) _

def ConfigRole.oldNames (role : ConfigRole) (key : String) : List String :=
  match role with
  | .coordinator => (legacyAliases.filter (·.2 = key)).map (·.1)
  | .executor => []

theorem findSome?_pair (data : Members F) (key other : String) :
    [key, other].findSome? (fun key => data.lookup key) = (data.lookup key).or (data.lookup other) := by
  rw [List.findSome?_cons]
  cases data.lookup key <;> simp

theorem lookup_coerceStructuredBlocks (data : Members F) {k : String}
    (hk : ∀ e ∈ legacyAliases, e.1 ≠ k) : (coerceStructuredBlocks data).lookup k =
      (k :: ConfigRole.oldNames .coordinator k).findSome? (fun key => data.lookup key) := by
  have hdepth : k ≠ "max_depth" := fun h => hk ("max_depth", "max_tree_depth") (by decide) h.symm
  have hold : k ≠ "branch_prefix" :=
    fun h => hk ("branch_prefix", "git_branch_prefix") (by decide) h.symm
  have hstep : ∀ j, j ≠ "max_depth" → (coerceAlias data ("max_depth", "max_tree_depth")).lookup j =
      if j = "max_tree_depth" then (data.lookup "max_tree_depth").or (data.lookup "max_depth")
      else data.lookup j := fun j hj => lookup_coerceAlias data hj
  rw [coerceStructuredBlocks, legacyAliases, List.foldl_cons, List.foldl_cons, List.foldl_nil,
    lookup_coerceAlias _ hold, hstep k hdepth, hstep _ (by decide),
    hstep _ (by decide), ConfigRole.oldNames, legacyAliases]
  by_cases hbranch : k = "git_branch_prefix"
  · subst hbranch
    exact (findSome?_pair data _ _).symm
  · by_cases htree : k = "max_tree_depth"
    · subst htree
      exact (findSome?_pair data _ _).symm
    · simp [hbranch, htree, Ne.symm hbranch, Ne.symm htree]

def groupAliases (group field : String) : List String :=
  if group = "llm" then (llmAliases.filter (·.2 = field)).map (·.1)
  else if group = "budget_policy" then policyAliases field
  else []

theorem lookup_applyFieldAliases (data : Members F) {field : String} (hfield : field ≠ "timeout") :
    (applyFieldAliases data).lookup field =
      (field :: (llmAliases.filter (·.2 = field)).map (·.1)).findSome? (fun key => data.lookup key) := by
  have hpatched : (erase "timeout" data).lookup field = data.lookup field := by
    rw [lookup_erase, if_neg hfield]
  rw [applyFieldAliases, llmAliases, List.foldl_cons, List.foldl_nil, applyFieldAlias]
  by_cases hreal : field = "llm_timeout"
  · subst hreal
    refine Eq.trans ?_ (findSome?_pair data "llm_timeout" "timeout").symm
    cases htimeout : data.lookup "timeout" with
    | none => exact (Option.or_none).symm
    | some value =>
        simp only
        rw [hpatched]
        cases hset : data.lookup "llm_timeout" with
        | none => exact Members.lookup_insert_self _ _ _
        | some v => exact hpatched.trans hset
  · have hnone : [("timeout", "llm_timeout")].filter (fun e => decide (e.2 = field)) = [] := by
      simp [Ne.symm hreal]
    rw [hnone, List.map_nil, List.findSome?_cons, List.findSome?_nil]
    refine Eq.trans ?_ (show data.lookup field = _ by cases data.lookup field <;> rfl)
    cases htimeout : data.lookup "timeout" with
    | none => rfl
    | some value =>
        simp only
        split_ifs
        · exact hpatched
        · rw [Members.lookup_insert_ne hreal]
          exact hpatched

theorem groupValue_eq (group : String) (data : Members F) {field : String}
    (h : group = "llm" → ∀ e ∈ llmAliases, e.1 ≠ field) : groupValue group data field =
      (field :: groupAliases group field).findSome? (fun key => data.lookup key) := by
  rw [groupValue, groupAliases]
  split_ifs with hllm hpolicy
  · exact lookup_applyFieldAliases data fun heq => h hllm ("timeout", "llm_timeout") (by decide) heq.symm
  · rfl
  · simp

def spellings (role : ConfigRole) : ConfigField → List Place
  | .top key => (key :: role.oldNames key).map .flat
  | .nested group field => (flatNames group field).map .flat ++
      (field :: groupAliases group field).map (.within group)

def ConfigField.Proper : ConfigField → Prop
  | .top key => proxy key = none ∧ (∀ e ∈ sharedFlat, e.2.1 ≠ key) ∧ ∀ e ∈ legacyAliases, e.1 ≠ key
  | .nested group field => proxy group = none ∧
      (∀ e ∈ legacyAliases, e.1 ≠ group ∧ e.2 ≠ group) ∧
      (group = "llm" → ∀ e ∈ llmAliases, e.1 ≠ field)

theorem oldNames_eq_nil {key : String} (h : ∀ e ∈ legacyAliases, e.2 ≠ key) (role : ConfigRole) :
    role.oldNames key = [] := by
  cases role with
  | executor => rfl
  | coordinator =>
      rw [ConfigRole.oldNames, List.filter_eq_nil_iff.mpr, List.map_nil]
      exact fun e he heq => h e he (of_decide_eq_true heq)

theorem flatNames_groupAliases {group field other : String}
    (h : other ∈ groupAliases group field) : flatNames group other = [] := by
  have hpolicy : ∀ e ∈ sharedFlat, e.2.1 ≠ "budget_policy" := by decide
  have htimeout : flatNames "llm" "timeout" = [] := by decide
  rw [groupAliases] at h
  split_ifs at h with hllm hgroup
  · obtain ⟨e, he, rfl⟩ := List.mem_map.mp h
    obtain rfl := List.mem_singleton.mp (List.mem_filter.mp he).1
    rw [hllm, htimeout]
  · rw [hgroup, flatNames, List.filter_eq_nil_iff.mpr, List.map_nil]
    intro e he heq
    exact hpolicy e he (congrArg Prod.fst (of_decide_eq_true heq))
  · exact absurd h List.not_mem_nil

theorem groupValue_routed (data : Members F) (group : String) {field : String}
    (h : group = "llm" → ∀ e ∈ llmAliases, e.1 ≠ field) :
    (match data.lookup group with
      | some (.obj members) => groupValue group members field
      | _ => none) =
    (field :: groupAliases group field).findSome? fun key => (Place.within group key).get data := by
  simp only [Place.get]
  cases hlookup : data.lookup group with
  | none => exact (List.findSome?_eq_none_iff.mpr fun _ _ => rfl).symm
  | some v =>
      cases v with
      | obj members => exact groupValue_eq group members h
      | _ => exact (List.findSome?_eq_none_iff.mpr fun _ _ => rfl).symm

theorem findSome?_routeFlatKeys {data : Members F} (h : (Members.keys data).Nodup)
    {group : String} (hgroup : proxy group = none) (field : String) :
    ((field :: groupAliases group field).findSome? fun key =>
      (Place.within group key).get (routeFlatKeys data)) =
    ((flatNames group field).findSome? fun key => data.lookup key).or
      ((field :: groupAliases group field).findSome? fun key => (Place.within group key).get data) := by
  have hothers : ((groupAliases group field).findSome? fun key =>
        (Place.within group key).get (routeFlatKeys data)) =
      (groupAliases group field).findSome? fun key => (Place.within group key).get data := by
    apply findSome?_congr
    intro other hother
    rw [get_routeFlatKeys h hgroup, flatNames_groupAliases hother, List.findSome?_nil, Option.none_or]
  rw [List.findSome?_cons, List.findSome?_cons, hothers, get_routeFlatKeys h hgroup]
  cases (flatNames group field).findSome? fun key => data.lookup key <;>
    cases (Place.within group field).get data <;> rfl

theorem not_legacy_of_mem_flatNames {group field key : String} (h : key ∈ flatNames group field) :
    ∀ e ∈ legacyAliases, e.1 ≠ key ∧ e.2 ≠ key := by
  have htable : ∀ e ∈ legacyAliases, proxy e.1 = none ∧ proxy e.2 = none := by decide
  have hproxy := proxy_of_mem_flatNames h
  intro e he
  constructor
  · rintro rfl
    rw [(htable e he).1] at hproxy
    cases hproxy
  · rintro rfl
    rw [(htable e he).2] at hproxy
    cases hproxy

theorem lookup_coerced_other (data : Members F) {k : String}
    (hk : ∀ e ∈ legacyAliases, e.1 ≠ k ∧ e.2 ≠ k) :
    (coerceStructuredBlocks data).lookup k = data.lookup k := by
  rw [lookup_coerceStructuredBlocks data fun e he => (hk e he).1,
    oldNames_eq_nil fun e he => (hk e he).2, List.findSome?_cons, List.findSome?_nil]
  cases data.lookup k <;> rfl

theorem validatedValue_eq (role : ConfigRole) {merged : Members F}
    (h : (Members.keys merged).Nodup) {field : ConfigField} (hproper : field.Proper) :
    validatedValue role merged field = (spellings role field).findSome? (·.get merged) := by
  cases field with
  | top key =>
      obtain ⟨hproxy, hgroup, hlegacy⟩ := hproper
      rw [spellings, List.findSome?_map]
      refine (lookup_routeFlatKeys _ hproxy hgroup).trans ?_
      cases role with
      | coordinator => exact lookup_coerceStructuredBlocks merged hlegacy
      | executor =>
          rw [ConfigRole.oldNames, List.findSome?_cons, List.findSome?_nil]
          simp only [Function.comp_apply, Place.get]
          cases merged.lookup key <;> rfl
  | nested group field =>
      obtain ⟨hproxy, hlegacy, hllm⟩ := hproper
      rw [spellings, List.findSome?_append, List.findSome?_map, List.findSome?_map]
      refine (groupValue_routed _ group hllm).trans ?_
      cases role with
      | executor => exact findSome?_routeFlatKeys h hproxy field
      | coordinator =>
          refine (findSome?_routeFlatKeys (nodup_coerceStructuredBlocks h) hproxy field).trans ?_
          congr 1
          · apply findSome?_congr
            intro key hkey
            exact lookup_coerced_other merged (not_legacy_of_mem_flatNames hkey)
          · apply findSome?_congr
            intro key _
            simp only [Function.comp_apply, Place.get]
            rw [lookup_coerced_other merged hlegacy]

/-- The value that the highest layer gives the field that sets it at all. -/
def highestValue (role : ConfigRole) (layers : List (Members F)) (field : ConfigField) :
    Option (Json F) :=
  layers.reverse.findSome? fun layer => (spellings role field).findSome? (·.get layer)

/-- The highest layer that sets the field sets it at the strongest place that any layer
uses, unless the last value at that place is the same. -/
def Unshadowed (role : ConfigRole) (layers : List (Members F)) (field : ConfigField) : Prop :=
  ∀ place ∈ firstRow Place.get (spellings role field) layers.reverse,
    ∀ layer ∈ firstColumn Place.get (spellings role field) layers.reverse,
      (place.get layer).isSome = true ∨
        layers.reverse.findSome? place.get = (spellings role field).findSome? (·.get layer)

/-- A layer of dictionaries in which the field's groups are mappings and its value is none. -/
def FitsField (role : ConfigRole) (field : ConfigField) (layer : Members F) : Prop :=
  (Members.keys layer).Nodup ∧ ∀ place ∈ spellings role field, place.Fits layer

theorem validatedValue_mergeAll {role : ConfigRole} {layers : List (Members F)}
    {field : ConfigField} (hproper : field.Proper) (hfits : ∀ l ∈ layers, FitsField role field l) :
    validatedValue role (mergeAll layers) field =
      (spellings role field).findSome? fun place => layers.reverse.findSome? place.get := by
  rw [validatedValue_eq role (nodup_keys_mergeAll layers) hproper]
  apply findSome?_congr
  intro place hplace
  exact get_mergeAll fun l hl => ⟨(hfits l hl).1, (hfits l hl).2 place hplace⟩

/-- A field is given the value of the highest layer that sets it in any spelling if and only
if no lower layer sets it in a stronger spelling, up to a budget policy that puts another
value in its place. -/
theorem resolveConfig_highest_iff (s : ConfigSources F) {layers : List (Members F)}
    (hlayers : s.layers = some layers) {field : ConfigField} (hproper : field.Proper)
    (hfits : ∀ l ∈ layers, FitsField s.role field l) :
    s.resolveConfig.map (· field) = some (highestValue s.role layers field) ↔
      match policyOverride s.role (mergeAll layers) field with
      | some value => highestValue s.role layers field = some value
      | none => Unshadowed s.role layers field := by
  rw [ConfigSources.resolveConfig, hlayers, Option.map_some, Option.map_some, Option.some.injEq,
    fieldValue]
  cases hoverride : policyOverride s.role (mergeAll layers) field with
  | some value => exact eq_comm
  | none =>
      rw [Option.none_or, validatedValue_mergeAll hproper hfits]
      exact search_comm_iff

def pluginAndYaml (yaml : Members FloatText) : ConfigSources FloatText where
  runtime := literalRuntime
  yaml := ("plugin", .str "demo") :: yaml
  cliOverrides := []
  role := .coordinator
  baseOverrides := []
  loadPlugin _ := some ⟨[("model", .str "plugin-model")], []⟩

def modelField : ConfigField := .nested "llm" "model"

theorem proper_modelField : modelField.Proper :=
  ⟨by decide, by decide, fun _ => by decide⟩

theorem spellings_modelField :
    spellings .coordinator modelField = [.flat "model", .within "llm" "model"] := by
  decide

theorem fits_single {key : String} {value : Json FloatText}
    (hflat : key = "model" → value.isObj = false)
    (hgroup : key = "llm" → value = .obj [("model", .str "yaml-model")]) :
    FitsField .coordinator modelField [(key, value)] := by
  refine ⟨List.nodup_singleton _, fun place hplace => ?_⟩
  rw [spellings_modelField] at hplace
  rcases List.mem_pair.mp hplace with rfl | rfl
  · intro v hv
    obtain ⟨rfl, rfl⟩ := Prod.ext_iff.mp (List.mem_singleton.mp (Members.mem_of_lookup hv))
    exact hflat rfl
  · intro v hv
    obtain ⟨rfl, rfl⟩ := Prod.ext_iff.mp (List.mem_singleton.mp (Members.mem_of_lookup hv))
    refine ⟨_, hgroup rfl, List.nodup_singleton _, fun w hw => ?_⟩
    obtain ⟨-, rfl⟩ := Prod.ext_iff.mp (List.mem_singleton.mp (Members.mem_of_lookup hw))
    rfl

theorem fits_nil : FitsField .coordinator modelField ([] : Members FloatText) := by
  refine ⟨List.nodup_nil, fun place _ => ?_⟩
  cases place <;> intro v hv <;> cases hv

theorem fits_plugin : FitsField .coordinator modelField
    ([("model", .str "plugin-model")] : Members FloatText) :=
  fits_single (fun _ => rfl) (fun h => absurd h (by decide))

def flatLayers : List (Members FloatText) :=
  [[("model", .str "plugin-model")], [], [], [("model", .str "yaml-model")], []]

theorem resolveConfig_flat :
    (pluginAndYaml [("model", .str "yaml-model")]).resolveConfig.map (· modelField) =
      some (highestValue .coordinator flatLayers modelField) := by
  refine (resolveConfig_highest_iff (pluginAndYaml [("model", .str "yaml-model")])
    (show _ = some flatLayers from rfl) proper_modelField ?_).mpr ?_
  · intro l hl
    rw [flatLayers] at hl
    simp only [List.mem_cons, List.not_mem_nil, or_false] at hl
    rcases hl with rfl | rfl | rfl | rfl | rfl
    · exact fits_plugin
    · exact fits_nil
    · exact fits_nil
    · exact fits_single (fun _ => rfl) (fun h => absurd h (by decide))
    · exact fits_nil
  · have hrow : firstRow Place.get (spellings .coordinator modelField) flatLayers.reverse =
        some (.flat "model") := by decide
    have hcolumn : (firstColumn Place.get (spellings .coordinator modelField) flatLayers.reverse).all
        (fun layer => ((Place.flat "model").get layer).isSome) = true := by decide
    intro place hplace layer hlayer
    obtain rfl := Option.some.inj (hrow.symm.trans hplace)
    have hlayer : firstColumn Place.get (spellings .coordinator modelField) flatLayers.reverse =
      some layer := hlayer
    rw [hlayer] at hcolumn
    exact .inl hcolumn

def nestedLayers : List (Members FloatText) :=
  [[("model", .str "plugin-model")], [], [], [("llm", .obj [("model", .str "yaml-model")])], []]

theorem resolveConfig_shadowed : ¬ ∀ (s : ConfigSources FloatText) (layers : List (Members FloatText)),
    s.layers = some layers → ∀ field : ConfigField, field.Proper →
    (∀ l ∈ layers, FitsField s.role field l) →
      s.resolveConfig.map (· field) = some (highestValue s.role layers field) := by
  intro h
  have hbad := h (pluginAndYaml [("llm", .obj [("model", .str "yaml-model")])]) nestedLayers rfl
    modelField proper_modelField (by
      intro l hl
      rw [nestedLayers] at hl
      simp only [List.mem_cons, List.not_mem_nil, or_false] at hl
      rcases hl with rfl | rfl | rfl | rfl | rfl
      · exact fits_plugin
      · exact fits_nil
      · exact fits_nil
      · exact fits_single (fun h => absurd h (by decide)) (fun _ => rfl)
      · exact fits_nil)
  have htext := congrArg (Option.map fun v => Option.bind v Json.str?) hbad
  revert htext
  decide

end DevPilot
