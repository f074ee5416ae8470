/-
# Resource attributes

The resource attributes of the OTLP push are put together from the service name, seven environment
variables, the configured list and the OpenTelemetry list of the environment.  Every key some
source gives is there (`ResourceAttrs.mem_keys_of_given`), but nothing keeps a key from being
there twice: `ResourceAttrs.distinct_iff` says for which sources it is not.
-/
import L4Scope.Trimmed
import Mathlib.Data.List.Nodup

/-! ## The assembly -/

/-- What the process environment holds; `none` for a variable that is not set. -/
abbrev Environment := String → Option String

/-- Well-known variables and the attributes they map to. -/
def envMap : List (String × String) :=
  [("HOSTNAME", "host.name"),
    ("K8S_NODE_NAME", "k8s.node.name"),
    ("NODE_NAME", "k8s.node.name"),
    ("K8S_CLUSTER_NAME", "k8s.cluster.name"),
    ("CLOUD_PROVIDER", "cloud.provider"),
    ("CLOUD_REGION", "cloud.region"),
    ("CLOUD_ACCOUNT_ID", "cloud.account.id")]

/-- The loop over `envMap`. -/
def pushEnv (env : Environment) (v : List (String × String)) : List (String × String) :=
  envMap.foldl (fun v e =>
    match env e.1 with
    | some val => if val = "" then v else v ++ [(e.2, val)]
    | none => v) v

/-- Push the attributes of a `k=v,k=v` list. -/
def pushKvList (v : List (String × String)) (s : List Char) : List (String × String) :=
  (s.splitOn ',').foldl (fun v kv =>
    match splitOnce '=' kv with
    | some (k, val) =>
        if trim k = [] then v else v ++ [(String.ofList (trim k), String.ofList (trim val))]
    | none => v) v

/-- Assemble the resource attributes from configuration and environment. -/
def buildResourceAttrs (env : Environment) (cfg : OtlpConfig) : List (String × String) :=
  let v := pushEnv env [("service.name", cfg.serviceName)]
  let v := pushKvList v cfg.resourceAttributes.toList
  match env "OTEL_RESOURCE_ATTRIBUTES" with
  | some s => pushKvList v s.toList
  | none => v

/-! ## The sources -/

/-- The variable is set, and not to the empty text. -/
def Environment.Sets (env : Environment) (name : String) : Prop := (env name).getD "" ≠ ""

instance (env : Environment) (name : String) : Decidable (env.Sets name) := by
  unfold Environment.Sets
  infer_instance

/-- The OpenTelemetry list of the environment, empty if there is none. -/
def Environment.otelList (env : Environment) : List Char :=
  ((env "OTEL_RESOURCE_ATTRIBUTES").getD "").toList

namespace ResourceAttrs

/-- The item of a list gives the key. -/
def GivesKey (kv : List Char) (k : String) : Prop :=
  ∃ a b, kv = a ++ '=' :: b ∧ '=' ∉ a ∧ k = String.ofList (trim a)

/-- A source gives the key. -/
inductive Given (env : Environment) (cfg : OtlpConfig) : String → Prop where
  | service : Given env cfg "service.name"
  | mapped {name k : String} (hmap : (name, k) ∈ envMap) (hset : env.Sets name) : Given env cfg k
  | configured {kv : List Char} {k : String} (hkv : kv ∈ cfg.resourceAttributes.toList.splitOn ',')
      (hk : GivesKey kv k) : Given env cfg k
  | otel {kv : List Char} {k : String} (hkv : kv ∈ env.otelList.splitOn ',')
      (hk : GivesKey kv k) : Given env cfg k

/-- The key of an item, if it is not empty. -/
def itemKey (kv : List Char) : Option String :=
  (splitOnce '=' kv).bind fun sides =>
    if trim sides.1 = [] then none else some (String.ofList (trim sides.1))

/-- The keys of a list, in order. -/
def listKeys (s : List Char) : List String := (s.splitOn ',').filterMap itemKey

/-- The key that an item gives. -/
theorem itemKey_eq_some_iff {kv : List Char} {k : String} :
    itemKey kv = some k ↔ GivesKey kv k ∧ k ≠ "" := by
  simp only [itemKey, Option.bind_eq_some_iff, GivesKey, Prod.exists, splitOnce_eq_some_iff]
  constructor
  · rintro ⟨a, b, ⟨hkv, ha⟩, h⟩
    split_ifs at h with hnil
    cases h
    refine ⟨⟨a, b, hkv, ha, rfl⟩, fun hempty => hnil ?_⟩
    simpa using congrArg String.toList hempty
  · rintro ⟨⟨a, b, hkv, ha, rfl⟩, hne⟩
    refine ⟨a, b, ⟨hkv, ha⟩, if_neg fun hnil => hne ?_⟩
    rw [hnil]

/-! ## The keys -/

/-- The keys of attributes. -/
def keys (attrs : List (String × String)) : List String := attrs.map Prod.fst

/-- The keys of the variables that are set. -/
def mappedKeys (env : Environment) : List String :=
  (envMap.filter fun e => env.Sets e.1).map Prod.snd

/-- A loop that pushes at most one attribute for each item. -/
theorem keys_foldl {α : Type} {push : List (String × String) → α → List (String × String)}
    {key : α → Option String} (hpush : ∀ v x, keys (push v x) = keys v ++ (key x).toList)
    (v : List (String × String)) (xs : List α) :
    keys (xs.foldl push v) = keys v ++ xs.filterMap key := by
  induction xs generalizing v with
  | nil => exact (List.append_nil _).symm
  | cons x xs ih =>
      rw [List.foldl_cons, ih, hpush, List.append_assoc]
      cases hkey : key x with
      | none => rw [List.filterMap_cons_none hkey, Option.toList_none, List.nil_append]
      | some k => rw [List.filterMap_cons_some hkey, Option.toList_some, List.singleton_append]

/-- The keys of a list come last. -/
theorem keys_pushKvList (v : List (String × String)) (s : List Char) :
    keys (pushKvList v s) = keys v ++ listKeys s := by
  refine keys_foldl (fun v kv => ?_) v _
  rw [itemKey]
  cases splitOnce '=' kv with
  | none => exact (List.append_nil _).symm
  | some sides =>
      simp only [Option.bind_some]
      split_ifs
      · exact (List.append_nil _).symm
      · rw [keys, List.map_append]
        rfl

/-- So do those of the environment. -/
theorem keys_pushEnv (env : Environment) (v : List (String × String)) :
    keys (pushEnv env v) = keys v ++ mappedKeys env := by
  have hmapped : mappedKeys env
      = envMap.filterMap fun e => if env.Sets e.1 then some e.2 else none := by
    rw [mappedKeys, ← List.filterMap_eq_map, List.filterMap_filter]
    simp
  rw [hmapped]
  refine keys_foldl (fun v e => ?_) v _
  cases henv : env e.1 with
  | none => simp [Environment.Sets, henv]
  | some val =>
      by_cases hval : val = ""
      · simp [Environment.Sets, henv, hval]
      · simp [Environment.Sets, henv, hval, keys]

/-- **The keys of the assembly** are those of its sources, one after the other. -/
theorem keys_buildResourceAttrs (env : Environment) (cfg : OtlpConfig) :
    keys (buildResourceAttrs env cfg) = "service.name" ::
      (mappedKeys env ++ (listKeys cfg.resourceAttributes.toList ++ listKeys env.otelList)) := by
  have hhead : keys (pushKvList (pushEnv env [("service.name", cfg.serviceName)])
      cfg.resourceAttributes.toList)
        = "service.name" :: (mappedKeys env ++ listKeys cfg.resourceAttributes.toList) := by
    rw [keys_pushKvList, keys_pushEnv]
    rfl
  rw [buildResourceAttrs, Environment.otelList]
  cases env "OTEL_RESOURCE_ATTRIBUTES" with
  | none =>
      show keys (pushKvList _ _) = _
      rw [hhead]
      exact congrArg (fun l => "service.name" :: (mappedKeys env ++ l)) (List.append_nil _).symm
  | some s =>
      show keys (pushKvList (pushKvList _ _) s.toList) = _
      rw [keys_pushKvList, hhead, List.cons_append, List.append_assoc]
      rfl

/-- Every key a source gives is there. -/
theorem mem_keys_of_given {env : Environment} {cfg : OtlpConfig} {k : String}
    (h : Given env cfg k) (hne : k ≠ "") : k ∈ keys (buildResourceAttrs env cfg) := by
  rw [keys_buildResourceAttrs]
  simp only [List.mem_cons, List.mem_append]
  cases h with
  | service => exact Or.inl rfl
  | mapped hmap hset =>
      refine Or.inr (Or.inl (List.mem_map.2 ⟨_, List.mem_filter.2 ⟨hmap, ?_⟩, rfl⟩))
      exact decide_eq_true hset
  | configured hkv hk =>
      exact Or.inr (Or.inr (Or.inl (List.mem_filterMap.2
        ⟨_, hkv, itemKey_eq_some_iff.2 ⟨hk, hne⟩⟩)))
  | otel hkv hk =>
      exact Or.inr (Or.inr (Or.inr (List.mem_filterMap.2
        ⟨_, hkv, itemKey_eq_some_iff.2 ⟨hk, hne⟩⟩)))

/-! ## When no key is there twice -/

/-- No two sources give the same key, and neither list gives one twice. -/
structure OneSourceEach (env : Environment) (cfg : OtlpConfig) : Prop where
  /-- The two variables for the node name are not both set. -/
  nodeName : ¬ (env.Sets "K8S_NODE_NAME" ∧ env.Sets "NODE_NAME")
  configured : (listKeys cfg.resourceAttributes.toList).Nodup
  otel : (listKeys env.otelList).Nodup
  disjoint : ∀ k ∈ listKeys cfg.resourceAttributes.toList, k ∉ listKeys env.otelList
  /-- The lists do not give the keys of the service name and of the variables that are set. -/
  reserved : ∀ k ∈ listKeys cfg.resourceAttributes.toList ++ listKeys env.otelList,
    k ≠ "service.name" ∧ ∀ e ∈ envMap, env.Sets e.1 → k ≠ e.2

/-- The only attribute with two variables is the node name. -/
theorem nodup_mappedKeys_iff (env : Environment) :
    (mappedKeys env).Nodup ↔ ¬ (env.Sets "K8S_NODE_NAME" ∧ env.Sets "NODE_NAME") := by
  -- the map is a closed list: which of its entries share a key is decided
  have hpairs : ∀ e ∈ envMap, ∀ e' ∈ envMap, e.2 = e'.2 →
      e = e' ∨ (e.1 = "K8S_NODE_NAME" ∧ e'.1 = "NODE_NAME") ∨
        (e.1 = "NODE_NAME" ∧ e'.1 = "K8S_NODE_NAME") := by decide
  have hnodup : (envMap.filter fun e => env.Sets e.1).Nodup := List.Nodup.filter _ (by decide)
  rw [mappedKeys, List.nodup_map_iff_inj_on hnodup]
  simp only [List.mem_filter, decide_eq_true_eq]
  constructor
  · rintro hinj ⟨hk8s, hnode⟩
    have heq := hinj ("K8S_NODE_NAME", "k8s.node.name") ⟨by decide, hk8s⟩
      ("NODE_NAME", "k8s.node.name") ⟨by decide, hnode⟩ rfl
    exact absurd heq (by decide)
  · rintro hboth e ⟨he, hset⟩ e' ⟨he', hset'⟩ hkey
    rcases hpairs e he e' he' hkey with heq | ⟨h, h'⟩ | ⟨h, h'⟩
    · exact heq
    · exact absurd ⟨h ▸ hset, h' ▸ hset'⟩ hboth
    · exact absurd ⟨h' ▸ hset', h ▸ hset⟩ hboth

/-- No key of a variable that is set, and not the service name. -/
theorem reserved_iff (env : Environment) (l : List String) :
    (∀ k ∈ l, k ≠ "service.name" ∧ ∀ e ∈ envMap, env.Sets e.1 → k ≠ e.2) ↔
      "service.name" ∉ l ∧ ∀ k ∈ mappedKeys env, k ∉ l := by
  simp only [mappedKeys, List.mem_map, List.mem_filter, decide_eq_true_eq]
  constructor
  · intro h
    refine ⟨fun hmem => (h _ hmem).1 rfl, ?_⟩
    rintro k ⟨e, ⟨he, hset⟩, rfl⟩ hmem
    exact (h _ hmem).2 e he hset rfl
  · rintro ⟨hservice, hmapped⟩ k hk
    refine ⟨fun heq => hservice (heq ▸ hk), ?_⟩
    rintro e he hset rfl
    exact hmapped _ ⟨e, ⟨he, hset⟩, rfl⟩ hk

/-- No variable gives the service name. -/
theorem service_notMem_mappedKeys (env : Environment) : "service.name" ∉ mappedKeys env := by
  have hmap : ∀ e ∈ envMap, e.2 ≠ "service.name" := by decide
  intro hmem
  obtain ⟨e, he, hkey⟩ := List.mem_map.1 hmem
  exact hmap e (List.mem_filter.1 he).1 hkey

/-- **No key twice**, and every key of a source there, exactly if no two sources give the same
key. -/
theorem distinct_iff (env : Environment) (cfg : OtlpConfig) :
    ((keys (buildResourceAttrs env cfg)).Nodup ∧
      ∀ k, Given env cfg k → k ≠ "" → k ∈ keys (buildResourceAttrs env cfg)) ↔
      OneSourceEach env cfg := by
  have hall : ∀ k, Given env cfg k → k ≠ "" → k ∈ keys (buildResourceAttrs env cfg) :=
    fun k h hne => mem_keys_of_given h hne
  rw [and_iff_left hall, keys_buildResourceAttrs, List.nodup_cons, List.nodup_append',
    List.nodup_append', nodup_mappedKeys_iff, List.mem_append,
    or_iff_right (service_notMem_mappedKeys env)]
  constructor
  · rintro ⟨hservice, hnode, ⟨hconfigured, hotel, hdisjoint⟩, hmapped⟩
    exact ⟨hnode, hconfigured, hotel, hdisjoint,
      (reserved_iff env _).2 ⟨hservice, fun k hk hmem => hmapped hk hmem⟩⟩
  · intro h
    obtain ⟨hservice, hmapped⟩ := (reserved_iff env _).1 h.reserved
    exact ⟨hservice, h.nodeName, ⟨h.configured, h.otel, fun k hk => h.disjoint k hk⟩,
      fun k hk => hmapped k hk⟩

namespace Sample

/-- Both variables for the node name, as a manifest that follows either convention sets them. -/
def bothNodeNames : Environment := fun name =>
  if name = "K8S_NODE_NAME" ∨ name = "NODE_NAME" then some "node-1" else none

end Sample

/-- Two variables for the node give its key twice. -/
theorem bothNodeNames_duplicate :
    ¬ ((keys (buildResourceAttrs Sample.bothNodeNames (Config.default ℚ).otlp)).Nodup ∧
      ∀ k, Given Sample.bothNodeNames (Config.default ℚ).otlp k → k ≠ "" →
        k ∈ keys (buildResourceAttrs Sample.bothNodeNames (Config.default ℚ).otlp)) := by
  rintro ⟨hnodup, -⟩
  rw [keys_buildResourceAttrs, List.nodup_cons, List.nodup_append'] at hnodup
  exact (nodup_mappedKeys_iff Sample.bothNodeNames).1 hnodup.2.1 ⟨by decide, by decide⟩

end ResourceAttrs
