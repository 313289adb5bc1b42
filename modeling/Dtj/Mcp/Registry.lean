import Dtj.Mcp.Search

/-!
# The event schema registry

`dtg_schema.py`, up to the validation of a candidate.  A registry is a JSON document that declares
event schemas; the parser refuses two schemas of one identity and two fields of one name.

* `_parse_registry_document`, `_parse_event_schema`, `_parse_field`   the parser;
* `LoadedRegistry.resolve`, `EventSchema.field_map`                  what a candidate is checked by;
* `registry_wellFormed`    **every registry that the parser accepts is well formed**;
* `resolve_iff`            in one, an event resolves to the schema that declares it;
* `lookup_field_map`       and a name to the field that declares it.
-/

namespace Dtj.Mcp

open Posix

/-- what the loader raises: its own error, or an exception that it lets through -/
inductive Raised where
  | DtgSchemaError (code message : Str)
  | exc (e : Exc)
deriving DecidableEq

/-! ## names -/

inductive ValueType where
  | Bool | I32 | I64 | U32 | U64 | F32 | F64 | Enum | Vec2F32 | Vec3F32 | InternedString | Bytes
deriving DecidableEq, Repr

inductive Sensitivity where
  | «public» | internal | sensitive | secret_forbidden
deriving DecidableEq, Repr

inductive RedactionAction where
  | allow | drop_field | reject
deriving DecidableEq, Repr

inductive GraphRole where
  | none | event_reference | span_reference
deriving DecidableEq, Repr

inductive Policy where
  | strict | relaxed
deriving DecidableEq, Repr

def ValueType.name : ValueType → Str
  | Bool => "Bool"
  | I32 => "I32"
  | I64 => "I64"
  | U32 => "U32"
  | U64 => "U64"
  | F32 => "F32"
  | F64 => "F64"
  | Enum => "Enum"
  | Vec2F32 => "Vec2F32"
  | Vec3F32 => "Vec3F32"
  | InternedString => "InternedString"
  | Bytes => "Bytes"

def DTJ_VALUE_TYPES : List ValueType :=
  [.Bool, .I32, .I64, .U32, .U64, .F32, .F64, .Enum, .Vec2F32, .Vec3F32, .InternedString, .Bytes]

def Sensitivity.name : Sensitivity → Str
  | «public» => "public"
  | internal => "internal"
  | sensitive => "sensitive"
  | secret_forbidden => "secret_forbidden"

def SENSITIVITIES : List Sensitivity := [.«public», .internal, .sensitive, .secret_forbidden]

def RedactionAction.name : RedactionAction → Str
  | allow => "allow"
  | drop_field => "drop_field"
  | reject => "reject"

def REDACTION_ACTIONS : List RedactionAction := [.allow, .drop_field, .reject]

def GraphRole.name : GraphRole → Str
  | none => "none"
  | event_reference => "event_reference"
  | span_reference => "span_reference"

def GRAPH_ROLES : List GraphRole := [.none, .event_reference, .span_reference]

/-- `graph_role in {"event_reference", "span_reference"}` -/
def GraphRole.isReference : GraphRole → Bool
  | none => false
  | event_reference => true
  | span_reference => true

def Policy.name : Policy → Str
  | strict => "strict"
  | relaxed => "relaxed"

def POLICIES : List Policy := [.strict, .relaxed]

/-! ## schemas -/

structure FieldDecl where
  name : Str
  value_type : ValueType
  required : Bool
  sensitivity : Sensitivity
  unit : Option Str
  dimension : Option Str
  semantic_role : Option Str
  metric_eligible : Bool
  graph_role : GraphRole
  redaction_action : RedactionAction
deriving DecidableEq

structure EventSchema where
  schema_id : Str
  schema_version : Int
  producer_profile_id : Str
  compatibility_policy : Policy
  domain : Str
  category : Str
  event_name : Str
  fields : List FieldDecl
deriving DecidableEq

/-- what the parser tells two schemas apart by, and a candidate names its schema by -/
structure SchemaKey where
  producer_profile_id : Str
  domain : Str
  category : Str
  event_name : Str
  schema_version : Int
deriving DecidableEq

def EventSchema.key (s : EventSchema) : SchemaKey where
  producer_profile_id := s.producer_profile_id
  domain := s.domain
  category := s.category
  event_name := s.event_name
  schema_version := s.schema_version

/-- `{f.name: f for f in self.fields}` -/
def EventSchema.field_map (s : EventSchema) : List (Str × FieldDecl) :=
  s.fields.foldl (fun d f => assign f.name f d) []

structure LoadedRegistry where
  path : Str
  digest_sha256 : Str
  registry_version : Int
  schemas : List EventSchema

def LoadedRegistry.resolve (r : LoadedRegistry) (key : SchemaKey) : Option EventSchema :=
  r.schemas.find? fun schema =>
    schema.producer_profile_id = key.producer_profile_id ∧
    schema.domain = key.domain ∧
    schema.category = key.category ∧
    schema.event_name = key.event_name ∧
    schema.schema_version = key.schema_version

/-! ## the parser -/

def invalid (message : Str) : Raised := .DtgSchemaError "InvalidSchemaDeclaration" message

/-- `if condition: raise` -/
def refuse (condition : Bool) (message : Str) : Except Raised Unit :=
  if condition then .error (invalid message) else .ok ()

/-- the member of a table that a text names -/
def named {α : Type} (name : α → Str) (table : List α) (message text : Str) : Except Raised α :=
  match table.find? fun a => decide (name a = text) with
  | some a => .ok a
  | none => .error (invalid message)

/-- `d[key]` in a `try` whose handler raises `missing` -/
def item (missing : Raised) (d : Dict) (key : Str) : Except Raised Py :=
  match d.lookup key with
  | some value => .ok value
  | none => .error missing

/-- `if not isinstance(value, list): raise` -/
def array (message : Str) : Py → Except Raised (List Py)
  | .list xs => .ok xs
  | _ => .error (invalid message)

/-- the text of an optional key; `None` is none -/
def optionalText (python : Python) (raw : Dict) (key : Str) : Option Str :=
  let value := get raw key
  if value.isNone then none else some (python.str value)

def _default_redaction_action : Sensitivity → RedactionAction
  | .secret_forbidden => .reject
  | .sensitive => .drop_field
  | _ => .allow

/-- the semantic role of a field: that of a reference is its graph role -/
def graphRole (graph_role : GraphRole) (semantic_role : Option Str) : Except Raised (Option Str) :=
  if graph_role.isReference then
    match semantic_role with
    | none => .ok (some graph_role.name)
    | some role => do
      refuse (role ≠ graph_role.name) "graph_role reference requires matching semantic_role"
      return some role
  else .ok semantic_role

def redactionAction (sensitivity : Sensitivity) : Option Str → Except Raised RedactionAction
  | some text => named RedactionAction.name REDACTION_ACTIONS "invalid redaction_action" text
  | none => .ok (_default_redaction_action sensitivity)

section
variable (python : Python)

def _parse_field : Py → Except Raised FieldDecl
  | .dict raw => do
    let missing := invalid "field missing required keys"
    let name := python.str (← item missing raw "name")
    let value_type := python.str (← item missing raw "value_type")
    let required := (← item missing raw "required").truthy
    let sensitivity := python.str (← item missing raw "sensitivity")
    let value_type ← named ValueType.name DTJ_VALUE_TYPES "unknown DTJ value_type" value_type
    let sensitivity ← named Sensitivity.name SENSITIVITIES "invalid sensitivity" sensitivity
    let metric_eligible := (getD raw "metric_eligible" (.bool false)).truthy
    let semantic_role := optionalText python raw "semantic_role"
    let graph_role ← named GraphRole.name GRAPH_ROLES "invalid graph_role"
      (python.str (getD raw "graph_role" (.str "none")))
    refuse (metric_eligible && semantic_role ≠ some (lit "metric"))
      "metric_eligible requires semantic_role=metric"
    let semantic_role ← graphRole graph_role semantic_role
    let redaction_action ← redactionAction sensitivity (optionalText python raw "redaction_action")
    refuse (redaction_action = .drop_field && required)
      "required field cannot use redaction_action=drop_field"
    refuse (sensitivity = .secret_forbidden && redaction_action ≠ .reject)
      "secret_forbidden requires redaction_action=reject"
    return {
      name := name
      value_type := value_type
      required := required
      sensitivity := sensitivity
      unit := optionalText python raw "unit"
      dimension := optionalText python raw "dimension"
      semantic_role := semantic_role
      metric_eligible := metric_eligible
      graph_role := graph_role
      redaction_action := redaction_action }
  | _ => .error (invalid "field must be an object")

/-- the loop over `fields_raw` -/
def parse_fields (seen_names : List Str) : List Py → Except Raised (List FieldDecl)
  | [] => .ok []
  | raw :: rest => do
    let decl ← _parse_field python raw
    refuse (decl.name ∈ seen_names) "duplicate field name in schema"
    let fields ← parse_fields (decl.name :: seen_names) rest
    return decl :: fields

/-- `int(value)` in the same `try` -/
def version (missing : Raised) (value : Py) : Except Raised Int :=
  match python.toInt value with
  | .ok n => .ok n
  | .error .TypeError => .error missing
  | .error .ValueError => .error missing
  | .error e => .error (.exc e)

def _parse_event_schema : Py → Except Raised EventSchema
  | .dict entry => do
    let missing := invalid "schema entry missing required keys"
    let schema_id := python.str (← item missing entry "schema_id")
    let schema_version ← version python missing (← item missing entry "schema_version")
    let producer_profile_id := python.str (← item missing entry "producer_profile_id")
    let compatibility_policy := python.str (← item missing entry "compatibility_policy")
    let domain := python.str (← item missing entry "domain")
    let category := python.str (← item missing entry "category")
    let event_name := python.str (← item missing entry "event_name")
    let fields_raw ← item missing entry "fields"
    let compatibility_policy ← named Policy.name POLICIES
      "compatibility_policy must be strict or relaxed" compatibility_policy
    refuse (schema_version < 1) "schema_version must be >= 1"
    let fields_raw ← array "fields must be an array" fields_raw
    let fields ← parse_fields python [] fields_raw
    return {
      schema_id := schema_id
      schema_version := schema_version
      producer_profile_id := producer_profile_id
      compatibility_policy := compatibility_policy
      domain := domain
      category := category
      event_name := event_name
      fields := fields }
  | _ => .error (invalid "schema entry must be an object")

/-- the loop over `schemas_raw` -/
def parse_schemas (seen_keys : List SchemaKey) : List Py → Except Raised (List EventSchema)
  | [] => .ok []
  | entry :: rest => do
    let schema ← _parse_event_schema python entry
    refuse (schema.key ∈ seen_keys) "duplicate schema identity in registry"
    let parsed ← parse_schemas (schema.key :: seen_keys) rest
    return schema :: parsed

def _parse_registry_document : Py → Except Raised (List EventSchema)
  | .dict data =>
    if python.isInt (get data "registry_version") 1 then
      match get data "schemas" with
      | .list (entry :: rest) => parse_schemas python [] (entry :: rest)
      | _ => .error (.DtgSchemaError "InvalidRegistry" "schemas must be a non-empty array")
    else .error (.DtgSchemaError "UnsupportedRegistryVersion" "registry_version must be 1")
  | _ => .error (.DtgSchemaError "InvalidRegistry" "registry root must be an object")

end

/-! ## the loader -/

def DEFAULT_MAX_REGISTRY_BYTES : Nat := 1048576

/-- `sha256` is the digest of the bytes in hexadecimal, and `expected_digest` is stripped and in lower
case; `loads` decodes and parses the bytes -/
def load_registry {ν : Type} (host : Host ν) (sha256 : List UInt8 → Str) (fs : Fs ν) (path : Path ν)
    (expected_digest : Option Str) (max_bytes : Nat) : Except Raised LoadedRegistry :=
  match fs.read path with
  | none => .error (.DtgSchemaError "RegistryMissing" "registry artifact not found")
  | some raw =>
    if max_bytes < raw.length then
      .error (.DtgSchemaError "RegistryTooLarge"
        (lit "registry exceeds max_bytes cap (" ++ Str.ofInt max_bytes ++ lit ")"))
    else if expected_digest.any (sha256 raw ≠ ·) then
      .error (.DtgSchemaError "DigestMismatch" "registry digest mismatch")
    else
      match host.load raw with
      | .error (.inl _) => .error (.DtgSchemaError "CorruptRegistry" "registry is not valid JSON")
      | .error (.inr e) => .error (.exc e)
      | .ok data => do
        let schemas ← _parse_registry_document host.python data
        return {
          path := ((host.stat fs path).map Identity.source_path).getD (host.str path)
          digest_sha256 := sha256 raw
          registry_version := 1
          schemas := schemas }

/-! ## what the parser accepts -/

/-- the rules between the keys of one field -/
structure FieldDecl.WellFormed (f : FieldDecl) : Prop where
  optional_drop : f.redaction_action = .drop_field → f.required = false
  secret_reject : f.sensitivity = .secret_forbidden → f.redaction_action = .reject
  metric_role : f.metric_eligible = true → f.semantic_role = some (lit "metric")
  reference_role : f.graph_role.isReference = true → f.semantic_role = some f.graph_role.name

structure EventSchema.WellFormed (s : EventSchema) : Prop where
  version_pos : 1 ≤ s.schema_version
  names_nodup : (s.fields.map FieldDecl.name).Nodup
  fields : ∀ f ∈ s.fields, f.WellFormed

/-- a registry, as its schemas -/
structure WellFormed (schemas : List EventSchema) : Prop where
  nonempty : schemas ≠ []
  keys_nodup : (schemas.map EventSchema.key).Nodup
  schemas : ∀ s ∈ schemas, s.WellFormed

@[simp] theorem refuse_ok {condition : Bool} {message : Str} {u : Unit} :
    refuse condition message = .ok u ↔ condition = false := by
  cases condition <;> simp [refuse]

/-- a reference has its own role, and the role of any other field is what the document says -/
theorem graphRole_ok {graph_role : GraphRole} {before after : Option Str}
    (h : graphRole graph_role before = .ok after) :
    (graph_role.isReference = true → after = some graph_role.name)
    ∧ (∀ role, before = some role → after = some role) := by
  unfold graphRole at h
  split_ifs at h with hr
  · cases before with
    | none =>
      refine ⟨fun _ => (Except.ok.inj h).symm, ?_⟩
      intro role hb
      cases hb
    | some role =>
      obtain ⟨_, hsame, h⟩ := bind_eq_ok h
      have hrole : role = graph_role.name := by simpa using refuse_ok.mp hsame
      cases h
      refine ⟨fun _ => by rw [hrole], ?_⟩
      intro r hb
      exact hb
  · cases h
    exact ⟨fun h => absurd h hr, fun _ hb => hb⟩

section
variable {python : Python}

theorem _parse_field_wellFormed {raw : Py} {f : FieldDecl} (h : _parse_field python raw = .ok f) :
    f.WellFormed := by
  cases raw with
  | dict raw =>
    obtain ⟨name, -, h⟩ := bind_eq_ok h
    obtain ⟨value_type, -, h⟩ := bind_eq_ok h
    obtain ⟨required, -, h⟩ := bind_eq_ok h
    obtain ⟨sensitivity, -, h⟩ := bind_eq_ok h
    obtain ⟨value_type, -, h⟩ := bind_eq_ok h
    obtain ⟨sensitivity, -, h⟩ := bind_eq_ok h
    obtain ⟨graph_role, -, h⟩ := bind_eq_ok h
    obtain ⟨_, hmetric, h⟩ := bind_eq_ok h
    obtain ⟨semantic_role, hrole, h⟩ := bind_eq_ok h
    obtain ⟨redaction_action, -, h⟩ := bind_eq_ok h
    obtain ⟨_, hdrop, h⟩ := bind_eq_ok h
    obtain ⟨_, hsecret, h⟩ := bind_eq_ok h
    cases h
    rw [refuse_ok] at hmetric hdrop hsecret
    obtain ⟨href, hkept⟩ := graphRole_ok hrole
    refine ⟨?_, ?_, ?_, href⟩
    · simpa using hdrop
    · simpa using hsecret
    · intro hm
      apply hkept
      revert hm
      simpa using hmetric
  | _ => cases h

/-- the names of the parsed fields differ from each other and from those seen before -/
theorem parse_fields_ok {raws : List Py} {seen_names : List Str} {fields : List FieldDecl}
    (h : parse_fields python seen_names raws = .ok fields) :
    (fields.map FieldDecl.name).Nodup ∧ (∀ f ∈ fields, f.name ∉ seen_names)
      ∧ ∀ f ∈ fields, f.WellFormed := by
  induction raws generalizing seen_names fields with
  | nil =>
    cases h
    simp
  | cons raw rest ih =>
    obtain ⟨decl, hdecl, h⟩ := bind_eq_ok h
    obtain ⟨_, hnew, h⟩ := bind_eq_ok h
    obtain ⟨others, hothers, h⟩ := bind_eq_ok h
    cases h
    have hseen : decl.name ∉ seen_names := by simpa using refuse_ok.mp hnew
    obtain ⟨hnodup, hfresh, hwell⟩ := ih hothers
    refine ⟨?_, ?_, ?_⟩
    · rw [List.map_cons, List.nodup_cons]
      refine ⟨?_, hnodup⟩
      intro hmem
      obtain ⟨f, hf, hname⟩ := List.mem_map.mp hmem
      exact hfresh f hf (hname ▸ List.mem_cons_self)
    · intro f hf
      cases List.mem_cons.mp hf with
      | inl heq => exact heq ▸ hseen
      | inr hf => exact fun hs => hfresh f hf (List.mem_cons_of_mem _ hs)
    · intro f hf
      cases List.mem_cons.mp hf with
      | inl heq => exact heq ▸ _parse_field_wellFormed hdecl
      | inr hf => exact hwell f hf

theorem _parse_event_schema_wellFormed {entry : Py} {s : EventSchema}
    (h : _parse_event_schema python entry = .ok s) : s.WellFormed := by
  cases entry with
  | dict entry =>
    obtain ⟨schema_id, -, h⟩ := bind_eq_ok h
    obtain ⟨version_raw, -, h⟩ := bind_eq_ok h
    obtain ⟨schema_version, -, h⟩ := bind_eq_ok h
    obtain ⟨producer_profile_id, -, h⟩ := bind_eq_ok h
    obtain ⟨policy, -, h⟩ := bind_eq_ok h
    obtain ⟨domain, -, h⟩ := bind_eq_ok h
    obtain ⟨category, -, h⟩ := bind_eq_ok h
    obtain ⟨event_name, -, h⟩ := bind_eq_ok h
    obtain ⟨fields_raw, -, h⟩ := bind_eq_ok h
    obtain ⟨policy, -, h⟩ := bind_eq_ok h
    obtain ⟨_, hversion, h⟩ := bind_eq_ok h
    obtain ⟨raws, -, h⟩ := bind_eq_ok h
    obtain ⟨fields, hfields, h⟩ := bind_eq_ok h
    cases h
    obtain ⟨hnodup, -, hwell⟩ := parse_fields_ok hfields
    refine ⟨?_, hnodup, hwell⟩
    simpa using refuse_ok.mp hversion
  | _ => cases h

theorem parse_schemas_ok {entries : List Py} {seen_keys : List SchemaKey} {schemas : List EventSchema}
    (h : parse_schemas python seen_keys entries = .ok schemas) :
    (schemas.map EventSchema.key).Nodup ∧ (∀ s ∈ schemas, s.key ∉ seen_keys)
      ∧ (∀ s ∈ schemas, s.WellFormed) ∧ schemas.length = entries.length := by
  induction entries generalizing seen_keys schemas with
  | nil =>
    cases h
    simp
  | cons entry rest ih =>
    obtain ⟨schema, hschema, h⟩ := bind_eq_ok h
    obtain ⟨_, hnew, h⟩ := bind_eq_ok h
    obtain ⟨others, hothers, h⟩ := bind_eq_ok h
    cases h
    have hseen : schema.key ∉ seen_keys := by simpa using refuse_ok.mp hnew
    obtain ⟨hnodup, hfresh, hwell, hlength⟩ := ih hothers
    refine ⟨?_, ?_, ?_, ?_⟩
    · rw [List.map_cons, List.nodup_cons]
      refine ⟨?_, hnodup⟩
      intro hmem
      obtain ⟨s, hs, hkey⟩ := List.mem_map.mp hmem
      exact hfresh s hs (hkey ▸ List.mem_cons_self)
    · intro s hs
      cases List.mem_cons.mp hs with
      | inl heq => exact heq ▸ hseen
      | inr hs => exact fun hk => hfresh s hs (List.mem_cons_of_mem _ hk)
    · intro s hs
      cases List.mem_cons.mp hs with
      | inl heq => exact heq ▸ _parse_event_schema_wellFormed hschema
      | inr hs => exact hwell s hs
    · rw [List.length_cons, List.length_cons, hlength]

/-- **Every registry that the parser accepts is well formed.** -/
theorem registry_wellFormed {data : Py} {schemas : List EventSchema}
    (h : _parse_registry_document python data = .ok schemas) : WellFormed schemas := by
  cases data with
  | dict data =>
    simp only [_parse_registry_document] at h
    split_ifs at h with hversion
    split at h
    · obtain ⟨hnodup, -, hwell, hlength⟩ := parse_schemas_ok h
      refine ⟨?_, hnodup, hwell⟩
      intro hnil
      rw [hnil] at hlength
      cases hlength
    · cases h
  | _ => cases h

end

/-! ## what a candidate is checked by -/

theorem resolve_some {r : LoadedRegistry} {key : SchemaKey} {s : EventSchema}
    (h : r.resolve key = some s) : s ∈ r.schemas ∧ s.key = key := by
  refine ⟨List.mem_of_find?_eq_some h, ?_⟩
  have hs := List.find?_some h
  simp only [decide_eq_true_eq] at hs
  obtain ⟨h1, h2, h3, h4, h5⟩ := hs
  simp [EventSchema.key, h1, h2, h3, h4, h5]

/-- In a well formed registry an event resolves to the schema that declares it. -/
theorem resolve_iff {r : LoadedRegistry} (hr : WellFormed r.schemas) {key : SchemaKey}
    {s : EventSchema} : r.resolve key = some s ↔ s ∈ r.schemas ∧ s.key = key := by
  refine ⟨resolve_some, ?_⟩
  rintro ⟨hs, hkey⟩
  cases hfound : r.resolve key with
  | none =>
    have hno := List.find?_eq_none.mp hfound s hs
    simp [← hkey, EventSchema.key] at hno
  | some t =>
    obtain ⟨ht, htkey⟩ := resolve_some hfound
    rw [List.inj_on_of_nodup_map hr.keys_nodup ht hs (htkey.trans hkey.symm)]

theorem assign_new {α : Type} {key : Str} {value : α} {d : List (Str × α)}
    (h : key ∉ d.map Prod.fst) : assign key value d = d ++ [(key, value)] := by
  induction d with
  | nil => rfl
  | cons entry rest ih =>
    rw [List.map_cons, List.mem_cons, not_or] at h
    show (if entry.1 = key then _ else _) = _
    rw [if_neg (Ne.symm h.1), ih h.2, List.cons_append]

/-- fields of different names keep their order in the map -/
theorem field_map_eq {s : EventSchema} (h : (s.fields.map FieldDecl.name).Nodup) :
    s.field_map = s.fields.map fun f => (f.name, f) := by
  have hfold : ∀ (fields : List FieldDecl) (d : List (Str × FieldDecl)),
      (d.map Prod.fst ++ fields.map FieldDecl.name).Nodup →
      fields.foldl (fun d f => assign f.name f d) d = d ++ fields.map fun f => (f.name, f) := by
    intro fields
    induction fields with
    | nil => simp
    | cons f fields ih =>
      intro d hd
      have hnew : f.name ∉ d.map Prod.fst := by
        intro hmem
        exact (List.nodup_append.mp hd).2.2 _ hmem _ List.mem_cons_self rfl
      rw [List.foldl_cons, assign_new hnew, ih]
      · simp
      · simpa using hd
  exact hfold s.fields [] (by simpa using h)

/-- A name leads to the field that declares it. -/
theorem lookup_field_map {s : EventSchema} (h : (s.fields.map FieldDecl.name).Nodup) {name : Str}
    {f : FieldDecl} : s.field_map.lookup name = some f ↔ f ∈ s.fields ∧ f.name = name := by
  rw [field_map_eq h]
  generalize s.fields = fields at h
  induction fields with
  | nil => simp
  | cons g fields ih =>
    rw [List.map_cons, List.nodup_cons] at h
    rw [List.map_cons, List.lookup_cons]
    by_cases hname : name = g.name
    · have hother : ¬ (f ∈ fields ∧ f.name = name) := by
        rintro ⟨hf, hfn⟩
        exact h.1 (hname ▸ hfn ▸ List.mem_map_of_mem hf)
      simp only [hname, beq_self_eq_true, Option.some.injEq, List.mem_cons]
      grind
    · simp only [beq_iff_eq.not.mpr hname, ih h.2, List.mem_cons]
      grind

end Dtj.Mcp
