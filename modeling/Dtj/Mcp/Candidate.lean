import Dtj.Mcp.Registry

/-!
# Candidate events

The rest of `dtg_schema.py`: a candidate is checked by the schema that declares its event, and its
fields are sorted by what the schema says of them.

* `validate_candidate`, `_value_matches_type`   the source;
* `Complies`                    a payload keeps to its schema;
* `candidate_validated`         **what is accepted, and how its fields are sorted**;
* `Alike`, `candidate_alike`    two candidates that differ only in values of the same type outcome
                                **get the same result**.
-/

namespace Dtj.Mcp

/-- an object of a payload; `other` is one of a class that no check names -/
inductive Obj where
  | none
  | bool (b : Bool)
  | int (n : Int)
  | float (bits : UInt64)
  | str (s : Str)
  | bytes (bs : List UInt8)
  | bytearray (bs : List UInt8)
  | list (xs : List Obj)
  | tuple (xs : List Obj)
  | other (class_name : Str)

/-- a mapping with string keys -/
structure Payload where
  items : List (Str × Obj)
  nodup : (items.map Prod.fst).Nodup

structure Candidate where
  key : SchemaKey
  payload : Option Payload

/-- `dict(payload or {})` -/
def Candidate.payload_map (c : Candidate) : List (Str × Obj) :=
  match c.payload with
  | some payload => payload.items
  | none => []

structure ValidationResult where
  accepted : Bool
  error_code : Option Str
  error_message : Option Str
  schema_id : Option Str
  schema_version : Option Int
  producer_profile_id : Option Str
  compatibility_policy : Option Policy
  registry_digest : Option Str
  approved_metric_fields : List Str
  approved_graph_reference_fields : List Str
  opaque_fields : List Str
  dropped_fields : List Str
deriving DecidableEq

/-! ## types -/

/-- `isinstance(x, (int, float)) and not isinstance(x, bool)` -/
def Obj.isNumber : Obj → Bool
  | .int _ => true
  | .float _ => true
  | _ => false

/-- a list or a tuple of `n` numbers -/
def Obj.isVector (n : Nat) : Obj → Bool
  | .list xs => xs.length = n && xs.all Obj.isNumber
  | .tuple xs => xs.length = n && xs.all Obj.isNumber
  | _ => false

def _value_matches_type : ValueType → Obj → Bool
  | .Bool, .bool _ => true
  | .I32, .int _ => true
  | .I64, .int _ => true
  | .U32, .int n => n ≥ 0
  | .U64, .int n => n ≥ 0
  | .Enum, .int n => n ≥ 0
  | .F32, value => value.isNumber
  | .F64, value => value.isNumber
  -- the decoded shape may carry the text or the intern id
  | .InternedString, .str _ => true
  | .InternedString, .int n => n ≥ 1
  | .Bytes, .bytes _ => true
  | .Bytes, .bytearray _ => true
  | .Bytes, .str s => (lit "0x").isPrefixOf s
  | .Vec2F32, value => value.isVector 2
  | .Vec3F32, value => value.isVector 3
  | _, _ => false

/-! ## validation -/

/-- `sorted(names)` -/
def sorted (names : List Str) : List Str := names.mergeSort fun a b => decide (a ≤ b)

/-- a reason to reject: its code and message -/
abbrev Reason := Str × Str

def EventSchema.rejected (s : EventSchema) (r : LoadedRegistry) (reason : Reason) :
    ValidationResult where
  accepted := false
  error_code := some reason.1
  error_message := some reason.2
  schema_id := some s.schema_id
  schema_version := some s.schema_version
  producer_profile_id := some s.producer_profile_id
  compatibility_policy := some s.compatibility_policy
  registry_digest := some r.digest_sha256
  approved_metric_fields := []
  approved_graph_reference_fields := []
  opaque_fields := []
  dropped_fields := []

def LoadedRegistry.unknown (r : LoadedRegistry) : ValidationResult where
  accepted := false
  error_code := some "UnknownEvent"
  error_message := some
    "no schema for producer_profile_id/domain/category/event_name/schema_version"
  schema_id := none
  schema_version := none
  producer_profile_id := none
  compatibility_policy := none
  registry_digest := some r.digest_sha256
  approved_metric_fields := []
  approved_graph_reference_fields := []
  opaque_fields := []
  dropped_fields := []

/-- the variables of the loop over the payload -/
structure Split where
  opaque_names : List Str
  dropped : List Str
  kept : List (Str × Obj)

section
variable (python : Python)

/-- `{name!r}` -/
def quoted (name : Str) : Str := python.repr (.str name)

/-- the loop over the payload -/
def split_payload (policy : Policy) (fields : List (Str × FieldDecl)) :
    List (Str × Obj) → Split → Except Reason Split
  | [], s => .ok s
  | (name, value) :: rest, s =>
    match fields.lookup name with
    | none =>
      if policy = .strict then
        .error ("UnknownField", lit "unknown field " ++ quoted python name ++ lit " under strict policy")
      else
        split_payload policy fields rest {
          opaque_names := s.opaque_names ++ [name]
          dropped := s.dropped
          kept := s.kept ++ [(name, value)] }
    | some decl =>
      if !_value_matches_type decl.value_type value then
        .error ("TypeMismatch", lit "field " ++ quoted python name ++ lit " type mismatch for " ++
          decl.value_type.name)
      else if decl.redaction_action = .drop_field then
        split_payload policy fields rest {
          opaque_names := s.opaque_names
          dropped := s.dropped ++ [name]
          kept := s.kept }
      else
        split_payload policy fields rest {
          opaque_names := s.opaque_names
          dropped := s.dropped
          kept := s.kept ++ [(name, value)] }

def names (payload : List (Str × Obj)) : List Str := payload.map Prod.fst

/-- the names of the fields that a condition and the kept payload have in common -/
def approved (s : EventSchema) (kept : List (Str × Obj)) (condition : FieldDecl → Bool) : List Str :=
  sorted ((s.fields.filter fun f => condition f && f.name ∈ names kept).map FieldDecl.name)

def FieldDecl.isMetric (f : FieldDecl) : Bool :=
  f.metric_eligible && f.semantic_role = some (lit "metric")

def FieldDecl.isReference (f : FieldDecl) : Bool := f.graph_role.isReference

def EventSchema.accepted (s : EventSchema) (r : LoadedRegistry) (found : Split) :
    ValidationResult where
  accepted := true
  error_code := none
  error_message := none
  schema_id := some s.schema_id
  schema_version := some s.schema_version
  producer_profile_id := some s.producer_profile_id
  compatibility_policy := some s.compatibility_policy
  registry_digest := some r.digest_sha256
  approved_metric_fields := approved s found.kept FieldDecl.isMetric
  approved_graph_reference_fields := approved s found.kept FieldDecl.isReference
  opaque_fields := sorted found.opaque_names
  dropped_fields := sorted found.dropped

def forbidden (payload_map : List (Str × Obj)) (name : Str) (decl : FieldDecl) : Bool :=
  decl.sensitivity = .secret_forbidden && name ∈ names payload_map

def rejects (payload_map : List (Str × Obj)) (name : Str) (decl : FieldDecl) : Bool :=
  decl.redaction_action = .reject && name ∈ names payload_map

def misses (payload_map : List (Str × Obj)) (name : Str) (decl : FieldDecl) : Bool :=
  decl.required && name ∉ names payload_map

/-- what follows the loop over the payload -/
def EventSchema.conclude (s : EventSchema) (r : LoadedRegistry) : Except Reason Split → ValidationResult
  | .error reason => s.rejected r reason
  | .ok found => s.accepted r found

/-- one of the three loops over the declared fields: the first name that a condition holds of -/
def firstName (fields : List (Str × FieldDecl)) (condition : Str → FieldDecl → Bool) : Option Str :=
  (fields.find? fun entry => condition entry.1 entry.2).map Prod.fst

def validate_schema (r : LoadedRegistry) (schema : EventSchema) (payload_map : List (Str × Obj)) :
    ValidationResult :=
  let fields := schema.field_map
  match firstName fields (forbidden payload_map) with
  | some name => schema.rejected r
      ("SecretForbidden", lit "field " ++ quoted python name ++ lit " is secret_forbidden")
  | none =>
  match firstName fields (rejects payload_map) with
  | some name => schema.rejected r
      ("FieldRejected", lit "field " ++ quoted python name ++ lit " rejected by redaction_action")
  | none =>
  match firstName fields (misses payload_map) with
  | some name => schema.rejected r
      ("RequiredFieldMissing", lit "required field " ++ quoted python name ++ lit " is missing")
  | none =>
  schema.conclude r (split_payload python schema.compatibility_policy fields payload_map ⟨[], [], []⟩)

def validate_candidate (r : LoadedRegistry) (c : Candidate) : ValidationResult :=
  match r.resolve c.key with
  | none => r.unknown
  | some schema => validate_schema python r schema c.payload_map

end

/-! ## what the checks say -/

inductive Number : Obj → Prop where
  | int (n : Int) : Number (.int n)
  | float (bits : UInt64) : Number (.float bits)

/-- a value has a declared type -/
inductive HasType : ValueType → Obj → Prop where
  | bool (b : Bool) : HasType .Bool (.bool b)
  | i32 (n : Int) : HasType .I32 (.int n)
  | i64 (n : Int) : HasType .I64 (.int n)
  | u32 (n : Int) (h : 0 ≤ n) : HasType .U32 (.int n)
  | u64 (n : Int) (h : 0 ≤ n) : HasType .U64 (.int n)
  | enum (n : Int) (h : 0 ≤ n) : HasType .Enum (.int n)
  | f32 (value : Obj) (h : Number value) : HasType .F32 value
  | f64 (value : Obj) (h : Number value) : HasType .F64 value
  | text (s : Str) : HasType .InternedString (.str s)
  | id (n : Int) (h : 1 ≤ n) : HasType .InternedString (.int n)
  | bytes (bs : List UInt8) : HasType .Bytes (.bytes bs)
  | bytearray (bs : List UInt8) : HasType .Bytes (.bytearray bs)
  | hex (s : Str) : HasType .Bytes (.str (lit "0x" ++ s))
  | list2 (xs : List Obj) (hn : xs.length = 2) (h : ∀ x ∈ xs, Number x) : HasType .Vec2F32 (.list xs)
  | tuple2 (xs : List Obj) (hn : xs.length = 2) (h : ∀ x ∈ xs, Number x) : HasType .Vec2F32 (.tuple xs)
  | list3 (xs : List Obj) (hn : xs.length = 3) (h : ∀ x ∈ xs, Number x) : HasType .Vec3F32 (.list xs)
  | tuple3 (xs : List Obj) (hn : xs.length = 3) (h : ∀ x ∈ xs, Number x) : HasType .Vec3F32 (.tuple xs)

theorem isNumber_iff (value : Obj) : value.isNumber = true ↔ Number value := by
  constructor
  · intro h
    cases value with
    | int n => exact .int n
    | float bits => exact .float bits
    | _ => cases h
  · intro h
    cases h <;> rfl

theorem isVector_iff (n : Nat) (value : Obj) : value.isVector n = true
    ↔ ∃ xs, (value = .list xs ∨ value = .tuple xs) ∧ xs.length = n ∧ ∀ x ∈ xs, Number x := by
  cases value <;> simp [Obj.isVector, isNumber_iff]

theorem _value_matches_type_iff (t : ValueType) (value : Obj) :
    _value_matches_type t value = true ↔ HasType t value := by
  constructor
  · intro h
    cases t
    case F32 => exact .f32 value ((isNumber_iff value).mp h)
    case F64 => exact .f64 value ((isNumber_iff value).mp h)
    case Vec2F32 =>
      obtain ⟨xs, rfl | rfl, hn, hxs⟩ := (isVector_iff 2 value).mp h
      · exact .list2 xs hn hxs
      · exact .tuple2 xs hn hxs
    case Vec3F32 =>
      obtain ⟨xs, rfl | rfl, hn, hxs⟩ := (isVector_iff 3 value).mp h
      · exact .list3 xs hn hxs
      · exact .tuple3 xs hn hxs
    case Bytes =>
      cases value with
      | bytes bs => exact .bytes bs
      | bytearray bs => exact .bytearray bs
      | str s =>
        obtain ⟨rest, rfl⟩ := List.isPrefixOf_iff_prefix.mp h
        exact .hex rest
      | _ => cases h
    all_goals
      cases value <;> first
        | cases h; done
        | constructor
    all_goals simpa [_value_matches_type] using h
  · intro h
    cases h with
    | f32 value h => exact (isNumber_iff value).mpr h
    | f64 value h => exact (isNumber_iff value).mpr h
    | hex s => exact List.isPrefixOf_iff_prefix.mpr (List.prefix_append _ _)
    | list2 xs hn h => exact (isVector_iff 2 _).mpr ⟨xs, .inl rfl, hn, h⟩
    | tuple2 xs hn h => exact (isVector_iff 2 _).mpr ⟨xs, .inr rfl, hn, h⟩
    | list3 xs hn h => exact (isVector_iff 3 _).mpr ⟨xs, .inl rfl, hn, h⟩
    | tuple3 xs hn h => exact (isVector_iff 3 _).mpr ⟨xs, .inr rfl, hn, h⟩
    | _ => simp_all [_value_matches_type]

/-! ## sorted names -/

theorem mem_sorted {name : Str} {names : List Str} : name ∈ sorted names ↔ name ∈ names :=
  List.mem_mergeSort

/-- names that differ are sorted strictly -/
theorem sorted_lt {names : List Str} (h : names.Nodup) : (sorted names).Pairwise (· < ·) := by
  have hle : (sorted names).Pairwise fun a b => decide (a ≤ b) = true := by
    apply List.pairwise_mergeSort
    · intro a b c hab hbc
      rw [decide_eq_true_eq] at hab hbc ⊢
      exact List.le_trans hab hbc
    · intro a b
      simpa using List.le_total a b
  have hne : (sorted names).Nodup := (List.mergeSort_perm names _).nodup_iff.mpr h
  refine (hle.and hne).imp ?_
  rintro a b ⟨hab, hne⟩
  rw [decide_eq_true_eq] at hab
  exact (List.le_iff_lt_or_eq.mp hab).resolve_right hne

/-! ## the loop over the payload -/

theorem Candidate.names_nodup (c : Candidate) : (names c.payload_map).Nodup := by
  cases hp : c.payload with
  | none => simp [Candidate.payload_map, names, hp]
  | some payload => simpa [Candidate.payload_map, names, hp] using payload.nodup

section
variable {python : Python}

/-- what the loop asks of one item -/
def Passes (policy : Policy) (fields : List (Str × FieldDecl)) (e : Str × Obj) : Prop :=
  (fields.lookup e.1 = none → policy ≠ .strict)
  ∧ ∀ decl, fields.lookup e.1 = some decl → HasType decl.value_type e.2

def undeclared (fields : List (Str × FieldDecl)) (e : Str × Obj) : Bool := (fields.lookup e.1).isNone

def drops (fields : List (Str × FieldDecl)) (e : Str × Obj) : Bool :=
  (fields.lookup e.1).any fun decl => decl.redaction_action = .drop_field

/-- the variables after the items of a list -/
def Split.after (s : Split) (fields : List (Str × FieldDecl)) (items : List (Str × Obj)) : Split where
  opaque_names := s.opaque_names ++ names (items.filter (undeclared fields))
  dropped := s.dropped ++ names (items.filter (drops fields))
  kept := s.kept ++ items.filter fun e => !drops fields e

theorem split_payload_ok {policy : Policy} {fields : List (Str × FieldDecl)}
    {items : List (Str × Obj)} {s s' : Split} :
    split_payload python policy fields items s = .ok s'
      ↔ (∀ e ∈ items, Passes policy fields e) ∧ s' = s.after fields items := by
  induction items generalizing s with
  | nil => simp [split_payload, Split.after, names, eq_comm]
  | cons e items ih =>
    rw [List.forall_mem_cons, and_assoc]
    cases hdecl : fields.lookup e.1 with
    | none =>
      have hpass : Passes policy fields e ↔ policy ≠ .strict := by simp [Passes, hdecl]
      have hafter : s.after fields (e :: items) = (Split.mk (s.opaque_names ++ [e.1]) s.dropped
          (s.kept ++ [e])).after fields items := by
        simp [Split.after, names, undeclared, drops, hdecl]
      rw [hpass, hafter, split_payload, hdecl]
      by_cases hstrict : policy = .strict
      · simp [hstrict]
      · simp [hstrict, ih]
    | some decl =>
      have hpass : Passes policy fields e ↔ _value_matches_type decl.value_type e.2 = true := by
        simp [Passes, hdecl, _value_matches_type_iff]
      rw [hpass, split_payload, hdecl]
      by_cases htype : _value_matches_type decl.value_type e.2 = true
      · by_cases hdrop : decl.redaction_action = .drop_field
        · have hafter : s.after fields (e :: items) = (Split.mk s.opaque_names
              (s.dropped ++ [e.1]) s.kept).after fields items := by
            simp [Split.after, names, undeclared, drops, hdecl, hdrop]
          simp [htype, hdrop, ih, hafter]
        · have hafter : s.after fields (e :: items) = (Split.mk s.opaque_names
              s.dropped (s.kept ++ [e])).after fields items := by
            simp [Split.after, names, undeclared, drops, hdecl, hdrop]
          simp [htype, hdrop, ih, hafter]
      · simp [htype]

theorem firstName_none {fields : List (Str × FieldDecl)} {condition : Str → FieldDecl → Bool} :
    firstName fields condition = none ↔ ∀ e ∈ fields, condition e.1 e.2 = false := by
  simp [firstName]

end

/-! ## an example -/

def registryPython : Python where
  casefold := id
  eq _ _ := false
  str v := match v with
    | .str s => s
    | _ => []
  repr v := match v with
    | .str s => lit "'" ++ s ++ lit "'"
    | _ => []
  int_of_str _ := .error .ValueError
  int_of_float _ := .error .ValueError
  float_eq _ _ := false
  rstrip := id

def exampleField (name type : String) (more : Dict) : Py :=
  .dict ([(lit "name", .str name), (lit "value_type", .str type), (lit "required", .bool false)] ++ more)

/-- a registry of one schema: a field that is kept and one that is dropped -/
def registryDocument : Py := .dict [(lit "registry_version", .int 1), (lit "schemas", .list [.dict [
  (lit "schema_id", .str "s"), (lit "schema_version", .int 1),
  (lit "producer_profile_id", .str "p"), (lit "compatibility_policy", .str "relaxed"),
  (lit "domain", .str "d"), (lit "category", .str "c"), (lit "event_name", .str "e"),
  (lit "fields", .list [exampleField "n" "I32" [(lit "sensitivity", .str "public")],
    exampleField "token" "InternedString" [(lit "sensitivity", .str "sensitive")]])]])]

def exampleSchemas : List EventSchema :=
  match _parse_registry_document registryPython registryDocument with
  | .ok schemas => schemas
  | .error _ => []

def exampleRegistry : LoadedRegistry where
  path := "r.json"
  digest_sha256 := "00"
  registry_version := 1
  schemas := exampleSchemas

theorem exampleRegistry_parsed :
    _parse_registry_document registryPython registryDocument = .ok exampleRegistry.schemas := by
  rfl

def exampleCandidate (n : Obj) (token : String) : Candidate where
  key := {
    producer_profile_id := "p"
    domain := "d"
    category := "c"
    event_name := "e"
    schema_version := 1 }
  payload := some {
    items := [(lit "n", n), (lit "token", .str token)]
    nodup := by
      show [lit "n", lit "token"].Nodup
      decide }

/-! ## acceptance -/

/-- a payload keeps to its schema -/
structure Complies (s : EventSchema) (payload : List (Str × Obj)) : Prop where
  allowed : ∀ f ∈ s.fields, f.name ∈ names payload →
    f.sensitivity ≠ .secret_forbidden ∧ f.redaction_action ≠ .reject
  complete : ∀ f ∈ s.fields, f.required = true → f.name ∈ names payload
  declared : s.compatibility_policy = .strict →
    ∀ name ∈ names payload, ∃ f ∈ s.fields, f.name = name
  typed : ∀ f ∈ s.fields, ∀ value, (f.name, value) ∈ payload → HasType f.value_type value

/-- the lists of an accepted candidate -/
structure Sorts (s : EventSchema) (payload : List (Str × Obj)) (result : ValidationResult) :
    Prop where
  mem_opaque : ∀ name, name ∈ result.opaque_fields ↔
    name ∈ names payload ∧ ∀ f ∈ s.fields, f.name ≠ name
  mem_dropped : ∀ name, name ∈ result.dropped_fields ↔
    name ∈ names payload ∧ ∃ f ∈ s.fields, f.name = name ∧ f.redaction_action = .drop_field
  mem_metric : ∀ name, name ∈ result.approved_metric_fields ↔
    name ∈ names payload ∧ ∃ f ∈ s.fields, f.name = name ∧ f.redaction_action ≠ .drop_field
      ∧ f.metric_eligible = true ∧ f.semantic_role = some (lit "metric")
  mem_reference : ∀ name, name ∈ result.approved_graph_reference_fields ↔
    name ∈ names payload ∧ ∃ f ∈ s.fields, f.name = name ∧ f.redaction_action ≠ .drop_field
      ∧ (f.graph_role = .event_reference ∨ f.graph_role = .span_reference)
  sorted_opaque : result.opaque_fields.Pairwise (· < ·)
  sorted_dropped : result.dropped_fields.Pairwise (· < ·)
  sorted_metric : result.approved_metric_fields.Pairwise (· < ·)
  sorted_reference : result.approved_graph_reference_fields.Pairwise (· < ·)
  never_approved : ∀ name ∈ result.dropped_fields,
    name ∉ result.approved_metric_fields ∧ name ∉ result.approved_graph_reference_fields

section
variable {python : Python} {r : LoadedRegistry} {s : EventSchema} {payload : List (Str × Obj)}

theorem passes_iff (h : (s.fields.map FieldDecl.name).Nodup) :
    (∀ e ∈ payload, Passes s.compatibility_policy s.field_map e)
      ↔ (s.compatibility_policy = .strict → ∀ name ∈ names payload, ∃ f ∈ s.fields, f.name = name)
        ∧ ∀ f ∈ s.fields, ∀ value, (f.name, value) ∈ payload → HasType f.value_type value := by
  constructor
  · intro hpass
    refine ⟨?_, ?_⟩
    · intro hstrict name hname
      obtain ⟨e, he, rfl⟩ := List.mem_map.mp hname
      cases hdecl : s.field_map.lookup e.1 with
      | none => exact absurd hstrict ((hpass e he).1 hdecl)
      | some f => exact ⟨f, (lookup_field_map h).mp hdecl⟩
    · intro f hf value hv
      exact (hpass _ hv).2 f ((lookup_field_map h).mpr ⟨hf, rfl⟩)
  · rintro ⟨hdeclared, htyped⟩ e he
    refine ⟨?_, ?_⟩
    · intro hnone hstrict
      obtain ⟨f, hf, hname⟩ := hdeclared hstrict e.1 (List.mem_map_of_mem he)
      rw [(lookup_field_map h).mpr ⟨hf, hname⟩] at hnone
      cases hnone
    · intro f hdecl
      obtain ⟨hf, hname⟩ := (lookup_field_map h).mp hdecl
      exact htyped f hf e.2 (hname ▸ he)

/-- the three loops over the declared fields find nothing -/
theorem firstName_field_map (h : (s.fields.map FieldDecl.name).Nodup)
    {condition : Str → FieldDecl → Bool} :
    firstName s.field_map condition = none ↔ ∀ f ∈ s.fields, condition f.name f = false := by
  rw [firstName_none, field_map_eq h]
  simp

/-- The loops find nothing in a payload that keeps to its schema, and one of them finds something
in any other. -/
theorem complies_iff (h : (s.fields.map FieldDecl.name).Nodup) :
    Complies s payload ↔ firstName s.field_map (forbidden payload) = none
      ∧ firstName s.field_map (rejects payload) = none
      ∧ firstName s.field_map (misses payload) = none
      ∧ ∀ e ∈ payload, Passes s.compatibility_policy s.field_map e := by
  have hforbidden : firstName s.field_map (forbidden payload) = none
      ↔ ∀ f ∈ s.fields, f.sensitivity = .secret_forbidden → f.name ∉ names payload := by
    rw [firstName_field_map h]
    simp [forbidden]
  have hrejects : firstName s.field_map (rejects payload) = none
      ↔ ∀ f ∈ s.fields, f.redaction_action = .reject → f.name ∉ names payload := by
    rw [firstName_field_map h]
    simp [rejects]
  have hmisses : firstName s.field_map (misses payload) = none
      ↔ ∀ f ∈ s.fields, f.required = true → f.name ∈ names payload := by
    rw [firstName_field_map h]
    simp [misses]
  rw [hforbidden, hrejects, hmisses, passes_iff h]
  constructor
  · intro hc
    exact ⟨fun f hf hs hp => (hc.allowed f hf hp).1 hs, fun f hf ha hp => (hc.allowed f hf hp).2 ha,
      hc.complete, hc.declared, hc.typed⟩
  · rintro ⟨hsecret, hreject, hcomplete, hdeclared, htyped⟩
    exact ⟨fun f hf hp => ⟨fun hs => hsecret f hf hs hp, fun ha => hreject f hf ha hp⟩, hcomplete,
      hdeclared, htyped⟩

theorem validate_schema_complies (h : (s.fields.map FieldDecl.name).Nodup) (hc : Complies s payload) :
    validate_schema python r s payload
      = s.accepted r (Split.after ⟨[], [], []⟩ s.field_map payload) := by
  obtain ⟨hsecret, hreject, hmiss, hpass⟩ := (complies_iff h).mp hc
  have hsplit : split_payload python s.compatibility_policy s.field_map payload ⟨[], [], []⟩
      = .ok (Split.after ⟨[], [], []⟩ s.field_map payload) := split_payload_ok.mpr ⟨hpass, rfl⟩
  unfold validate_schema
  simp only [hsecret, hreject, hmiss, hsplit, EventSchema.conclude]

/-- what an accepted payload went through -/
theorem accepted_run (hacc : (validate_schema python r s payload).accepted = true) :
    firstName s.field_map (forbidden payload) = none
      ∧ firstName s.field_map (rejects payload) = none
      ∧ firstName s.field_map (misses payload) = none
      ∧ ∃ found, split_payload python s.compatibility_policy s.field_map payload ⟨[], [], []⟩
        = .ok found := by
  unfold validate_schema at hacc
  dsimp only at hacc
  split at hacc
  case h_1 => cases hacc
  case h_2 hsecret =>
    split at hacc
    case h_1 => cases hacc
    case h_2 hreject =>
      split at hacc
      case h_1 => cases hacc
      case h_2 hmiss =>
        cases hsplit : split_payload python s.compatibility_policy s.field_map payload
            ⟨[], [], []⟩ with
        | error reason =>
          rw [hsplit] at hacc
          cases hacc
        | ok found => exact ⟨hsecret, hreject, hmiss, found, rfl⟩

theorem validate_schema_accepted (h : (s.fields.map FieldDecl.name).Nodup) :
    (validate_schema python r s payload).accepted = true ↔ Complies s payload := by
  constructor
  · intro hacc
    obtain ⟨hsecret, hreject, hmiss, found, hsplit⟩ := accepted_run hacc
    exact (complies_iff h).mpr ⟨hsecret, hreject, hmiss, (split_payload_ok.mp hsplit).1⟩
  · intro hc
    rw [validate_schema_complies h hc]
    rfl

/-! ## the lists -/

theorem lookup_none_iff (h : (s.fields.map FieldDecl.name).Nodup) {name : Str} :
    s.field_map.lookup name = none ↔ ∀ f ∈ s.fields, f.name ≠ name := by
  rw [Option.eq_none_iff_forall_ne_some]
  constructor
  · intro hnone f hf hname
    exact hnone f ((lookup_field_map h).mpr ⟨hf, hname⟩)
  · intro hno f hf
    obtain ⟨hmem, hname⟩ := (lookup_field_map h).mp hf
    exact hno f hmem hname

theorem drops_iff (h : (s.fields.map FieldDecl.name).Nodup) {e : Str × Obj} :
    drops s.field_map e = true ↔ ∃ f ∈ s.fields, f.name = e.1 ∧ f.redaction_action = .drop_field := by
  rw [drops, Option.any_eq_true]
  constructor
  · rintro ⟨f, hf, hdrop⟩
    obtain ⟨hmem, hname⟩ := (lookup_field_map h).mp hf
    exact ⟨f, hmem, hname, of_decide_eq_true hdrop⟩
  · rintro ⟨f, hmem, hname, hdrop⟩
    exact ⟨f, (lookup_field_map h).mpr ⟨hmem, hname⟩, decide_eq_true hdrop⟩

theorem names_filter_nodup (hp : (names payload).Nodup) (p : Str × Obj → Bool) :
    (names (payload.filter p)).Nodup := hp.sublist (List.filter_sublist.map Prod.fst)

/-- a test of an item that looks at its name only -/
theorem mem_names_filter {p : Str × Obj → Bool} (P : Str → Prop) (hP : ∀ e, p e = true ↔ P e.1)
    {name : Str} : name ∈ names (payload.filter p) ↔ name ∈ names payload ∧ P name := by
  simp only [names, List.mem_map, List.mem_filter, hP]
  constructor
  · rintro ⟨e, ⟨he, hpe⟩, rfl⟩
    exact ⟨⟨e, he, rfl⟩, hpe⟩
  · rintro ⟨⟨e, he, rfl⟩, hpe⟩
    exact ⟨e, ⟨he, hpe⟩, rfl⟩

theorem mem_approved {kept : List (Str × Obj)} {condition : FieldDecl → Bool} {name : Str} :
    name ∈ approved s kept condition
      ↔ name ∈ names kept ∧ ∃ f ∈ s.fields, f.name = name ∧ condition f = true := by
  simp only [approved, mem_sorted, List.mem_map, List.mem_filter, Bool.and_eq_true, decide_eq_true_eq]
  constructor
  · rintro ⟨f, ⟨hf, hc, hkept⟩, rfl⟩
    exact ⟨hkept, f, hf, rfl, hc⟩
  · rintro ⟨hkept, f, hf, rfl, hc⟩
    exact ⟨f, ⟨hf, hc, hkept⟩, rfl⟩

/-- the approved fields that a condition selects are those present, declared so and not dropped -/
theorem mem_approved_kept (h : (s.fields.map FieldDecl.name).Nodup) {condition : FieldDecl → Bool}
    {name : Str} :
    name ∈ approved s (payload.filter fun e => !drops s.field_map e) condition
      ↔ name ∈ names payload
        ∧ ∃ f ∈ s.fields, f.name = name ∧ f.redaction_action ≠ .drop_field ∧ condition f = true := by
  have hkept : ∀ e, (!drops s.field_map e) = true
      ↔ ∀ f ∈ s.fields, f.name = e.1 → f.redaction_action ≠ .drop_field := by
    intro e
    rw [Bool.not_eq_true', ← Bool.not_eq_true, drops_iff h]
    push_neg
    rfl
  rw [mem_approved, mem_names_filter
    (fun name => ∀ f ∈ s.fields, f.name = name → f.redaction_action ≠ .drop_field) hkept, and_assoc]
  refine and_congr_right fun _ => ?_
  constructor
  · rintro ⟨hno, f, hf, hname, hc⟩
    exact ⟨f, hf, hname, hno f hf hname, hc⟩
  · rintro ⟨f, hf, hname, hdrop, hc⟩
    refine ⟨?_, f, hf, hname, hc⟩
    intro g hg hgname
    rw [List.inj_on_of_nodup_map h hg hf (hgname.trans hname.symm)]
    exact hdrop

theorem approved_sorted (h : (s.fields.map FieldDecl.name).Nodup) (kept : List (Str × Obj))
    (condition : FieldDecl → Bool) : (approved s kept condition).Pairwise (· < ·) :=
  sorted_lt (h.sublist (List.filter_sublist.map FieldDecl.name))

theorem validate_schema_sorts (h : (s.fields.map FieldDecl.name).Nodup) (hp : (names payload).Nodup)
    (hc : Complies s payload) : Sorts s payload (validate_schema python r s payload) := by
  rw [validate_schema_complies h hc]
  have hdropped : ∀ name, name ∈ sorted (names (payload.filter (drops s.field_map)))
      ↔ name ∈ names payload ∧ ∃ f ∈ s.fields, f.name = name ∧ f.redaction_action = .drop_field := by
    intro name
    rw [mem_sorted]
    exact mem_names_filter (p := drops s.field_map)
      (fun name => ∃ f ∈ s.fields, f.name = name ∧ f.redaction_action = .drop_field)
      fun e => drops_iff h
  have hmetric : ∀ name, name ∈ approved s (payload.filter fun e => !drops s.field_map e)
      FieldDecl.isMetric ↔ name ∈ names payload ∧ ∃ f ∈ s.fields, f.name = name
        ∧ f.redaction_action ≠ .drop_field ∧ f.metric_eligible = true
        ∧ f.semantic_role = some (lit "metric") := by
    intro name
    rw [mem_approved_kept h]
    simp [FieldDecl.isMetric]
  have hreference : ∀ name, name ∈ approved s (payload.filter fun e => !drops s.field_map e)
      FieldDecl.isReference ↔ name ∈ names payload ∧ ∃ f ∈ s.fields, f.name = name
        ∧ f.redaction_action ≠ .drop_field
        ∧ (f.graph_role = .event_reference ∨ f.graph_role = .span_reference) := by
    intro name
    rw [mem_approved_kept h]
    have hrole : ∀ f : FieldDecl, f.isReference = true
        ↔ f.graph_role = .event_reference ∨ f.graph_role = .span_reference := by
      intro f
      cases hg : f.graph_role <;> simp [FieldDecl.isReference, GraphRole.isReference, hg]
    simp only [hrole]
  have hnever : ∀ {f g : FieldDecl}, f ∈ s.fields → g ∈ s.fields → f.name = g.name →
      f.redaction_action = .drop_field → g.redaction_action ≠ .drop_field → False := by
    intro f g hf hg hname hd hk
    rw [List.inj_on_of_nodup_map h hf hg hname] at hd
    exact hk hd
  refine ⟨?_, hdropped, hmetric, hreference, ?_, ?_, approved_sorted h _ _, approved_sorted h _ _, ?_⟩
  · intro name
    show name ∈ sorted (names (payload.filter (undeclared s.field_map))) ↔ _
    rw [mem_sorted]
    refine mem_names_filter (p := undeclared s.field_map) (fun name => ∀ f ∈ s.fields, f.name ≠ name)
      fun e => ?_
    rw [undeclared, Option.isNone_iff_eq_none]
    exact lookup_none_iff h
  · exact sorted_lt (names_filter_nodup hp _)
  · exact sorted_lt (names_filter_nodup hp _)
  · intro name hname
    obtain ⟨-, f, hf, hfname, hdrop⟩ := (hdropped name).mp hname
    refine ⟨?_, ?_⟩
    · intro hm
      obtain ⟨-, g, hg, hgname, hkept, -⟩ := (hmetric name).mp hm
      exact hnever hf hg (hfname.trans hgname.symm) hdrop hkept
    · intro hm
      obtain ⟨-, g, hg, hgname, hkept, -⟩ := (hreference name).mp hm
      exact hnever hf hg (hfname.trans hgname.symm) hdrop hkept

/-- **A registry that the parser accepts admits exactly the candidates that keep to the schema of
their event, and sorts their fields as that schema declares them.** -/
theorem candidate_validated {data : Py} (hr : _parse_registry_document python data = .ok r.schemas)
    (c : Candidate) :
    ((validate_candidate python r c).accepted = true
      ↔ ∃ s ∈ r.schemas, s.key = c.key ∧ Complies s c.payload_map)
    ∧ ((validate_candidate python r c).accepted = true →
      ∀ s ∈ r.schemas, s.key = c.key → Sorts s c.payload_map (validate_candidate python r c)) := by
  have hwell := registry_wellFormed hr
  unfold validate_candidate
  cases hres : r.resolve c.key with
  | none =>
    refine ⟨?_, fun h => by cases h⟩
    constructor
    · intro h
      cases h
    · rintro ⟨s, hs, hkey, -⟩
      rw [(resolve_iff hwell).mpr ⟨hs, hkey⟩] at hres
      cases hres
  | some s =>
    obtain ⟨hs, hkey⟩ := resolve_some hres
    have hnodup := (hwell.schemas s hs).names_nodup
    have honly : ∀ t ∈ r.schemas, t.key = c.key → t = s := by
      intro t ht htkey
      exact Option.some.inj (((resolve_iff hwell).mpr ⟨ht, htkey⟩).symm.trans hres)
    refine ⟨?_, ?_⟩
    · rw [validate_schema_accepted hnodup]
      constructor
      · intro hc
        exact ⟨s, hs, hkey, hc⟩
      · rintro ⟨t, ht, htkey, hc⟩
        exact honly t ht htkey ▸ hc
    · intro hacc t ht htkey
      rw [honly t ht htkey]
      exact validate_schema_sorts hnodup c.names_nodup ((validate_schema_accepted hnodup).mp hacc)

theorem candidate_validated_example :
    (∃ s ∈ exampleRegistry.schemas, s.key = (exampleCandidate (.int 7) "x").key
      ∧ Complies s (exampleCandidate (.int 7) "x").payload_map)
    ∧ ∀ s ∈ exampleRegistry.schemas, s.key = (exampleCandidate (.int 7) "x").key →
      Sorts s (exampleCandidate (.int 7) "x").payload_map
        (validate_candidate registryPython exampleRegistry (exampleCandidate (.int 7) "x")) := by
  have haccepted : (validate_candidate registryPython exampleRegistry
      (exampleCandidate (.int 7) "x")).accepted = true := by decide +kernel
  obtain ⟨hacc, hsorts⟩ := candidate_validated exampleRegistry_parsed (exampleCandidate (.int 7) "x")
  exact ⟨hacc.mp haccepted, hsorts haccepted⟩

/-! ## two runs -/

/-- two payloads with the same names in the same order, whose values have the declared types alike -/
structure Alike (s : EventSchema) (p q : List (Str × Obj)) : Prop where
  names_eq : names p = names q
  types_iff : ∀ f ∈ s.fields, ∀ v w, (f.name, v) ∈ p → (f.name, w) ∈ q →
    (HasType f.value_type v ↔ HasType f.value_type w)

theorem assign_mem {α : Type} {key : Str} {value : α} {d : List (Str × α)} {e : Str × α}
    (h : e ∈ assign key value d) : e = (key, value) ∨ e ∈ d := by
  induction d with
  | nil => exact .inl (List.mem_singleton.mp h)
  | cons head rest ih =>
    change e ∈ (if head.1 = key then _ else _) at h
    split_ifs at h with hkey
    · cases List.mem_cons.mp h with
      | inl heq => exact .inl heq
      | inr hrest => exact .inr (List.mem_cons_of_mem _ hrest)
    · cases List.mem_cons.mp h with
      | inl heq => exact .inr (heq ▸ List.mem_cons_self)
      | inr hrest => exact (ih hrest).imp_right (List.mem_cons_of_mem _)

/-- of several fields of one name the map holds one -/
theorem field_map_mem {e : Str × FieldDecl} (h : e ∈ s.field_map) : e.2 ∈ s.fields ∧ e.2.name = e.1 := by
  have hfold : ∀ (fields : List FieldDecl) (d : List (Str × FieldDecl)),
      (∀ e ∈ d, e.2 ∈ s.fields ∧ e.2.name = e.1) → (∀ f ∈ fields, f ∈ s.fields) →
      ∀ e ∈ fields.foldl (fun d f => assign f.name f d) d, e.2 ∈ s.fields ∧ e.2.name = e.1 := by
    intro fields
    induction fields with
    | nil => exact fun d hd _ => hd
    | cons f fields ih =>
      intro d hd hfields
      refine ih _ ?_ fun g hg => hfields g (List.mem_cons_of_mem _ hg)
      intro e he
      cases assign_mem he with
      | inl heq => exact heq ▸ ⟨hfields f List.mem_cons_self, rfl⟩
      | inr hmem => exact hd e hmem
  exact hfold s.fields [] (by simp) (fun _ hf => hf) e h

theorem field_map_lookup {name : Str} {f : FieldDecl} (h : s.field_map.lookup name = some f) :
    f ∈ s.fields ∧ f.name = name := by
  obtain ⟨before, after, heq, -⟩ := List.lookup_eq_some_iff.mp h
  have hmem : (name, f) ∈ s.field_map := by
    rw [heq]
    simp
  exact field_map_mem hmem

@[simp] theorem names_snoc (p : List (Str × Obj)) (e : Str × Obj) :
    names (p ++ [e]) = names p ++ [e.1] := List.map_append

/-- what the result shows of the variables of the loop -/
def Split.shape (found : Split) : List Str × List Str × List Str :=
  (found.opaque_names, found.dropped, names found.kept)

theorem accepted_shape {found found' : Split} (h : found.shape = found'.shape) :
    s.accepted r found = s.accepted r found' := by
  simp only [Split.shape, Prod.mk.injEq] at h
  obtain ⟨hunknown, hdropped, hkept⟩ := h
  unfold EventSchema.accepted approved
  rw [hunknown, hdropped, hkept]

variable (python) in
/-- the loop goes the same way over two such payloads -/
theorem split_payload_alike (policy : Policy) {p q : List (Str × Obj)} (h : Alike s p q)
    {found found' : Split} (hfound : found.shape = found'.shape) :
    (split_payload python policy s.field_map p found).map Split.shape
      = (split_payload python policy s.field_map q found').map Split.shape := by
  induction p generalizing q found found' with
  | nil =>
    have hq : q = [] := List.map_eq_nil_iff.mp h.names_eq.symm
    rw [hq]
    exact congrArg Except.ok hfound
  | cons e p ih =>
    cases q with
    | nil => cases h.names_eq
    | cons e' q =>
      have hnames := List.cons.inj h.names_eq
      have hname : e.1 = e'.1 := hnames.1
      have hrest : Alike s p q := ⟨hnames.2, fun f hf v w hv hw =>
        h.types_iff f hf v w (List.mem_cons_of_mem _ hv) (List.mem_cons_of_mem _ hw)⟩
      simp only [Split.shape, Prod.mk.injEq] at hfound
      obtain ⟨hunknown, hdropped, hkept⟩ := hfound
      rw [split_payload, split_payload, ← hname]
      cases hdecl : s.field_map.lookup e.1 with
      | none =>
        dsimp only
        split_ifs
        · rfl
        · apply ih hrest
          simp [Split.shape, hunknown, hdropped, hkept, hname]
      | some f =>
        obtain ⟨hf, hfname⟩ := field_map_lookup hdecl
        have htypes : _value_matches_type f.value_type e.2 = _value_matches_type f.value_type e'.2 := by
          rw [Bool.eq_iff_iff, _value_matches_type_iff, _value_matches_type_iff]
          apply h.types_iff f hf
          · rw [hfname]
            exact List.mem_cons_self
          · rw [hfname, hname]
            exact List.mem_cons_self
        dsimp only
        rw [htypes]
        split_ifs
        · rfl
        · apply ih hrest
          simp [Split.shape, hunknown, hdropped, hkept]
        · apply ih hrest
          simp [Split.shape, hunknown, hdropped, hkept, hname]

theorem validate_schema_alike {p q : List (Str × Obj)} (h : Alike s p q) :
    validate_schema python r s p = validate_schema python r s q := by
  have hforbidden : forbidden p = forbidden q := by
    funext name decl
    rw [forbidden, forbidden, h.names_eq]
  have hrejects : rejects p = rejects q := by
    funext name decl
    rw [rejects, rejects, h.names_eq]
  have hmisses : misses p = misses q := by
    funext name decl
    rw [misses, misses, h.names_eq]
  have hsplit := split_payload_alike python s.compatibility_policy h
    (rfl : (Split.mk [] [] []).shape = _)
  have hlast : s.conclude r (split_payload python s.compatibility_policy s.field_map p ⟨[], [], []⟩)
      = s.conclude r (split_payload python s.compatibility_policy s.field_map q ⟨[], [], []⟩) := by
    revert hsplit
    cases split_payload python s.compatibility_policy s.field_map p ⟨[], [], []⟩ with
    | error reason =>
      cases split_payload python s.compatibility_policy s.field_map q ⟨[], [], []⟩ with
      | error reason' => exact fun h => congrArg (s.rejected r) (Except.error.inj h)
      | ok found' => exact fun h => by cases h
    | ok found =>
      cases split_payload python s.compatibility_policy s.field_map q ⟨[], [], []⟩ with
      | error reason' => exact fun h => by cases h
      | ok found' => exact fun h => accepted_shape (Except.ok.inj h)
  unfold validate_schema
  rw [hforbidden, hrejects, hmisses]
  dsimp only
  rw [hlast]

/-- **The result says nothing of a value but whether it has its declared type.** -/
theorem candidate_alike (python : Python) (r : LoadedRegistry) (c d : Candidate)
    (hkey : c.key = d.key) (hnames : names c.payload_map = names d.payload_map)
    (htypes : ∀ s, r.resolve c.key = some s → ∀ f ∈ s.fields, ∀ v w, (f.name, v) ∈ c.payload_map →
      (f.name, w) ∈ d.payload_map → (HasType f.value_type v ↔ HasType f.value_type w)) :
    validate_candidate python r c = validate_candidate python r d := by
  unfold validate_candidate
  rw [← hkey]
  cases hres : r.resolve c.key with
  | none => rfl
  | some s => exact validate_schema_alike ⟨hnames, htypes s hres⟩

end

/-- two candidates whose secrets differ -/
theorem candidate_alike_example :
    validate_candidate registryPython exampleRegistry (exampleCandidate (.int 7) "x")
      = validate_candidate registryPython exampleRegistry (exampleCandidate (.int 8) "y") := by
  apply candidate_alike registryPython exampleRegistry (exampleCandidate (.int 7) "x")
    (exampleCandidate (.int 8) "y") rfl rfl
  intro s _ f _ v w hv hw
  simp only [exampleCandidate, Candidate.payload_map, List.mem_cons, Prod.mk.injEq,
    List.not_mem_nil, or_false] at hv hw
  have hne : lit "n" ≠ lit "token" := by decide
  rw [← _value_matches_type_iff, ← _value_matches_type_iff]
  generalize f.value_type = t
  rcases hv with ⟨hn, rfl⟩ | ⟨hn, rfl⟩
  · rcases hw with ⟨-, rfl⟩ | ⟨hm, rfl⟩
    · cases t <;> decide
    · exact absurd (hn.symm.trans hm) hne
  · rcases hw with ⟨hm, rfl⟩ | ⟨-, rfl⟩
    · exact absurd (hm.symm.trans hn) hne
    · cases t <;> decide

end Dtj.Mcp
