import Dtj.Mcp.Candidate

/-!
# Schemas that a payload can satisfy

`_parse_field` refuses a required field that is dropped, but not a required field that is rejected:
nothing is accepted for an event that declares one.

* `Contradicts`              a field of a document is required, and has that action;
* `least`                    the payload of the required fields;
* `Complies.least`           **it keeps to a schema that requires nothing it rejects or drops**;
* `Coherent`                 what is promised of a document;
* `registry_coherent_iff`    **it holds when no field is required and rejected**.
-/

namespace Dtj.Mcp

/-! ## fields of a document -/

section
variable (python : Python)

/-- the action that a field asks for, or that of its sensitivity -/
def actionText (raw : Dict) : Str :=
  match optionalText python raw "redaction_action" with
  | some text => text
  | none =>
    let sensitivity := python.str (get raw "sensitivity")
    if sensitivity = lit "secret_forbidden" then lit "reject"
    else if sensitivity = lit "sensitive" then lit "drop_field"
    else lit "allow"

/-- the field is required, and its action is `action` -/
def Contradicts (action : RedactionAction) : Py → Prop
  | .dict raw => (get raw "required").truthy = true ∧ actionText python raw = action.name
  | _ => False

end

def entryFields : Py → List Py
  | .dict entry =>
    match get entry "fields" with
    | .list raws => raws
    | _ => []
  | _ => []

/-- the fields of all schemas of a document -/
def rawFields : Py → List Py
  | .dict data =>
    match get data "schemas" with
    | .list entries => entries.flatMap entryFields
    | _ => []
  | _ => []

theorem named_ok {α : Type} {name : α → Str} {table : List α} {message text : Str} {a : α}
    (h : named name table message text = .ok a) : name a = text := by
  unfold named at h
  cases hfound : table.find? fun a => decide (name a = text) with
  | none =>
    rw [hfound] at h
    cases h
  | some b =>
    rw [hfound] at h
    cases h
    have hb := List.find?_some hfound
    exact of_decide_eq_true hb

theorem item_ok {missing : Raised} {d : Dict} {key : Str} {value : Py}
    (h : item missing d key = .ok value) : get d key = value := by
  unfold item at h
  cases hfound : d.lookup key with
  | none =>
    rw [hfound] at h
    cases h
  | some v =>
    rw [hfound] at h
    cases h
    rw [get, getD, hfound]
    rfl

theorem array_ok {message : Str} {value : Py} {xs : List Py} (h : array message value = .ok xs) :
    value = .list xs := by
  cases value with
  | list ys =>
    cases h
    rfl
  | _ => cases h

theorem RedactionAction.name_inj {a b : RedactionAction} (h : a.name = b.name) : a = b := by
  revert h
  cases a <;> cases b <;> decide

section
variable {python : Python}

/-- what the default of a sensitivity is called -/
theorem redactionAction_name {raw : Dict} {sensitivity : Sensitivity} {action : RedactionAction}
    (hs : sensitivity.name = python.str (get raw "sensitivity"))
    (h : redactionAction sensitivity (optionalText python raw "redaction_action") = .ok action) :
    action.name = actionText python raw := by
  unfold actionText
  cases htext : optionalText python raw "redaction_action" with
  | some text =>
    rw [htext] at h
    exact named_ok h
  | none =>
    rw [htext] at h
    cases h
    dsimp only
    rw [← hs]
    cases sensitivity <;> decide

/-- what a parsed field keeps of the two keys -/
theorem _parse_field_contradicts {raw : Py} {f : FieldDecl} (h : _parse_field python raw = .ok f)
    (action : RedactionAction) :
    Contradicts python action raw ↔ f.required = true ∧ f.redaction_action = action := by
  cases raw with
  | dict raw =>
    obtain ⟨name, -, h⟩ := bind_eq_ok h
    obtain ⟨value_type, -, h⟩ := bind_eq_ok h
    obtain ⟨required, hrequired, h⟩ := bind_eq_ok h
    obtain ⟨sensitivity_raw, hraw, h⟩ := bind_eq_ok h
    obtain ⟨value_type, -, h⟩ := bind_eq_ok h
    obtain ⟨sensitivity, hsensitivity, h⟩ := bind_eq_ok h
    obtain ⟨graph_role, -, h⟩ := bind_eq_ok h
    obtain ⟨_, -, h⟩ := bind_eq_ok h
    obtain ⟨semantic_role, -, h⟩ := bind_eq_ok h
    obtain ⟨redaction_action, haction, h⟩ := bind_eq_ok h
    obtain ⟨_, -, h⟩ := bind_eq_ok h
    obtain ⟨_, -, h⟩ := bind_eq_ok h
    cases h
    have hname := named_ok hsensitivity
    rw [← item_ok hraw] at hname
    have hcalled := redactionAction_name hname haction
    show (get raw "required").truthy = true ∧ actionText python raw = action.name ↔ _
    rw [item_ok hrequired, ← hcalled]
    exact and_congr_right' ⟨RedactionAction.name_inj, congrArg RedactionAction.name⟩
  | _ => cases h

/-! ## what a document and its schemas have in common -/

theorem exists_congr_pairs {α β : Type} {R : α → β → Prop} {P : α → Prop} {Q : β → Prop} {xs : List α}
    {ys : List β} (h : List.Forall₂ R xs ys) (hpq : ∀ a b, R a b → (P a ↔ Q b)) :
    (∃ a ∈ xs, P a) ↔ ∃ b ∈ ys, Q b := by
  induction h with
  | nil => simp
  | cons hab _ ih => rw [List.exists_mem_cons_iff, List.exists_mem_cons_iff, hpq _ _ hab, ih]

theorem parse_fields_pairs {raws : List Py} {seen_names : List Str} {fields : List FieldDecl}
    (h : parse_fields python seen_names raws = .ok fields) :
    List.Forall₂ (fun raw f => _parse_field python raw = .ok f) raws fields := by
  induction raws generalizing seen_names fields with
  | nil =>
    cases h
    exact .nil
  | cons raw rest ih =>
    obtain ⟨decl, hdecl, h⟩ := bind_eq_ok h
    obtain ⟨_, -, h⟩ := bind_eq_ok h
    obtain ⟨others, hothers, h⟩ := bind_eq_ok h
    cases h
    exact .cons hdecl (ih hothers)

theorem _parse_event_schema_pairs {entry : Py} {s : EventSchema}
    (h : _parse_event_schema python entry = .ok s) :
    List.Forall₂ (fun raw f => _parse_field python raw = .ok f) (entryFields entry) s.fields := by
  cases entry with
  | dict entry =>
    obtain ⟨schema_id, -, h⟩ := bind_eq_ok h
    obtain ⟨version_raw, -, h⟩ := bind_eq_ok h
    obtain ⟨schema_version, -, h⟩ := bind_eq_ok h
    obtain ⟨producer_profile_id, -, h⟩ := bind_eq_ok h
    obtain ⟨policy, -, h⟩ := bind_eq_ok h
    obtain ⟨domain, -, h⟩ := bind_eq_ok h
    obtain ⟨category, -, h⟩ := bind_eq_ok h
    obtain ⟨event_name, -, h⟩ := bind_eq_ok h
    obtain ⟨fields_raw, hraw, h⟩ := bind_eq_ok h
    obtain ⟨policy, -, h⟩ := bind_eq_ok h
    obtain ⟨_, -, h⟩ := bind_eq_ok h
    obtain ⟨raws, harray, h⟩ := bind_eq_ok h
    obtain ⟨fields, hfields, h⟩ := bind_eq_ok h
    cases h
    have hentry : entryFields (.dict entry) = raws := by
      rw [entryFields, item_ok hraw, array_ok harray]
    rw [hentry]
    exact parse_fields_pairs hfields
  | _ => cases h

theorem parse_schemas_pairs {entries : List Py} {seen_keys : List SchemaKey}
    {schemas : List EventSchema} (h : parse_schemas python seen_keys entries = .ok schemas) :
    List.Forall₂ (fun raw f => _parse_field python raw = .ok f) (entries.flatMap entryFields)
      (schemas.flatMap EventSchema.fields) := by
  induction entries generalizing seen_keys schemas with
  | nil =>
    cases h
    exact .nil
  | cons entry rest ih =>
    obtain ⟨schema, hschema, h⟩ := bind_eq_ok h
    obtain ⟨_, -, h⟩ := bind_eq_ok h
    obtain ⟨others, hothers, h⟩ := bind_eq_ok h
    cases h
    rw [List.flatMap_cons, List.flatMap_cons]
    exact List.rel_append (_parse_event_schema_pairs hschema) (ih hothers)

/-- the fields of the document are those of the schemas, one by one -/
theorem registry_pairs {data : Py} {schemas : List EventSchema}
    (h : _parse_registry_document python data = .ok schemas) :
    List.Forall₂ (fun raw f => _parse_field python raw = .ok f) (rawFields data)
      (schemas.flatMap EventSchema.fields) := by
  cases data with
  | dict data =>
    simp only [_parse_registry_document] at h
    split_ifs at h with hversion
    split at h
    · rename_i entry rest hentries
      rw [rawFields, hentries]
      exact parse_schemas_pairs h
    · cases h
  | _ => cases h

theorem contradicts_iff {data : Py} {schemas : List EventSchema}
    (h : _parse_registry_document python data = .ok schemas) (action : RedactionAction) :
    (∃ raw ∈ rawFields data, Contradicts python action raw)
      ↔ ∃ s ∈ schemas, ∃ f ∈ s.fields, f.required = true ∧ f.redaction_action = action := by
  rw [exists_congr_pairs (registry_pairs h) fun raw f hf => _parse_field_contradicts hf action]
  simp only [List.mem_flatMap]
  constructor
  · rintro ⟨f, ⟨s, hs, hf⟩, hc⟩
    exact ⟨s, hs, f, hf, hc⟩
  · rintro ⟨s, hs, f, hf, hc⟩
    exact ⟨f, ⟨s, hs, hf⟩, hc⟩

end

/-! ## a payload of the required fields -/

/-- a value of each type -/
def sample : ValueType → Obj
  | .Bool => .bool false
  | .InternedString => .str []
  | .Bytes => .bytes []
  | .Vec2F32 => .list [.int 0, .int 0]
  | .Vec3F32 => .list [.int 0, .int 0, .int 0]
  | _ => .int 0

theorem sample_hasType (t : ValueType) : HasType t (sample t) := by
  rw [← _value_matches_type_iff]
  cases t <;> decide

def EventSchema.least (s : EventSchema) : List (Str × Obj) :=
  (s.fields.filter FieldDecl.required).map fun f => (f.name, sample f.value_type)

section
variable {s : EventSchema}

theorem names_least : names s.least = (s.fields.filter FieldDecl.required).map FieldDecl.name := by
  rw [names, EventSchema.least, List.map_map]
  rfl

theorem least_nodup (h : s.WellFormed) : (names s.least).Nodup := by
  rw [names_least]
  exact h.names_nodup.sublist (List.filter_sublist.map FieldDecl.name)

theorem name_mem_least (h : s.WellFormed) {f : FieldDecl} (hf : f ∈ s.fields) :
    f.name ∈ names s.least ↔ f.required = true := by
  rw [names_least, List.mem_map]
  constructor
  · rintro ⟨g, hg, hname⟩
    obtain ⟨hg, hrequired⟩ := List.mem_filter.mp hg
    rwa [← List.inj_on_of_nodup_map h.names_nodup hg hf hname]
  · intro hrequired
    exact ⟨f, List.mem_filter.mpr ⟨hf, hrequired⟩, rfl⟩

/-- **the payload of the required fields keeps to the schema** -/
theorem Complies.least (h : s.WellFormed)
    (hno : ∀ f ∈ s.fields, ¬ (f.required = true ∧ f.redaction_action = .reject)) :
    Complies s s.least := by
  constructor
  · intro f hf hname
    have hrequired := (name_mem_least h hf).mp hname
    have hreject : f.redaction_action ≠ .reject := fun haction => hno f hf ⟨hrequired, haction⟩
    exact ⟨fun hsecret => hreject ((h.fields f hf).secret_reject hsecret), hreject⟩
  · intro f hf hrequired
    exact (name_mem_least h hf).mpr hrequired
  · intro _ name hname
    rw [names_least, List.mem_map] at hname
    obtain ⟨f, hf, hname⟩ := hname
    exact ⟨f, List.mem_of_mem_filter hf, hname⟩
  · intro f hf value hvalue
    obtain ⟨g, hg, heq⟩ := List.mem_map.mp hvalue
    obtain ⟨hname, hsample⟩ := Prod.mk.inj heq
    rw [← List.inj_on_of_nodup_map h.names_nodup (List.mem_of_mem_filter hg) hf hname, ← hsample]
    exact sample_hasType g.value_type

/-- what is required and rejected is neither there nor missing -/
theorem Complies.not_contradictory {payload : List (Str × Obj)} (h : Complies s payload)
    {f : FieldDecl} (hf : f ∈ s.fields) : ¬ (f.required = true ∧ f.redaction_action = .reject) := by
  rintro ⟨hrequired, hreject⟩
  exact (h.allowed f hf (h.complete f hf hrequired)).2 hreject

end

/-! ## the registry -/

section
variable {python : Python} {path digest : Str} {data : Py} {schemas : List EventSchema}

/-- the validator accepts a payload for the event of a schema -/
def Satisfiable (python : Python) (r : LoadedRegistry) (s : EventSchema) : Prop :=
  ∃ payload, (validate_candidate python r ⟨s.key, payload⟩).accepted = true

theorem satisfiable_iff {r : LoadedRegistry} (hr : WellFormed r.schemas) {s : EventSchema}
    (hs : s ∈ r.schemas) : Satisfiable python r s
      ↔ ∀ f ∈ s.fields, ¬ (f.required = true ∧ f.redaction_action = .reject) := by
  have hwell := hr.schemas s hs
  have hcheck (payload : Option Payload) : (validate_candidate python r ⟨s.key, payload⟩).accepted = true
      ↔ Complies s (Candidate.mk s.key payload).payload_map := by
    rw [validate_candidate, (resolve_iff hr).mpr ⟨hs, rfl⟩]
    exact validate_schema_accepted hwell.names_nodup
  constructor
  · rintro ⟨payload, haccepted⟩ f hf
    exact ((hcheck payload).mp haccepted).not_contradictory hf
  · intro hno
    exact ⟨some ⟨s.least, least_nodup hwell⟩, (hcheck _).mpr (.least hwell hno)⟩

/-- what is promised of a document: each schema of it can be satisfied, and it is refused if a
required field is rejected or dropped where it is present -/
structure Coherent (python : Python) (path digest : Str) (data : Py) : Prop where
  satisfiable : ∀ schemas, _parse_registry_document python data = .ok schemas →
    ∀ s ∈ schemas, Satisfiable python ⟨path, digest, 1, schemas⟩ s
  refused : (∃ raw ∈ rawFields data, Contradicts python .reject raw ∨ Contradicts python .drop_field raw) →
    ∃ e, _parse_registry_document python data = .error e

/-- **A document that is accepted keeps the promise if and only if none of its fields is required and
rejected.** -/
theorem registry_coherent_iff (h : _parse_registry_document python data = .ok schemas) :
    Coherent python path digest data ↔ ∀ raw ∈ rawFields data, ¬ Contradicts python .reject raw := by
  have hwell := registry_wellFormed h
  constructor
  · intro hc raw hraw hreject
    obtain ⟨e, he⟩ := hc.refused ⟨raw, hraw, .inl hreject⟩
    rw [h] at he
    cases he
  · intro hno
    constructor
    · intro schemas' h' s hs
      cases h.symm.trans h'
      refine (satisfiable_iff hwell hs).mpr ?_
      intro f hf hcontra
      obtain ⟨raw, hraw, hreject⟩ := (contradicts_iff h .reject).mpr ⟨s, hs, f, hf, hcontra⟩
      exact hno raw hraw hreject
    · rintro ⟨raw, hraw, hreject | hdrop⟩
      · exact absurd hreject (hno raw hraw)
      · -- the parser refuses these
        obtain ⟨s, hs, f, hf, hrequired, haction⟩ := (contradicts_iff h .drop_field).mp ⟨raw, hraw, hdrop⟩
        have hoptional := ((hwell.schemas s hs).fields f hf).optional_drop haction
        rw [hrequired] at hoptional
        cases hoptional

end

theorem registry_coherent_example :
    Coherent registryPython (lit "r.json") (lit "00") registryDocument := by
  refine (registry_coherent_iff exampleRegistry_parsed).mpr ?_
  have hfields : rawFields registryDocument = [exampleField "n" "I32" [(lit "sensitivity", .str "public")],
    exampleField "token" "InternedString" [(lit "sensitivity", .str "sensitive")]] := rfl
  rw [hfields, List.forall_mem_cons, List.forall_mem_singleton]
  constructor
  · rintro ⟨hrequired, -⟩
    cases hrequired
  · rintro ⟨hrequired, -⟩
    cases hrequired

/-- a required field that is forbidden -/
def forbiddenToken : Py := .dict [(lit "name", .str "token"), (lit "value_type", .str "InternedString"),
  (lit "required", .bool true), (lit "sensitivity", .str "secret_forbidden")]

def contradictoryDocument : Py := .dict [(lit "registry_version", .int 1), (lit "schemas", .list [.dict [
  (lit "schema_id", .str "s"), (lit "schema_version", .int 1),
  (lit "producer_profile_id", .str "p"), (lit "compatibility_policy", .str "strict"),
  (lit "domain", .str "d"), (lit "category", .str "c"), (lit "event_name", .str "e"),
  (lit "fields", .list [forbiddenToken])]])]

/-- the document is accepted, and no payload is -/
theorem contradiction_accepted : ∃ schemas s,
    _parse_registry_document registryPython contradictoryDocument = .ok schemas ∧ s ∈ schemas
    ∧ ¬ Satisfiable registryPython ⟨lit "r.json", lit "00", 1, schemas⟩ s := by
  obtain ⟨schemas, h⟩ :
      ∃ schemas, _parse_registry_document registryPython contradictoryDocument = .ok schemas := ⟨_, rfl⟩
  have hraw : forbiddenToken ∈ rawFields contradictoryDocument := List.mem_singleton_self forbiddenToken
  obtain ⟨s, hs, f, hf, hcontra⟩ := (contradicts_iff h .reject).mp ⟨forbiddenToken, hraw, rfl, rfl⟩
  refine ⟨schemas, s, h, hs, ?_⟩
  rw [satisfiable_iff (r := ⟨lit "r.json", lit "00", 1, schemas⟩) (registry_wellFormed h) hs]
  intro hno
  exact hno f hf hcontra

end Dtj.Mcp
