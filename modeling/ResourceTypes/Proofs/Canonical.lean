import ResourceTypes.Proofs.Descriptor.Same
import ResourceTypes.Proofs.Schema.Denotation

/-!
The form of every type that is compiled against a loaded registry. Each type
inside, shared or not, stands for a schema that keeps to the grammar: one of the
document, or one of the catalog. What the grammar asks of that schema is what
the type shows.
-/

namespace ResourceTypes

/-- A type in canonical form: made as its kind asks, with distinct property
names, and with validation keywords that belong on its kind and have values of it. -/
structure TypeDescriptor.Canonical (type : TypeDescriptor) : Prop where
  object : type.kind = .object → type.element? = none
  container : type.kind = .map ∨ type.kind = .array →
    type.element?.isSome ∧ type.properties = []
  scalar : type.kind.isScalar → type.element? = none ∧ type.properties = []
  distinct : (type.properties.map (·.name)).Nodup
  allowed : ∀ name value, (name, value) ∈ type.validation → Keyword.allows name type.kind
  enum : ∀ value, ("enum", value) ∈ type.validation →
    ∃ entries, value = .array entries ∧ ∀ entry ∈ entries, entry.isOfKind type.kind
  default : ∀ value, ("default", value) ∈ type.validation → value.isOfKind type.kind

/-- The types of a document that are written in place, each with the place of
its schema: below `properties` under its name, or else under the keyword that
belongs to a map or an array. -/
inductive TypeDescriptor.WrittenAt (root : TypeDescriptor) : Path → TypeDescriptor → Prop
  | root : WrittenAt root .root root
  | property {path : Path} {outer inner : TypeDescriptor} {property : Property}
      (around : WrittenAt root path outer) (inside : property ∈ outer.properties)
      (written : property.type = .authored inner) :
      WrittenAt root ((path.key "properties").key property.name) inner
  | value {path : Path} {outer inner : TypeDescriptor} (around : WrittenAt root path outer)
      (mapped : outer.kind = .map) (inside : outer.element? = some (.authored inner)) :
      WrittenAt root (path.key "additionalProperties") inner
  | item {path : Path} {outer inner : TypeDescriptor} (around : WrittenAt root path outer)
      (listed : outer.kind = .array) (inside : outer.element? = some (.authored inner)) :
      WrittenAt root (path.key "items") inner

namespace Language

section Denotes

variable {table : TypeTable} {schema : Json} {type : TypeDescriptor} {handle : TypeHandle}

/-- The attributes of a schema that keeps to the rules for its kind are in order. -/
theorem canonical_written {members : Members Json} {declared : SpelledKind}
    (hnodup : members.names.Nodup) (hdeclares : Declares members declared) {shape : Shape}
    (hkind : shape.kind = kindOf members declared)
    (hdistinct : (shape.properties.map (·.name)).Nodup) : (written members shape).Canonical := by
  have hfound {name : String} {value : Json} (hmem : (name, value) ∈ attributesOf members) :
      members.get? name = some value ∧ Keyword.classOf name = .validation := by
    obtain ⟨hmember, hclass⟩ := List.mem_filter.1 hmem
    exact ⟨Members.get?_of_mem hnodup hmember, of_decide_eq_true hclass⟩
  have hsame : (written members shape).kind = kindOf members declared := hkind
  constructor
  case distinct => exact hdistinct
  case allowed =>
    intro name value hmem
    obtain ⟨hvalue, hclass⟩ := hfound hmem
    rw [hsame]
    exact hdeclares.allowed name (Members.mem_names_of_get? hvalue) hclass
  case enum =>
    intro value hmem
    rw [hsame]
    exact hdeclares.enum value (hfound hmem).1
  case default =>
    intro value hmem
    rw [hsame]
    exact hdeclares.default value (hfound hmem).1
  all_goals
    cases shape <;> simp [written, TypeDescriptor.kind, Shape.kind, TypeDescriptor.element?,
      Shape.element?, TypeDescriptor.properties, Shape.properties, Kind.isScalar]

/-- What a schema stands for in place is canonical, and its attributes are proper. -/
theorem Denotes.canonical (hproper : schema.Proper) (h : Denotes table schema (.authored type)) :
    type.Canonical := by
  cases h with
  | scalar shaped declares => exact canonical_written hproper.1 declares rfl .nil
  | array shaped declares => exact canonical_written hproper.1 declares rfl .nil
  | map shaped declares found =>
      refine canonical_written hproper.1 declares ?_ .nil
      rw [kindOf, if_pos ⟨rfl, by rw [maps, found]⟩]
      rfl
  | object shaped declares closed names =>
      refine canonical_written hproper.1 declares ?_ ?_
      · rw [kindOf, if_neg (by simp [closed])]
        rfl
      · rw [Shape.properties, names]
        exact (proper_schemasOf hproper).1

theorem Denotes.proper_validation (hproper : schema.Proper)
    (h : Denotes table schema (.authored type)) : (Json.object type.validation).Proper := by
  rcases h.handle with ⟨id, target, heq⟩ | ⟨members, shape, rfl, heq⟩
  · cases heq
  · obtain rfl := TypeHandle.authored.inj heq
    obtain ⟨hnodup, hmembers⟩ := hproper
    refine ⟨hnodup.sublist (List.filter_sublist.map _), ?_⟩
    rw [Json.properMembers_iff] at hmembers ⊢
    exact fun pair hpair => hmembers pair (List.mem_of_mem_filter hpair)

/-- Each type directly inside is, up to notes, what a schema directly inside stands for. -/
theorem Denotes.of_handles (hproper : schema.Proper) (h : Denotes table schema (.authored type))
    (hinside : handle ∈ type.handles) :
    ∃ inner other, inner.Proper ∧ Denotes table inner other ∧ other.type = handle.type := by
  cases h with
  | scalar shaped declares => cases hinside
  | @array members item other shaped declares found inside =>
      obtain rfl := List.mem_singleton.1 hinside
      exact ⟨item, other, (Inside.items found).proper hproper, inside, by simp [noted]⟩
  | @map members fields other shaped declares found inside =>
      obtain rfl := List.mem_singleton.1 hinside
      exact ⟨.object fields, other, (Inside.value found).proper hproper, inside, by simp [noted]⟩
  | @object members properties shaped declares closed names marked inside =>
      rw [written, TypeDescriptor.handles_object] at hinside
      obtain ⟨property, hproperty, rfl⟩ := List.mem_map.1 hinside
      obtain ⟨inner, hinner⟩ := exists_schema names hproperty
      exact ⟨inner, property.type, proper_of_mem_schemasOf hproper hinner,
        inside property hproperty inner hinner, rfl⟩

/-- Notes at the use change nothing about a type that is written in place. -/
theorem Denotes.of_noted (h : Denotes table schema handle)
    (heq : noted schema handle = .authored type) : Denotes table schema (.authored type) := by
  cases handle with
  | authored other =>
      obtain rfl := TypeHandle.authored.inj heq
      exact h
  | referenced => cases heq

/-- At the place of a type stands the schema that it was made from. -/
theorem Denotes.at_place (hproper : schema.Proper) (h : Denotes table schema (.authored type))
    {path : Path} {inner : TypeDescriptor} (hat : type.WrittenAt path inner) :
    ∃ found, schema.at? path = some found ∧ found.Proper ∧
      Denotes table found (.authored inner) := by
  -- the schema around a type is known, and the one it was made from is found inside
  induction hat with
  | root => exact ⟨schema, rfl, hproper, h⟩
  | @property path outer inner property around inside written ih =>
      obtain ⟨found, hfound, hfoundProper, hdenotes⟩ := ih
      cases hdenotes with
      | @object members properties shaped declares closed names marked denotes =>
          obtain ⟨below, hbelow⟩ := exists_schema names inside
          refine ⟨below, ?_, proper_of_mem_schemasOf hfoundProper hbelow, ?_⟩
          · rw [Json.at?_key, Json.at?_key, hfound, Option.bind_some, Json.member?_object,
              get?_properties hbelow, Option.bind_some, Json.member?_object]
            exact Members.get?_of_mem (proper_schemasOf hfoundProper).1 hbelow
          · rw [← written]
            exact denotes property inside below hbelow
      | _ => cases inside
  | @value path outer inner around mapped inside ih =>
      obtain ⟨found, hfound, hfoundProper, hdenotes⟩ := ih
      cases hdenotes with
      | @map members fields handle shaped declares below denotes =>
          refine ⟨.object fields, ?_, (Inside.value below).proper hfoundProper, ?_⟩
          · rw [Json.at?_key, hfound, Option.bind_some, Json.member?_object, below]
          · exact denotes.of_noted (Option.some.inj inside)
      | _ => cases mapped
  | @item path outer inner around listed inside ih =>
      obtain ⟨found, hfound, hfoundProper, hdenotes⟩ := ih
      cases hdenotes with
      | @array members item handle shaped declares below denotes =>
          refine ⟨item, ?_, (Inside.items below).proper hfoundProper, ?_⟩
          · rw [Json.at?_key, hfound, Option.bind_some, Json.member?_object, below]
          · exact denotes.of_noted (Option.some.inj inside)
      | _ => cases listed

end Denotes

end Language

open ResourceTypes.Language

namespace Catalog

section Sound

variable {scope : Scope} {registry : Registry} {schema : Json} {type inner : TypeDescriptor}

/-- A shared type was compiled from a schema of the catalog, so that every handle
leads to a type that a schema stands for in place. -/
theorem Sound.denoted (hsound : Sound scope registry)
    (hschemas : ∀ entry ∈ scope.entries, entry.schema.Proper) {handle : TypeHandle}
    (hproper : schema.Proper) (h : Denotes registry.table schema handle) :
    ∃ source : Json, source.Proper ∧ Denotes registry.table source (.authored handle.type) := by
  cases handle with
  | authored type => exact ⟨schema, hproper, h⟩
  | referenced id target description readOnly =>
      cases h with
      | reference shaped refers names found =>
          obtain ⟨entry, hentry, -, hcompile⟩ := hsound.origin id _ found
          have hsource := hschemas entry hentry
          exact ⟨entry.schema, hsource, denotes_of_compile hsource hcompile⟩

/-- All types inside stand for schemas, those of the document or of the catalog. -/
theorem Sound.denoted_of_contains (hsound : Sound scope registry)
    (hschemas : ∀ entry ∈ scope.entries, entry.schema.Proper) (hproper : schema.Proper)
    (h : Denotes registry.table schema (.authored type)) (hcontains : type.Contains inner) :
    ∃ source : Json, source.Proper ∧ Denotes registry.table source (.authored inner) := by
  induction hcontains with
  | refl => exact ⟨schema, hproper, h⟩
  | tail _ hstep ih =>
      obtain ⟨around, haround, hdenotes⟩ := ih
      obtain ⟨handle, hinside, rfl⟩ := hstep
      obtain ⟨source, other, hsource, hother, htype⟩ := hdenotes.of_handles haround hinside
      rw [← htype]
      exact hsound.denoted hschemas hsource hother

end Sound

section Load

variable {catalog : Catalog} {settings : Settings} {namespaces : Option (List String)}
  {registry : Registry}

/-- What is compiled against a loaded registry is proper, as long as all schemas are. -/
theorem proper_of_compile (hload : catalog.load settings namespaces = .ok registry)
    (hschemas : ∀ entry ∈ catalog.entries, entry.schema.Proper) {maxDepth : Nat}
    {document : Option String} {schema : Json} {type : TypeDescriptor} (hproper : schema.Proper)
    (hcompile : compile registry.table maxDepth document schema = .ok type) : type.Proper := by
  intro inner hcontains
  obtain ⟨source, hsource, hdenotes⟩ := (sound_of_load hload).denoted_of_contains hschemas hproper
    (denotes_of_compile hproper hcompile) hcontains
  exact hdenotes.proper_validation hsource

theorem proper_of_load (hload : catalog.load settings namespaces = .ok registry)
    (hschemas : ∀ entry ∈ catalog.entries, entry.schema.Proper) : registry.table.Proper := by
  have hsound := sound_of_load hload
  intro known hknown
  obtain ⟨found, hfound⟩ := TypeTable.registered_iff_mem.2 (List.mem_map_of_mem hknown)
  obtain rfl := List.inj_on_of_nodup_map hsound.distinct (List.mem_of_find?_eq_some hfound) hknown
    (TypeTable.id_of_find? hfound)
  obtain ⟨entry, hentry, -, hcompile⟩ := hsound.origin _ _ hfound
  exact proper_of_compile hload hschemas (hschemas entry hentry) hcompile

/-- What is compiled against a loaded registry is an object in canonical form, and
so is every type inside it, shared or not. Where a type is written in place, its
schema stands in the document, and lists the names of those properties that are
required. -/
theorem canonical_of_load (hload : catalog.load settings namespaces = .ok registry)
    (hschemas : ∀ entry ∈ catalog.entries, entry.schema.Proper) {maxDepth : Nat}
    {document : Option String} {schema : Json} {type : TypeDescriptor} (hproper : schema.Proper)
    (hcompile : compile registry.table maxDepth document schema = .ok type) :
    type.kind = .object ∧ (∀ inner, type.Contains inner → inner.Canonical) ∧
      ∀ path inner, type.WrittenAt path inner → ∃ members,
        schema.at? path = some (.object members) ∧ ∀ property ∈ inner.properties,
          (property.required = true ↔ Requires members property.name) := by
  have hdenotes := denotes_of_compile hproper hcompile
  refine ⟨?_, fun inner hcontains => ?_, fun path inner hat => ?_⟩
  · obtain ⟨members, rfl, hdeclares, hmaps⟩ := (inLanguage_of_compile hproper hcompile).rooted
    have hform := hdenotes.form_eq
    rw [hdeclares.formOf_eq, kindOf, if_neg (by simp [hmaps])] at hform
    exact Option.some.inj hform
  -- a shared type was made from the schema of its own entry
  · obtain ⟨source, hsource, hinner⟩ :=
      (sound_of_load hload).denoted_of_contains hschemas hproper hdenotes hcontains
    exact hinner.canonical hsource
  · obtain ⟨found, hfound, -, hinner⟩ := hdenotes.at_place hproper hat
    cases hinner with
    | @object members properties shaped declares closed names marked =>
        refine ⟨members, hfound, fun property hproperty => ?_⟩
        obtain ⟨below, hbelow⟩ := exists_schema names hproperty
        exact (marked property hproperty below hbelow).required
    | _ =>
        refine ⟨_, hfound, fun property hproperty => ?_⟩
        cases hproperty

end Load

theorem canonical_line :
    points.load .standard none = .ok pointsLoaded ∧
      (∀ entry ∈ points.entries, entry.schema.Proper) ∧ line.Proper ∧
      compile pointsLoaded.table 128 none line = .ok lineType ∧
      lineType.kind = .object ∧ pointType.Canonical := by
  have hschemas : ∀ entry ∈ points.entries, entry.schema.Proper := by
    simp [points, Json.Proper, Json.ProperMembers]
  have hproper : line.Proper := by simp [line, Json.Proper, Json.ProperMembers]
  have hcompile : compile pointsLoaded.table 128 none line = .ok lineType := compile_line (by simp)
  have hcontains : lineType.Contains pointType :=
    .single ⟨.referenced "shapes#Point" pointType none false, .head _, rfl⟩
  obtain ⟨hkind, hcanonical, -⟩ := canonical_of_load load_points hschemas hproper hcompile
  exact ⟨load_points, hschemas, hproper, hcompile, hkind, hcanonical _ hcontains⟩

end Catalog

end ResourceTypes
