import ResourceTypes.Proofs.Compile
import ResourceTypes.Proofs.Schema.Findings

/-!
Every reported path leads to the fault. Whatever the phase that a failure comes
from, its path can be walked in the document, and the value at its end is the
one that the failure is about.
-/

namespace ResourceTypes

open ResourceTypes.Language

/-- A fault is reported at a reference whose id is not bound, for that reason. -/
def BindingFault.Fits (scope : Binding.Scope) (fault : BindingFault) : Spot → Prop
  | .schema _ (.object members) =>
    ∃ id, Members.get? members "$ref" = some (.string id) ∧
      Binding.verdict scope id = .error fault ∧ Binding.Verdict scope id (.error fault)
  | _ => False

/-- What a failure says of the spot that it is reported at, by the phase that it
comes from. -/
inductive Concerns (scope : Binding.Scope) (limit : Nat) : Failure → Spot → Prop
  | reading {offence : Located Malformation} {spot : Spot}
      (fits : offence.cause.Fits limit spot) : Concerns scope limit offence.failure spot
  | grammar {violation : Located Violation} {spot : Spot}
      (fits : violation.cause.Fits spot) : Concerns scope limit violation.failure spot
  | binding {fault : Located BindingFault} {spot : Spot}
      (fits : fault.cause.Fits scope spot) : Concerns scope limit fault.failure spot

/-- The path of a failure leads through the document to what the failure is about. -/
def Failure.LeadsToFault (scope : Binding.Scope) (limit : Nat) (schema : Json)
    (failure : Failure) : Prop :=
  ∃ spot, Marks schema failure.path spot ∧ schema.at? failure.path = some spot.value ∧
    Concerns scope limit failure spot

namespace Binding

variable {scope : Scope}

theorem faultOf_eq_some_iff {path : Path} {reference : Reference} {fault : Located BindingFault} :
    faultOf scope (path, reference) = some fault ↔
      ∃ id, reference = .unbound id ∧ verdict scope id = .error fault.cause ∧
        fault.path = path := by
  obtain ⟨place, cause⟩ := fault
  cases reference with
  | bound id target => simp [faultOf]
  | unbound id =>
      cases hverdict : verdict scope id with
      | ok type => simp [faultOf, hverdict]
      | error other => simp [faultOf, hverdict, eq_comm, and_comm]

/-- A reference that is not bound is found where the schema stands. -/
theorem faults_shown {limit : Nat} {schema : Json} {root : SchemaNode}
    (hproper : schema.Proper) (hread : Schema.read limit schema = .ok root)
    {fault : Located BindingFault} (hfault : fault ∈ root.references.filterMap (faultOf scope)) :
    Shown schema (BindingFault.Fits scope) fault := by
  obtain ⟨⟨path, reference⟩, hmem, hfault⟩ := List.mem_filterMap.1 hfault
  obtain ⟨id, rfl, hverdict, hpath⟩ := faultOf_eq_some_iff.1 hfault
  obtain ⟨node, hholds, rfl, hreference⟩ := SchemaNode.mem_references.1 hmem
  obtain ⟨hops, members, hstanding⟩ := standing_of_holds hproper hread hholds
  obtain ⟨id', hfound, hid⟩ := (reference_eq_some_iff hstanding.filled).1 hreference
  obtain rfl := Reference.unbound.inj hid
  have hexact := verdict_exact scope id
  rw [hverdict] at hexact
  refine ⟨.schema hops (.object members), ?_, id, hfound, hverdict, hexact⟩
  rw [hpath]
  exact .schema hstanding.place

end Binding

section Located

variable {scope : Binding.Scope} {limit : Nat} {schema : Json}

/-- What is shown in a document is reported as a failure that leads there. -/
theorem Shown.leadsToFault {α : Type} [Cause α] {Fits : α → Spot → Prop} {located : Located α}
    (h : Shown schema Fits located)
    (hconcerns : ∀ spot, Fits located.cause spot → Concerns scope limit located.failure spot) :
    located.failure.LeadsToFault scope limit schema := by
  obtain ⟨spot, hmarks, hfits⟩ := h
  exact ⟨spot, hmarks, hmarks.at?, hconcerns spot hfits⟩

/-- Each failure of a check leads to what it is about. -/
theorem leadsToFault_of_check {table : TypeTable} {document : Option String} {error : CompileError}
    (hproper : schema.Proper) (h : check table limit document schema = .error error) :
    ∀ failure ∈ error.toReport, failure.LeadsToFault ⟨table, document⟩ limit schema := by
  intro failure hfailure
  rw [check_eq] at h
  split at h
  · next offence hread =>
    obtain rfl := Except.error.inj h
    obtain rfl := List.mem_singleton.1 hfailure
    exact (Schema.read_shown hproper hread).leadsToFault fun _ => .reading
  · next root hread =>
    split at h
    · split at h
      · cases h
      · obtain rfl := Except.error.inj h
        obtain ⟨fault, hfault, rfl⟩ := List.mem_map.1 hfailure
        exact (Binding.faults_shown hproper hread hfault).leadsToFault fun _ => .binding
    · obtain rfl := Except.error.inj h
      obtain ⟨violation, hviolation, rfl⟩ := List.mem_map.1 hfailure
      exact (Grammar.violations_shown hproper hread hviolation).leadsToFault fun _ => .grammar

end Located

/-- Each failure that validation reports or compilation ends with leads to what
it is about: its path can be walked in the document, and the value at its end
is the keyword, the entry or the schema that breaks the rule. -/
theorem failures_located {schema : Json} (hproper : schema.Proper) (table : TypeTable)
    (maxDepth : Nat) (document : Option String) :
    (∀ failure ∈ validate table maxDepth document schema,
        failure.LeadsToFault ⟨table, document⟩ maxDepth schema) ∧
      ∀ error, compile table maxDepth document schema = .error error →
        ∀ failure ∈ error.toReport, failure.LeadsToFault ⟨table, document⟩ maxDepth schema := by
  constructor
  · rw [validate]
    cases hcheck : check table maxDepth document schema with
    | ok root =>
        intro failure hfailure
        cases hfailure
    | error error => exact leadsToFault_of_check hproper hcheck
  · intro error hcompile
    rcases compile_eq table maxDepth document schema with
      ⟨root, type, -, -, -, hok⟩ | ⟨other, hcheck, hother⟩
    · rw [hcompile] at hok
      cases hok
    · obtain rfl := Except.error.inj (hcompile.symm.trans hother)
      exact leadsToFault_of_check hproper hcheck

/-- An object that requires a property it does not declare, and whose one property
lists a number among its words. -/
def unevenPart : Json :=
  .object [("type", .string "object"), ("required", .array [.string "name", .string "size"]),
    ("properties", .object [
      ("name", .object [("type", .string "string"), ("enum", .array [.string "bolt", .int 4])])])]

theorem failures_unevenPart :
    unevenPart.Proper ∧
      (validate ⟨[], []⟩ 128 none unevenPart).map
          (fun failure => (failure.rule, failure.path, unevenPart.at? failure.path)) =
        [(.unknownRequiredProperty, [.key "required", .index 1], some (.string "size")),
          (.incompatibleValidationAttribute,
            [.key "properties", .key "name", .key "enum", .index 1], some (.int 4))] ∧
      ∀ failure ∈ validate ⟨[], []⟩ 128 none unevenPart,
        failure.LeadsToFault ⟨⟨[], []⟩, none⟩ 128 unevenPart := by
  have hproper : unevenPart.Proper := by
    simp [unevenPart, Json.Proper, Json.ProperItems, Json.ProperMembers]
  exact ⟨hproper, rfl, (failures_located hproper ⟨[], []⟩ 128 none).1⟩

end ResourceTypes
