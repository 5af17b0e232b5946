import ResourceTypes.Proofs.FailurePlaces
import ResourceTypes.Proofs.Registry.Registration
import ResourceTypes.Proofs.Schema.Address

/-!
Two ways to find reference cycles. In a document, the walk along the references
of registered types finds a cycle exactly if the graph of the registry says
that a reference from the document's id would close one.
-/

namespace ResourceTypes

namespace Binding

variable {scope : Scope} {root : SchemaNode} {path : Path} {id : String} {rule : Rule}

/-- A reference at a path of a tree is not bound, and the fault breaks this rule. -/
def Reports (scope : Scope) (root : SchemaNode) (path : Path) (rule : Rule) : Prop :=
  ∃ fault ∈ (bind scope root).2, fault.path = path ∧ fault.cause.rule = rule

theorem reports_iff :
    Reports scope root path rule ↔ ∃ id, (path, .unbound id) ∈ root.references ∧
      ∃ fault, verdict scope id = .error fault ∧ fault.rule = rule := by
  simp only [Reports, bind_eq, List.mem_filterMap]
  constructor
  · rintro ⟨fault, ⟨⟨place, reference⟩, hreference, hfault⟩, rfl, rfl⟩
    obtain ⟨id, rfl, hverdict, rfl⟩ := faultOf_eq_some_iff.1 hfault
    exact ⟨id, hreference, fault.cause, hverdict, rfl⟩
  · rintro ⟨id, hreference, fault, hverdict, rfl⟩
    exact ⟨⟨path, fault⟩, ⟨_, hreference, faultOf_eq_some_iff.2 ⟨id, rfl, hverdict, rfl⟩⟩, rfl, rfl⟩

/-- Where the types of the table form no cycle, a reference is only cyclic if it
leads back to the document. -/
theorem reaches_of_cyclic (hacyclic : Acyclic scope.table.RefersTo) {fault : BindingFault}
    (hverdict : verdict scope id = .error fault) (hrule : fault.rule = .cyclicReference) :
    ∃ document, scope.document = some document ∧ scope.table.Reaches id document := by
  have hexact := verdict_exact scope id
  rw [hverdict] at hexact
  cases hexact with
  | disallowed outside => cases hrule
  | unregistered known inside other missing => cases hrule
  | selfReference known inside self => exact ⟨id, self, .refl⟩
  | cycle known inside other registered leads back chain =>
      rcases back with hdocument | hcycle
      · exact ⟨_, hdocument, leads⟩
      · exact absurd hcycle (hacyclic _)

/-- A reference to a registered type that leads back to the document is cyclic. -/
theorem cyclic_of_reaches (hallowed : scope.table.allows id = true)
    (hregistered : scope.table.Registered id) {document : String}
    (hdocument : scope.document = some document) (hreaches : scope.table.Reaches id document) :
    ∃ fault, verdict scope id = .error fault ∧ fault.rule = .cyclicReference := by
  have hexact := verdict_exact scope id
  generalize verdict scope id = result at hexact
  cases hexact with
  | disallowed outside =>
      obtain ⟨space, hspace, hinside⟩ := (scope.table.allows_iff id).1 hallowed
      exact absurd hinside (outside space hspace)
  | unregistered known inside other missing =>
      exact absurd hregistered (TypeTable.not_registered_iff.2 missing)
  | selfReference known inside self => exact ⟨_, rfl, rfl⟩
  | cycle known inside other registered leads back chain => exact ⟨_, rfl, rfl⟩
  | bound known inside other registered clear => exact absurd hdocument (clear document hreaches).1

end Binding

namespace Schema

/-- A path of a document leads to at most one reference. -/
theorem reference_unique {limit : Nat} {document : Json} {root : SchemaNode} {path : Path}
    {reference other : Reference} (hproper : document.Proper)
    (hread : read limit document = .ok root) (h : (path, reference) ∈ root.references)
    (h' : (path, other) ∈ root.references) : reference = other := by
  rw [SchemaNode.references_eq_nodes] at h h'
  simp only [List.mem_flatMap, List.mem_map, Option.mem_toList, Prod.mk.injEq] at h h'
  obtain ⟨pair, hpair, _, hreference, hpath, rfl⟩ := h
  obtain ⟨pair', hpair', _, hreference', hpath', rfl⟩ := h'
  obtain rfl := List.inj_on_of_nodup_map (nodup_paths hproper hread) hpair hpair'
    (hpath.trans hpath'.symm)
  exact Option.some.inj (hreference.symm.trans hreference')

end Schema

namespace Registry

open Binding

theorem Coherent.closesCycle_iff {namespaces : List String} {registry : Registry}
    (h : Coherent namespaces registry) {source target : String} :
    registry.graph.closesCycle source target = true ↔ registry.table.Reaches target source := by
  rw [ReferenceGraph.closesCycle_iff, ReferenceGraph.Leads, h.edge_eq]

/-- Whatever calls a registry has answered, binding the references of a document
finds one to a registered type to be cyclic exactly if the graph tells that it
would close a cycle; and in a document without an id it finds none to be cyclic. -/
theorem cyclic_iff_closesCycle (namespaces : List String) (calls : List Entry) {limit : Nat}
    {schema : Json} {root : SchemaNode} (hproper : schema.Proper)
    (hread : Schema.read limit schema = .ok root) :
    (∀ document path id, (path, .unbound id) ∈ root.references →
        ((empty namespaces).afterAll calls).table.allows id = true →
        ((empty namespaces).afterAll calls).table.Registered id →
          (Reports ⟨((empty namespaces).afterAll calls).table, some document⟩ root path
              .cyclicReference ↔
            ((empty namespaces).afterAll calls).graph.closesCycle document id = true)) ∧
      ∀ path, ¬ Reports ⟨((empty namespaces).afterAll calls).table, none⟩ root path
        .cyclicReference := by
  have hcoherent := (coherent_empty namespaces).afterAll calls
  constructor
  · intro document path id hreference hallowed hregistered
    rw [hcoherent.closesCycle_iff, reports_iff]
    constructor
    · rintro ⟨other, hother, fault, hverdict, hrule⟩
      -- a node has one reference, so the failure is about the id that was asked for
      obtain rfl := Reference.unbound.inj (Schema.reference_unique hproper hread hreference hother)
      obtain ⟨_, hdocument, hreaches⟩ := reaches_of_cyclic hcoherent.acyclic hverdict hrule
      obtain rfl := Option.some.inj hdocument
      exact hreaches
    · intro hreaches
      exact ⟨id, hreference, cyclic_of_reaches hallowed hregistered rfl hreaches⟩
  · intro path hreports
    obtain ⟨id, -, fault, hverdict, hrule⟩ := reports_iff.1 hreports
    obtain ⟨document, hdocument, -⟩ := reaches_of_cyclic hcoherent.acyclic hverdict hrule
    cases hdocument

/-- A registry of one type, a frame for a page that is not registered. -/
def framed : Registry :=
  (empty ["shapes#"]).afterAll [⟨"shapes#Frame", .plain (.object
    [⟨"page", .referenced "shapes#Page" default none false, false, false, none⟩])⟩]

/-- The frame refers to a page, from which no edge leads on. -/
theorem framed_eq :
    framed = ⟨⟨["shapes#"], [⟨"shapes#Frame", .plain (.object
      [⟨"page", .referenced "shapes#Page" default none false, false, false, none⟩])⟩]⟩,
      ⟨[("shapes#Frame", "shapes#Page")]⟩⟩ := by
  have hregister {type : TypeDescriptor} (htype : type.directReferences = ["shapes#Page"]) :
      (empty ["shapes#"]).register "shapes#Frame" type =
        .ok ((empty ["shapes#"]).add ⟨"shapes#Frame", type⟩) := by
    refine register_eq_ok_iff.2 ⟨by decide, rfl, fun via hvia => ?_, rfl⟩
    obtain rfl : via = "shapes#Page" := List.mem_singleton.1 (htype ▸ hvia)
    simp [empty, ReferenceGraph.empty, ReferenceGraph.closesCycle, ReferenceGraph.search,
      ReferenceGraph.targets]
  rw [framed, afterAll, List.foldl_cons, List.foldl_nil, after, run_enter, hregister rfl]
  rfl

/-- A page in a frame. -/
def page : Json :=
  .object [("type", .string "object"), ("properties", .object [
    ("frame", .object [("$ref", .string "shapes#Frame")])])]

/-- A page refers to a frame, and a frame to a page. -/
theorem cyclic_page :
    page.Proper ∧ framed.table.allows "shapes#Frame" = true ∧
      framed.table.Registered "shapes#Frame" ∧
      framed.graph.closesCycle "shapes#Page" "shapes#Frame" = true ∧
      ∃ root, Schema.read 64 page = .ok root ∧
        root.references = [([.key "properties", .key "frame"], .unbound "shapes#Frame")] ∧
        Reports ⟨framed.table, some "shapes#Page"⟩ root [.key "properties", .key "frame"]
          .cyclicReference := by
  have hproper : page.Proper := by simp [page, Json.Proper, Json.ProperMembers]
  have hallowed : framed.table.allows "shapes#Frame" = true := by
    rw [framed_eq]
    decide +kernel
  have hregistered : framed.table.Registered "shapes#Frame" := by
    rw [framed_eq]
    exact ⟨_, rfl⟩
  have hcloses : framed.graph.closesCycle "shapes#Page" "shapes#Frame" = true := by
    rw [framed_eq, ReferenceGraph.closesCycle_iff]
    exact .single (List.mem_singleton.2 rfl)
  refine ⟨hproper, hallowed, hregistered, hcloses, _, rfl, rfl, ?_⟩
  have hagree := (@cyclic_iff_closesCycle ["shapes#"] _ 64 page _ hproper rfl).1 "shapes#Page" _ _
    (.head _) hallowed hregistered
  exact hagree.2 hcloses

end Registry

end ResourceTypes
