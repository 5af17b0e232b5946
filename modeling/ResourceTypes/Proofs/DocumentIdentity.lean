import ResourceTypes.Proofs.CycleDetection
import ResourceTypes.Proofs.MemberOrder
import ResourceTypes.Proofs.Schema.Rebinding

/-!
What an id changes for a document. A document that compiles without an id is
compiled to the same type under one, or else rejected for its references that
lead to the id, each once; and all other failures are there without an id too.
-/

namespace ResourceTypes

open Binding

open scoped Classical in
/-- The references of a tree that are to a document or lead there, in their order. -/
noncomputable def SchemaNode.referencesTo (root : SchemaNode) (table : TypeTable)
    (document : String) : List (Path × Reference) :=
  root.references.filter fun pair => table.Reaches pair.2.id document

/-- How compiling a schema under a document id ends, by how it ends without one. -/
inductive Restricts (table : TypeTable) (maxDepth : Nat) (document : String) (schema : Json) :
    Except CompileError TypeDescriptor → Except CompileError TypeDescriptor → Prop
  | accepted {root : SchemaNode} (read : Schema.read maxDepth schema = .ok root)
      (clear : root.referencesTo table document = []) (type : TypeDescriptor) :
      Restricts table maxDepth document schema (.ok type) (.ok type)
  | barred {root : SchemaNode} (read : Schema.read maxDepth schema = .ok root)
      (leads : root.referencesTo table document ≠ []) (type : TypeDescriptor)
      {error : CompileError} (rejected : error.isRejection = true)
      (marks : error.toReport.map Failure.mark =
        (root.referencesTo table document).map fun pair => (pair.1, .cyclicReference)) :
      Restricts table maxDepth document schema (.ok type) (.error error)
  | malformed (offence : Located Malformation) :
      Restricts table maxDepth document schema (.error (.malformed offence))
        (.error (.malformed offence))
  | ungrammatical (violations : List (Located Violation)) :
      Restricts table maxDepth document schema (.error (.ungrammatical violations))
        (.error (.ungrammatical violations))
  | unbound {faults faults' : List (Located BindingFault)}
      (kept : (faults.map (·.path)).Sublist (faults'.map (·.path))) :
      Restricts table maxDepth document schema (.error (.unbound faults))
        (.error (.unbound faults'))

namespace Binding

variable {table : TypeTable} {document id : String}

/-- An id that can be bound in a document that has an id can be bound in one that has none. -/
theorem Bindable.anonymous (h : Bindable ⟨table, some document⟩ id) :
    Bindable ⟨table, none⟩ id :=
  ⟨h.allowed, nofun, h.registered, fun target hreaches => ⟨nofun, (h.clear target hreaches).2⟩⟩

/-- An id that can be bound in a document without an id can be bound in one with
an id that it does not lead to. -/
theorem Bindable.identified (h : Bindable ⟨table, none⟩ id)
    (haway : ¬ table.Reaches id document) : Bindable ⟨table, some document⟩ id := by
  refine ⟨h.allowed, ?_, h.registered, fun target hreaches => ⟨?_, (h.clear target hreaches).2⟩⟩
  · rintro ⟨⟩
    exact haway .refl
  · rintro ⟨⟩
    exact haway hreaches

open scoped Classical in
/-- The id of a document makes a fault of a reference that leads to it, and that
fault is a cycle; other references that could be bound still can. -/
theorem mark_faultOf (h : Bindable ⟨table, none⟩ id) (path : Path) :
    (faultOf ⟨table, some document⟩ (path, .unbound id)).map (·.failure.mark) =
      if table.Reaches id document then some (path, .cyclicReference) else none := by
  split
  · next hreaches =>
    have hallowed := (table.allows_iff id).2 h.allowed
    have hcyclic : ∃ fault, verdict ⟨table, some document⟩ id = .error fault ∧
        fault.rule = .cyclicReference := cyclic_of_reaches hallowed h.registered rfl hreaches
    obtain ⟨fault, hverdict, hrule⟩ := hcyclic
    have hfault : faultOf ⟨table, some document⟩ (path, .unbound id) = some ⟨path, fault⟩ :=
      faultOf_eq_some_iff.2 ⟨id, rfl, hverdict, rfl⟩
    rw [hfault]
    exact congrArg (fun rule => some (path, rule)) hrule
  · next haway =>
    have hbound : (settle ⟨table, some document⟩ (.unbound id)).isBound = true :=
      isBound_settle_iff.2 (h.identified haway)
    have hfault : faultOf ⟨table, some document⟩ (path, .unbound id) = none :=
      faultOf_eq_none_iff.2 hbound
    rw [hfault, Option.map_none]

/-- Where every reference could be bound without an id, the faults under an id are
cycles, one at each reference that leads to the id. -/
theorem marks_faults (document : String) {root : SchemaNode} (hunbound : Schema.Unbound root)
    (hbindable : ∀ id ∈ root.referenceIds, Bindable ⟨table, none⟩ id) :
    (root.references.filterMap (faultOf ⟨table, some document⟩)).map (·.failure.mark) =
      (root.referencesTo table document).map fun pair => (pair.1, .cyclicReference) := by
  classical
  rw [SchemaNode.referencesTo, List.map_filterMap, ← List.filterMap_eq_map,
    List.filterMap_filter]
  refine List.filterMap_congr fun pair hpair => ?_
  have hid : pair.2.id ∈ root.referenceIds := List.mem_map.2 ⟨pair, hpair, rfl⟩
  have hpending := hunbound pair hpair
  obtain ⟨path, reference⟩ := pair
  cases reference with
  | unbound id =>
      rw [mark_faultOf (hbindable id hid) path]
      by_cases hreaches : table.Reaches id document <;> simp [Reference.id, hreaches]
  | bound id target => cases hpending

/-- The places of the faults are those of the references that stay unbound. -/
theorem paths_faults (scope : Scope) (pairs : List (Path × Reference)) :
    (pairs.filterMap (faultOf scope)).map (·.path) =
      (pairs.filter fun pair => !(settle scope pair.2).isBound).map (·.1) := by
  have hpaths : List.Forall₂ (fun fault pair => fault.path = pair.1)
      (pairs.filterMap (faultOf scope))
      ((pairs.map fun pair => (pair.1, settle scope pair.2)).filter fun pair =>
        !pair.2.isBound) := by
    refine (forall₂_tells pairs).imp fun fault pair htells => ?_
    cases htells
    rfl
  rw [List.filter_map, List.forall₂_map_right_iff] at hpaths
  rw [← List.forall₂_eq_eq_eq, List.forall₂_map_left_iff, List.forall₂_map_right_iff]
  exact hpaths

/-- What stays unbound without an id does so under one. -/
theorem paths_faults_sublist (pairs : List (Path × Reference)) :
    ((pairs.filterMap (faultOf ⟨table, none⟩)).map (·.path)).Sublist
      ((pairs.filterMap (faultOf ⟨table, some document⟩)).map (·.path)) := by
  rw [paths_faults, paths_faults]
  refine (List.monotone_filter_right pairs fun pair hpair => ?_).map _
  rcases pair with ⟨path, ⟨id⟩ | ⟨id, target⟩⟩
  · rw [Bool.not_eq_true', ← Bool.not_eq_true, isBound_settle_iff] at hpair ⊢
    exact fun hbindable => hpair hbindable.anonymous
  · exact hpair

end Binding

section Compile

variable {table : TypeTable} {maxDepth : Nat} {document : String} {schema : Json}
  {root : SchemaNode}

theorem referencesTo_eq_nil_iff :
    root.referencesTo table document = [] ↔
      ∀ id ∈ root.referenceIds, ¬ table.Reaches id document := by
  rw [SchemaNode.referencesTo, List.filter_eq_nil_iff, SchemaNode.referenceIds,
    List.forall_mem_map]
  simp only [decide_eq_true_eq]

/-- A document that nothing leads back to is compiled under its id as without it. -/
theorem compile_of_clear {type : TypeDescriptor} (hread : Schema.read maxDepth schema = .ok root)
    (h : compile table maxDepth none schema = .ok type)
    (hclear : root.referencesTo table document = []) :
    compile table maxDepth (some document) schema = .ok type := by
  obtain ⟨_, hsame, -, hbindable, -⟩ := compile_eq_ok_iff.1 h
  obtain rfl := Except.ok.inj (hread.symm.trans hsame)
  refine compile_transfer h hread fun id hid => ⟨?_, rfl⟩
  exact (hbindable id hid).identified (referencesTo_eq_nil_iff.1 hclear id hid)

/-- A document that something leads back to is rejected under its id, with one cycle
for each such reference. -/
theorem compile_of_leading {type : TypeDescriptor} (hread : Schema.read maxDepth schema = .ok root)
    (h : compile table maxDepth none schema = .ok type)
    (hleads : root.referencesTo table document ≠ []) :
    ∃ error, compile table maxDepth (some document) schema = .error error ∧
      error.isRejection = true ∧
      error.toReport.map Failure.mark =
        (root.referencesTo table document).map fun pair => (pair.1, .cyclicReference) := by
  obtain ⟨_, hsame, hgrammar, hbindable, -⟩ := compile_eq_ok_iff.1 h
  obtain rfl := Except.ok.inj (hread.symm.trans hsame)
  have hmarks := marks_faults document (Schema.readNode_unbound schema _ _ root hread) hbindable
  have hfaults : root.references.filterMap (faultOf ⟨table, some document⟩) ≠ [] := by
    intro hnil
    rw [hnil, List.map_nil, eq_comm, List.map_eq_nil_iff] at hmarks
    exact hleads hmarks
  refine ⟨_, compile_of_faults hread hgrammar hfaults, rfl, ?_⟩
  rw [CompileError.toReport, List.map_map]
  exact hmarks

/-- A document with references that cannot be bound is rejected for them under any id. -/
theorem compile_of_unbound (hread : Schema.read maxDepth schema = .ok root)
    (hgrammar : Grammar.violations root = [])
    (hfaults : root.references.filterMap (faultOf ⟨table, none⟩) ≠ []) :
    Restricts table maxDepth document schema (compile table maxDepth none schema)
      (compile table maxDepth (some document) schema) := by
  have hkept := @paths_faults_sublist table document root.references
  have hfaults' : root.references.filterMap (faultOf ⟨table, some document⟩) ≠ [] := by
    intro hnil
    rw [hnil, List.map_nil, List.sublist_nil, List.map_eq_nil_iff] at hkept
    exact hfaults hkept
  rw [compile_of_faults hread hgrammar hfaults, compile_of_faults hread hgrammar hfaults']
  exact .unbound hkept

end Compile

/-- An id of its own bars a document that refers to what leads to it, and changes
nothing else: what compiles under the id compiles without it, to the same type;
what compiles without it and not under it is rejected with one cycle for each
reference that leads to the id; and what cannot be read or breaks the grammar
fails as it did. -/
theorem compile_document_restricts (table : TypeTable) (maxDepth : Nat) (document : String)
    (schema : Json) :
    Restricts table maxDepth document schema (compile table maxDepth none schema)
      (compile table maxDepth (some document) schema) := by
  cases hread : Schema.read maxDepth schema with
  | error offence =>
      rw [compile_of_unread hread, compile_of_unread hread]
      exact .malformed offence
  | ok root =>
      by_cases hgrammar : Grammar.violations root = []
      · by_cases hfaults : root.references.filterMap (faultOf ⟨table, none⟩) = []
        · obtain ⟨type, htype⟩ := exists_compile_of_faultless hread hgrammar hfaults
          rw [htype]
          by_cases hclear : root.referencesTo table document = []
          · rw [compile_of_clear hread htype hclear]
            exact .accepted hread hclear type
          · obtain ⟨error, herror, hrejected, hmarks⟩ := compile_of_leading hread htype hclear
            rw [herror]
            exact .barred hread hclear type hrejected hmarks
        · exact compile_of_unbound hread hgrammar hfaults
      · rw [compile_of_violations hread hgrammar, compile_of_violations hread hgrammar]
        exact .ungrammatical _

end ResourceTypes
