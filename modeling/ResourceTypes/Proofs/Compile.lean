import ResourceTypes.Compile
import ResourceTypes.Proofs.Schema.Described
import ResourceTypes.Proofs.Schema.Unbound
import ResourceTypes.Proofs.Schema.Verdict

/-!
Checking and compiling agree: a checked schema always has a type, so a schema
is compiled exactly if its report is empty, and a report that is not empty
comes from one phase alone.
-/

namespace ResourceTypes

variable {table : TypeTable} {maxDepth : Nat} {document : Option String} {schema : Json}

/-- The phases of a check, with the pass over the references replaced by their verdicts. -/
theorem check_eq (table : TypeTable) (maxDepth : Nat) (document : Option String) (schema : Json) :
    check table maxDepth document schema =
      match Schema.read maxDepth schema with
      | .error offence => .error (.malformed offence)
      | .ok root =>
        if Grammar.violations root = [] then
          if root.references.filterMap (Binding.faultOf ⟨table, document⟩) = [] then
            .ok (root.mapReferences (Binding.settle ⟨table, document⟩))
          else .error (.unbound (root.references.filterMap (Binding.faultOf ⟨table, document⟩)))
        else .error (.ungrammatical (Grammar.violations root)) := by
  rw [check]
  cases hread : Schema.read maxDepth schema with
  | error offence => rfl
  | ok root =>
      simp only [Except.mapError, bind, Except.bind]
      cases hviolations : Grammar.violations root with
      | cons violation rest => simp
      | nil =>
          simp only [Binding.bind_eq, if_true]
          cases hfaults : root.references.filterMap (Binding.faultOf ⟨table, document⟩) <;> simp

/-- A schema is accepted if it can be read, breaks no rule, and all its references are bound. -/
theorem check_eq_ok_iff {root : SchemaNode} :
    check table maxDepth document schema = .ok root ↔
      ∃ source, Schema.read maxDepth schema = .ok source ∧ Grammar.violations source = [] ∧
        (∀ pair ∈ source.references, (Binding.settle ⟨table, document⟩ pair.2).isBound = true) ∧
        root = source.mapReferences (Binding.settle ⟨table, document⟩) := by
  rw [check_eq]
  cases Schema.read maxDepth schema with
  | error offence => simp
  | ok source =>
      have hfaults : source.references.filterMap (Binding.faultOf ⟨table, document⟩) = [] ↔
          ∀ pair ∈ source.references,
            (Binding.settle ⟨table, document⟩ pair.2).isBound = true := by
        simp only [List.filterMap_eq_nil_iff, Binding.faultOf_eq_none_iff]
      simp only [Except.ok.injEq, exists_eq_left', hfaults]
      by_cases hviolations : Grammar.violations source = []
      · rw [if_pos hviolations]
        split
        · next hbound =>
          rw [Except.ok.injEq]
          exact ⟨fun h => ⟨hviolations, hbound, h.symm⟩, fun ⟨_, _, h⟩ => h.symm⟩
        · next hbound => exact ⟨nofun, fun ⟨_, h, _⟩ => absurd h hbound⟩
      · rw [if_neg hviolations]
        exact ⟨nofun, fun ⟨h, _, _⟩ => absurd h hviolations⟩

/-- A tree that passes the check has a type, which refers to what the tree refers to. -/
theorem descriptor_of_check {root : SchemaNode}
    (h : check table maxDepth document schema = .ok root) :
    ∃ type, Meaning.descriptor root = .ok type ∧ type.references = root.referenceIds := by
  obtain ⟨source, -, hviolations, hbound, rfl⟩ := check_eq_ok_iff.1 h
  obtain ⟨hroot, hbelow⟩ := Grammar.violations_eq_nil_iff.1 hviolations
  have hplain :
      (source.mapReferences (Binding.settle ⟨table, document⟩)).keywords.reference = none := by
    simp [(Grammar.checkRoot_eq_nil_iff.1 hroot).1]
  have hgrammar := (Grammar.check_mapReferences (Binding.settle ⟨table, document⟩) .member
    source).trans ((Grammar.check_eq_nil_iff .member source).2 hbelow)
  obtain ⟨handle, hhandle, hids⟩ := Meaning.described_of_grammatical
    ((Grammar.check_eq_nil_iff .member _).1 hgrammar) (by
      rw [SchemaNode.references_mapReferences]
      intro pair hpair
      obtain ⟨before, hbefore, rfl⟩ := List.mem_map.1 hpair
      exact hbound before hbefore)
  obtain ⟨type, rfl⟩ := Meaning.handleOf_authored hplain hhandle
  exact ⟨type, Meaning.descriptor_eq_ok_iff.2 ⟨hplain, hhandle⟩, hids⟩

/-- A schema is compiled if its check accepts it, and else fails as its check does. -/
theorem compile_eq (table : TypeTable) (maxDepth : Nat) (document : Option String)
    (schema : Json) :
    (∃ root type, check table maxDepth document schema = .ok root ∧
        Meaning.descriptor root = .ok type ∧ type.references = root.referenceIds ∧
        compile table maxDepth document schema = .ok type) ∨
      ∃ error, check table maxDepth document schema = .error error ∧
        compile table maxDepth document schema = .error error := by
  cases hcheck : check table maxDepth document schema with
  | error error =>
      exact .inr ⟨error, rfl, by simp [compile, hcheck, bind, Except.bind]⟩
  | ok root =>
      obtain ⟨type, htype, hids⟩ := descriptor_of_check hcheck
      refine .inl ⟨root, type, rfl, htype, hids, ?_⟩
      simp [compile, hcheck, htype, bind, Except.bind, Except.mapError]

/-- A tree that was read has all its references bound if all its ids can be. -/
theorem bound_iff {source : SchemaNode} (hread : Schema.read maxDepth schema = .ok source) :
    (∀ pair ∈ source.references, (Binding.settle ⟨table, document⟩ pair.2).isBound = true) ↔
      ∀ id ∈ source.referenceIds, Binding.Bindable ⟨table, document⟩ id := by
  rw [SchemaNode.referenceIds, List.forall_mem_map]
  refine forall₂_congr fun pair hpair => ?_
  have hunbound := Schema.readNode_unbound schema _ _ source hread pair hpair
  obtain ⟨path, reference⟩ := pair
  cases reference with
  | unbound id => exact Binding.isBound_settle_iff
  | bound id target => cases hunbound

/-- A schema is compiled if it can be read, breaks no rule, and refers to ids
that can be bound. -/
theorem compile_eq_ok_iff {type : TypeDescriptor} :
    compile table maxDepth document schema = .ok type ↔
      ∃ source, Schema.read maxDepth schema = .ok source ∧ Grammar.violations source = [] ∧
        (∀ id ∈ source.referenceIds, Binding.Bindable ⟨table, document⟩ id) ∧
        Meaning.descriptor (source.mapReferences (Binding.settle ⟨table, document⟩)) =
          .ok type := by
  have hcompile : compile table maxDepth document schema = .ok type ↔
      ∃ root, check table maxDepth document schema = .ok root ∧
        Meaning.descriptor root = .ok type := by
    rcases compile_eq table maxDepth document schema with
      ⟨root, other, hcheck, hother, -, hcompile⟩ | ⟨error, hcheck, hcompile⟩
    · simp [hcheck, hcompile, hother]
    · simp [hcheck, hcompile]
  rw [hcompile]
  simp only [check_eq_ok_iff]
  constructor
  · rintro ⟨_, ⟨source, hread, hviolations, hbound, rfl⟩, htype⟩
    exact ⟨source, hread, hviolations, (bound_iff hread).1 hbound, htype⟩
  · rintro ⟨source, hread, hviolations, hbindable, htype⟩
    exact ⟨_, ⟨source, hread, hviolations, (bound_iff hread).2 hbindable, rfl⟩, htype⟩

/-- A schema is compiled whenever nothing stands against it. -/
theorem exists_compile {source : SchemaNode} (hread : Schema.read maxDepth schema = .ok source)
    (hviolations : Grammar.violations source = [])
    (hbindable : ∀ id ∈ source.referenceIds, Binding.Bindable ⟨table, document⟩ id) :
    ∃ type, compile table maxDepth document schema = .ok type := by
  rcases compile_eq table maxDepth document schema with
    ⟨root, type, -, -, -, hcompile⟩ | ⟨error, hcheck, -⟩
  · exact ⟨type, hcompile⟩
  · have hok := check_eq_ok_iff.2
      ⟨source, hread, hviolations, (bound_iff hread).2 hbindable, rfl⟩
    cases hcheck.symm.trans hok

theorem references_of_compile {type : TypeDescriptor} {source : SchemaNode}
    (h : compile table maxDepth document schema = .ok type)
    (hread : Schema.read maxDepth schema = .ok source) : type.references = source.referenceIds := by
  rcases compile_eq table maxDepth document schema with
    ⟨root, other, hcheck, -, hids, hcompile⟩ | ⟨error, -, hcompile⟩
  · obtain rfl := Except.ok.inj (hcompile.symm.trans h)
    obtain ⟨source', hread', -, -, rfl⟩ := check_eq_ok_iff.1 hcheck
    obtain rfl := Except.ok.inj (hread'.symm.trans hread)
    rw [hids, SchemaNode.referenceIds, SchemaNode.references_mapReferences, List.map_map]
    exact List.map_congr_left fun pair _ => Binding.settle_id pair.2
  · cases hcompile.symm.trans h

/-- Where the same ids are bound to the same types, the type is the same. -/
theorem compile_transfer {other : TypeTable} {document' : Option String} {type : TypeDescriptor}
    {source : SchemaNode}
    (h : compile table maxDepth document schema = .ok type)
    (hread : Schema.read maxDepth schema = .ok source)
    (hsame : ∀ id ∈ source.referenceIds, Binding.Bindable ⟨other, document'⟩ id ∧
      other.find? id = table.find? id) :
    compile other maxDepth document' schema = .ok type := by
  obtain ⟨source', hread', hviolations, hbindable, htype⟩ := compile_eq_ok_iff.1 h
  obtain rfl := Except.ok.inj (hread'.symm.trans hread)
  refine compile_eq_ok_iff.2 ⟨source', hread, hviolations, fun id hid => (hsame id hid).1, ?_⟩
  rw [← htype]
  congr 1
  refine SchemaNode.map_congr fun pair hpair => ?_
  have hunbound := Schema.readNode_unbound schema _ _ source' hread pair hpair
  obtain ⟨path, reference⟩ := pair
  cases reference with
  | unbound id =>
      have hid : id ∈ source'.referenceIds := List.mem_map.2 ⟨_, hpair, rfl⟩
      obtain ⟨hother, hfind⟩ := hsame id hid
      exact Binding.settle_congr hother (hbindable id hid) hfind
  | bound id target => cases hunbound

/-- A document with references to one type alone compiles as if this type stood there. -/
theorem compile_of_shared {id : String} {target type : TypeDescriptor} {source : SchemaNode}
    (hread : Schema.read maxDepth schema = .ok source)
    (hviolations : Grammar.violations source = [])
    (hbindable : Binding.Bindable ⟨table, document⟩ id)
    (hfind : table.find? id = some ⟨id, target⟩)
    (halone : ∀ pair ∈ source.references, pair.2 = .unbound id)
    (htype : Meaning.descriptor (source.mapReferences fun _ => .bound id target) = .ok type) :
    compile table maxDepth document schema = .ok type := by
  refine compile_eq_ok_iff.2 ⟨source, hread, hviolations, fun other hother => ?_, ?_⟩
  · obtain ⟨pair, hpair, rfl⟩ := List.mem_map.1 hother
    rw [halone pair hpair]
    exact hbindable
  · rw [← htype]
    congr 1
    refine SchemaNode.map_congr fun pair hpair => ?_
    rw [halone pair hpair]
    exact Binding.settle_of_bindable hbindable hfind

/-- Tables that agree give the same result, be it a type or an error. -/
theorem compile_congr {other : TypeTable} (h : table.Agrees other) (maxDepth : Nat)
    (document : Option String) (schema : Json) :
    compile table maxDepth document schema = compile other maxDepth document schema := by
  have hverdict := Binding.verdict_congr h document
  have hsettle : Binding.settle ⟨table, document⟩ = Binding.settle ⟨other, document⟩ := by
    funext reference
    cases reference with
    | unbound id => simp only [Binding.settle, hverdict]
    | bound id target => rfl
  have hfault : Binding.faultOf ⟨table, document⟩ = Binding.faultOf ⟨other, document⟩ := by
    funext pair
    rcases pair with ⟨path, ⟨id⟩ | ⟨id, target⟩⟩
    · simp only [Binding.faultOf, hverdict]
    · rfl
  have hcheck : check table maxDepth document schema = check other maxDepth document schema := by
    rw [check_eq, check_eq, hsettle, hfault]
  rw [compile, compile, hcheck]

/-- The rules that the grammar can report. -/
def Grammar.rules : List Rule :=
  [.rootMustBeObject, .polymorphismNotAllowed, .unknownKeyword, .refMustBeExclusive, .typeRequired,
   .arrayItemTypeRequired, .unsupportedType, .incompatibleValidationAttribute,
   .ambiguousObjectShape, .unknownRequiredProperty]

/-- The rules that binding a reference can report. -/
def Binding.rules : List Rule := [.unknownReference, .disallowedReference, .cyclicReference]

/-- The failures of one phase of the check: reading stops at its first, while
the grammar and the binding of references list all of theirs. -/
inductive OfOnePhase : Report → Prop
  | reading {failure : Failure} (h : failure.rule = .malformedInput) : OfOnePhase [failure]
  | grammar {report : Report} (h : ∀ failure ∈ report, failure.rule ∈ Grammar.rules) :
      OfOnePhase report
  | binding {report : Report} (h : ∀ failure ∈ report, failure.rule ∈ Binding.rules) :
      OfOnePhase report

theorem Violation.rule_mem (violation : Violation) : violation.rule ∈ Grammar.rules := by
  cases violation <;> simp [Violation.rule, Grammar.rules]

theorem BindingFault.rule_mem (fault : BindingFault) : fault.rule ∈ Binding.rules := by
  cases fault <;> simp [BindingFault.rule, Binding.rules]

/-- What the check fails with: never a defect, and never an empty report. -/
theorem report_of_check {error : CompileError}
    (h : check table maxDepth document schema = .error error) :
    (∀ defect, error ≠ .defective defect) ∧ error.toReport ≠ [] ∧ OfOnePhase error.toReport := by
  rw [check_eq] at h
  repeat' split at h
  · obtain rfl := Except.error.inj h
    exact ⟨nofun, by simp [CompileError.toReport], .reading rfl⟩
  · cases h
  · next hfaults =>
    obtain rfl := Except.error.inj h
    refine ⟨nofun, by simpa [CompileError.toReport] using hfaults, .binding fun failure hmem => ?_⟩
    obtain ⟨fault, -, rfl⟩ := List.mem_map.1 hmem
    exact fault.cause.rule_mem
  · next hviolations =>
    obtain rfl := Except.error.inj h
    refine ⟨nofun, by simpa [CompileError.toReport] using hviolations,
      .grammar fun failure hmem => ?_⟩
    obtain ⟨violation, -, rfl⟩ := List.mem_map.1 hmem
    exact violation.cause.rule_mem

/-- Validation and compilation agree on every schema: either there is a type
and the report is empty, or the report is that of the error, is not empty, and
comes from one phase. No schema makes compilation defective. -/
theorem compile_agrees_with_validate (table : TypeTable) (maxDepth : Nat)
    (document : Option String) (schema : Json) :
    (∃ type, compile table maxDepth document schema = .ok type ∧
        validate table maxDepth document schema = []) ∨
      ∃ error, compile table maxDepth document schema = .error error ∧
        (∀ defect, error ≠ .defective defect) ∧
        validate table maxDepth document schema = error.toReport ∧
        error.toReport ≠ [] ∧ OfOnePhase error.toReport := by
  rcases compile_eq table maxDepth document schema with
    ⟨root, type, hcheck, -, -, hcompile⟩ | ⟨error, hcheck, hcompile⟩
  · exact .inl ⟨type, hcompile, by rw [validate, hcheck]⟩
  · obtain ⟨hdefect, hreport, hphase⟩ := report_of_check hcheck
    exact .inr ⟨error, hcompile, hdefect, by rw [validate, hcheck], hreport, hphase⟩

end ResourceTypes
