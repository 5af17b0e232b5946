import ResourceTypes.Proofs.Compile
import ResourceTypes.Proofs.Descriptor.Alike
import ResourceTypes.Proofs.Schema.Reordered

/-!
The order of members decides nothing but the order of what is reported: schemas
that are equal as JSON values are accepted together, with types that are alike,
or refused together, for the same faults.
-/

namespace ResourceTypes

/-- Whether a schema was refused for what it says, not for how it is shaped. -/
def CompileError.isRejection : CompileError → Bool
  | .ungrammatical _ | .unbound _ => true
  | _ => false

/-- Outcomes that differ in order alone: types that are alike, two malformed
schemas, or two rejections with the same rules broken at the same places. -/
inductive SameOutcome :
    Except CompileError TypeDescriptor → Except CompileError TypeDescriptor → Prop
  | accepted {type type' : TypeDescriptor} (types : type.Alike type') :
      SameOutcome (.ok type) (.ok type')
  | malformed (offence offence' : Located Malformation) :
      SameOutcome (.error (.malformed offence)) (.error (.malformed offence'))
  | rejected {error error' : CompileError} (first : error.isRejection = true)
      (second : error'.isRejection = true)
      (marks : (error.toReport.map Failure.mark).Perm (error'.toReport.map Failure.mark)) :
      SameOutcome (.error error) (.error error')

theorem SameMarks.toReport {α : Type} [Cause α] {xs ys : List (Located α)} (h : SameMarks xs ys) :
    ((xs.map Located.failure).map Failure.mark).Perm
      ((ys.map Located.failure).map Failure.mark) := by
  rw [List.map_map, List.map_map]
  exact h

section Compile

variable {table : TypeTable} {maxDepth : Nat} {document : Option String} {a b : Json}

theorem compile_eq_error_of_check {schema : Json} {error : CompileError}
    (h : check table maxDepth document schema = .error error) :
    compile table maxDepth document schema = .error error := by
  rcases compile_eq table maxDepth document schema with
    ⟨root, type, hcheck, -, -, -⟩ | ⟨other, hcheck, hcompile⟩
  · cases hcheck.symm.trans h
  · obtain rfl := Except.error.inj (hcheck.symm.trans h)
    exact hcompile

section Phases

variable {schema : Json} {root : SchemaNode}

theorem compile_of_unread {offence : Located Malformation}
    (hread : Schema.read maxDepth schema = .error offence) :
    compile table maxDepth document schema = .error (.malformed offence) := by
  apply compile_eq_error_of_check
  rw [check_eq, hread]

theorem compile_of_violations (hread : Schema.read maxDepth schema = .ok root)
    (hgrammar : Grammar.violations root ≠ []) :
    compile table maxDepth document schema =
      .error (.ungrammatical (Grammar.violations root)) := by
  apply compile_eq_error_of_check
  rw [check_eq, hread]
  simp only [hgrammar, if_false]

theorem compile_of_faults (hread : Schema.read maxDepth schema = .ok root)
    (hgrammar : Grammar.violations root = [])
    (hfaults : root.references.filterMap (Binding.faultOf ⟨table, document⟩) ≠ []) :
    compile table maxDepth document schema =
      .error (.unbound (root.references.filterMap (Binding.faultOf ⟨table, document⟩))) := by
  apply compile_eq_error_of_check
  rw [check_eq, hread]
  simp only [hgrammar, hfaults, if_true, if_false]

theorem exists_compile_of_faultless (hread : Schema.read maxDepth schema = .ok root)
    (hgrammar : Grammar.violations root = [])
    (hfaults : root.references.filterMap (Binding.faultOf ⟨table, document⟩) = []) :
    ∃ type, compile table maxDepth document schema = .ok type := by
  have hcheck : check table maxDepth document schema =
      .ok (root.mapReferences (Binding.settle ⟨table, document⟩)) := by
    rw [check_eq, hread]
    simp only [hgrammar, hfaults, if_true]
  rcases compile_eq table maxDepth document schema with
    ⟨_, type, -, -, -, hcompile⟩ | ⟨error, herror, -⟩
  · exact ⟨type, hcompile⟩
  · cases herror.symm.trans hcheck

end Phases

/-- Alike trees have the same faults with their references, in some order. -/
theorem faults_perm {x y : SchemaNode} (h : x.Alike y) (scope : Binding.Scope) :
    (x.references.filterMap (Binding.faultOf scope)).Perm
      (y.references.filterMap (Binding.faultOf scope)) :=
  h.references_perm.filterMap _

/-- A schema that is equal to one that compiles does so too. -/
theorem exists_compile_of_same (ha : a.Proper) (hb : b.Proper) (hsame : a.same b = true)
    {type : TypeDescriptor} (h : compile table maxDepth document a = .ok type) :
    ∃ other, compile table maxDepth document b = .ok other ∧ type.Alike other := by
  obtain ⟨x, hread, hviolations, hbindable, htype⟩ := compile_eq_ok_iff.1 h
  obtain ⟨y, hread', halike⟩ := Schema.reads_of_same a b ha hb hsame _ _ x hread
  have hids : y.referenceIds.Perm x.referenceIds := halike.references_perm.symm.map _
  obtain ⟨other, hother, htypes⟩ :=
    Meaning.descriptor_alike (halike.mapReferences (Binding.settle ⟨table, document⟩)) htype
  refine ⟨other, compile_eq_ok_iff.2 ⟨y, hread', ?_, fun id hid => ?_, hother⟩, htypes⟩
  · exact (Grammar.violations_sameMarks halike).nil_iff.1 hviolations
  · exact hbindable id (hids.subset hid)

/-- Schemas that are equal up to the order of members have the same outcome. -/
theorem compile_same (ha : a.Proper) (hb : b.Proper) (hsame : a.same b = true) :
    SameOutcome (compile table maxDepth document a) (compile table maxDepth document b) := by
  cases hread : Schema.read maxDepth a with
  | error offence =>
      cases hread' : Schema.read maxDepth b with
      | error offence' =>
          rw [compile_of_unread hread, compile_of_unread hread']
          exact .malformed offence offence'
      | ok y =>
          -- what is read on one side is read on the other
          have hback := Json.same_symm ha hb hsame
          obtain ⟨x, hx, -⟩ := Schema.reads_of_same b a hb ha hback _ _ y hread'
          cases hx.symm.trans hread
  | ok x =>
      obtain ⟨y, hread', halike⟩ := Schema.reads_of_same a b ha hb hsame _ _ x hread
      have hmarks := Grammar.violations_sameMarks halike
      have hfaults := faults_perm halike ⟨table, document⟩
      by_cases hgrammar : Grammar.violations x = []
      · have hgrammar' := hmarks.nil_iff.1 hgrammar
        by_cases hbound : x.references.filterMap (Binding.faultOf ⟨table, document⟩) = []
        · obtain ⟨type, hcompile⟩ := exists_compile_of_faultless hread hgrammar hbound
          obtain ⟨other, hother, htypes⟩ := exists_compile_of_same ha hb hsame hcompile
          rw [hcompile, hother]
          exact .accepted htypes
        · have hbound' : y.references.filterMap (Binding.faultOf ⟨table, document⟩) ≠ [] :=
            fun hnil => hbound (List.perm_nil.1 (hnil ▸ hfaults))
          have hsameMarks : SameMarks (x.references.filterMap (Binding.faultOf ⟨table, document⟩))
              (y.references.filterMap (Binding.faultOf ⟨table, document⟩)) := hfaults.map _
          rw [compile_of_faults hread hgrammar hbound, compile_of_faults hread' hgrammar' hbound']
          exact .rejected rfl rfl hsameMarks.toReport
      · have hgrammar' := mt hmarks.nil_iff.2 hgrammar
        rw [compile_of_violations hread hgrammar, compile_of_violations hread' hgrammar']
        exact .rejected rfl rfl hmarks.toReport

end Compile

/-- A schema with a default that is a zero. -/
def labelled : Json :=
  .object [("type", .string "object"), ("properties", .object [
    ("size", .object [("type", .string "number"), ("default", .float (.zero false))]),
    ("label", .object [("type", .string "string")])])]

/-- The same schema in another order, with the other zero. -/
def labelled' : Json :=
  .object [("properties", .object [
    ("label", .object [("type", .string "string")]),
    ("size", .object [("default", .float (.zero true)), ("type", .string "number")])]),
    ("type", .string "object")]

theorem compile_same_labelled :
    labelled.same labelled' = true ∧ labelled ≠ labelled' ∧
      SameOutcome (compile ⟨[], []⟩ 64 none labelled) (compile ⟨[], []⟩ 64 none labelled') := by
  have hproper : labelled.Proper := by
    simp [labelled, Json.Proper, Json.ProperMembers, Members.names]
  have hproper' : labelled'.Proper := by
    simp [labelled', Json.Proper, Json.ProperMembers, Members.names]
  have hsame : labelled.same labelled' = true := by decide
  exact ⟨hsame, by simp [labelled, labelled'], compile_same hproper hproper' hsame⟩

end ResourceTypes
