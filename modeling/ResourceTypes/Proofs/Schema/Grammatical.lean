import ResourceTypes.Proofs.Schema.Tree

/-!
When a schema breaks no rule: the conditions that the checks of the grammar
leave, one statement for each of them.
-/

namespace ResourceTypes

namespace Grammar

variable {path : Path} {node : SchemaNode}

theorem checkEntries_eq_nil_iff (kind : Kind) (position : Nat) (entries : List Json) :
    checkEntries path kind position entries = [] ↔
      ∀ entry ∈ entries, entry.isOfKind kind = true := by
  induction entries generalizing position with
  | nil => simp [checkEntries]
  | cons entry rest ih => simp [checkEntries, ih]

theorem checkAttribute_eq_nil_iff (kind : Kind) (name : String) (value : Json) :
    checkAttribute path kind name value = [] ↔
      Keyword.allows name kind = true ∧
        (name = "enum" → ∃ entries, value = .array entries ∧
          ∀ entry ∈ entries, entry.isOfKind kind = true) ∧
        (name = "default" → value.isOfKind kind = true) := by
  unfold checkAttribute
  cases hallows : Keyword.allows name kind with
  | false => simp
  | true =>
      by_cases henum : name = "enum"
      · subst henum
        cases value <;> simp [checkEntries_eq_nil_iff]
      · by_cases hdefault : name = "default" <;> simp [henum, hdefault]

theorem checkRequired_eq_nil_iff (declared : List String) (position : Nat) (names : List String) :
    checkRequired path declared position names = [] ↔ ∀ name ∈ names, name ∈ declared := by
  induction names generalizing position with
  | nil => simp [checkRequired]
  | cons name rest ih => simp [checkRequired, ih]

theorem checkObject_eq_nil_iff :
    checkObject node = [] ↔
      ¬ (node.properties.isSome ∧ node.mapValue?.isSome) ∧
        node.additional ≠ some (.allowed true) ∧
        ∀ name ∈ node.keywords.required.getD [],
          name ∈ Members.names (node.properties.getD []) := by
  rw [checkObject, List.append_eq_nil_iff, List.append_eq_nil_iff, checkRequired_eq_nil_iff,
    and_assoc]
  refine and_congr (by simp) (and_congr ?_ Iff.rfl)
  rcases node.additional with _ | (_ | _) | value <;> simp

theorem misplacedIf_eq_nil_iff (present : Bool) (keyword : String) (kind : Kind) :
    misplacedIf present path keyword kind = [] ↔ present = false := by
  cases present <;> simp [misplacedIf]

theorem checkKind_eq_nil_iff (declared : SpelledKind) :
    checkKind node declared = [] ↔
      (declared ≠ .object →
        node.properties = none ∧ node.additional = none ∧ node.keywords.required = none) ∧
      (node.items.isSome ↔ declared = .array) ∧
      (∀ pair ∈ node.keywords.validation,
        checkAttribute node.path (node.effectiveKind declared) pair.1 pair.2 = []) ∧
      (declared = .object → checkObject node = []) := by
  simp only [checkKind, List.append_eq_nil_iff, misplacedIf_eq_nil_iff, List.flatMap_eq_nil_iff]
  cases declared with
  | object =>
      cases node.items <;> simp
  | array =>
      cases hitems : node.items <;> simp [checkArray, hitems, and_assoc]
  | scalar kind =>
      cases node.items <;> simp [and_assoc]

/-- A schema breaks no rule of its own if it is a bare reference, or declares
a type and keeps to the rules for it. -/
theorem checkOwn_eq_nil_cases :
    checkOwn .member node = [] ↔
      node.keywords.polymorphism = [] ∧ node.keywords.unknown = [] ∧
        ((node.keywords.reference.isSome ∧ node.nonReferenceKeywords = []) ∨
          (node.keywords.reference = none ∧
            ∃ declared, node.keywords.type = some (.known declared) ∧
              checkKind node declared = [])) := by
  simp only [checkOwn, List.append_eq_nil_iff, List.map_eq_nil_iff, and_assoc]
  refine and_congr_right fun _ => and_congr_right fun _ => ?_
  cases hreference : node.keywords.reference with
  | some reference => simp [checkReference]
  | none => rcases htype : node.keywords.type with _ | _ | value <;> simp [checkType, htype]

theorem checkRoot_eq_nil_iff :
    checkRoot node = [] ↔
      node.keywords.reference = none ∧
        ∀ declared, node.declaredKind? = some declared →
          declared = .object ∧ node.mapValue? = none := by
  unfold checkRoot SchemaNode.effectiveKind? SchemaNode.effectiveKind
  cases node.keywords.reference with
  | some reference => simp
  | none =>
      rcases node.declaredKind? with _ | _ | _ | kind <;> cases node.mapValue? <;>
        simp [SpelledKind.kind]

theorem violations_eq_nil_iff {root : SchemaNode} :
    violations root = [] ↔
      checkRoot root = [] ∧
        ∀ node, root.Holds node → checkOwn .member node = [] := by
  rw [violations, List.append_eq_nil_iff, check_eq_nil_iff]

theorem nonReferenceKeywords_eq_nil_iff :
    node.nonReferenceKeywords = [] ↔
      node.keywords.type = none ∧ node.properties = none ∧ node.additional = none ∧
        node.items = none ∧ node.keywords.required = none ∧ node.keywords.polymorphism = [] ∧
        node.keywords.validation = [] ∧ node.keywords.unknown = [] := by
  have hpresent {α : Type} (name : String) (value : Option α) :
      SchemaNode.present name value = [] ↔ value = none := by
    cases value <;> simp [SchemaNode.present]
  simp [SchemaNode.nonReferenceKeywords, hpresent, Members.names]

end Grammar

end ResourceTypes
