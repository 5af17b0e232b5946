import ResourceTypes.Proofs.Json.Same
import ResourceTypes.Proofs.Schema.Map

/-!
Schema trees that differ in nothing but the order in which their schemas list
members. They break the same rules at the same places, and refer to the same ids.
-/

namespace ResourceTypes

/-- What `type` holds on two schemas: one kind, or equal values that name none. -/
inductive DeclaredType.Alike : DeclaredType → DeclaredType → Prop
  | known (kind : SpelledKind) : Alike (.known kind) (.known kind)
  | unsupported {a b : Json} (same : a.same b = true) : Alike (.unsupported a) (.unsupported b)

/-- Keywords with equal values. Those that are listed by name may be in any order. -/
structure Keywords.Alike (a b : Keywords) : Prop where
  type : Option.Rel DeclaredType.Alike a.type b.type
  reference : a.reference = b.reference
  required : a.required = b.required
  readOnly : a.readOnly = b.readOnly
  description : a.description = b.description
  polymorphism : a.polymorphism.Perm b.polymorphism
  validation : Members.Corresponds (fun x y => x.same y = true) a.validation b.validation
  unknown : a.unknown.Perm b.unknown

/-- The same flag, or related schemas. -/
inductive Additional.Matches (R : SchemaNode → SchemaNode → Prop) : Additional → Additional → Prop
  | allowed (flag : Bool) : Matches R (.allowed flag) (.allowed flag)
  | typed {a b : SchemaNode} (value : R a b) : Matches R (.typed a) (.typed b)

namespace SchemaNode

/-- Schemas at one place with alike keywords and with related schemas inside. -/
structure Matches (R : SchemaNode → SchemaNode → Prop) (a b : SchemaNode) : Prop where
  path : a.path = b.path
  keywords : a.keywords.Alike b.keywords
  properties : Option.Rel (Members.Corresponds R) a.properties b.properties
  additional : Option.Rel (Additional.Matches R) a.additional b.additional
  items : Option.Rel R a.items b.items

/-- Trees that match at every level. -/
def Alike (a b : SchemaNode) : Prop :=
  ∃ R : SchemaNode → SchemaNode → Prop, R a b ∧ ∀ x y, R x y → x.Matches R y

section Matches

variable {R S : SchemaNode → SchemaNode → Prop} {a b : SchemaNode}

/-- The schemas under the same names are related; no properties count as none. -/
theorem Matches.schemas (h : a.Matches R b) :
    Members.Corresponds R (a.properties.getD []) (b.properties.getD []) := by
  have hproperties := h.properties
  generalize a.properties = xs at hproperties ⊢
  generalize b.properties = ys at hproperties ⊢
  cases hproperties with
  | none => exact ⟨List.nodup_nil, .refl _, by simp⟩
  | some hproperties => exact hproperties

theorem Matches.mapValue? (h : a.Matches R b) : Option.Rel R a.mapValue? b.mapValue? := by
  have hadditional := h.additional
  unfold SchemaNode.mapValue?
  generalize a.additional = x at hadditional ⊢
  generalize b.additional = y at hadditional ⊢
  cases hadditional with
  | none => exact .none
  | some hadditional =>
      cases hadditional with
      | allowed flag => exact .none
      | typed value => exact .some value

theorem Matches.imp (h : a.Matches R b)
    (himp : ∀ x ∈ a.children, ∀ y ∈ b.children, R x y → S x y) : a.Matches S b := by
  refine ⟨h.path, h.keywords, ?_, ?_, ?_⟩
  · refine rel_imp h.properties fun xs ys hxs hys hcorresponds => hcorresponds.imp ?_
    intro name x y hx hy
    have hleft := mem_children.2 (.inl ⟨xs, hxs, name, hx⟩)
    have hright := mem_children.2 (.inl ⟨ys, hys, name, hy⟩)
    exact himp x hleft y hright
  · refine rel_imp h.additional fun x y hx hy hmatches => ?_
    cases hmatches with
    | allowed flag => exact .allowed flag
    | typed value =>
        have hleft := mem_children.2 (.inr (.inl hx))
        have hright := mem_children.2 (.inr (.inl hy))
        exact .typed (himp _ hleft _ hright value)
  · refine rel_imp h.items fun x y hx hy hxy => ?_
    exact himp x (mem_children.2 (.inr (.inr hx))) y (mem_children.2 (.inr (.inr hy))) hxy

theorem Alike.matches (h : a.Alike b) : a.Matches Alike b := by
  obtain ⟨R, hab, hlevels⟩ := h
  exact (hlevels a b hab).imp fun x _ y _ hxy => ⟨R, hxy, hlevels⟩

theorem Matches.alike (h : a.Matches Alike b) : a.Alike b := by
  refine ⟨Matches Alike, h, fun x y hxy => ?_⟩
  exact hxy.imp fun _ _ _ _ halike => halike.matches

/-- Induction over two alike trees: what holds of all pairs of related schemas
inside holds of the whole. -/
theorem Alike.induct {P : SchemaNode → SchemaNode → Prop}
    (step : ∀ a b : SchemaNode, a.Matches P b → P a b) (h : a.Alike b) : P a b := by
  induction a using SchemaNode.induct generalizing b with
  | step a ih => exact step a b (h.matches.imp fun x hx y _ hxy => ih x hx hxy)

end Matches

end SchemaNode

/-- Where a failure lies and which rule it breaks, whatever its message says. -/
def Failure.mark (failure : Failure) : Path × Rule := (failure.path, failure.rule)

/-- Faults at the same places against the same rules, each as often, in any order. -/
def SameMarks {α : Type} [Cause α] (xs ys : List (Located α)) : Prop :=
  (xs.map fun fault => fault.failure.mark).Perm (ys.map fun fault => fault.failure.mark)

section SameMarks

variable {α β : Type} [Cause α] {xs ys xs' ys' : List (Located α)}

theorem SameMarks.refl (xs : List (Located α)) : SameMarks xs xs := List.Perm.refl _

theorem SameMarks.append (h : SameMarks xs ys) (h' : SameMarks xs' ys') :
    SameMarks (xs ++ xs') (ys ++ ys') := by
  rw [SameMarks, List.map_append, List.map_append]
  exact List.Perm.append h h'

theorem SameMarks.nil_iff (h : SameMarks xs ys) : xs = [] ↔ ys = [] := by
  have hlength := h.length_eq
  rw [List.length_map, List.length_map] at hlength
  rw [← List.length_eq_zero_iff, ← List.length_eq_zero_iff, hlength]

theorem SameMarks.of_rel {R : β → β → Prop} {x y : Option β} (h : Option.Rel R x y)
    {f : β → List (Located α)} (hparts : ∀ a b, R a b → SameMarks (f a) (f b)) :
    SameMarks (x.toList.flatMap f) (y.toList.flatMap f) := by
  rw [SameMarks, List.map_flatMap, List.map_flatMap]
  exact rel_flatMap_perm h hparts

theorem SameMarks.of_corresponds {R : β → β → Prop} {as bs : Members β}
    (h : Members.Corresponds R as bs) {f : String × β → List (Located α)}
    (hparts : ∀ name a b, R a b → SameMarks (f (name, a)) (f (name, b))) :
    SameMarks (as.flatMap f) (bs.flatMap f) := by
  rw [SameMarks, List.map_flatMap, List.map_flatMap]
  exact h.flatMap_perm hparts

end SameMarks

namespace Grammar

section Attributes

variable {path : Path} {kind : Kind} {v w : Json}

/-- Whether a value is of the JSON type of a kind is the same for equal values. -/
theorem isOfKind_eq_of_same (h : v.same w = true) (kind : Kind) :
    v.isOfKind kind = w.isOfKind kind := by
  rcases kind with _ | _ | _ | (_ | _ | _ | _) <;> cases v <;> cases w <;>
    first | rfl | cases h

theorem checkEntries_sameMarks {entries others : List Json}
    (h : List.Forall₂ (fun v w => v.same w = true) entries others) (position : Nat) :
    SameMarks (checkEntries path kind position entries)
      (checkEntries path kind position others) := by
  induction h generalizing position with
  | nil => exact .refl _
  | @cons v w _ _ hfirst _ ih =>
      rw [checkEntries, checkEntries, isOfKind_eq_of_same hfirst]
      refine SameMarks.append ?_ (ih (position + 1))
      split
      · exact .refl _
      -- the messages show the entries, which may be written in different orders
      · exact .refl _

theorem checkAttribute_sameMarks (h : v.same w = true) (name : String) :
    SameMarks (checkAttribute path kind name v) (checkAttribute path kind name w) := by
  unfold checkAttribute
  rw [isOfKind_eq_of_same h]
  split
  · exact .refl _
  · split
    · cases v with
      | array entries =>
          obtain ⟨others, rfl, hentries⟩ := Json.exists_array_of_same h
          exact checkEntries_sameMarks hentries 0
      | _ => cases w <;> first | exact .refl _ | cases h
    · split <;> exact .refl _

end Attributes

section Own

variable {R : SchemaNode → SchemaNode → Prop} {a b : SchemaNode}

theorem checkRequired_congr {path : Path} {declared declared' : List String}
    (h : ∀ name, name ∈ declared ↔ name ∈ declared') (position : Nat) (names : List String) :
    checkRequired path declared position names = checkRequired path declared' position names := by
  induction names generalizing position with
  | nil => rfl
  | cons name rest ih => simp only [checkRequired, h, ih]

theorem checkObject_eq (h : a.Matches R b) : checkObject a = checkObject b := by
  have hnames : ∀ name, name ∈ Members.names (a.properties.getD []) ↔
      name ∈ Members.names (b.properties.getD []) := fun name => h.schemas.names.mem_iff
  have hadditional := h.additional
  rw [checkObject, checkObject, rel_isSome h.properties, rel_isSome h.mapValue?, h.path,
    h.keywords.required, checkRequired_congr hnames]
  refine congrArg₂ (· ++ ·) (congrArg₂ (· ++ ·) rfl ?_) rfl
  generalize a.additional = x at hadditional ⊢
  generalize b.additional = y at hadditional ⊢
  rcases hadditional with ⟨⟨flag⟩ | ⟨value⟩⟩ | _ <;> rfl

theorem effectiveKind_eq (h : a.Matches R b) (declared : SpelledKind) :
    a.effectiveKind declared = b.effectiveKind declared := by
  rw [SchemaNode.effectiveKind, SchemaNode.effectiveKind, rel_isSome h.mapValue?]

theorem checkKind_sameMarks (h : a.Matches R b) (declared : SpelledKind) :
    SameMarks (checkKind a declared) (checkKind b declared) := by
  have hattributes : SameMarks
      (a.keywords.validation.flatMap fun pair =>
        checkAttribute b.path (b.effectiveKind declared) pair.1 pair.2)
      (b.keywords.validation.flatMap fun pair =>
        checkAttribute b.path (b.effectiveKind declared) pair.1 pair.2) :=
    .of_corresponds h.keywords.validation fun name v w hsame => checkAttribute_sameMarks hsame name
  unfold checkKind
  dsimp only
  rw [rel_isSome h.properties, rel_isSome h.additional, h.keywords.required,
    rel_isSome h.items, h.path, effectiveKind_eq h]
  refine ((SameMarks.refl _).append hattributes).append ?_
  cases declared with
  | object =>
      rw [checkObject_eq h]
      exact .refl _
  | array =>
      rw [checkArray, checkArray, rel_isSome h.items, h.path]
      exact .refl _
  | scalar kind => exact .refl _

theorem checkType_sameMarks (h : a.Matches R b) (position : Position) :
    SameMarks (checkType position a) (checkType position b) := by
  have htype := h.keywords.type
  unfold checkType
  rw [h.path]
  generalize a.keywords.type = x at htype ⊢
  generalize b.keywords.type = y at htype ⊢
  cases htype with
  | none => exact .refl _
  | some halike =>
      cases halike with
      | known kind => exact checkKind_sameMarks h kind
      | unsupported same => exact .refl _

theorem nonReferenceKeywords_perm (h : a.Matches R b) :
    a.nonReferenceKeywords.Perm b.nonReferenceKeywords := by
  have hpresent {α β : Type} {S : α → β → Prop} {x : Option α} {y : Option β} (name : String)
      (hxy : Option.Rel S x y) : SchemaNode.present name x = SchemaNode.present name y := by
    rw [SchemaNode.present, SchemaNode.present, rel_isSome hxy]
  unfold SchemaNode.nonReferenceKeywords
  rw [hpresent "type" h.keywords.type, hpresent "properties" h.properties,
    hpresent "additionalProperties" h.additional, hpresent "items" h.items, h.keywords.required]
  have hnames := h.keywords.validation.names
  exact (((List.Perm.refl _).append h.keywords.polymorphism).append hnames).append
    h.keywords.unknown

theorem checkReference_sameMarks (h : a.Matches R b) :
    SameMarks (checkReference a) (checkReference b) := by
  have hperm := nonReferenceKeywords_perm h
  have hnil : a.nonReferenceKeywords = [] ↔ b.nonReferenceKeywords = [] :=
    ⟨fun heq => List.perm_nil.1 (heq ▸ hperm.symm), fun heq => List.perm_nil.1 (heq ▸ hperm)⟩
  unfold checkReference
  simp only [hnil, h.path]
  -- the message lists the other keywords in the order of the schema
  split <;> exact .refl _

theorem checkOwn_sameMarks (h : a.Matches R b) (position : Position) :
    SameMarks (checkOwn position a) (checkOwn position b) := by
  have hlisted {xs ys : List String} (hperm : xs.Perm ys) (cause : String → Violation) :
      SameMarks (xs.map fun word => (⟨b.path, cause word⟩ : Located Violation))
        (ys.map fun word => ⟨b.path, cause word⟩) := (hperm.map _).map _
  unfold checkOwn
  rw [h.path, h.keywords.reference]
  refine ((hlisted h.keywords.polymorphism _).append (hlisted h.keywords.unknown _)).append ?_
  split
  · exact checkReference_sameMarks h
  · exact checkType_sameMarks h position

theorem checkRoot_eq (h : a.Matches R b) : checkRoot a = checkRoot b := by
  have hdeclared : a.declaredKind? = b.declaredKind? := by
    have htype := h.keywords.type
    unfold SchemaNode.declaredKind?
    generalize a.keywords.type = x at htype ⊢
    generalize b.keywords.type = y at htype ⊢
    rcases htype with ⟨⟨kind⟩ | ⟨same⟩⟩ | _ <;> rfl
  have hkind : a.effectiveKind? = b.effectiveKind? := by
    rw [SchemaNode.effectiveKind?, SchemaNode.effectiveKind?, hdeclared]
    congr 1
    funext declared
    exact effectiveKind_eq h declared
  rw [checkRoot, checkRoot, h.keywords.reference, h.path, hkind]

end Own

section Tree

variable {a b : SchemaNode}

/-- Alike trees break the same rules at the same places. -/
theorem check_sameMarks (h : a.Alike b) (position : Position) :
    SameMarks (check position a) (check position b) := by
  have hall : ∀ position, SameMarks (check position a) (check position b) := by
    refine SchemaNode.Alike.induct
      (P := fun a b => ∀ position, SameMarks (check position a) (check position b))
      (fun a b h position => ?_) h
    rw [check_eq, check_eq]
    refine (((checkOwn_sameMarks h position).append ?_).append ?_).append ?_
    · exact .of_corresponds h.schemas fun name x y hxy => hxy .member
    · exact .of_rel h.mapValue? fun x y hxy => hxy .member
    · exact .of_rel h.items fun x y hxy => hxy .item
  exact hall position

theorem violations_sameMarks (h : a.Alike b) : SameMarks (violations a) (violations b) := by
  rw [violations, violations, checkRoot_eq h.matches]
  exact (SameMarks.refl _).append (check_sameMarks h .member)

end Tree

end Grammar

namespace SchemaNode

variable {a b : SchemaNode}

/-- Alike trees have the same references at the same places. -/
theorem Alike.references_perm (h : a.Alike b) : a.references.Perm b.references := by
  refine induct (P := fun a b => a.references.Perm b.references) (fun a b h => ?_) h
  rw [references_eq, references_eq, h.path, h.keywords.reference]
  refine (List.Perm.refl _).append ?_
  simp only [children, List.flatMap_append, List.flatMap_map]
  refine List.Perm.append (List.Perm.append ?_ ?_) ?_
  · exact h.schemas.flatMap_perm fun _ _ _ hxy => hxy
  · exact rel_flatMap_perm h.mapValue? fun _ _ hxy => hxy
  · exact rel_flatMap_perm h.items fun _ _ hxy => hxy

/-- Replacing references in alike trees leaves them alike. -/
theorem Alike.mapReferences (h : a.Alike b) (f : Reference → Reference) :
    (a.mapReferences f).Alike (b.mapReferences f) := by
  refine induct (P := fun a b => (a.mapReferences f).Alike (b.mapReferences f)) (fun a b h => ?_) h
  have hkeywords : (a.mapReferences f).keywords.Alike (b.mapReferences f).keywords := by
    rw [map_keywords, map_keywords]
    exact { h.keywords with reference := by rw [h.keywords.reference] }
  refine Matches.alike ⟨?_, hkeywords, ?_, ?_, ?_⟩
  · rw [map_path, map_path, h.path]
  · rw [map_properties, map_properties]
    exact rel_map h.properties fun _ _ hcorresponds => hcorresponds.map fun _ _ hxy => hxy
  · rw [map_additional, map_additional]
    refine rel_map h.additional fun x y hmatches => ?_
    cases hmatches with
    | allowed flag => exact .allowed flag
    | typed value => exact .typed value
  · rw [map_items, map_items]
    exact rel_map h.items fun _ _ hxy => hxy

end SchemaNode

end ResourceTypes
