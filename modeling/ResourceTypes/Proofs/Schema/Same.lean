import ResourceTypes.Proofs.Schema.Alike

/-!
Equality of schema trees, part by part. Values inside are compared as JSON
values, and the order of the validation keywords is open, as that of all members is.
-/

namespace ResourceTypes

/-- Equality of parts that may be missing. -/
def sameOption {α : Type} (same : α → α → Bool) : Option α → Option α → Bool
  | none, none => true
  | some a, some b => same a b
  | _, _ => false

def DeclaredType.same : DeclaredType → DeclaredType → Bool
  | .known a, .known b => a == b
  | .unsupported a, .unsupported b => a.same b
  | _, _ => false

def Reference.same : Reference → Reference → Bool
  | .unbound a, .unbound b => a == b
  | .bound a target, .bound b target' => a == b && target.same target'
  | _, _ => false

def Keywords.same (a b : Keywords) : Bool :=
  sameOption DeclaredType.same a.type b.type && sameOption Reference.same a.reference b.reference &&
    a.required == b.required && a.readOnly == b.readOnly && a.description == b.description &&
    a.polymorphism == b.polymorphism && a.validation.same b.validation && a.unknown == b.unknown

namespace SchemaNode

mutual

/-- Equality of trees: the same parts everywhere, at the same paths. -/
def same : SchemaNode → SchemaNode → Bool
  | ⟨path, keywords, properties, additional, items⟩, other =>
    path == other.path && keywords.same other.keywords &&
      sameProperties properties other.properties && sameAdditional additional other.additional &&
      sameItems items other.items

def sameProperties :
    Option (List (String × SchemaNode)) → Option (List (String × SchemaNode)) → Bool
  | some as, some bs => sameList as bs
  | none, none => true
  | _, _ => false

def sameList : List (String × SchemaNode) → List (String × SchemaNode) → Bool
  | [], [] => true
  | (name, a) :: as, (name', b) :: bs => name == name' && a.same b && sameList as bs
  | _, _ => false

def sameAdditional : Option Additional → Option Additional → Bool
  | some (.allowed a), some (.allowed b) => a == b
  | some (.typed a), some (.typed b) => a.same b
  | none, none => true
  | _, _ => false

def sameItems : Option SchemaNode → Option SchemaNode → Bool
  | some a, some b => a.same b
  | none, none => true
  | _, _ => false

end

end SchemaNode

theorem sameOption_iff {α : Type} {same : α → α → Bool} {x y : Option α} :
    sameOption same x y = true ↔ Option.Rel (fun a b => same a b = true) x y := by
  cases x <;> cases y <;> simp [sameOption]

/-- Keywords that agree in everything. -/
structure Keywords.Agree (a b : Keywords) : Prop where
  type : Option.Rel (fun x y => DeclaredType.same x y = true) a.type b.type
  reference : Option.Rel (fun x y => Reference.same x y = true) a.reference b.reference
  required : a.required = b.required
  readOnly : a.readOnly = b.readOnly
  description : a.description = b.description
  polymorphism : a.polymorphism = b.polymorphism
  validation : a.validation.same b.validation = true
  unknown : a.unknown = b.unknown

theorem Keywords.agree_of_same {a b : Keywords} (h : a.same b = true) : a.Agree b := by
  simp only [same, Bool.and_eq_true, beq_iff_eq, sameOption_iff] at h
  obtain ⟨⟨⟨⟨⟨⟨⟨htype, hreference⟩, hrequired⟩, hreadOnly⟩, hdescription⟩, hpolymorphism⟩,
    hvalidation⟩, hunknown⟩ := h
  exact ⟨htype, hreference, hrequired, hreadOnly, hdescription, hpolymorphism, hvalidation,
    hunknown⟩

namespace SchemaNode

/-- Two properties of one name, with the same schema. -/
def SameProperty (a b : String × SchemaNode) : Prop := a.1 = b.1 ∧ a.2.same b.2 = true

/-- Schemas that agree in everything. -/
structure Agrees (a b : SchemaNode) : Prop where
  path : a.path = b.path
  keywords : a.keywords.Agree b.keywords
  properties : Option.Rel (List.Forall₂ SameProperty) a.properties b.properties
  additional : Option.Rel (Additional.Matches fun x y => x.same y = true) a.additional b.additional
  items : Option.Rel (fun x y => x.same y = true) a.items b.items

theorem sameList_iff {as bs : List (String × SchemaNode)} :
    sameList as bs = true ↔ List.Forall₂ SameProperty as bs := by
  induction as generalizing bs with
  | nil => cases bs <;> simp [sameList]
  | cons pair rest ih =>
      obtain ⟨name, a⟩ := pair
      cases bs with
      | nil => simp [sameList]
      | cons other rest' =>
          obtain ⟨name', b⟩ := other
          simp [sameList, SameProperty, ih]

theorem agrees_of_same {a b : SchemaNode} (h : a.same b = true) : a.Agrees b := by
  obtain ⟨path, keywords, properties, additional, items⟩ := a
  obtain ⟨path', keywords', properties', additional', items'⟩ := b
  simp only [same, Bool.and_eq_true, beq_iff_eq] at h
  obtain ⟨⟨⟨⟨hpath, hkeywords⟩, hproperties⟩, hadditional⟩, hitems⟩ := h
  refine ⟨hpath, Keywords.agree_of_same hkeywords, ?_, ?_, ?_⟩
  · cases properties <;> cases properties' <;> simp_all [sameProperties, sameList_iff]
  · rcases additional with _ | ⟨_ | _⟩ <;> rcases additional' with _ | ⟨_ | _⟩ <;>
      simp_all [sameAdditional]
    · exact .allowed _
    · exact .typed hadditional
  · cases items <;> cases items' <;> simp_all [sameItems]

end SchemaNode

end ResourceTypes
