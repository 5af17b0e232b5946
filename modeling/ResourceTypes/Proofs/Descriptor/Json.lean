import ResourceTypes.Descriptor.Json
import ResourceTypes.Proofs.Descriptor.Same

/-!
The JSON form of types tells them apart. Each part of a type has a name of its
own in the object that the type is written as, and what is left out there has
one value alone, so that two types are written alike only if they are the same.
-/

namespace ResourceTypes

/-! ### Objects with members that may be left out -/

namespace Members

variable {α : Type} {slots : List (String × Option α)}

/-- The members that have a value, in the order of the names. -/
def ofSlots (slots : List (String × Option α)) : Members α :=
  slots.filterMap fun slot => slot.2.map (slot.1, ·)

theorem ofSlots_cons (name : String) (value? : Option α) (slots : List (String × Option α)) :
    ofSlots ((name, value?) :: slots) = value?.toList.map (name, ·) ++ ofSlots slots := by
  cases value? <;> simp [ofSlots]

theorem names_ofSlots_sublist (slots : List (String × Option α)) :
    (names (ofSlots slots)).Sublist (slots.map (·.1)) := by
  induction slots with
  | nil => exact .refl _
  | cons slot rest ih =>
      obtain ⟨name, value?⟩ := slot
      rw [ofSlots_cons]
      cases value? with
      | none => exact ih.cons name
      | some value => exact ih.cons_cons name

theorem get?_ofSlots_eq_none {name : String} (h : name ∉ slots.map (·.1)) :
    (ofSlots slots).get? name = none :=
  get?_eq_none_iff.2 fun hname => h ((names_ofSlots_sublist slots).subset hname)

/-- Under a name that stands once among the slots, what the slot holds is found. -/
theorem get?_ofSlots_cons {name : String} (h : name ∉ slots.map (·.1)) (value? : Option α)
    (other : String) :
    (ofSlots ((name, value?) :: slots)).get? other =
      if name = other then value? else (ofSlots slots).get? other := by
  rw [ofSlots_cons]
  split
  · next heq =>
    subst heq
    cases value? with
    | none => exact get?_ofSlots_eq_none h
    | some value => simp [get?]
  · next hne => cases value? <;> simp [get?, hne]

end Members

/-- Related pairs are told by another relation that agrees on the left values. -/
theorem forall₂_iff_of_mem {α β : Type} {R S : α → β → Prop} {xs : List α} {ys : List β}
    (h : ∀ x ∈ xs, ∀ y, R x y ↔ S x y) : List.Forall₂ R xs ys ↔ List.Forall₂ S xs ys := by
  induction xs generalizing ys with
  | nil => cases ys <;> simp
  | cons x rest ih =>
      obtain ⟨hfirst, hrest⟩ := List.forall_mem_cons.1 h
      cases ys with
      | nil => simp
      | cons y ys => rw [List.forall₂_cons, List.forall₂_cons, hfirst y, ih hrest]

namespace Json

/-- Values that are the same, or missing on both sides. -/
abbrev SameOption : Option Json → Option Json → Prop :=
  Option.Rel fun a b => a.same b = true

/-- Objects that are written from slots of the same names are the same if slot
for slot they hold the same values or none. -/
theorem same_ofSlots_iff {as bs : List (String × Option Json)}
    (hnames : as.map (·.1) = bs.map (·.1)) (hdistinct : (as.map (·.1)).Nodup) :
    (object (Members.ofSlots as)).same (object (Members.ofSlots bs)) = true ↔
      List.Forall₂ (fun a b => SameOption a.2 b.2) as bs := by
  have has := (Members.names_ofSlots_sublist as).nodup hdistinct
  have hbs := (Members.names_ofSlots_sublist bs).nodup (hnames ▸ hdistinct)
  rw [same_object_iff has hbs, Members.corresponds_iff has hbs]
  clear has hbs
  induction as generalizing bs with
  | nil =>
      obtain rfl : bs = [] := by simpa using hnames.symm
      simp [Members.ofSlots, Members.get?]
  | cons first rest ih =>
      cases bs with
      | nil => cases hnames
      | cons first' rest' =>
          obtain ⟨name, a⟩ := first
          obtain ⟨name', b⟩ := first'
          rw [List.map_cons, List.map_cons, List.cons.injEq] at hnames
          rw [List.map_cons, List.nodup_cons] at hdistinct
          obtain ⟨rfl, hrest⟩ : name = name' ∧ _ := hnames
          obtain ⟨hnew, hdistinct⟩ := hdistinct
          have hnew' : name ∉ rest'.map (·.1) := hrest ▸ hnew
          rw [List.forall₂_cons]
          -- under the first name is found what its slot holds, since no later slot has that name
          refine Iff.trans ?_ (and_congr_right fun _ => ih hrest hdistinct)
          simp only [Members.get?_ofSlots_cons hnew, Members.get?_ofSlots_cons hnew']
          constructor
          · refine fun h => ⟨by simpa using h name, fun other => ?_⟩
            by_cases heq : name = other
            · subst heq
              rw [Members.get?_ofSlots_eq_none hnew, Members.get?_ofSlots_eq_none hnew']
              exact .none
            · simpa [heq] using h other
          · rintro ⟨hfirst, hothers⟩ other
            split
            · exact hfirst
            · exact hothers other

/-- Objects are told apart by the text of their first member. -/
theorem same_eq_false_of_ne {name word word' : String} (h : word ≠ word') {as bs : Members Json} :
    (object ((name, .string word) :: as)).same (object ((name, .string word') :: bs)) = false := by
  simp [same, sameMembers, Members.get?, h]

end Json

/-! ### The parts of a type as slots -/

section Slots

open Json

/-- The slot of a text that may be missing. -/
def textSlot (text? : Option String) : Option Json := text?.map .string

/-- The slot of a flag, which is there if the flag is on. -/
def flagSlot (flag : Bool) : Option Json := if flag then some (.bool true) else none

/-- The slot of attributes, which is there unless these are empty. -/
def Attributes.slot (attributes : Attributes) : Option Json :=
  if attributes.isEmpty then none else some (.object attributes)

/-- The slot of properties, which is there unless these are empty. -/
def Property.listSlot (properties : List Property) : Option Json :=
  if properties.isEmpty then none else some (.array (properties.map Property.toJson))

def TypeDescriptor.slots (type : TypeDescriptor) : List (String × Option Json) :=
  [("kind", some (.string type.kind.name)),
    ("properties", Property.listSlot type.properties),
    ("elementType", type.element?.map TypeHandle.toJson),
    ("validation", type.validation.slot),
    ("description", textSlot type.description),
    ("readOnly", flagSlot type.readOnly)]

def Property.slots (property : Property) : List (String × Option Json) :=
  [("name", some (.string property.name)),
    ("type", some property.type.toJson),
    ("required", flagSlot property.required),
    ("readOnly", flagSlot property.readOnly),
    ("description", textSlot property.description)]

theorem textMember_eq (name : String) (text? : Option String) :
    textMember name text? = (textSlot text?).toList.map (name, ·) := by
  cases text? <;> rfl

theorem flagMember_eq (name : String) (flag : Bool) :
    flagMember name flag = (flagSlot flag).toList.map (name, ·) := by
  cases flag <;> rfl

theorem Attributes.members_eq (attributes : Attributes) :
    attributes.members = attributes.slot.toList.map ("validation", ·) := by
  cases attributes <;> rfl

theorem Property.listToJson_eq (properties : List Property) :
    Property.listToJson properties = properties.map Property.toJson := by
  induction properties with
  | nil => rfl
  | cons property rest ih => rw [Property.listToJson, ih, List.map_cons]

theorem Shape.members_eq (shape : Shape) :
    shape.members = ("kind", .string shape.kind.name) ::
      ((Property.listSlot shape.properties).toList.map ("properties", ·) ++
        (shape.element?.map TypeHandle.toJson).toList.map ("elementType", ·)) := by
  cases shape with
  | scalar kind => rfl
  | object properties =>
      cases properties with
      | nil => rfl
      | cons property rest => rw [Shape.members, Property.listToJson_eq]; rfl
  | map value => rw [Shape.members]; rfl
  | array item => rw [Shape.members]; rfl

theorem TypeDescriptor.members_eq (type : TypeDescriptor) :
    type.members = Members.ofSlots type.slots := by
  obtain ⟨shape, validation, description, readOnly⟩ := type
  rw [TypeDescriptor.members, Shape.members_eq, Attributes.members_eq, textMember_eq,
    flagMember_eq]
  simp only [slots, Members.ofSlots_cons]
  simp [Members.ofSlots, kind, properties, element?]

theorem Property.toJson_eq (property : Property) :
    property.toJson = .object (Members.ofSlots property.slots) := by
  obtain ⟨name, type, required, readOnly, description⟩ := property
  rw [Property.toJson, flagMember_eq, flagMember_eq, textMember_eq]
  simp only [slots, Members.ofSlots_cons]
  simp [Members.ofSlots]

theorem TypeHandle.toJson_authored (type : TypeDescriptor) :
    (TypeHandle.authored type).toJson =
      .object (Members.ofSlots (("origin", some (.string "authored")) :: type.slots)) := by
  rw [TypeHandle.toJson, TypeDescriptor.members_eq, Members.ofSlots_cons]
  rfl

theorem TypeHandle.toJson_referenced (id : String) (target : TypeDescriptor)
    (description : Option String) (readOnly : Bool) :
    (TypeHandle.referenced id target description readOnly).toJson =
      .object (Members.ofSlots [("origin", some (.string "referenced")),
        ("id", some (.string id)), ("descriptor", some target.toJson),
        ("description", textSlot description), ("readOnly", flagSlot readOnly)]) := by
  rw [TypeHandle.toJson, textMember_eq, flagMember_eq]
  simp only [Members.ofSlots_cons]
  simp [Members.ofSlots, TypeDescriptor.toJson]

/-! ### What slots tell -/

theorem same_string_iff {a b : String} : (Json.string a).same (.string b) = true ↔ a = b := by
  simp [Json.same]

theorem sameOption_text_iff {a b : Option String} :
    SameOption (textSlot a) (textSlot b) ↔ a = b := by
  cases a <;> cases b <;> simp [textSlot, Json.same]

theorem sameOption_flag_iff {a b : Bool} : SameOption (flagSlot a) (flagSlot b) ↔ a = b := by
  cases a <;> cases b <;> simp [flagSlot, Json.same]

theorem sameOption_attributes_iff {a b : Attributes} :
    SameOption a.slot b.slot ↔ a.same b = true := by
  cases a <;> cases b <;> simp [Attributes.slot, Attributes.same, Json.same, Json.sameMembers]

theorem Kind.ofName?_name (kind : Kind) : Kind.ofName? kind.name = some kind := by
  rcases kind with _ | _ | _ | (_ | _ | _ | _) <;> rfl

theorem Kind.name_injective : Function.Injective Kind.name := by
  intro a b h
  exact Option.some.inj (by rw [← ofName?_name a, h, ofName?_name])

end Slots

/-! ### Types -/

/-- Shapes are the same if their kinds, their properties and their elements are. -/
theorem Shape.same_iff {a b : Shape} :
    a.same b = true ↔ a.kind = b.kind ∧
      List.Forall₂ Property.Matches a.properties b.properties ∧
      Option.Rel (fun a b => a.same b = true) a.element? b.element? := by
  cases a <;> cases b <;>
    simp [Shape.same, Shape.kind, Shape.properties, Shape.element?, listSame_iff]

/-- A type is told from all others by its JSON form. -/
def TypeDescriptor.Told (type : TypeDescriptor) : Prop :=
  ∀ other : TypeDescriptor, type.toJson.same other.toJson = true ↔ type.same other = true

theorem TypeDescriptor.toJson_eq (type : TypeDescriptor) :
    type.toJson = .object (Members.ofSlots type.slots) := by
  rw [toJson, members_eq]

/-- A handle is told by its JSON form if the type is that it stands for. The word
under `origin` tells whether that type was written in place. -/
theorem TypeHandle.toJson_same_iff {handle : TypeHandle} (h : handle.type.Told)
    (other : TypeHandle) :
    handle.toJson.same other.toJson = true ↔ handle.same other = true := by
  have happart : "authored" ≠ "referenced" := by decide
  cases handle with
  | authored type =>
      have htold : type.Told := h
      cases other with
      | authored type' =>
          rw [same_authored, ← htold type', toJson_authored, toJson_authored, type.toJson_eq,
            type'.toJson_eq, Json.same_ofSlots_iff (by rfl) (by simp [TypeDescriptor.slots]),
            Json.same_ofSlots_iff (by rfl) (by simp [TypeDescriptor.slots]), List.forall₂_cons]
          exact and_iff_right (.some (same_string_iff.2 rfl))
      | referenced id target description readOnly =>
          rw [toJson, toJson, List.cons_append, List.cons_append,
            Json.same_eq_false_of_ne happart]
          simp [TypeHandle.same]
  | referenced id target description readOnly =>
      have htold : target.Told := h
      cases other with
      | authored type' =>
          rw [toJson, toJson, List.cons_append, List.cons_append,
            Json.same_eq_false_of_ne happart.symm]
          simp [TypeHandle.same]
      | referenced id' target' description' readOnly' =>
          rw [toJson_referenced, toJson_referenced, Json.same_ofSlots_iff (by rfl) (by simp),
            same_referenced_iff, ← htold target']
          simp only [List.forall₂_cons, List.Forall₂.nil, Option.rel_some_some, same_string_iff,
            sameOption_text_iff, sameOption_flag_iff, and_true, true_and]

theorem Property.toJson_same_iff {property : Property} (h : property.type.type.Told)
    (other : Property) : property.toJson.same other.toJson = true ↔ property.Matches other := by
  rw [property.toJson_eq, other.toJson_eq, Json.same_ofSlots_iff (by rfl) (by simp [slots])]
  simp only [slots, List.forall₂_cons, List.Forall₂.nil, Option.rel_some_some, same_string_iff,
    sameOption_text_iff, sameOption_flag_iff, and_true, TypeHandle.toJson_same_iff h]
  constructor
  · rintro ⟨hname, htype, hrequired, hreadOnly, hdescription⟩
    exact ⟨hname, htype, hrequired, hreadOnly, hdescription⟩
  · rintro ⟨hname, htype, hrequired, hreadOnly, hdescription⟩
    exact ⟨hname, htype, hrequired, hreadOnly, hdescription⟩

/-- Lists of properties are written alike if they match one by one. -/
theorem sameOption_properties_iff {as bs : List Property} (h : ∀ a ∈ as, a.type.type.Told) :
    Json.SameOption (Property.listSlot as) (Property.listSlot bs) ↔
      List.Forall₂ Property.Matches as bs := by
  have hitems : List.Forall₂ (fun a b => a.same b = true) (as.map Property.toJson)
      (bs.map Property.toJson) ↔ List.Forall₂ Property.Matches as bs := by
    rw [List.forall₂_map_left_iff, List.forall₂_map_right_iff]
    exact forall₂_iff_of_mem fun a ha => a.toJson_same_iff (h a ha)
  rw [← hitems]
  cases as <;> cases bs <;> simp [Property.listSlot, Json.same, Json.sameItems_iff]

theorem sameOption_element_iff {a? b? : Option TypeHandle} (h : ∀ a ∈ a?, a.type.Told) :
    Json.SameOption (a?.map TypeHandle.toJson) (b?.map TypeHandle.toJson) ↔
      Option.Rel (fun a b => a.same b = true) a? b? := by
  cases a? with
  | none => cases b? <;> simp
  | some a =>
      cases b? with
      | none => simp
      | some b => simpa using a.toJson_same_iff (h a rfl) b

/-- The JSON form of types is faithful: what is written for two types is the
same JSON value, the order of members aside, if and only if they are the same. -/
theorem toJson_same_iff_same (a b : TypeDescriptor) :
    a.toJson.same b.toJson = true ↔ a.same b = true := by
  induction a using TypeDescriptor.induct generalizing b with
  | step a ih =>
      have hproperties : ∀ property ∈ a.properties, property.type.type.Told := by
        intro property hproperty
        exact ih _ (List.mem_append_left _ (List.mem_map_of_mem hproperty))
      have helement : ∀ handle ∈ a.element?, handle.type.Told := by
        intro handle hhandle
        exact ih handle (List.mem_append_right _ (Option.mem_toList.2 hhandle))
      have hkind : a.kind.name = b.kind.name ↔ a.shape.kind = b.shape.kind :=
        Kind.name_injective.eq_iff
      rw [a.toJson_eq, b.toJson_eq, Json.same_ofSlots_iff (by rfl) (by simp [TypeDescriptor.slots]),
        TypeDescriptor.same_iff, Shape.same_iff]
      simp only [TypeDescriptor.slots, List.forall₂_cons, List.Forall₂.nil, Option.rel_some_some,
        same_string_iff, hkind, sameOption_properties_iff hproperties,
        sameOption_element_iff helement, sameOption_attributes_iff, sameOption_text_iff,
        sameOption_flag_iff, and_true, and_assoc]
      rfl

/-- A note beside a reference is not taken for the same note on the type that is
referred to. -/
example :
    (TypeHandle.referenced "units#Length" ⟨.scalar .number, [], some "in metres", false⟩
        none false).toJson.same
      (TypeHandle.referenced "units#Length" ⟨.scalar .number, [], none, false⟩
        (some "in metres") false).toJson = false := by
  decide

end ResourceTypes
