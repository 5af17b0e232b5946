import ResourceTypes.Proofs.Schema.Alike
import ResourceTypes.Proofs.Schema.Language

/-!
Reading values that are equal up to the order of members. If one of them can be
read, then so can the other, and the trees are alike.
-/

namespace ResourceTypes

namespace Schema

open ResourceTypes.Language (Inside)

/-- Equality of JSON values up to the order of members. -/
abbrev Same (a b : Json) : Prop := a.same b = true

section Leaves

variable {α β : Type} {R : α → α → Prop} {S : β → β → Prop} {found found' : Option α}
  {new : Option β} {Yields Yields' : α → β → Prop}

/-- What a keyword leaves is there on both sides or on neither, and it is
related if related values yield related results. -/
theorem Leaves.transfer (h : Leaves found none new Yields) (hfound : Option.Rel R found found')
    (hyields : ∀ v w x, found = some v → found' = some w → R v w → Yields v x →
      ∃ y, Yields' w y ∧ S x y) :
    ∃ new', Leaves found' none new' Yields' ∧ Option.Rel S new new' := by
  cases hfound with
  | none =>
      obtain rfl : new = none := h
      exact ⟨none, rfl, .none⟩
  | some hsame =>
      obtain ⟨x, rfl, hx⟩ := h
      obtain ⟨y, hy, hxy⟩ := hyields _ _ x rfl rfl hsame hx
      exact ⟨some y, ⟨y, rfl, hy⟩, .some hxy⟩

/-- A keyword whose values yield the same result whenever they are related. -/
theorem Leaves.keep (h : Leaves found none new Yields) (hfound : Option.Rel R found found')
    (hyields : ∀ v w x, R v w → Yields v x → Yields' w x) : Leaves found' none new Yields' := by
  have hsame := h.transfer (S := Eq) hfound fun v w x _ _ hvw hx => ⟨x, hyields v w x hvw hx, rfl⟩
  obtain ⟨new', hleaves, hrel⟩ := hsame
  rw [eq_of_rel hrel]
  exact hleaves

end Leaves

section Yields

variable {v w : Json}

theorem readType_alike (h : Same v w) : (readType v).Alike (readType w) := by
  cases v with
  | string word =>
      obtain rfl := Json.eq_string_of_same h
      cases hkind : SpelledKind.ofName? word with
      | none => simpa [readType, hkind] using DeclaredType.Alike.unsupported h
      | some kind => simpa [readType, hkind] using DeclaredType.Alike.known kind
  | _ => cases w <;> first | exact .unsupported h | cases h

theorem YieldsReference.of_same {reference : Reference} (h : YieldsReference v reference)
    (hsame : Same v w) : YieldsReference w reference := by
  obtain ⟨id, rfl, hreference⟩ := h
  exact ⟨id, Json.eq_string_of_same hsame, hreference⟩

theorem YieldsNames.of_same {names : List String} (h : YieldsNames v names) (hsame : Same v w) :
    YieldsNames w names := by
  obtain rfl : v = _ := h
  exact Json.eq_names_of_same hsame

theorem YieldsFlag.of_same {flag : Bool} (h : YieldsFlag v flag) (hsame : Same v w) :
    YieldsFlag w flag := by
  obtain rfl : v = _ := h
  exact Json.eq_bool_of_same hsame

theorem YieldsText.of_same {text : String} (h : YieldsText v text) (hsame : Same v w) :
    YieldsText w text := by
  obtain rfl : v = _ := h
  exact Json.eq_string_of_same hsame

end Yields

/-- A schema can be read wherever an equal one can, and then the trees are alike. -/
def Rereads (limit : Nat) (a b : Json) : Prop :=
  ∀ path depth node, readNode limit path depth a = .ok node →
    ∃ other, readNode limit path depth b = .ok other ∧ node.Alike other

section Inside

variable {limit depth : Nat} {path : Path} {v w : Json}

theorem YieldsProperties.reread {nodes : List (String × SchemaNode)}
    (h : YieldsProperties limit depth path v nodes) (hv : v.Proper) (hw : w.Proper)
    (hsame : Same v w)
    (hinside : ∀ schemas name a b, v = .object schemas → (name, a) ∈ schemas → b.Proper →
      Same a b → Rereads limit a b) :
    ∃ others, YieldsProperties limit depth path w others ∧
      Members.Corresponds SchemaNode.Alike nodes others := by
  obtain ⟨schemas, rfl, hnodes⟩ := h
  obtain ⟨schemas', rfl, hschemas⟩ := Json.exists_object_of_same hv hw hsame
  have hproper := Json.properMembers_iff.1 hw.2
  -- each schema on the right has one on the left, which was read
  have hread : ∀ pair ∈ schemas', ∃ other : String × SchemaNode, pair.1 = other.1 ∧
      readNode limit (path.key pair.1) depth pair.2 = .ok other.2 := by
    rintro ⟨name, b⟩ hb
    obtain ⟨a, ha, hab⟩ := hschemas.exists_left hb
    obtain ⟨node, -, -, hnode⟩ := exists_mem_right hnodes ha
    obtain ⟨other, hother, -⟩ :=
      hinside schemas name a b rfl ha (hproper _ hb) hab _ _ node.2 hnode
    exact ⟨(name, other), rfl, hother⟩
  obtain ⟨others, hothers⟩ := exists_forall₂ hread
  refine ⟨others, ⟨schemas', rfl, hothers⟩, ?_⟩
  have hnames := names_eq_of_forall₂ hnodes fun _ _ h => h.1
  have hnames' := names_eq_of_forall₂ hothers fun _ _ h => h.1
  refine ⟨hnames ▸ hschemas.distinct, hnames ▸ hnames' ▸ hschemas.names, ?_⟩
  intro name x y hx hy
  obtain ⟨⟨_, a⟩, ha, rfl, hreadx⟩ := exists_mem_left hnodes hx
  obtain ⟨⟨_, b⟩, hb, rfl, hready⟩ := exists_mem_left hothers hy
  obtain ⟨other, hother, halike⟩ := hinside schemas _ a b rfl ha (hproper _ hb)
    (hschemas.values _ a b ha hb) _ _ x hreadx
  obtain rfl := Except.ok.inj (hother.symm.trans hready)
  exact halike

theorem YieldsAdditional.reread {additional : Additional}
    (h : YieldsAdditional limit depth path v additional) (hv : v.Proper) (hw : w.Proper)
    (hsame : Same v w) (hinside : ∀ fields, v = .object fields → Rereads limit v w) :
    ∃ other, YieldsAdditional limit depth path w other ∧
      Additional.Matches SchemaNode.Alike additional other := by
  rcases h with ⟨flag, rfl, rfl⟩ | ⟨fields, node, rfl, rfl, hnode⟩
  · exact ⟨.allowed flag, .inl ⟨flag, Json.eq_bool_of_same hsame, rfl⟩, .allowed flag⟩
  · obtain ⟨fields', rfl, -⟩ := Json.exists_object_of_same hv hw hsame
    obtain ⟨other, hother, halike⟩ := hinside fields rfl _ _ node hnode
    exact ⟨.typed other, .inr ⟨fields', other, rfl, rfl, hother⟩, .typed halike⟩

theorem YieldsItems.reread {node : SchemaNode} (h : YieldsItems limit depth path v node)
    (hv : v.Proper) (hw : w.Proper) (hsame : Same v w) (hinside : Rereads limit v w) :
    ∃ other, YieldsItems limit depth path w other ∧ node.Alike other := by
  obtain ⟨fields, rfl, hnode⟩ := h
  obtain ⟨fields', rfl, -⟩ := Json.exists_object_of_same hv hw hsame
  obtain ⟨other, hother, halike⟩ := hinside _ _ node hnode
  exact ⟨other, ⟨fields', rfl, hother⟩, halike⟩

end Inside

section Filled

variable {limit depth : Nat} {path : Path} {as bs : Members Json} {node : SchemaNode}

/-- The other members fill a node that is alike, if all schemas inside can be reread. -/
theorem Filled.reorder (h : Filled limit depth as (.blank path) node)
    (has : (Json.object as).Proper) (hbs : (Json.object bs).Proper)
    (hsame : Members.Corresponds Same as bs)
    (hinside : ∀ a b, Inside as a → b.Proper → Same a b → Rereads limit a b) :
    ∃ other, Filled limit depth bs (.blank path) other ∧ node.Alike other := by
  have hproper : ∀ {name v}, as.get? name = some v → v.Proper := fun hv =>
    Json.properMembers_iff.1 has.2 _ (Members.mem_of_get? hv)
  have hproper' : ∀ {name w}, bs.get? name = some w → w.Proper := fun hw =>
    Json.properMembers_iff.1 hbs.2 _ (Members.mem_of_get? hw)
  have hkinds : ∀ v w x, Same v w → YieldsType v x → ∃ y, YieldsType w y ∧ x.Alike y := by
    rintro v w _ hvw rfl
    exact ⟨readType w, rfl, readType_alike hvw⟩
  -- an unsupported type may be kept in another spelling, the other plain keywords not
  obtain ⟨type, htype, htypes⟩ :=
    h.type.transfer (hsame.get? "type") fun v w x _ _ hvw hx => hkinds v w x hvw hx
  have hreference := h.reference.keep (hsame.get? "$ref") fun _ _ _ hvw hx => hx.of_same hvw
  have hrequired := h.required.keep (hsame.get? "required") fun _ _ _ hvw hx => hx.of_same hvw
  have hreadOnly := h.readOnly.keep (hsame.get? "readOnly") fun _ _ _ hvw hx => hx.of_same hvw
  have hdescription :=
    h.description.keep (hsame.get? "description") fun _ _ _ hvw hx => hx.of_same hvw
  obtain ⟨properties, hproperties, hschemas⟩ := h.properties.transfer (hsame.get? "properties")
    fun v w x hv hw hvw hx => hx.reread (hproper hv) (hproper' hw) hvw
      fun schemas name a b hobject ha hb hab =>
        hinside a b (.property (hobject ▸ hv) ha) hb hab
  obtain ⟨additional, hadditional, hvalues⟩ :=
    h.additional.transfer (hsame.get? "additionalProperties")
      fun v w x hv hw hvw hx => hx.reread (hproper hv) (hproper' hw) hvw
        fun fields hobject => hinside v w (hobject ▸ .value (hobject ▸ hv)) (hproper' hw) hvw
  obtain ⟨items, hitems, hlisted⟩ := h.items.transfer (hsame.get? "items")
    fun v w x hv hw hvw hx => hx.reread (hproper hv) (hproper' hw) hvw
      (hinside v w (.items hv) (hproper' hw) hvw)
  let keywords : Keywords := ⟨type, node.keywords.reference, node.keywords.required,
    node.keywords.readOnly, node.keywords.description,
    bs.names.filter (Keyword.classOf · = .polymorphism),
    bs.filter (Keyword.classOf ·.1 = .validation),
    bs.names.filter (Keyword.classOf · = .unknown)⟩
  refine ⟨⟨path, keywords, properties, additional, items⟩, ?_, ?_⟩
  · exact ⟨rfl, htype, hreference, hrequired, hreadOnly, hdescription, rfl, rfl, rfl, hproperties,
      hadditional, hitems⟩
  · refine SchemaNode.Matches.alike ⟨h.path, ?_, hschemas, hvalues, hlisted⟩
    refine ⟨htypes, rfl, rfl, rfl, rfl, ?_, ?_, ?_⟩
    · rw [h.polymorphism]
      exact hsame.names.filter _
    · rw [h.validation]
      exact hsame.filter fun name => Keyword.classOf name = .validation
    · rw [h.unknown]
      exact hsame.names.filter _

end Filled

/-- Values that are equal up to the order of members are both read as schemas,
to trees that are alike, or neither is. -/
theorem reads_of_same {limit : Nat} (a b : Json) (ha : a.Proper) (hb : b.Proper)
    (hsame : Same a b) : Rereads limit a b := by
  intro path depth node hnode
  obtain ⟨as, hobject⟩ := eq_object_of_readNode hnode
  rw [hobject] at ha hsame hnode
  obtain ⟨bs, rfl, hmembers⟩ := Json.exists_object_of_same ha hb hsame
  obtain ⟨hdepth, hfilled⟩ := (readNode_eq_ok_iff ha.1).1 hnode
  obtain ⟨other, hother, halike⟩ := hfilled.reorder ha hb hmembers fun x y hx hy hxy =>
    reads_of_same x y (hx.proper ha) hy hxy
  exact ⟨other, (readNode_eq_ok_iff hb.1).2 ⟨hdepth, hother⟩, halike⟩
termination_by sizeOf a
decreasing_by
  rw [hobject]
  exact hx.sizeOf_lt

end Schema

end ResourceTypes
