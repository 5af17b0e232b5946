import ResourceTypes.Proofs.Schema.Denotation
import ResourceTypes.Proofs.Schema.Same

/-!
What a tree tells of the value that it was read from. The names of a schema's
members are those that its node keeps, and where no keyword is kept by name alone,
equal trees are read from equal values.
-/

namespace ResourceTypes

open ResourceTypes.Language

/-- The keywords of a class that a node keeps besides those with a part of their own. -/
def Keywords.slot (keywords : Keywords) : KeywordClass → List String
  | .polymorphism => keywords.polymorphism
  | .validation => Members.names keywords.validation
  | .unknown => keywords.unknown
  | .structural | .metadata => []

/-- The keywords that a node has: those that may not stand beside a reference, the
reference and the notes. -/
def SchemaNode.allKeywords (node : SchemaNode) : List String :=
  node.nonReferenceKeywords ++ present "$ref" node.keywords.reference ++
    present "description" node.keywords.description ++ present "readOnly" node.keywords.readOnly

/-- A node accounts for the members of the object that it was read from: each name
is kept once, and in the slot of its class if it has no part of its own. -/
structure AccountsFor (node : SchemaNode) (members : Members Json) : Prop where
  once : members.names.Nodup
  kept : members.names.Perm node.allKeywords
  sorted : ∀ name ∈ members.names, name ∉ Keyword.structural ++ Keyword.metadata →
    ∀ family, name ∈ node.keywords.slot family ↔ Keyword.classOf name = family

namespace Schema

section Names

variable {limit depth : Nat} {path : Path} {members : Members Json} {node : SchemaNode}

/-- A keyword with a part of its own is kept as often as it is there. -/
theorem count_present {α β : Type} {found : Members β} {value : Option α} {name key : String}
    {Yields : β → α → Prop} (h : Leaves (found.get? key) none value Yields)
    (hnodup : found.names.Nodup) :
    (SchemaNode.present key value).count name =
      if name = key then found.names.count name else 0 := by
  by_cases hkey : name = key
  · subst hkey
    rw [if_pos rfl, hnodup.count, SchemaNode.present]
    simp only [h.isSome_iff]
    split <;> simp
  · rw [if_neg hkey, SchemaNode.present]
    split <;> simp [Ne.symm hkey]

theorem count_slot (h : Filled limit depth members (.blank path) node) {family : KeywordClass}
    (hfamily : family ≠ .structural ∧ family ≠ .metadata) (name : String) :
    (node.keywords.slot family).count name =
      if Keyword.classOf name = family then members.names.count name else 0 := by
  have hslot : node.keywords.slot family = members.names.filter (Keyword.classOf · = family) := by
    cases family with
    | polymorphism => exact h.polymorphism
    | unknown => exact h.unknown
    | validation =>
        rw [Keywords.slot, h.validation, Members.names, Members.names, List.filter_map]
        rfl
    | structural => exact absurd rfl hfamily.1
    | metadata => exact absurd rfl hfamily.2
  rw [hslot]
  split
  · next hclass => rw [List.count_filter (by simpa using hclass)]
  · next hclass => rw [List.count_eq_zero_of_not_mem (by simp [hclass])]

theorem mem_slot_iff (h : Filled limit depth members (.blank path) node) {family : KeywordClass}
    (hfamily : family ≠ .structural ∧ family ≠ .metadata) {name : String} :
    name ∈ node.keywords.slot family ↔ name ∈ members.names ∧ Keyword.classOf name = family := by
  rw [← List.count_pos_iff, count_slot h hfamily name]
  split
  · next hclass => simp [hclass]
  · next hclass => simp [hclass]

theorem kept_perm (h : Filled limit depth members (.blank path) node)
    (hnodup : members.names.Nodup) : members.names.Perm node.allKeywords := by
  rw [List.perm_iff_count]
  intro name
  have hslots (family : KeywordClass) (hfamily : family ≠ .structural ∧ family ≠ .metadata) :=
    count_slot h hfamily name
  have hpolymorphism := hslots .polymorphism (by decide)
  have hvalidation := hslots .validation (by decide)
  have hunknown := hslots .unknown (by decide)
  simp only [Keywords.slot] at hpolymorphism hvalidation hunknown
  simp only [SchemaNode.allKeywords, SchemaNode.nonReferenceKeywords, List.count_append,
    hpolymorphism, hvalidation, hunknown, count_present h.type hnodup,
    count_present h.properties hnodup, count_present h.additional hnodup,
    count_present h.items hnodup, count_present h.required hnodup,
    count_present h.reference hnodup, count_present h.description hnodup,
    count_present h.readOnly hnodup]
  -- a name is counted for its part or in the list of its class, and nowhere else
  rcases Part.keyword_or_listed name with ⟨part, rfl⟩ | hlisted
  · obtain ⟨hpolymorphism, hvalidation, hunknown⟩ := part.not_listed
    simp only [hpolymorphism, hvalidation, hunknown, if_false]
    cases part <;> simp [Part.keyword]
  · have hother (key : String) (hkey : Keyword.classOf key = .structural ∨
        Keyword.classOf key = .metadata) : name ≠ key := by
      rintro rfl
      rcases hlisted with hclass | hclass | hclass <;> simp [hclass] at hkey
    rcases hlisted with hclass | hclass | hclass <;>
      simp [hclass, hother "type" (by decide), hother "properties" (by decide),
        hother "additionalProperties" (by decide), hother "items" (by decide),
        hother "required" (by decide), hother "$ref" (by decide),
        hother "description" (by decide), hother "readOnly" (by decide)]

theorem accountsFor (h : Filled limit depth members (.blank path) node)
    (hnodup : members.names.Nodup) : AccountsFor node members := by
  refine ⟨hnodup, kept_perm h hnodup, fun name hname hother family => ?_⟩
  have hclass : Keyword.classOf name ≠ .structural ∧ Keyword.classOf name ≠ .metadata := by
    rwa [List.mem_append, not_or, ← Keyword.classOf_eq_structural_iff,
      ← Keyword.classOf_eq_metadata_iff] at hother
  by_cases hfamily : family ≠ .structural ∧ family ≠ .metadata
  · rw [mem_slot_iff h hfamily, and_iff_right hname]
  · have hempty : node.keywords.slot family = [] := by
      cases family <;> first | rfl | exact absurd (by decide) hfamily
    rw [hempty]
    simp only [List.not_mem_nil, false_iff]
    rintro rfl
    exact hfamily hclass

end Names

/-! ### Back from a tree to the value

By the recursion of the reading. Each part of a node gives back the value of its
keyword, and a name that is found under none of them is not there. -/

/-- If what two values leave agrees, and only the same values leave such parts, then
the values are the same. -/
theorem Leaves.reflect {α β γ δ : Type} {found : Option α} {found' : Option γ} {part : Option β}
    {part' : Option δ} {Yields : α → β → Prop} {Yields' : γ → δ → Prop} {R : β → δ → Prop}
    {S : α → γ → Prop} (h : Leaves found none part Yields) (h' : Leaves found' none part' Yields')
    (hparts : Option.Rel R part part')
    (hback : ∀ v w x y, found = some v → found' = some w → Yields v x → Yields' w y → R x y →
      S v w) : Option.Rel S found found' := by
  cases found with
  | none =>
      rw [show part = none from h] at hparts
      cases hparts
      cases found' with
      | none => exact .none
      | some w =>
          obtain ⟨y, hy, -⟩ := h'
          cases hy
  | some v =>
      obtain ⟨x, rfl, hx⟩ := h
      cases hparts with
      | some hxy =>
          cases found' with
          | none => cases h'
          | some w =>
              obtain ⟨y, hy, hyields⟩ := h'
              obtain rfl := Option.some.inj hy
              exact .some (hback v w x _ rfl rfl hx hyields hxy)

section Values

variable {limit limit' depth depth' : Nat} {path path' : Path} {v w : Json}

/-- No schema of a document has a keyword that a node keeps by its name alone. -/
def KeepsAll (document : Json) : Prop :=
  ∀ hops (members : Members Json), Stands document hops (.object members) →
    ∀ name ∈ members.names,
      Keyword.classOf name ≠ .polymorphism ∧ Keyword.classOf name ≠ .unknown

theorem KeepsAll.inside {members : Members Json} {schema : Json}
    (h : KeepsAll (.object members)) (hinside : Inside members schema) : KeepsAll schema :=
  fun hops inner hstands => h (hops + 1) inner (hstands.under hinside)

/-- Equal trees are read from equal values only. -/
def Recovers (limit limit' : Nat) (a b : Json) : Prop :=
  ∀ path path' depth depth' x y, readNode limit path depth a = .ok x →
    readNode limit' path' depth' b = .ok y → x.same y = true → a.same b = true

theorem readType_eq (v : Json) :
    (∃ kind, v = .string kind.kind.name ∧ readType v = .known kind) ∨
      readType v = .unsupported v := by
  cases v with
  | string word =>
      rw [readType]
      split
      · next kind hkind =>
        rw [SpelledKind.eq_name_of_ofName? hkind]
        exact .inl ⟨kind, rfl, rfl⟩
      · exact .inr rfl
  | _ => exact .inr rfl

/-- A kind is spelled by one word alone, and any other value is kept. -/
theorem YieldsType.same {x y : DeclaredType} (hx : YieldsType v x) (hy : YieldsType w y)
    (h : DeclaredType.same x y = true) : v.same w = true := by
  obtain rfl : x = readType v := hx
  obtain rfl : y = readType w := hy
  rcases readType_eq v with ⟨kind, hv, htype⟩ | htype <;>
    rcases readType_eq w with ⟨kind', hw, htype'⟩ | htype' <;> rw [htype, htype'] at h
  · obtain rfl : kind = kind' := by simpa [DeclaredType.same] using h
    rw [hv, hw]
    simp [Json.same]
  · cases h
  · cases h
  · exact h

theorem YieldsReference.same {x y : Reference} (hx : YieldsReference v x)
    (hy : YieldsReference w y) (h : Reference.same x y = true) : v.same w = true := by
  obtain ⟨id, rfl, rfl⟩ := hx
  obtain ⟨id', rfl, rfl⟩ := hy
  simpa [Reference.same, Json.same] using h

theorem YieldsProperties.same {xs ys : List (String × SchemaNode)}
    (hx : YieldsProperties limit depth path v xs) (hy : YieldsProperties limit' depth' path' w ys)
    (hv : v.Proper) (hw : w.Proper) (hsame : List.Forall₂ SchemaNode.SameProperty xs ys)
    (hinside : ∀ schemas name a b, v = .object schemas → (name, a) ∈ schemas → b.Proper →
      Recovers limit limit' a b) : v.same w = true := by
  obtain ⟨as, rfl, hreadas⟩ := hx
  obtain ⟨bs, rfl, hreadbs⟩ := hy
  have hnames : Members.names as = Members.names bs := by
    rw [names_eq_of_forall₂ hreadas fun _ _ h => h.1, names_eq_of_forall₂ hsame fun _ _ h => h.1,
      names_eq_of_forall₂ hreadbs fun _ _ h => h.1]
  refine (Json.same_object_iff hv.1 hw.1).2 ⟨hv.1, .of_eq hnames, fun name a b ha hb => ?_⟩
  -- the schema on the right is the one whose node is paired with that on the left
  obtain ⟨⟨_, x⟩, hx, rfl, hreada⟩ := exists_mem_right hreadas ha
  obtain ⟨⟨_, y⟩, hy, rfl, hxy⟩ := exists_mem_right hsame hx
  obtain ⟨⟨_, b'⟩, hb', rfl, hreadb⟩ := exists_mem_left hreadbs hy
  have hfound := (Members.get?_of_mem hw.1 hb).symm.trans (Members.get?_of_mem hw.1 hb')
  obtain rfl := Option.some.inj hfound
  have hproper := Json.properMembers_iff.1 hw.2 _ hb
  exact hinside as _ a b rfl ha hproper _ _ _ _ x y hreada hreadb hxy

theorem YieldsAdditional.same {x y : Additional} (hx : YieldsAdditional limit depth path v x)
    (hy : YieldsAdditional limit' depth' path' w y)
    (hsame : Additional.Matches (fun x y => x.same y = true) x y)
    (hinside : ∀ fields, v = .object fields → Recovers limit limit' v w) : v.same w = true := by
  cases hsame with
  | allowed flag =>
      obtain ⟨_, rfl, hflag⟩ | ⟨_, _, -, hflag, -⟩ := hx <;> cases hflag
      obtain ⟨_, rfl, hflag⟩ | ⟨_, _, -, hflag, -⟩ := hy <;> cases hflag
      simp [Json.same]
  | @typed node node' hvalue =>
      obtain ⟨_, -, hnode⟩ | ⟨fields, _, rfl, hnode, hread⟩ := hx <;> cases hnode
      obtain ⟨_, -, hnode⟩ | ⟨fields', _, rfl, hnode, hread'⟩ := hy <;> cases hnode
      exact hinside fields rfl _ _ _ _ node node' hread hread' hvalue

end Values

section Filled

variable {limit limit' depth depth' : Nat} {path path' : Path} {as bs : Members Json}
  {x y : SchemaNode} {name : String}

/-- The same value is found under a name on both sides, or none. -/
abbrev SameFound (as bs : Members Json) (name : String) : Prop :=
  Option.Rel (fun a b => a.same b = true) (as.get? name) (bs.get? name)

/-- A value that its part determines is the same where the part is. -/
theorem Leaves.sameFound {β : Type} {part part' : Option β} {Yields : Json → β → Prop}
    (has : (Json.object as).Proper) (h : Leaves (as.get? name) none part Yields)
    (h' : Leaves (bs.get? name) none part' Yields) (hpart : part = part')
    (hunique : ∀ v w x, Yields v x → Yields w x → v = w) : SameFound as bs name := by
  have hparts : Option.Rel Eq part part' := by
    rw [hpart]
    cases part' with
    | none => exact .none
    | some x => exact .some rfl
  refine h.reflect h' hparts ?_
  rintro v w x _ hv - hyields hyields' rfl
  obtain rfl := hunique v w x hyields hyields'
  exact Json.same_refl (Json.properMembers_iff.1 has.2 _ (Members.mem_of_get? hv))

/-- A name that is kept by itself alone is on both sides if it is on one. -/
theorem Filled.sameFound_of_slot (hx : Filled limit depth as (.blank path) x)
    (hy : Filled limit' depth' bs (.blank path') y) {family : KeywordClass}
    (hfamily : family ≠ .structural ∧ family ≠ .metadata) (hclass : Keyword.classOf name = family)
    (hslot : x.keywords.slot family = y.keywords.slot family) (habsent : name ∉ as.names) :
    SameFound as bs name := by
  have habsent' : name ∉ bs.names := by
    intro hname
    apply habsent
    have hmem := (mem_slot_iff hy hfamily).2 ⟨hname, hclass⟩
    rw [← hslot] at hmem
    exact ((mem_slot_iff hx hfamily).1 hmem).1
  rw [SameFound, Members.get?_eq_none_iff.2 habsent, Members.get?_eq_none_iff.2 habsent']
  exact .none

theorem Filled.sameFound_of_validation (hx : Filled limit depth as (.blank path) x)
    (hy : Filled limit' depth' bs (.blank path') y) (has : as.names.Nodup) (hbs : bs.names.Nodup)
    (hclass : Keyword.classOf name = .validation)
    (hsame : x.keywords.validation.same y.keywords.validation = true) : SameFound as bs name := by
  have hfound (members : Members Json) :
      Members.get? (members.filter (Keyword.classOf ·.1 = .validation)) name =
        members.get? name := by
    rw [Members.get?_filter fun name => Keyword.classOf name = .validation]
    simp [hclass]
  have hdistinct {members : Members Json} (hnodup : members.names.Nodup) :
      (Members.names (members.filter (Keyword.classOf ·.1 = .validation))).Nodup :=
    hnodup.sublist (List.filter_sublist.map _)
  rw [hx.validation, hy.validation] at hsame
  have hcorresponds := (Json.same_object_iff (hdistinct has) (hdistinct hbs)).1 hsame
  rw [SameFound, ← hfound as, ← hfound bs]
  exact hcorresponds.get? name

/-- Objects whose nodes agree are the same, if that is known of the schemas inside. -/
theorem Filled.recover (hx : Filled limit depth as (.blank path) x)
    (hy : Filled limit' depth' bs (.blank path') y) (has : (Json.object as).Proper)
    (hbs : (Json.object bs).Proper) (hkept : ∀ name ∈ as.names,
      Keyword.classOf name ≠ .polymorphism ∧ Keyword.classOf name ≠ .unknown)
    (hsame : x.Agrees y)
    (hinside : ∀ a b, Inside as a → b.Proper → Recovers limit limit' a b) :
    Members.Corresponds (fun a b => a.same b = true) as bs := by
  have hproper {name : String} {v : Json} (hv : as.get? name = some v) : v.Proper :=
    Json.properMembers_iff.1 has.2 _ (Members.mem_of_get? hv)
  have hproper' {name : String} {w : Json} (hw : bs.get? name = some w) : w.Proper :=
    Json.properMembers_iff.1 hbs.2 _ (Members.mem_of_get? hw)
  rw [Members.corresponds_iff has.1 hbs.1]
  intro name
  rcases Part.keyword_or_listed name with ⟨part, rfl⟩ | hclass | hclass | hclass
  · cases part with
    | type => exact hx.type.reflect hy.type hsame.keywords.type fun _ _ _ _ _ _ => YieldsType.same
    | reference =>
        exact hx.reference.reflect hy.reference hsame.keywords.reference
          fun _ _ _ _ _ _ => YieldsReference.same
    | required =>
        exact hx.required.sameFound has hy.required hsame.keywords.required
          fun _ _ _ hv hw => hv.trans hw.symm
    | readOnly =>
        exact hx.readOnly.sameFound has hy.readOnly hsame.keywords.readOnly
          fun _ _ _ hv hw => hv.trans hw.symm
    | description =>
        exact hx.description.sameFound has hy.description hsame.keywords.description
          fun _ _ _ hv hw => hv.trans hw.symm
    -- the other three hold schemas, which the induction over these gives back
    | properties =>
        refine hx.properties.reflect hy.properties hsame.properties ?_
        intro v w _ _ hv hw hx hy hxy
        refine hx.same hy (hproper hv) (hproper' hw) hxy fun schemas name a b hobject ha => ?_
        exact hinside a b (.property (hobject ▸ hv) ha)
    | additional =>
        refine hx.additional.reflect hy.additional hsame.additional ?_
        intro v w _ _ hv hw hx hy hxy
        refine hx.same hy hxy fun fields hobject => ?_
        exact hinside v w (hobject ▸ .value (hobject ▸ hv)) (hproper' hw)
    | items =>
        refine hx.items.reflect hy.items hsame.items ?_
        rintro v w x y hv hw ⟨_, -, hread⟩ ⟨_, -, hread'⟩ hxy
        exact hinside v w (.items hv) (hproper' hw) _ _ _ _ x y hread hread' hxy
  · exact hx.sameFound_of_slot hy (by decide) hclass hsame.keywords.polymorphism
      fun hname => (hkept name hname).1 hclass
  · exact hx.sameFound_of_validation hy has.1 hbs.1 hclass hsame.keywords.validation
  · exact hx.sameFound_of_slot hy (by decide) hclass hsame.keywords.unknown
      fun hname => (hkept name hname).2 hclass

end Filled

theorem same_of_trees {limit limit' : Nat} (a b : Json) (ha : a.Proper) (hb : b.Proper)
    (hkept : KeepsAll a) : Recovers limit limit' a b := by
  intro path path' depth depth' x y hx hy hsame
  obtain ⟨as, hobject, -, -, hfilled⟩ := filled_of_readNode ha hx
  obtain ⟨bs, rfl, -, -, hfilled'⟩ := filled_of_readNode hb hy
  rw [hobject] at ha hkept
  have hmembers := hfilled.recover hfilled' ha hb (hkept 0 as .root)
    (SchemaNode.agrees_of_same hsame) fun inner other hinner hother =>
      same_of_trees inner other (hinner.proper ha) hother (hkept.inside hinner)
  rw [hobject, Json.same_object_iff ha.1 hb.1]
  exact hmembers
termination_by sizeOf a
decreasing_by
  rw [hobject]
  exact hinner.sizeOf_lt

end Schema

end ResourceTypes
