import Mathlib.Data.List.Chain
import ResourceTypes.Proofs.Catalog
import ResourceTypes.Proofs.Schema.Meaning

/-!
The graph that a compiled type opens into: its handles, and behind a shared
type the handles of that type again. Against a loaded registry each shared type
on the way is the registered one, and no way down meets an id twice.
-/

namespace ResourceTypes

namespace TypeHandle

variable (description : Option String) (readOnly : Bool) (handle : TypeHandle)

@[simp] theorem withNotes_id? : (handle.withNotes description readOnly).id? = handle.id? := by
  cases handle <;> rfl

@[simp] theorem withNotes_type : (handle.withNotes description readOnly).type = handle.type := by
  cases handle <;> rfl

end TypeHandle

namespace TypeDescriptor

/-- The handles directly inside a type: of its properties, then of its elements. -/
def handles (type : TypeDescriptor) : List TypeHandle :=
  type.properties.map (·.type) ++ type.element?.toList

/-- The handles that a way from a type down to any type inside it goes through;
behind the handle of a shared type the way goes on in that type. -/
inductive Descends : TypeDescriptor → List TypeHandle → Prop
  | done {type : TypeDescriptor} : Descends type []
  | step {type : TypeDescriptor} {handle : TypeHandle} {rest : List TypeHandle}
      (inside : handle ∈ type.handles) (onward : Descends handle.type rest) :
      Descends type (handle :: rest)

/-- A type shares another under an id, with no other shared type between them. -/
inductive Shares (id : String) : TypeDescriptor → TypeDescriptor → Prop
  | here {type : TypeDescriptor} {handle : TypeHandle} (inside : handle ∈ type.handles)
      (shared : handle.id? = some id) : Shares id type handle.type
  | deeper {type target : TypeDescriptor} {handle : TypeHandle} (inside : handle ∈ type.handles)
      (written : handle.id? = none) (shares : Shares id handle.type target) :
      Shares id type target

theorem handles_object (properties : List Property) (validation : Attributes)
    (description : Option String) (readOnly : Bool) :
    handles ⟨.object properties, validation, description, readOnly⟩ = properties.map (·.type) := by
  simp [handles, TypeDescriptor.properties, Shape.properties, element?, Shape.element?]

theorem mem_references_iff {type : TypeDescriptor} {id : String} :
    id ∈ type.references ↔ ∃ handle ∈ type.handles, id ∈ handle.references := by
  obtain ⟨shape, validation, description, readOnly⟩ := type
  rw [TypeDescriptor.references]
  cases shape with
  | scalar kind =>
      simp [Shape.references, handles, properties, Shape.properties, element?, Shape.element?]
  | object properties =>
      rw [handles_object, Shape.references]
      induction properties with
      | nil => simp [Property.listReferences]
      | cons property rest ih =>
          obtain ⟨name, type, required, readOnly, description⟩ := property
          simp [Property.listReferences, ih]
  | map value =>
      simp [Shape.references, handles, properties, Shape.properties, element?, Shape.element?]
  | array item =>
      simp [Shape.references, handles, properties, Shape.properties, element?, Shape.element?]

end TypeDescriptor

namespace Meaning

open TypeDescriptor

variable {node : SchemaNode} {type target : TypeDescriptor} {id : String}

/-- Each handle inside the type of a schema is, up to notes, that of a schema inside it. -/
theorem exists_child_of_handles {handle : TypeHandle}
    (h : handleOf node = .ok (.authored type)) (hinside : handle ∈ type.handles) :
    ∃ child ∈ node.children, ∃ inner, handleOf child = .ok inner ∧
      handle.id? = inner.id? ∧ handle.type = inner.type := by
  cases handleOf_eq_ok_iff.1 h with
  | scalar plain declared => cases hinside
  | @array items inner plain declared found means =>
      obtain rfl := List.mem_singleton.1 hinside
      have hchild : items ∈ node.children := SchemaNode.mem_children.2 (.inr (.inr found))
      exact ⟨items, hchild, inner, means, by simp [noted], by simp [noted]⟩
  | @map value inner plain declared found means =>
      obtain rfl := List.mem_singleton.1 hinside
      have hchild : value ∈ node.children := by simp [SchemaNode.children, found]
      exact ⟨value, hchild, inner, means, by simp [noted], by simp [noted]⟩
  | object plain declared closed means =>
      rw [describe, handles_object] at hinside
      obtain ⟨property, hproperty, rfl⟩ := List.mem_map.1 hinside
      obtain ⟨pair, hpair, inner, hinner, rfl⟩ := exists_mem_left means hproperty
      have hchild : pair.2 ∈ node.children :=
        List.mem_append_left _ (List.mem_append_left _ (List.mem_map_of_mem hpair))
      exact ⟨pair.2, hchild, inner, hinner, rfl, rfl⟩

/-- A shared type stands where a reference of the schema was bound to it. -/
theorem exists_reference_of_shares (h : handleOf node = .ok (.authored type))
    (hshares : type.Shares id target) :
    ∃ path, (path, .bound id target) ∈ node.references := by
  induction node using SchemaNode.induct generalizing type with
  | step node ih =>
      have hbelow : ∀ child ∈ node.children, ∀ pair ∈ child.references, pair ∈ node.references := by
        intro child hchild pair hpair
        rw [SchemaNode.references_eq]
        exact List.mem_append_right _ (List.mem_flatMap.2 ⟨child, hchild, hpair⟩)
      -- the handle is that of a child, which is a reference or shares the type further inside
      cases hshares with
      | here inside shared =>
          obtain ⟨child, hchild, inner, hinner, hid, htype⟩ := exists_child_of_handles h inside
          rw [htype]
          rw [hid] at shared
          cases handleOf_eq_ok_iff.1 hinner with
          | reference bound =>
              obtain rfl := Option.some.inj shared
              have hown : (child.path, _) ∈ child.references :=
                SchemaNode.mem_references.2 ⟨child, .refl, rfl, bound⟩
              exact ⟨child.path, hbelow child hchild _ hown⟩
          | _ => cases shared
      | deeper inside written shares =>
          obtain ⟨child, hchild, inner, hinner, hid, htype⟩ := exists_child_of_handles h inside
          rw [htype] at shares
          rw [hid] at written
          cases inner with
          | authored own =>
              obtain ⟨path, hpath⟩ := ih child hchild hinner shares
              exact ⟨path, hbelow child hchild _ hpath⟩
          | referenced => cases written

end Meaning

section Compile

variable {table : TypeTable} {maxDepth : Nat} {document : Option String} {schema : Json}
  {type target : TypeDescriptor} {id : String}

/-- What a compiled type shares under an id is what the table has under it. -/
theorem find?_of_shares (h : compile table maxDepth document schema = .ok type)
    (hshares : type.Shares id target) : table.find? id = some ⟨id, target⟩ := by
  obtain ⟨source, hread, -, hbindable, hdescriptor⟩ := compile_eq_ok_iff.1 h
  obtain ⟨-, hhandle⟩ := Meaning.descriptor_eq_ok_iff.1 hdescriptor
  obtain ⟨path, hpath⟩ := Meaning.exists_reference_of_shares hhandle hshares
  rw [SchemaNode.references_mapReferences] at hpath
  obtain ⟨⟨place, before⟩, hbefore, heq⟩ := List.mem_map.1 hpath
  obtain ⟨-, hsettle⟩ := Prod.mk.inj heq
  have hunbound := Schema.readNode_unbound schema _ _ source hread _ hbefore
  cases before with
  | bound => cases hunbound
  | unbound other =>
      have hother : other ∈ source.referenceIds := List.mem_map.2 ⟨_, hbefore, rfl⟩
      obtain ⟨entry, hentry⟩ := (hbindable other hother).registered
      rw [Binding.settle_of_bindable (hbindable other hother) hentry] at hsettle
      obtain ⟨rfl, rfl⟩ := Reference.bound.inj hsettle
      rw [hentry, ← TypeTable.id_of_find? hentry]

/-- A compiled type refers to ids that can be bound, and to no others. -/
theorem bindable_of_mem_references (h : compile table maxDepth document schema = .ok type)
    (hid : id ∈ type.references) : Binding.Bindable ⟨table, document⟩ id := by
  obtain ⟨source, hread, -, hbindable, -⟩ := compile_eq_ok_iff.1 h
  rw [references_of_compile h hread] at hid
  exact hbindable id hid

end Compile

namespace Catalog

section Sound

variable {scope : Scope} {before after : Registry}

/-- A pass that succeeds keeps the registry sound, whatever ids the entries have:
each registration on the way was of a new id that is not empty. -/
theorem Sound.pass {pending : List CatalogEntry} {stuck : List (CatalogEntry × CompileError)}
    (hsound : Sound scope before) (hlisted : ∀ entry ∈ pending, entry ∈ scope.entries)
    (h : Catalog.pass scope.settings before pending = .ok (after, stuck)) :
    Sound scope after ∧ ∀ pair ∈ stuck, pair.1 ∈ pending := by
  induction pending generalizing before stuck with
  | nil =>
      obtain ⟨rfl, rfl⟩ := Prod.mk.inj (Except.ok.inj h)
      exact ⟨hsound, by simp⟩
  | cons entry rest ih =>
      rw [List.forall_mem_cons] at hlisted
      obtain ⟨hentry, hrest⟩ := hlisted
      rw [Catalog.pass] at h
      split at h
      · next type hcompile =>
        obtain ⟨next, hregister, hpass⟩ := bind_eq_ok_iff.1 h
        obtain ⟨-, hnew, -, rfl⟩ := Registry.register_eq_ok_iff.1 hregister
        have hnext := hsound.add hentry hnew hcompile
        obtain ⟨hafter, hstuck⟩ := ih hnext hrest hpass
        exact ⟨hafter, fun pair hpair => List.mem_cons_of_mem _ (hstuck pair hpair)⟩
      · next error hcompile =>
        obtain ⟨⟨last, others⟩, hpass, h⟩ := bind_eq_ok_iff.1 h
        obtain ⟨rfl, rfl⟩ := Prod.mk.inj (Except.ok.inj h)
        obtain ⟨hafter, hstuck⟩ := ih hsound hrest hpass
        refine ⟨hafter, List.forall_mem_cons.2 ⟨List.mem_cons_self, fun pair hpair => ?_⟩⟩
        exact List.mem_cons_of_mem _ (hstuck pair hpair)

theorem Sound.passes {before : Registry} {pending : List CatalogEntry} (hsound : Sound scope before)
    (hlisted : ∀ entry ∈ pending, entry ∈ scope.entries)
    (h : Catalog.passes scope.settings before pending = .ok after) : Sound scope after := by
  rw [Catalog.passes] at h
  split at h
  · obtain rfl := Except.ok.inj h
    exact hsound
  · split at h
    · cases h
    · next last stuck hpass =>
      obtain ⟨hlast, hstuck⟩ := hsound.pass hlisted hpass
      split at h
      · next hlength =>
        have hshorter : (stuck.map (·.1)).length < pending.length := by simpa using hlength
        refine hlast.passes (fun entry hentry => ?_) h
        obtain ⟨pair, hpair, rfl⟩ := List.mem_map.1 hentry
        exact hlisted pair.1 (hstuck pair hpair)
      · cases h
termination_by pending.length

theorem sound_of_load {catalog : Catalog} {settings : Settings}
    {namespaces : Option (List String)} {registry : Registry}
    (h : catalog.load settings namespaces = .ok registry) :
    Sound (catalog.scope settings namespaces) registry := by
  rw [load] at h
  split at h
  · cases h
  · exact sound_empty.passes (fun _ hentry => hentry) h

end Sound

section Descent

variable {scope : Scope} {registry : Registry} {type : TypeDescriptor} {path : List TypeHandle}

/-- All that a type shares is what the registry has under the same id. -/
def Faithful (registry : Registry) (type : TypeDescriptor) : Prop :=
  ∀ id target, type.Shares id target → registry.table.find? id = some ⟨id, target⟩

/-- A way down into a type meets registered types under their ids, each of
which the one before it refers to. -/
structure Traced (registry : Registry) (type : TypeDescriptor) (path : List TypeHandle) : Prop where
  registered : ∀ handle ∈ path, ∀ id, handle.id? = some id →
    registry.table.find? id = some ⟨id, handle.type⟩
  first : ∀ id ∈ (path.filterMap TypeHandle.id?).head?, id ∈ type.references
  chain : (path.filterMap TypeHandle.id?).IsChain registry.table.RefersTo

/-- References from an allowed id lead to allowed ids alone. -/
theorem Sound.allowed_of_reaches (h : Sound scope registry) {source target : String}
    (hsource : ∃ space ∈ registry.table.namespaces, Within space source)
    (hreaches : registry.table.Reaches source target) :
    ∃ space ∈ registry.table.namespaces, Within space target := by
  cases hreaches with
  | refl => exact hsource
  | tail _ hstep =>
      obtain ⟨_, _, _, _, _, _, hbindable⟩ := h.refersTo hstep
      exact hbindable.allowed

theorem Sound.faithful (h : Sound scope registry) {id : String} {entry : Entry}
    (hentry : registry.table.find? id = some entry) : Faithful registry entry.type := by
  obtain ⟨_, -, -, hcompile⟩ := h.origin id entry hentry
  exact fun other target => find?_of_shares hcompile

theorem Sound.traced (h : Sound scope registry) (hfaithful : Faithful registry type)
    (hdescends : type.Descends path) : Traced registry type path := by
  -- a way goes on inside a type that is written in place, or in the entry that is shared
  induction hdescends with
  | done =>
      constructor <;> simp
  | @step type handle rest inside onward ih =>
      cases handle with
      | authored inner =>
          have hinner : Faithful registry inner := fun id target hshares =>
            hfaithful id target (.deeper inside rfl hshares)
          obtain ⟨hregistered, hfirst, hchain⟩ := ih hinner
          refine ⟨List.forall_mem_cons.2 ⟨nofun, hregistered⟩, fun id hid => ?_, hchain⟩
          exact TypeDescriptor.mem_references_iff.2 ⟨_, inside, hfirst id hid⟩
      | referenced id target description readOnly =>
          have hfind : registry.table.find? id = some ⟨id, target⟩ :=
            hfaithful id target (.here inside rfl)
          obtain ⟨hregistered, hfirst, hchain⟩ := ih (h.faithful hfind)
          have hrefers : ∀ next ∈ (rest.filterMap TypeHandle.id?).head?,
              registry.table.RefersTo id next := fun next hnext =>
            (TypeTable.mem_references_iff hfind).2 (hfirst next hnext)
          constructor
          · rw [List.forall_mem_cons]
            refine ⟨fun other hother => ?_, hregistered⟩
            obtain rfl := Option.some.inj hother
            exact hfind
          · intro other hother
            obtain rfl := Option.some.inj hother
            have hown : id ∈ (TypeHandle.referenced id target description readOnly).references :=
              List.mem_singleton.2 rfl
            exact TypeDescriptor.mem_references_iff.2 ⟨_, inside, hown⟩
          · exact List.isChain_cons.2 ⟨hrefers, hchain⟩

end Descent

/-- A way along an acyclic relation never comes back. -/
theorem nodup_of_isChain {α : Type} {r : α → α → Prop} {xs : List α} (hacyclic : Acyclic r)
    (hchain : xs.IsChain r) : xs.Nodup := by
  have hsteps : xs.IsChain (Relation.TransGen r) := hchain.imp fun _ _ hstep => .single hstep
  refine hsteps.pairwise.imp fun {x y} hway heq => ?_
  subst heq
  exact hacyclic x hway

/-- The graph of a type compiled against a loaded registry is closed, coherent
and acyclic: on each way down, a shared type has an allowed id and is what the
registry has under it, and neither is an id met twice nor the document's own. -/
theorem type_graph_of_load {catalog : Catalog} {settings : Settings}
    {namespaces : Option (List String)} {registry : Registry}
    (hload : catalog.load settings namespaces = .ok registry) {maxDepth : Nat}
    {document : Option String} {schema : Json} {type : TypeDescriptor}
    (hcompile : compile registry.table maxDepth document schema = .ok type)
    {path : List TypeHandle} (hpath : type.Descends path) :
    (∀ handle ∈ path, ∀ id, handle.id? = some id →
        (∃ space ∈ namespaces.getD catalog.namespaces, Within space id) ∧
          registry.table.find? id = some ⟨id, handle.type⟩) ∧
      (path.filterMap TypeHandle.id?).Nodup ∧
      ∀ id ∈ document, id ∉ path.filterMap TypeHandle.id? := by
  have hsound := sound_of_load hload
  have hfaithful : Faithful registry type := fun id target => find?_of_shares hcompile
  obtain ⟨hregistered, hfirst, hchain⟩ := hsound.traced hfaithful hpath
  -- all ids of the path are reached from the first, which the type itself refers to
  have hmet : ∀ id ∈ path.filterMap TypeHandle.id?, ∃ first,
      Binding.Bindable ⟨registry.table, document⟩ first ∧ registry.table.Reaches first id := by
    intro id hid
    cases hids : path.filterMap TypeHandle.id? with
    | nil => simp [hids] at hid
    | cons first rest =>
        rw [hids] at hfirst hchain hid
        refine ⟨first, bindable_of_mem_references hcompile (hfirst first rfl), ?_⟩
        have hreaches := hchain.imp fun _ _ hstep => Relation.ReflTransGen.single hstep
        rcases List.mem_cons.1 hid with rfl | hrest
        · exact .refl
        · exact hreaches.rel_cons hrest
  refine ⟨fun handle hhandle id hid => ⟨?_, hregistered handle hhandle id hid⟩, ?_, ?_⟩
  · obtain ⟨first, hfirst, hreaches⟩ := hmet id (List.mem_filterMap.2 ⟨handle, hhandle, hid⟩)
    have hallowed := hsound.allowed_of_reaches hfirst.allowed hreaches
    rw [hsound.namespaces] at hallowed
    exact hallowed
  · exact nodup_of_isChain (fun _ => hsound.acyclic) hchain
  · intro id hid hmem
    obtain ⟨first, hfirst, hreaches⟩ := hmet id hmem
    exact (hfirst.clear id hreaches).1 hid

/-- A catalog of one schema, which refers to nothing. -/
def points : Catalog :=
  ⟨["shapes#"], [⟨"shapes#Point", .object [("type", .string "object"), ("properties", .object [
    ("x", .object [("type", .string "number")])])]⟩]⟩

def pointType : TypeDescriptor :=
  .plain (.object [⟨"x", .authored (.plain (.scalar .number)), false, false, none⟩])

/-- A document that refers to the schema of the catalog. -/
def line : Json :=
  .object [("type", .string "object"), ("properties", .object [
    ("start", .object [("$ref", .string "shapes#Point")])])]

def lineType : TypeDescriptor :=
  .plain (.object [⟨"start", .referenced "shapes#Point" pointType none false, false, false, none⟩])

theorem type_graph_line :
    ∃ registry, points.load .standard none = .ok registry ∧
      compile registry.table 128 (some "shapes#Line") line = .ok lineType ∧
      lineType.Descends [.referenced "shapes#Point" pointType none false,
        .authored (.plain (.scalar .number))] ∧
      registry.table.find? "shapes#Point" = some ⟨"shapes#Point", pointType⟩ := by
  let registry := (Registry.empty ["shapes#"]).add ⟨"shapes#Point", pointType⟩
  have hload : points.load .standard none = .ok registry := by
    have hpass : pass .standard (.empty ["shapes#"]) points.entries = .ok (registry, []) := rfl
    have hpasses : passes .standard registry [] = .ok registry := by
      rw [passes]
      rfl
    have hstart : points.load .standard none =
        passes .standard (.empty ["shapes#"]) points.entries := rfl
    rw [hstart, passes, hpass]
    exact hpasses
  have hbindable : Binding.Bindable ⟨registry.table, some "shapes#Line"⟩ "shapes#Point" := by
    have hleaf : ∀ target, ¬ registry.table.RefersTo "shapes#Point" target :=
      fun target => List.not_mem_nil
    refine ⟨⟨"shapes#", .head _, (inNamespace_iff _ _).1 (by decide)⟩, by decide, ⟨_, rfl⟩, ?_⟩
    intro target hreaches
    rcases hreaches.cases_head with rfl | ⟨next, hnext, -⟩
    · refine ⟨by decide, fun hcycle => ?_⟩
      obtain ⟨next, hnext, -⟩ := Relation.TransGen.head'_iff.1 hcycle
      exact hleaf next hnext
    · exact absurd hnext (hleaf next)
  have hcompile : compile registry.table 128 (some "shapes#Line") line = .ok lineType := by
    have hsettle : Binding.settle ⟨registry.table, some "shapes#Line"⟩ (.unbound "shapes#Point") =
        .bound "shapes#Point" pointType := Binding.settle_of_bindable hbindable rfl
    refine compile_eq_ok_iff.2 ⟨_, rfl, rfl, fun id hid => ?_, ?_⟩
    · obtain rfl := List.mem_singleton.1 hid
      exact hbindable
    · refine (congrArg Meaning.descriptor (SchemaNode.map_congr
        (g := fun _ => .bound "shapes#Point" pointType) fun pair hpair => ?_)).trans rfl
      obtain rfl := List.mem_singleton.1 hpair
      exact hsettle
  have hpath : lineType.Descends [.referenced "shapes#Point" pointType none false,
      .authored (.plain (.scalar .number))] :=
    .step (.head _) (.step (.head _) .done)
  obtain ⟨hregistered, -, -⟩ := type_graph_of_load hload hcompile hpath
  exact ⟨registry, hload, hcompile, hpath, (hregistered _ (.head _) _ rfl).2⟩

/-- What the catalog of points loads. -/
def pointsLoaded : Registry := (Registry.empty ["shapes#"]).add ⟨"shapes#Point", pointType⟩

theorem load_points : points.load .standard none = .ok pointsLoaded := load_of_pass rfl rfl

theorem bindable_point {document : Option String} (h : document ≠ some "shapes#Point") :
    Binding.Bindable ⟨pointsLoaded.table, document⟩ "shapes#Point" :=
  TypeTable.bindable_of_leaf rfl rfl h ⟨"shapes#", .head _, (inNamespace_iff _ _).1 (by decide)⟩

theorem compile_line {document : Option String} (h : document ≠ some "shapes#Point") :
    compile pointsLoaded.table 128 document line = .ok lineType := by
  refine compile_of_shared rfl rfl (bindable_point h) rfl (fun pair hpair => ?_) rfl
  obtain rfl := List.mem_singleton.1 hpair
  rfl

end Catalog

end ResourceTypes
