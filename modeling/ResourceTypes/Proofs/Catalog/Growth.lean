import ResourceTypes.Proofs.TypeGraph

/-!
Two loads, the second of a catalog with more entries and namespaces, in any
order. What the first registers, the second registers under the same ids with
the same types, and it compiles every document that the first does.
-/

namespace ResourceTypes

namespace TypeTable

variable {old new : TypeTable} {document : Option String} {id : String}

/-- A table with all entries and all namespaces of another, and more of both. -/
structure Covers (new old : TypeTable) : Prop where
  spaces : ∀ space ∈ old.namespaces, space ∈ new.namespaces
  find : ∀ id entry, old.find? id = some entry → new.find? id = some entry

/-- What could be bound still can: new entries open no way to an old id, and
new namespaces rule nothing out. -/
theorem Covers.bindable (h : new.Covers old) (hclosed : old.Closed)
    (hbindable : Binding.Bindable ⟨old, document⟩ id) : Binding.Bindable ⟨new, document⟩ id := by
  let narrow : TypeTable := { new with namespaces := old.namespaces }
  have hextends : old.Extends narrow := ⟨rfl, h.find⟩
  obtain ⟨⟨space, hspace, hwithin⟩, hother, hregistered, hclear⟩ :=
    hextends.bindable hclosed hbindable
  exact ⟨⟨space, h.spaces space hspace, hwithin⟩, hother, hregistered, hclear⟩

end TypeTable

/-- A table that covers another compiles whatever the other does, to the same type. -/
theorem compile_of_covers {old new : TypeTable} (hcovers : new.Covers old) (hclosed : old.Closed)
    {maxDepth : Nat} {document : Option String} {schema : Json} {type : TypeDescriptor}
    (h : compile old maxDepth document schema = .ok type) :
    compile new maxDepth document schema = .ok type := by
  obtain ⟨source, hread, -, hbindable, -⟩ := compile_eq_ok_iff.1 h
  refine compile_transfer h hread fun id hid => ⟨hcovers.bindable hclosed (hbindable id hid), ?_⟩
  obtain ⟨entry, hentry⟩ := (hbindable id hid).registered
  rw [hcovers.find id entry hentry, hentry]

namespace Catalog

/-! ### A load that succeeds registers every entry -/

section Load

variable {settings : Settings} {before after : Registry}

theorem nodup_of_repeatedId? {entries : List CatalogEntry} {seen : List String}
    (h : repeatedId? entries seen = none) :
    (entries.map (·.id)).Nodup ∧ ∀ entry ∈ entries, entry.id ∉ seen := by
  induction entries generalizing seen with
  | nil => simp
  | cons entry rest ih =>
      rw [repeatedId?] at h
      split at h
      · cases h
      · next hseen =>
        obtain ⟨hdistinct, hfresh⟩ := ih h
        rw [List.map_cons, List.nodup_cons, List.forall_mem_cons]
        refine ⟨⟨fun hmem => ?_, hdistinct⟩, by simpa using hseen, fun other hother hold => ?_⟩
        · obtain ⟨other, hother, heq⟩ := List.mem_map.1 hmem
          exact hfresh other hother (heq ▸ List.mem_cons_self)
        · exact hfresh other hother (List.mem_cons_of_mem _ hold)

/-- A pass keeps what is registered; what it does not leave, it has registered. -/
theorem registered_of_pass {pending : List CatalogEntry}
    {stuck : List (CatalogEntry × CompileError)}
    (h : pass settings before pending = .ok (after, stuck)) :
    before.table.Extends after.table ∧
      ∀ entry ∈ pending, entry ∈ stuck.map (·.1) ∨ after.table.Registered entry.id := by
  induction pending generalizing before stuck with
  | nil =>
      obtain ⟨rfl, rfl⟩ := Prod.mk.inj (Except.ok.inj h)
      exact ⟨.refl _, by simp⟩
  | cons entry rest ih =>
      rw [pass] at h
      split at h
      · next type hcompile =>
        obtain ⟨next, hregister, hpass⟩ := bind_eq_ok_iff.1 h
        obtain ⟨-, -, -, rfl⟩ := Registry.register_eq_ok_iff.1 hregister
        obtain ⟨hextends, hrest⟩ := ih hpass
        refine ⟨(before.extends_add _).trans hextends, List.forall_mem_cons.2 ⟨.inr ?_, hrest⟩⟩
        exact hextends.registered (Registry.registered_add_iff.2 (.inr rfl))
      · next error hcompile =>
        obtain ⟨⟨last, others⟩, hpass, h⟩ := bind_eq_ok_iff.1 h
        obtain ⟨rfl, rfl⟩ := Prod.mk.inj (Except.ok.inj h)
        obtain ⟨hextends, hrest⟩ := ih hpass
        refine ⟨hextends, List.forall_mem_cons.2 ⟨.inl List.mem_cons_self, fun other hother => ?_⟩⟩
        exact (hrest other hother).imp_left (List.mem_cons_of_mem _)

theorem registered_of_passes {before : Registry} {pending : List CatalogEntry}
    (h : passes settings before pending = .ok after) :
    before.table.Extends after.table ∧ ∀ entry ∈ pending, after.table.Registered entry.id := by
  rw [passes] at h
  split at h
  · next hempty =>
    obtain rfl := Except.ok.inj h
    rw [List.isEmpty_iff] at hempty
    exact ⟨.refl _, by simp [hempty]⟩
  · split at h
    · cases h
    · next last stuck hpass =>
      obtain ⟨hlast, hpending⟩ := registered_of_pass hpass
      split at h
      · next hlength =>
        have hshorter : (stuck.map (·.1)).length < pending.length := by simpa using hlength
        obtain ⟨hafter, hstuck⟩ := registered_of_passes h
        refine ⟨hlast.trans hafter, fun entry hentry => ?_⟩
        exact (hpending entry hentry).elim (hstuck entry) hafter.registered
      · cases h
termination_by pending.length

/-- What a load that succeeds has made: a sound registry with all entries. -/
structure Loaded (scope : Scope) (registry : Registry) : Prop where
  sound : Sound scope registry
  distinct : (scope.entries.map (·.id)).Nodup
  registered : ∀ entry ∈ scope.entries, registry.table.Registered entry.id

theorem loaded_of_load {catalog : Catalog} {namespaces : Option (List String)}
    (h : catalog.load settings namespaces = .ok after) :
    Loaded (catalog.scope settings namespaces) after := by
  have hsound := sound_of_load h
  rw [load] at h
  split at h
  · cases h
  · next hrepeated =>
    exact ⟨hsound, (nodup_of_repeatedId? hrepeated).1, (registered_of_passes h).2⟩

/-- An entry is registered with the type that its own schema compiles to. -/
theorem Loaded.origin {scope : Scope} {registry : Registry} (h : Loaded scope registry)
    {entry : CatalogEntry} (hentry : entry ∈ scope.entries) :
    ∃ type, registry.table.find? entry.id = some ⟨entry.id, type⟩ ∧
      compile registry.table scope.settings.maxDepth (some entry.id) entry.schema = .ok type := by
  obtain ⟨⟨id, type⟩, hknown⟩ := h.registered entry hentry
  obtain ⟨source, hsource, hid, hcompile⟩ := h.sound.origin entry.id _ hknown
  obtain rfl := List.inj_on_of_nodup_map h.distinct hsource hentry hid
  obtain rfl : id = source.id := TypeTable.id_of_find? hknown
  exact ⟨type, hknown, hcompile⟩

end Load

/-! ### Two loads -/

section Two

variable {small large : Scope} {registry larger : Registry}

/-- What is loadable in the smaller catalog has the same entry in both registries:
its schema is compiled against types that are the same by induction. -/
theorem Loaded.find?_eq (hsmall : Loaded small registry) (hlarge : Loaded large larger)
    (hsettings : large.settings = small.settings)
    (hentries : ∀ entry ∈ small.entries, entry ∈ large.entries) {id : String}
    (h : Loadable small id) : larger.table.find? id = registry.table.find? id := by
  induction h with
  | @entry entry root listed readable grammatical allowed refers ih =>
      obtain ⟨type, hknown, hcompile⟩ := hsmall.origin listed
      obtain ⟨type', hknown', hcompile'⟩ := hlarge.origin (hentries entry listed)
      rw [hsettings] at hcompile'
      obtain ⟨source, hread, -, hbindable, -⟩ := compile_eq_ok_iff.1 hcompile'
      obtain rfl := Except.ok.inj (hread.symm.trans readable)
      have hsame := compile_transfer hcompile readable fun id hmem =>
        ⟨hbindable id hmem, ih id hmem⟩
      obtain rfl := Except.ok.inj (hsame.symm.trans hcompile')
      rw [hknown, hknown']

theorem Loaded.covers (hsmall : Loaded small registry) (hlarge : Loaded large larger)
    (hsettings : large.settings = small.settings)
    (hspaces : ∀ space ∈ small.spaces, space ∈ large.spaces)
    (hentries : ∀ entry ∈ small.entries, entry ∈ large.entries) :
    larger.table.Covers registry.table := by
  refine ⟨fun space hspace => ?_, fun id entry hentry => ?_⟩
  · rw [hsmall.sound.namespaces] at hspace
    rw [hlarge.sound.namespaces]
    exact hspaces space hspace
  · have hloadable := hsmall.sound.loadable id ⟨entry, hentry⟩
    rw [hsmall.find?_eq hlarge hsettings hentries hloadable, hentry]

end Two

/-- A larger catalog, in whatever order, changes nothing about what a smaller one
has loaded: each of its ids keeps its entry and its references, and each document
that compiles against it keeps its type, whatever id the document has. -/
theorem load_larger {catalog larger : Catalog} {settings : Settings}
    {namespaces namespaces' : Option (List String)}
    (hentries : ∀ entry ∈ catalog.entries, entry ∈ larger.entries)
    (hspaces : ∀ space ∈ namespaces.getD catalog.namespaces,
      space ∈ namespaces'.getD larger.namespaces)
    {registry registry' : Registry} (hload : catalog.load settings namespaces = .ok registry)
    (hload' : larger.load settings namespaces' = .ok registry') :
    (∀ entry ∈ catalog.entries, ∃ type,
        registry.table.find? entry.id = some ⟨entry.id, type⟩ ∧
          registry'.table.find? entry.id = some ⟨entry.id, type⟩ ∧
          registry'.table.references entry.id = registry.table.references entry.id) ∧
      ∀ maxDepth document schema type,
        compile registry.table maxDepth document schema = .ok type →
          compile registry'.table maxDepth document schema = .ok type := by
  have hsmall := loaded_of_load hload
  have hlarge := loaded_of_load hload'
  have hcovers := hsmall.covers hlarge rfl hspaces hentries
  refine ⟨fun entry hentry => ?_, fun maxDepth document schema type hcompile => ?_⟩
  · obtain ⟨type, hknown, -⟩ := hsmall.origin hentry
    have hknown' := hcovers.find entry.id _ hknown
    refine ⟨type, hknown, hknown', ?_⟩
    rw [TypeTable.references_of_find? hknown, TypeTable.references_of_find? hknown']
  · exact compile_of_covers hcovers hsmall.sound.closed hcompile

/-- The catalog of points with an entry and a namespace before its own. -/
def namedPoints : Catalog :=
  ⟨["names#", "shapes#"],
    ⟨"names#Name", .object [("type", .string "object")]⟩ :: points.entries⟩

theorem load_namedPoints :
    points.load .standard none = .ok pointsLoaded ∧
      ∃ registry, namedPoints.load .standard none = .ok registry ∧
        registry.table.find? "shapes#Point" = some ⟨"shapes#Point", pointType⟩ ∧
        compile registry.table 128 (some "names#Name") line = .ok lineType := by
  let registry := ((Registry.empty ["names#", "shapes#"]).add
    ⟨"names#Name", .plain (.object [])⟩).add ⟨"shapes#Point", pointType⟩
  have hload : namedPoints.load .standard none = .ok registry := load_of_pass rfl rfl
  have hentries : ∀ entry ∈ points.entries, entry ∈ namedPoints.entries := fun entry hentry =>
    List.mem_cons_of_mem _ hentry
  obtain ⟨hids, hdocuments⟩ := load_larger hentries (by decide) load_points hload
  obtain ⟨type, hknown, hknown', -⟩ := hids _ (.head _)
  have htype : some (Entry.mk "shapes#Point" pointType) = some ⟨"shapes#Point", type⟩ := hknown
  rw [← htype] at hknown'
  exact ⟨load_points, registry, hload, hknown', hdocuments _ _ _ _ (compile_line (by decide))⟩

end Catalog

end ResourceTypes
