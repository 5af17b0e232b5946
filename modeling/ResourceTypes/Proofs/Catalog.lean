import Mathlib.Data.List.Nodup
import ResourceTypes.Catalog
import ResourceTypes.Proofs.Compile
import ResourceTypes.Proofs.Registry.Growth

/-!
Loading a catalog computes a least fixpoint: it registers exactly the entries
whose references can all be met by such entries again. The registry that grows
on the way stays sound, so that no registration ever fails.
-/

namespace ResourceTypes

/-- A larger table compiles what a smaller one does, to the same type. -/
theorem compile_mono {old new : TypeTable} (hextends : old.Extends new) (hclosed : old.Closed)
    {maxDepth : Nat} {document : Option String} {schema : Json} {type : TypeDescriptor}
    (h : compile old maxDepth document schema = .ok type) :
    compile new maxDepth document schema = .ok type := by
  obtain ⟨source, hread, -, hbindable, -⟩ := compile_eq_ok_iff.1 h
  refine compile_transfer h hread fun id hid => ?_
  obtain ⟨entry, hentry⟩ := (hbindable id hid).registered
  exact ⟨hextends.bindable hclosed (hbindable id hid),
    by rw [hextends.find id entry hentry, hentry]⟩

namespace Catalog

/-- What a load is about: the allowed namespaces, the settings, the entries. -/
structure Scope where
  spaces : List String
  settings : Settings
  entries : List CatalogEntry

/-- What the load of a catalog is about; namespaces given here replace those of the catalog. -/
def scope (catalog : Catalog) (settings : Settings) (namespaces : Option (List String)) : Scope :=
  ⟨namespaces.getD catalog.namespaces, settings, catalog.entries⟩

/-- The least set of ids whose schemas can be read, break no rule, and refer
to nothing but allowed ids of the set. -/
inductive Loadable (scope : Scope) : String → Prop
  | entry {entry : CatalogEntry} {root : SchemaNode} (listed : entry ∈ scope.entries)
      (readable : Schema.read scope.settings.maxDepth entry.schema = .ok root)
      (grammatical : Grammar.violations root = [])
      (allowed : ∀ id ∈ root.referenceIds, ∃ space ∈ scope.spaces, Within space id)
      (refers : ∀ id ∈ root.referenceIds, Loadable scope id) : Loadable scope entry.id

/-- What holds of the registry at every moment of a load: each of its types is
what a loadable entry compiles to, there and then. -/
structure Sound (scope : Scope) (registry : Registry) : Prop where
  namespaces : registry.table.namespaces = scope.spaces
  distinct : (registry.table.entries.map (·.id)).Nodup
  origin : ∀ id known, registry.table.find? id = some known →
    ∃ entry ∈ scope.entries, entry.id = id ∧
      compile registry.table scope.settings.maxDepth (some id) entry.schema = .ok known.type
  loadable : ∀ id, registry.table.Registered id → Loadable scope id
  edges : ∀ edge ∈ registry.graph.edges, registry.table.Registered edge.2

section Registry

variable {scope : Scope} {registry : Registry} {entry : CatalogEntry} {root : SchemaNode}
  {id target : String}

theorem sound_empty : Sound scope (.empty scope.spaces) := by
  refine ⟨rfl, List.nodup_nil, ?_, ?_, ?_⟩
  · intro id known hknown
    cases hknown
  · rintro id ⟨known, hknown⟩
    cases hknown
  · intro edge hedge
    cases hedge

/-- Behind a reference between registered ids stands one in the catalog, which was bound. -/
theorem Sound.refersTo (h : Sound scope registry)
    (hrefers : registry.table.RefersTo id target) :
    ∃ entry ∈ scope.entries, entry.id = id ∧
      ∃ root, Schema.read scope.settings.maxDepth entry.schema = .ok root ∧
        target ∈ root.referenceIds ∧ Binding.Bindable ⟨registry.table, some id⟩ target := by
  cases hknown : registry.table.find? id with
  | none =>
      rw [TypeTable.RefersTo, TypeTable.references, hknown] at hrefers
      cases hrefers
  | some known =>
      obtain ⟨entry, hentry, hid, hcompile⟩ := h.origin id known hknown
      obtain ⟨root, hread, -, hbindable, -⟩ := compile_eq_ok_iff.1 hcompile
      rw [TypeTable.mem_references_iff hknown, references_of_compile hcompile hread] at hrefers
      exact ⟨entry, hentry, hid, root, hread, hrefers, hbindable target hrefers⟩

theorem Sound.closed (h : Sound scope registry) : registry.table.Closed := by
  intro id target hrefers
  obtain ⟨_, _, _, _, _, _, hbindable⟩ := h.refersTo hrefers
  exact hbindable.registered

/-- The registry is free of cycles: each id was bound as the document of its own schema. -/
theorem Sound.acyclic (h : Sound scope registry) :
    ¬ registry.table.OnCycle id := by
  intro hcycle
  obtain ⟨next, hnext, hback⟩ := Relation.TransGen.head'_iff.1 hcycle
  obtain ⟨_, _, _, _, _, _, hbindable⟩ := h.refersTo hnext
  exact (hbindable.clear id hback).1 rfl

/-- Whatever is allowed and registered can be bound in an entry of the catalog,
even if the entry is registered itself. -/
theorem Sound.bindable (h : Sound scope registry)
    (hdistinct : (scope.entries.map (·.id)).Nodup) (hentry : entry ∈ scope.entries)
    (hread : Schema.read scope.settings.maxDepth entry.schema = .ok root)
    (hid : id ∈ root.referenceIds) (hallowed : ∃ space ∈ scope.spaces, Within space id)
    (hregistered : registry.table.Registered id) :
    Binding.Bindable ⟨registry.table, some entry.id⟩ id := by
  -- a way back to the entry was refused when the entry itself was compiled
  have hclear : ∀ target, registry.table.Reaches id target → some entry.id ≠ some target := by
    rintro target hreaches heq
    obtain rfl := Option.some.inj heq
    obtain ⟨known, hknown⟩ :=
      ((TypeTable.Extends.refl registry.table).reaches h.closed hregistered hreaches).2
    obtain ⟨other, hother, hsame, hcompile⟩ := h.origin entry.id known hknown
    obtain rfl := List.inj_on_of_nodup_map hdistinct hother hentry hsame
    obtain ⟨root', hread', -, hbindable, -⟩ := compile_eq_ok_iff.1 hcompile
    obtain rfl := Except.ok.inj (hread'.symm.trans hread)
    exact ((hbindable id hid).clear _ hreaches).1 rfl
  refine ⟨?_, hclear id .refl, hregistered,
    fun target hreaches => ⟨hclear target hreaches, h.acyclic⟩⟩
  rw [h.namespaces]
  exact hallowed

/-- A new entry that compiles is registered: it refers to other types only, and no
edge of the graph leads to an id without an entry. -/
theorem Sound.register_eq_ok (h : Sound scope registry) (hid : entry.id ≠ "")
    (hnew : registry.table.find? entry.id = none) {type : TypeDescriptor}
    (hcompile : compile registry.table scope.settings.maxDepth (some entry.id) entry.schema =
      .ok type) :
    registry.register entry.id type = .ok (registry.add ⟨entry.id, type⟩) := by
  obtain ⟨root, hread, -, hbindable, -⟩ := compile_eq_ok_iff.1 hcompile
  refine Registry.register_eq_ok hid hnew ?_ ?_
  · rw [references_of_compile hcompile hread]
    exact fun hmem => (hbindable _ hmem).other rfl
  · intro edge hedge heq
    obtain ⟨known, hknown⟩ := h.edges edge hedge
    rw [heq, hnew] at hknown
    cases hknown

/-- The registry stays sound when an entry that compiles is added. -/
theorem Sound.add (h : Sound scope registry) (hentry : entry ∈ scope.entries)
    (hnew : registry.table.find? entry.id = none) {type : TypeDescriptor}
    (hcompile : compile registry.table scope.settings.maxDepth (some entry.id) entry.schema =
      .ok type) :
    Sound scope (registry.add ⟨entry.id, type⟩) := by
  obtain ⟨root, hread, hviolations, hbindable, -⟩ := compile_eq_ok_iff.1 hcompile
  have hextends := registry.extends_add ⟨entry.id, type⟩
  refine ⟨h.namespaces, Registry.nodup_ids_add h.distinct hnew, ?_, ?_, ?_⟩
  -- what compiled against fewer entries compiles to the same type against more
  · intro id known hknown
    rw [Registry.find?_add] at hknown
    cases hold : registry.table.find? id with
    | some old =>
        rw [hold] at hknown
        cases hknown
        obtain ⟨other, hother, hsame, hother'⟩ := h.origin id known hold
        exact ⟨other, hother, hsame, compile_mono hextends h.closed hother'⟩
    | none =>
        rw [hold, Option.none_or] at hknown
        split at hknown
        · next heq =>
          cases hknown
          subst heq
          exact ⟨entry, hentry, rfl, compile_mono hextends h.closed hcompile⟩
        · cases hknown
  · intro id hregistered
    rcases Registry.registered_add_iff.1 hregistered with hold | rfl
    · exact h.loadable id hold
    · refine .entry hentry hread hviolations (fun target htarget => ?_) fun target htarget => ?_
      · rw [← h.namespaces]
        exact (hbindable target htarget).allowed
      · exact h.loadable target (hbindable target htarget).registered
  · intro edge hedge
    rcases ReferenceGraph.mem_foldl_addEdge.1 hedge with hold | ⟨-, hmem⟩
    · exact hextends.registered (h.edges edge hold)
    · rw [Entry.references, TypeDescriptor.directReferences, List.mem_eraseDups,
        references_of_compile hcompile hread] at hmem
      exact hextends.registered (hbindable edge.2 hmem).registered

end Registry

/-- What a pass over pending entries makes of a registry, and what it leaves. -/
structure Passed (scope : Scope) (before : Registry) (pending : List CatalogEntry)
    (after : Registry) (stuck : List (CatalogEntry × CompileError)) : Prop where
  sound : Sound scope after
  grown : before.table.Extends after.table
  inOrder : (stuck.map (·.1)).Sublist pending
  left : ∀ entry ∈ pending, entry ∈ stuck.map (·.1) ↔ after.table.find? entry.id = none
  added : ∀ id, after.table.Registered id →
    before.table.Registered id ∨ ∃ entry ∈ pending, entry.id = id
  idle : stuck.length = pending.length → after = before ∧ ∀ pair ∈ stuck,
    compile before.table scope.settings.maxDepth (some pair.1.id) pair.1.schema = .error pair.2

section Pass

variable {scope : Scope} {pending : List CatalogEntry} {registry : Registry}

/-- An entry that was registered first is not left by the rest of the pass. -/
theorem Passed.cons_registered {after : Registry} {stuck : List (CatalogEntry × CompileError)}
    {entry : CatalogEntry} {type : TypeDescriptor}
    (h : Passed scope (registry.add ⟨entry.id, type⟩) pending after stuck)
    (hfresh : entry.id ∉ pending.map (·.id)) :
    Passed scope registry (entry :: pending) after stuck := by
  refine ⟨h.sound, (registry.extends_add _).trans h.grown, h.inOrder.cons _, ?_, ?_, ?_⟩
  · intro other hmem
    rcases List.mem_cons.1 hmem with rfl | hmem
    · refine iff_of_false (fun hstuck => hfresh (List.mem_map_of_mem (h.inOrder.subset hstuck))) ?_
      rw [← TypeTable.not_registered_iff, not_not]
      exact h.grown.registered (Registry.registered_add_iff.2 (.inr rfl))
    · exact h.left other hmem
  · intro id hregistered
    rcases h.added id hregistered with hadded | ⟨other, hother, hid⟩
    · rcases Registry.registered_add_iff.1 hadded with hold | hid
      · exact .inl hold
      · exact .inr ⟨entry, List.mem_cons_self, hid⟩
    · exact .inr ⟨other, List.mem_cons_of_mem _ hother, hid⟩
  · intro hlength
    have hle := h.inOrder.length_le
    rw [List.length_map] at hle
    rw [List.length_cons] at hlength
    omega

/-- An entry that does not compile is left, since the rest of the pass has other ids. -/
theorem Passed.cons_stuck {after : Registry} {stuck : List (CatalogEntry × CompileError)}
    {entry : CatalogEntry} {error : CompileError}
    (h : Passed scope registry pending after stuck)
    (hfresh : entry.id ∉ pending.map (·.id)) (hnew : registry.table.find? entry.id = none)
    (hcompile : compile registry.table scope.settings.maxDepth (some entry.id) entry.schema =
      .error error) :
    Passed scope registry (entry :: pending) after ((entry, error) :: stuck) := by
  have hother : ∀ other ∈ pending, other ≠ entry := by
    rintro other hmem rfl
    exact hfresh (List.mem_map_of_mem hmem)
  refine ⟨h.sound, h.grown, h.inOrder.cons_cons _, ?_, ?_, ?_⟩
  · intro other hmem
    rw [List.map_cons, List.mem_cons]
    rcases List.mem_cons.1 hmem with rfl | hmem
    · refine iff_of_true (.inl rfl) (TypeTable.not_registered_iff.1 fun hregistered => ?_)
      rcases h.added _ hregistered with hold | ⟨other', hmem', hid⟩
      · exact TypeTable.not_registered_iff.2 hnew hold
      · exact hfresh (List.mem_map.2 ⟨other', hmem', hid⟩)
    · rw [← h.left other hmem]
      exact or_iff_right (hother other hmem)
  · intro id hregistered
    rcases h.added id hregistered with hold | ⟨other, hmem, hid⟩
    · exact .inl hold
    · exact .inr ⟨other, List.mem_cons_of_mem _ hmem, hid⟩
  · intro hlength
    obtain ⟨hsame, herrors⟩ := h.idle (by simpa using hlength)
    refine ⟨hsame, fun pair hpair => ?_⟩
    rcases List.mem_cons.1 hpair with rfl | hpair
    · exact hcompile
    · exact herrors pair hpair

/-- A pass never fails, and one that registers nothing sees the same registry throughout. -/
theorem pass_spec (hsound : Sound scope registry)
    (hlisted : ∀ entry ∈ pending, entry ∈ scope.entries ∧ entry.id ≠ "")
    (hdistinct : (pending.map (·.id)).Nodup)
    (hnew : ∀ entry ∈ pending, registry.table.find? entry.id = none) :
    ∃ after stuck, pass scope.settings registry pending = .ok (after, stuck) ∧
      Passed scope registry pending after stuck := by
  induction pending generalizing registry with
  | nil =>
      refine ⟨registry, [], rfl, hsound, .refl _, .slnil, by simp, fun id hid => .inl hid, ?_⟩
      intro _
      exact ⟨rfl, by simp⟩
  | cons entry rest ih =>
      rw [List.map_cons, List.nodup_cons] at hdistinct
      obtain ⟨hfresh, hrest⟩ := hdistinct
      obtain ⟨hentry, hid⟩ := hlisted entry List.mem_cons_self
      have hlisted' := fun other hmem => hlisted other (List.mem_cons_of_mem _ hmem)
      have hunknown := hnew entry List.mem_cons_self
      have hnew' := fun other hmem => hnew other (List.mem_cons_of_mem _ hmem)
      rw [pass]
      cases hcompile :
          compile registry.table scope.settings.maxDepth (some entry.id) entry.schema with
      | ok type =>
          have hregister := hsound.register_eq_ok hid hunknown hcompile
          have hsound' := hsound.add hentry hunknown hcompile
          -- no other entry has the id that was added, so the rest is still to come
          have hnext : ∀ other ∈ rest,
              (registry.add ⟨entry.id, type⟩).table.find? other.id = none := by
            intro other hmem
            have hother : entry.id ≠ other.id := fun heq =>
              hfresh (heq ▸ List.mem_map_of_mem hmem)
            rw [Registry.find?_add, hnew' other hmem, Option.none_or, if_neg hother]
          obtain ⟨after, stuck, hpass, hpassed⟩ := ih hsound' hlisted' hrest hnext
          refine ⟨after, stuck, ?_, hpassed.cons_registered hfresh⟩
          simp [hregister, hpass, bind, Except.bind]
      | error error =>
          obtain ⟨after, stuck, hpass, hpassed⟩ := ih hsound hlisted' hrest hnew'
          refine ⟨after, (entry, error) :: stuck, ?_,
            hpassed.cons_stuck hfresh hunknown hcompile⟩
          simp [hpass, bind, Except.bind]

end Pass

/-- The entries that are pending are those that are not registered, in their order. -/
structure Waiting (scope : Scope) (registry : Registry)
    (pending : List CatalogEntry) : Prop where
  inOrder : pending.Sublist scope.entries
  rest : ∀ entry ∈ scope.entries, entry ∈ pending ↔ registry.table.find? entry.id = none

section Passes

variable {scope : Scope} {pending : List CatalogEntry} {registry : Registry}

theorem Passed.waiting {after : Registry} {stuck : List (CatalogEntry × CompileError)}
    (h : Passed scope registry pending after stuck)
    (hwaiting : Waiting scope registry pending) :
    Waiting scope after (stuck.map (·.1)) := by
  refine ⟨h.inOrder.trans hwaiting.inOrder, fun entry hentry => ?_⟩
  by_cases hpending : entry ∈ pending
  · exact h.left entry hpending
  · refine iff_of_false (fun hstuck => hpending (h.inOrder.subset hstuck)) fun hnone => hpending ?_
    rw [hwaiting.rest entry hentry, ← TypeTable.not_registered_iff]
    exact fun hold => TypeTable.not_registered_iff.2 hnone (h.grown.registered hold)

/-- The passes end with all entries registered, or with a pass that sees one
registry throughout and compiles none of the entries that are left. -/
theorem passes_spec {registry : Registry} {pending : List CatalogEntry}
    (hdistinct : (scope.entries.map (·.id)).Nodup)
    (hnonempty : ∀ entry ∈ scope.entries, entry.id ≠ "")
    (hsound : Sound scope registry)
    (hwaiting : Waiting scope registry pending) :
    ∃ (final : Registry) (stuck : List (CatalogEntry × CompileError)),
      Sound scope final ∧
      Waiting scope final (stuck.map (·.1)) ∧
      (∀ pair ∈ stuck, compile final.table scope.settings.maxDepth (some pair.1.id) pair.1.schema =
        .error pair.2) ∧
      passes scope.settings registry pending =
        if stuck = [] then .ok final
        else .error (.unregistered (stuck.map fun pair => (pair.1.id, pair.2))) := by
  rw [passes]
  split
  · next hempty =>
    obtain rfl := List.isEmpty_iff.1 hempty
    exact ⟨registry, [], hsound, hwaiting, by simp, rfl⟩
  · next hpending =>
    have hlisted : ∀ entry ∈ pending, entry ∈ scope.entries ∧ entry.id ≠ "" := fun entry hmem =>
      have hentry := hwaiting.inOrder.subset hmem
      ⟨hentry, hnonempty entry hentry⟩
    have hnew : ∀ entry ∈ pending, registry.table.find? entry.id = none := fun entry hmem =>
      (hwaiting.rest entry (hlisted entry hmem).1).1 hmem
    obtain ⟨after, stuck, hpass, hpassed⟩ := pass_spec hsound hlisted
      ((hwaiting.inOrder.map _).nodup hdistinct) hnew
    simp only [hpass]
    split
    -- fewer entries are left, so that the passes come to an end
    · next hlength => exact passes_spec hdistinct hnonempty hpassed.sound (hpassed.waiting hwaiting)
    -- no entry was registered: all errors are against one registry
    · next hlength =>
      have hle := hpassed.inOrder.length_le
      rw [List.length_map] at hle
      obtain ⟨rfl, herrors⟩ := hpassed.idle (by omega)
      have hstuck : stuck ≠ [] := by
        rintro rfl
        simp at hlength
        simp [hlength] at hpending
      exact ⟨after, stuck, hpassed.sound, hpassed.waiting hwaiting, herrors, by rw [if_neg hstuck]⟩
termination_by pending.length
decreasing_by simpa using ‹stuck.length < pending.length›

end Passes

theorem repeatedId?_eq_none {entries : List CatalogEntry} {seen : List String}
    (hdistinct : (entries.map (·.id)).Nodup) (hseen : ∀ entry ∈ entries, entry.id ∉ seen) :
    repeatedId? entries seen = none := by
  induction entries generalizing seen with
  | nil => rfl
  | cons entry rest ih =>
      rw [List.map_cons, List.nodup_cons] at hdistinct
      have hfirst : ¬ seen.contains entry.id = true := by
        simpa using hseen entry List.mem_cons_self
      rw [repeatedId?, if_neg hfirst]
      refine ih hdistinct.2 fun other hmem => ?_
      rw [List.mem_cons, not_or]
      refine ⟨fun heq => hdistinct.1 (heq ▸ List.mem_map_of_mem hmem), ?_⟩
      exact hseen other (List.mem_cons_of_mem _ hmem)

/-- A first pass that leaves no entry is the whole load. -/
theorem load_of_pass {catalog : Catalog} {settings : Settings}
    {namespaces : Option (List String)} {registry : Registry}
    (hdistinct : repeatedId? catalog.entries [] = none)
    (hpass : pass settings (.empty (namespaces.getD catalog.namespaces)) catalog.entries =
      .ok (registry, [])) : catalog.load settings namespaces = .ok registry := by
  have hdone : passes settings registry [] = .ok registry := by
    rw [passes]
    rfl
  rw [load, hdistinct]
  cases hentries : catalog.entries with
  | nil =>
      rw [hentries] at hpass
      obtain ⟨rfl, -⟩ := Prod.mk.inj (Except.ok.inj hpass)
      exact hdone
  | cons entry rest =>
      rw [hentries] at hpass
      have hshorter : ([] : List (CatalogEntry × CompileError)).length < (entry :: rest).length :=
        Nat.zero_lt_succ _
      rw [passes, if_neg (by simp), hpass]
      exact (if_pos hshorter).trans hdone

/-- The table of exactly the loadable entries: it has their ids and no others,
each with the type that its schema compiles to in this very table. -/
structure Complete (scope : Scope) (table : TypeTable) : Prop where
  namespaces : table.namespaces = scope.spaces
  distinct : (table.entries.map (·.id)).Nodup
  exact : ∀ id, id ∈ table.entries.map (·.id) ↔ Loadable scope id
  types : ∀ entry ∈ scope.entries, Loadable scope entry.id → ∃ type,
    table.find? entry.id = some ⟨entry.id, type⟩ ∧
      compile table scope.settings.maxDepth (some entry.id) entry.schema = .ok type

section Complete

variable {scope : Scope}

/-- If no entry that is left compiles, then all loadable entries are registered. -/
theorem Sound.complete {registry : Registry} (h : Sound scope registry)
    (hdistinct : (scope.entries.map (·.id)).Nodup)
    (hleft : ∀ entry ∈ scope.entries, registry.table.find? entry.id = none →
      ∃ error, compile registry.table scope.settings.maxDepth (some entry.id) entry.schema =
        .error error) :
    Complete scope registry.table := by
  have hregistered : ∀ id, Loadable scope id → registry.table.Registered id := by
    intro id hid
    induction hid with
    | entry listed readable grammatical allowed _ ih =>
        by_contra hmissing
        obtain ⟨error, herror⟩ := hleft _ listed (TypeTable.not_registered_iff.1 hmissing)
        obtain ⟨type, htype⟩ := exists_compile readable grammatical fun id hid =>
          h.bindable hdistinct listed readable hid (allowed id hid) (ih id hid)
        cases herror.symm.trans htype
  refine ⟨h.namespaces, h.distinct, fun id => ?_, fun entry hentry hload => ?_⟩
  · rw [← TypeTable.registered_iff_mem]
    exact ⟨h.loadable id, hregistered id⟩
  · obtain ⟨known, hknown⟩ := hregistered entry.id hload
    obtain ⟨other, hother, hsame, hcompile⟩ := h.origin entry.id known hknown
    obtain rfl := List.inj_on_of_nodup_map hdistinct hother hentry hsame
    refine ⟨known.type, ?_, hcompile⟩
    rw [hknown, ← TypeTable.id_of_find? hknown]

/-- There is one such table, up to the order of its entries. -/
theorem Complete.agrees {table other : TypeTable} (h : Complete scope table)
    (hother : Complete scope other) : table.Agrees other := by
  refine ⟨h.namespaces.trans hother.namespaces.symm, fun id => ?_⟩
  by_cases hid : Loadable scope id
  · induction hid with
    | entry listed readable grammatical allowed refers ih =>
        have hload := Loadable.entry listed readable grammatical allowed refers
        obtain ⟨type, hfind, hcompile⟩ := h.types _ listed hload
        obtain ⟨type', hfind', hcompile'⟩ := hother.types _ listed hload
        obtain ⟨root, hread, -, hbindable, -⟩ := compile_eq_ok_iff.1 hcompile'
        obtain rfl := Except.ok.inj (hread.symm.trans readable)
        have hsame := compile_transfer hcompile readable fun id hid =>
          ⟨hbindable id hid, (ih id hid).symm⟩
        obtain rfl := Except.ok.inj (hsame.symm.trans hcompile')
        rw [hfind, hfind']
  · have hmissing {table : TypeTable} (h : Complete scope table) :
        table.find? id = none := by
      rw [← TypeTable.not_registered_iff, TypeTable.registered_iff_mem, h.exact]
      exact hid
    rw [hmissing h, hmissing hother]

end Complete

/-- A load ends with the table of the loadable entries, and with the errors
that the entries that are left have against it. -/
theorem load_spec (catalog : Catalog) (settings : Settings) (namespaces : Option (List String))
    (hdistinct : (catalog.entries.map (·.id)).Nodup)
    (hnonempty : ∀ entry ∈ catalog.entries, entry.id ≠ "") :
    ∃ (final : Registry) (stuck : List (CatalogEntry × CompileError)),
      Complete (catalog.scope settings namespaces) final.table ∧
      (stuck.map (·.1)).Sublist catalog.entries ∧
      (∀ entry ∈ catalog.entries, entry ∈ stuck.map (·.1) ↔
        ¬ Loadable (catalog.scope settings namespaces) entry.id) ∧
      (∀ pair ∈ stuck,
        compile final.table settings.maxDepth (some pair.1.id) pair.1.schema = .error pair.2) ∧
      catalog.load settings namespaces =
        if stuck = [] then .ok final
        else .error (.unregistered (stuck.map fun pair => (pair.1.id, pair.2))) := by
  have hwaiting : Waiting (catalog.scope settings namespaces)
      (.empty (catalog.scope settings namespaces).spaces) catalog.entries :=
    ⟨.refl _, fun entry hentry => iff_of_true hentry rfl⟩
  obtain ⟨final, stuck, hsound, hleft, herrors, hpasses⟩ :=
    passes_spec hdistinct hnonempty sound_empty hwaiting
  have hcomplete := hsound.complete hdistinct fun entry hentry hnone => by
    obtain ⟨pair, hpair, rfl⟩ := List.mem_map.1 ((hleft.rest entry hentry).2 hnone)
    exact ⟨pair.2, herrors pair hpair⟩
  refine ⟨final, stuck, hcomplete, hleft.inOrder, fun entry hentry => ?_, herrors, ?_⟩
  · rw [hleft.rest entry hentry, ← TypeTable.not_registered_iff, TypeTable.registered_iff_mem,
      hcomplete.exact]
  · rw [load, repeatedId?_eq_none hdistinct (by simp)]
    exact hpasses

/-- A load registers exactly the loadable entries. It succeeds if these are all
entries, and else lists the others in catalog order, each with the error that
it has against the table of exactly the loadable entries. -/
theorem load_least_fixpoint (catalog : Catalog) (settings : Settings)
    (namespaces : Option (List String)) (hdistinct : (catalog.entries.map (·.id)).Nodup)
    (hnonempty : ∀ entry ∈ catalog.entries, entry.id ≠ "") :
    ((∀ entry ∈ catalog.entries, Loadable (catalog.scope settings namespaces) entry.id) ∧
        ∃ registry, catalog.load settings namespaces = .ok registry ∧
          Complete (catalog.scope settings namespaces) registry.table ∧
          (registry.table.entries.map (·.id)).Perm (catalog.entries.map (·.id))) ∨
      ((∃ entry ∈ catalog.entries, ¬ Loadable (catalog.scope settings namespaces) entry.id) ∧
        ∃ stuck : List (CatalogEntry × CompileError),
          catalog.load settings namespaces =
            .error (.unregistered (stuck.map fun pair => (pair.1.id, pair.2))) ∧
          (stuck.map (·.1)).Sublist catalog.entries ∧
          (∀ entry ∈ catalog.entries, entry ∈ stuck.map (·.1) ↔
            ¬ Loadable (catalog.scope settings namespaces) entry.id) ∧
          (∃ table, Complete (catalog.scope settings namespaces) table) ∧
          ∀ table, Complete (catalog.scope settings namespaces) table → ∀ pair ∈ stuck,
            compile table settings.maxDepth (some pair.1.id) pair.1.schema = .error pair.2) := by
  obtain ⟨final, stuck, hcomplete, hinOrder, hstuck, herrors, hload⟩ :=
    load_spec catalog settings namespaces hdistinct hnonempty
  by_cases hempty : stuck = []
  · subst hempty
    have hall : ∀ entry ∈ catalog.entries,
        Loadable (catalog.scope settings namespaces) entry.id := by
      intro entry hentry
      simpa using hstuck entry hentry
    refine .inl ⟨hall, final, hload, hcomplete, ?_⟩
    rw [List.perm_ext_iff_of_nodup hcomplete.distinct hdistinct]
    intro id
    rw [hcomplete.exact]
    constructor
    · rintro ⟨listed, -, -, -, -⟩
      exact List.mem_map_of_mem listed
    · intro hid
      obtain ⟨entry, hentry, rfl⟩ := List.mem_map.1 hid
      exact hall entry hentry
  · rw [if_neg hempty] at hload
    refine .inr ⟨?_, stuck, hload, hinOrder, hstuck, ⟨_, hcomplete⟩, ?_⟩
    · obtain ⟨pair, hpair⟩ := List.exists_mem_of_ne_nil stuck hempty
      have hmem : pair.1 ∈ stuck.map (·.1) := List.mem_map_of_mem hpair
      have hentry := hinOrder.subset hmem
      exact ⟨pair.1, hentry, (hstuck pair.1 hentry).1 hmem⟩
    · intro table htable pair hpair
      -- complete tables agree on every id, so it does not matter which one the errors are against
      rw [compile_congr (htable.agrees hcomplete)]
      exact herrors pair hpair

/-- Two schemas, the first of which refers to the second. -/
def outOfOrder : Catalog :=
  ⟨["shapes#"], [
    ⟨"shapes#Line", .object [("type", .string "object"), ("properties", .object [
      ("start", .object [("$ref", .string "shapes#Point")])])]⟩,
    ⟨"shapes#Point", .object [("type", .string "object"), ("properties", .object [
      ("x", .object [("type", .string "number")])])]⟩]⟩

/-- The second pass registers what the first has left. -/
theorem load_outOfOrder :
    ∃ registry, outOfOrder.load .standard none = .ok registry ∧
      (registry.table.entries.map (·.id)).Perm ["shapes#Line", "shapes#Point"] := by
  have hpoint : Loadable (outOfOrder.scope .standard none) "shapes#Point" :=
    @Loadable.entry _ ⟨"shapes#Point", _⟩ _ (.tail _ (.head _)) rfl rfl
      (fun _ hid => absurd hid List.not_mem_nil) fun _ hid => absurd hid List.not_mem_nil
  have hline : Loadable (outOfOrder.scope .standard none) "shapes#Line" := by
    refine @Loadable.entry _ ⟨"shapes#Line", _⟩ _ (.head _) rfl rfl ?_ ?_
    · intro id hid
      obtain rfl := List.mem_singleton.1 hid
      exact ⟨"shapes#", .head _, (inNamespace_iff _ _).1 (by decide)⟩
    · intro id hid
      obtain rfl := List.mem_singleton.1 hid
      exact hpoint
  rcases load_least_fixpoint outOfOrder .standard none (by decide) (by simp [outOfOrder]) with
    ⟨-, registry, hload, -, hids⟩ | ⟨⟨entry, hentry, hnot⟩, -⟩
  · exact ⟨registry, hload, hids⟩
  · simp only [outOfOrder, List.mem_cons, List.not_mem_nil, or_false] at hentry
    rcases hentry with rfl | rfl
    · exact absurd hline hnot
    · exact absurd hpoint hnot

end Catalog

end ResourceTypes
