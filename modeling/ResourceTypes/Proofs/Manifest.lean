import ResourceTypes.Manifest
import ResourceTypes.Proofs.Decoding
import ResourceTypes.Proofs.Text.Octets

/-!
What holds of every manifest that is read: its types, and the versions of each
type, are in ascending order without repetitions, and its schemas are proper.
So each declaration is found under its type and version, and they too are in
order.
-/

namespace ResourceTypes

/-- The first of two declarations has the lesser type, or of one type the lesser
version, octet by octet. -/
def Declaration.Before (first second : Declaration) : Prop :=
  Text.octets first.type < Text.octets second.type ∨
    first.type = second.type ∧ Text.octets first.version < Text.octets second.version

theorem Declaration.Before.ne {first second : Declaration} (h : first.Before second) :
    first ≠ second := by
  rintro rfl
  rcases h with h | ⟨-, h⟩
  · exact List.lt_irrefl _ h
  · exact List.lt_irrefl _ h

namespace Manifest

variable {manifest : Manifest} {declaration : Declaration}

/-- The types and the versions of each type are in ascending order. -/
structure Ordered (manifest : Manifest) : Prop where
  types : manifest.types.Ascending
  versions : ∀ pair ∈ manifest.types, pair.2.Ascending

/-- All schemas that a manifest declares are proper. -/
def Proper (manifest : Manifest) : Prop :=
  ∀ pair ∈ manifest.types, ∀ version ∈ pair.2, version.2.Proper

section Decode

variable {σ : Type} [Source σ] {Good : σ → Prop} {source : σ}

theorem decodeVersion_yields (hsound : Source.Sound Good) (hgood : Good source) :
    (decodeVersion source).Yields Json.Proper :=
  (hsound.fields _ _ hgood).bind fun _ hfields =>
    Decoder.yields_required fun field hfield => hsound.value _ (hfields field hfield)

theorem decodeType_yields (hsound : Source.Sound Good) (hgood : Good source) :
    (decodeType source).Yields fun versions =>
      versions.Ascending ∧ ∀ version ∈ versions, version.2.Proper :=
  (hsound.fields _ _ hgood).bind fun _ hfields => Decoder.yields_optional
    (fun field hfield => Decoder.yields_dictionary (hsound.entries _ (hfields field hfield))
      fun _ => decodeVersion_yields hsound)
    ⟨List.Pairwise.nil, nofun⟩

theorem decode_yields (hsound : Source.Sound Good) (hgood : Good source) :
    (decode source).Yields fun manifest => manifest.Ordered ∧ manifest.Proper := by
  refine (hsound.fields _ _ hgood).bind fun fields hfields => ?_
  have htypes : (Decoder.optional fields "types" (.dictionary decodeType) []).Yields fun types =>
      types.Ascending ∧ ∀ pair ∈ types,
        pair.2.Ascending ∧ ∀ version ∈ pair.2, version.2.Proper :=
    Decoder.yields_optional
      (fun field hfield => Decoder.yields_dictionary (hsound.entries _ (hfields field hfield))
        fun _ => decodeType_yields hsound)
      ⟨List.Pairwise.nil, nofun⟩
  refine Decoder.yields_true.bind fun space _ => htypes.bind fun types h => ?_
  exact Decoder.yields_pure
    ⟨⟨h.1, fun pair hpair => (h.2 pair hpair).1⟩, fun pair hpair => (h.2 pair hpair).2⟩

end Decode

/-- A manifest that is read from a text is ordered, and its schemas are proper. -/
theorem ordered_proper_of_ofText {format : Format} {text : String}
    (h : ofText format text = .ok manifest) : manifest.Ordered ∧ manifest.Proper := by
  unfold ofText at h
  split at h
  · cases h
  · next read hread =>
    have hyields := Format.decode?_yields (fun _ _ _ _ => decode_yields) hread
    split at h
    · cases h
    · obtain rfl := Except.ok.inj h
      exact hyields

theorem Proper.of_mem_declarations (h : manifest.Proper)
    (hdeclaration : declaration ∈ manifest.declarations) : declaration.schema.Proper := by
  simp only [declarations, List.mem_flatMap, List.mem_map, Prod.exists] at hdeclaration
  obtain ⟨type, versions, htype, version, schema, hversion, rfl⟩ := hdeclaration
  exact h _ htype _ hversion

theorem find_eq_ok_iff {type version : String} :
    manifest.find type version = .ok declaration ↔
      ∃ versions, manifest.types.get? type = some versions ∧
        versions.get? version = some declaration.schema ∧ declaration.type = type ∧
        declaration.version = version := by
  obtain ⟨_, _, schema⟩ := declaration
  rw [find]
  split
  · next hnone => simp [hnone]
  · next versions hversions =>
    split
    · next hnone => simp [hversions, hnone]
    · next found hfound =>
      simp only [hversions, Except.ok.injEq, Declaration.mk.injEq, Option.some.injEq,
        exists_eq_left', hfound]
      constructor <;> rintro ⟨rfl, rfl, rfl⟩ <;> exact ⟨rfl, rfl, rfl⟩

/-- Each declaration of an ordered manifest is the one that is found. -/
theorem Ordered.mem_declarations_iff (h : manifest.Ordered) :
    declaration ∈ manifest.declarations ↔
      manifest.find declaration.type declaration.version = .ok declaration := by
  obtain ⟨type, version, schema⟩ := declaration
  simp only [find_eq_ok_iff, declarations, List.mem_flatMap, List.mem_map, Prod.exists,
    Declaration.mk.injEq, and_true]
  constructor
  · rintro ⟨_, versions, htype, _, _, hversion, rfl, rfl, rfl⟩
    exact ⟨versions, Members.get?_of_mem h.types.nodup htype,
      Members.get?_of_mem (h.versions _ htype).nodup hversion⟩
  · rintro ⟨versions, htype, hversion⟩
    exact ⟨type, versions, Members.mem_of_get? htype, version, schema,
      Members.mem_of_get? hversion, rfl, rfl, rfl⟩

/-- The declarations of an ordered manifest are in order. -/
theorem Ordered.pairwise_declarations (h : manifest.Ordered) :
    manifest.declarations.Pairwise Declaration.Before := by
  rw [declarations, List.pairwise_flatMap]
  constructor
  · intro pair hpair
    refine List.pairwise_map.2 ((List.pairwise_map.1 (h.versions pair hpair)).imp ?_)
    intro first second hlt
    exact .inr ⟨rfl, Text.octets_lt hlt⟩
  · refine (List.pairwise_map.1 h.types).imp ?_
    intro first second hlt declaration hdeclaration other hother
    obtain ⟨_, -, rfl⟩ := List.mem_map.1 hdeclaration
    obtain ⟨_, -, rfl⟩ := List.mem_map.1 hother
    exact .inl (Text.octets_lt hlt)

/-- A version of a type is declared once, if it can be found, and else never. -/
theorem Ordered.filter_declarations (h : manifest.Ordered) (type version : String) :
    (manifest.declarations.filter fun declaration =>
        declaration.type = type ∧ declaration.version = version) =
      (manifest.find type version).toOption.toList := by
  have hmem (declaration : Declaration) :
      (declaration ∈ manifest.declarations.filter fun declaration =>
        declaration.type = type ∧ declaration.version = version) ↔
      manifest.find type version = .ok declaration := by
    rw [List.mem_filter, h.mem_declarations_iff, decide_eq_true_iff]
    constructor
    · rintro ⟨hfind, rfl, rfl⟩
      exact hfind
    · intro hfind
      obtain ⟨-, -, -, rfl, rfl⟩ := find_eq_ok_iff.1 hfind
      exact ⟨hfind, rfl, rfl⟩
  -- the search settles what is in the list, which has no repetitions
  cases hfind : manifest.find type version with
  | error fault =>
      refine List.eq_nil_iff_forall_not_mem.2 fun declaration hdeclaration => ?_
      cases hfind.symm.trans ((hmem declaration).1 hdeclaration)
  | ok found =>
      have hnodup : (manifest.declarations.filter fun declaration =>
          declaration.type = type ∧ declaration.version = version).Nodup :=
        (h.pairwise_declarations.imp Declaration.Before.ne).filter _
      have hone : [found].Nodup := List.pairwise_singleton _ found
      refine List.perm_singleton.1
        ((List.perm_ext_iff_of_nodup hnodup hone).2 fun declaration => ?_)
      rw [hmem, hfind, Except.ok.injEq, List.mem_singleton, eq_comm]

end Manifest

end ResourceTypes
