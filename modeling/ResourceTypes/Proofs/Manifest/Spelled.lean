import Mathlib.Data.List.Permutation
import ResourceTypes.Proofs.Manifest

/-!
Manifests as JSON spells them. What a literal declares, in whatever order, is
what is read: with the types and the versions in ascending order, and without
any loss, as long as no name is repeated and the schemas are proper and not
too deep.
-/

namespace ResourceTypes

namespace Members

variable {α : Type} {members : Members α}

theorem foldl_insert_of_nodup {pairs : List (String × α)}
    (h : (members ++ pairs).names.Nodup) :
    pairs.foldl (fun members pair => members.insert pair.1 pair.2) members = members ++ pairs := by
  induction pairs generalizing members with
  | nil => simp
  | cons pair rest ih =>
      have hnew : pair.1 ∉ members.names := fun hmem => by
        rw [names, List.map_append, List.nodup_append] at h
        exact h.2.2 _ hmem _ List.mem_cons_self rfl
      rw [List.append_cons] at h
      rw [List.foldl_cons, insert_of_not_mem hnew, ih h, ← List.append_cons]

/-- Nothing is written again among members of distinct names. -/
theorem ofList_of_nodup (h : members.names.Nodup) : ofList members = members :=
  @foldl_insert_of_nodup _ [] members h

end Members

namespace Json

namespace Literal

/-- The object whose members have these names. -/
def ofMembers (members : Members Literal) : Literal :=
  .object (members.map fun (name, value) => (some name, value))

end Literal

mutual

/-- The literal that spells a value. -/
def spelled : Json → Literal
  | .array items => .array (spelledItems items)
  | .object members => .ofMembers (spelledMembers members)
  | scalar => .scalar (some scalar)

def spelledItems : List Json → List Literal
  | [] => []
  | item :: rest => item.spelled :: spelledItems rest

def spelledMembers : Members Json → Members Literal
  | [] => []
  | (name, value) :: rest => (name, value.spelled) :: spelledMembers rest

end

mutual

/-- A proper value is read from the literal that spells it. -/
theorem toJson?_spelled : ∀ value : Json, value.Proper → value.spelled.toJson? = some value
  | .array items, h => by
    rw [spelled, Literal.toJson?, itemsToJson?_spelled items h]
    rfl
  | .object members, h => by
    rw [spelled, Literal.ofMembers, Literal.toJson?, membersToJson?_spelled members h.2]
    simp [ofPairs, Members.ofList_of_nodup h.1]
  | .null, _ | .bool _, _ | .int _, _ | .float _, _ | .string _, _ => rfl

theorem itemsToJson?_spelled : ∀ items : List Json, ProperItems items →
    Literal.itemsToJson? (spelledItems items) = some items
  | [], _ => rfl
  | item :: rest, h => by
    rw [spelledItems, Literal.itemsToJson?, toJson?_spelled item h.1,
      itemsToJson?_spelled rest h.2]
    rfl

theorem membersToJson?_spelled : ∀ members : Members Json, ProperMembers members →
    Literal.membersToJson? ((spelledMembers members).map fun (name, value) => (some name, value)) =
      some members
  | [], _ => rfl
  | (name, value) :: rest, h => by
    rw [spelledMembers, List.map_cons, Literal.membersToJson?, toJson?_spelled value h.1,
      membersToJson?_spelled rest h.2]
    rfl

end

namespace Slot

variable {members : Members Literal} {room : Nat}

/-- Members as they are looked into, with the room that is left for each. -/
def parts (members : Members Literal) (room : Nat) : Members Slot :=
  members.map fun member => (member.1, ⟨member.2, room⟩)

@[simp] theorem names_parts : (parts members room).names = members.names := by
  simp [parts, Members.names]

theorem entries_ofMembers :
    entries ⟨.ofMembers members, room + 1⟩ = pure (parts members room) := by
  change List.mapM (m := Decoder) _ (members.map _) = _
  rw [List.mapM_map]
  exact List.mapM_pure (m := Decoder)

theorem fields_ofMembers {names : List String} (hknown : ∀ name ∈ members.names, name ∈ names)
    (hnodup : members.names.Nodup) :
    fields names ⟨.ofMembers members, room + 1⟩ = pure (parts members room) := by
  have hfilter : (parts members room).filter (fun field => names.contains field.1) =
      parts members room := by
    refine List.filter_eq_self.2 fun field hfield => ?_
    simpa using hknown field.1 (names_parts ▸ List.mem_map_of_mem hfield)
  have hentries := @entries_ofMembers members room
  unfold fields
  simp only [Literal.ofMembers] at hentries ⊢
  rw [hentries, pure_bind, hfilter, names_parts, if_pos hnodup]

end Slot

end Json

open Json (Literal)

namespace Decoder

theorem mapM_eq_pure {α β : Type} {xs : List α} {f : α → Decoder β} {g : α → β}
    (h : ∀ x ∈ xs, f x = pure (g x)) : xs.mapM f = pure (xs.map g) := by
  induction xs with
  | nil => rfl
  | cons x rest ih =>
      obtain ⟨hfirst, hrest⟩ := List.forall_mem_cons.1 h
      rw [List.mapM_cons, hfirst, pure_bind, ih hrest, pure_bind]
      rfl

theorem dictionary_ofMembers {α β : Type} {members : Members α} {decode : Json.Slot → Decoder β}
    {room : Nat} (spell : α → Literal) (value : α → β) (hnodup : members.names.Nodup)
    (hdecode : ∀ member ∈ members, decode ⟨spell member.2, room⟩ = pure (value member.2)) :
    dictionary decode
        ⟨.ofMembers (members.map fun member => (member.1, spell member.2)), room + 1⟩ =
      pure ((members.map fun member => (member.1, value member.2)).mergeSort (·.1 ≤ ·.1)) := by
  have hentries : List.mapM (fun entry : String × Json.Slot => (do
        return (entry.1, ← decode entry.2) : Decoder (String × β)))
      (Json.Slot.parts (members.map fun member => (member.1, spell member.2)) room) =
        pure (members.map fun member => (member.1, value member.2)) := by
    rw [Json.Slot.parts, List.map_map, List.mapM_map]
    refine mapM_eq_pure fun member hmember => ?_
    change decode ⟨spell member.2, room⟩ >>= _ = _
    rw [hdecode member hmember]
    rfl
  have hnames : (Members.names (members.map fun member => (member.1, value member.2))).Nodup := by
    simpa [Members.names, Function.comp_def] using hnodup
  change (Json.Slot.entries _ >>= _) = _
  rw [Json.Slot.entries_ofMembers, pure_bind, hentries, pure_bind, Members.ofList_of_nodup hnames]

end Decoder

namespace Manifest

variable {manifest : Manifest} {room : Nat}

def versionLiteral (schema : Json) : Literal := .ofMembers [("schema", schema.spelled)]

def typeLiteral (versions : Members Json) : Literal :=
  .ofMembers [("apiVersions",
    .ofMembers (versions.map fun (version, schema) => (version, versionLiteral schema)))]

/-- The literal that spells a manifest. -/
def literal (manifest : Manifest) : Literal :=
  .ofMembers [("namespace", .scalar (some (.string manifest.space))),
    ("types", .ofMembers (manifest.types.map fun (type, versions) => (type, typeLiteral versions)))]

/-- No type, and of no type a version, is declared twice. -/
structure Distinct (manifest : Manifest) : Prop where
  types : manifest.types.names.Nodup
  versions : ∀ type ∈ manifest.types, type.2.names.Nodup

/-- The manifest with its types and versions in ascending order. -/
def sorted (manifest : Manifest) : Manifest :=
  ⟨manifest.space, (manifest.types.map fun type =>
    (type.1, type.2.mergeSort (·.1 ≤ ·.1))).mergeSort (·.1 ≤ ·.1)⟩

theorem decodeVersion_literal {schema : Json} (hproper : schema.Proper)
    (hdepth : schema.spelled.depth ≤ room) :
    decodeVersion (⟨versionLiteral schema, room + 1⟩ : Json.Slot) = pure schema := by
  change (Json.Slot.fields _ _ >>= _) = _
  rw [versionLiteral, Json.Slot.fields_ofMembers (by simp) (by simp), pure_bind]
  change (liftM (Json.Slot.value? ⟨schema.spelled, room⟩) : Decoder Json) = _
  rw [Json.Slot.value?, if_pos hdepth, Json.toJson?_spelled schema hproper]
  rfl

theorem decodeType_literal {versions : Members Json} (hnodup : versions.names.Nodup)
    (hschemas : ∀ version ∈ versions, version.2.Proper ∧ version.2.spelled.depth ≤ room) :
    decodeType (⟨typeLiteral versions, room + 3⟩ : Json.Slot) =
      pure (versions.mergeSort (·.1 ≤ ·.1)) := by
  have hversions := Decoder.dictionary_ofMembers versionLiteral id hnodup fun version hversion =>
    decodeVersion_literal (hschemas version hversion).1 (hschemas version hversion).2
  change (Json.Slot.fields _ _ >>= _) = _
  rw [typeLiteral, Json.Slot.fields_ofMembers (by simp) (by simp), pure_bind]
  exact hversions.trans (by simp)

theorem decode_literal (hdistinct : manifest.Distinct)
    (hschemas : ∀ declaration ∈ manifest.declarations,
      declaration.schema.Proper ∧ declaration.schema.spelled.depth ≤ room) :
    decode (⟨manifest.literal, room + 5⟩ : Json.Slot) = pure manifest.sorted := by
  have htypes := Decoder.dictionary_ofMembers typeLiteral (List.mergeSort · (·.1 ≤ ·.1))
    hdistinct.types fun type htype =>
      decodeType_literal (hdistinct.versions type htype) fun version hversion =>
        hschemas ⟨type.1, version.1, version.2⟩
          (List.mem_flatMap.2 ⟨type, htype, List.mem_map_of_mem hversion⟩)
  change (Json.Slot.fields _ _ >>= _) = _
  rw [literal, Json.Slot.fields_ofMembers (by simp) (by simp), pure_bind]
  change (pure manifest.space >>= fun _ => Decoder.dictionary _ _ >>= _) = _
  rw [pure_bind, htypes]
  rfl

/-- What a text declares is read in ascending order, if the schemas are proper and leave room
for the five levels above them. -/
theorem ofText_of_literal {text : String} (hliteral : Literal.ofText? text = some manifest.literal)
    (hdistinct : manifest.Distinct)
    (hschemas : ∀ declaration ∈ manifest.declarations,
      declaration.schema.Proper ∧ declaration.schema.spelled.depth ≤ 122)
    (hspace : Text.isBlank manifest.space = false) :
    ofText .json text = .ok manifest.sorted := by
  have hdecode : decode (⟨manifest.literal, Json.Slot.fullRoom⟩ : Json.Slot) =
      pure manifest.sorted :=
    decode_literal hdistinct hschemas
  have hread : Format.json.decode? text (fun _ => decode) = some manifest.sorted := by
    simp [Format.decode?, hliteral, hdecode]
  rw [ofText, hread]
  exact if_neg (by simp [sorted, hspace])

end Manifest

end ResourceTypes
