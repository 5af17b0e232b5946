import Mathlib.Data.Option.Basic
import Mathlib.Order.Basic
import ResourceTypes.Format
import ResourceTypes.Proofs.Json

/-!
What decoders yield. A property of all results goes through the steps of a
decoder, and the values of both formats are proper: no object that is decoded
has two members of one name, however often a text repeats it.
-/

namespace ResourceTypes

namespace Members

variable {α : Type} {members : Members α}

/-- Names in ascending order, each once. -/
def Ascending (members : Members α) : Prop := members.names.Pairwise (· < ·)

theorem Ascending.nodup (h : members.Ascending) : members.names.Nodup :=
  List.Pairwise.imp (fun hlt => String.ne_of_lt hlt) h

/-- Sorted by names that are distinct, members are in ascending order. -/
theorem ascending_mergeSort (h : members.names.Nodup) :
    Ascending (members.mergeSort (·.1 ≤ ·.1)) := by
  have hnodup : (names (members.mergeSort (·.1 ≤ ·.1))).Nodup :=
    ((List.mergeSort_perm members _).map Prod.fst).nodup_iff.2 h
  have hsorted : (members.mergeSort (·.1 ≤ ·.1)).Pairwise fun first second =>
      first.1 ≤ second.1 := by
    have hpairwise := @List.pairwise_mergeSort _ (fun first second : String × α =>
      decide (first.1 ≤ second.1))
      (fun first second third h h' => by
        simpa using String.le_trans (of_decide_eq_true h) (of_decide_eq_true h'))
      (fun first second => by simpa using String.le_total first.1 second.1) members
    simpa using hpairwise
  refine List.pairwise_map.2 (hsorted.imp₂ ?_ (List.pairwise_map.1 hnodup))
  intro first second hle hne
  exact String.not_le.1 fun hge => hne (String.le_antisymm hle hge)

end Members

namespace Decoder

variable {α β σ : Type} {P : α → Prop} {Q : β → Prop} {decoder : Decoder α}

/-- Whatever a decoder results in has a property. -/
def Yields (decoder : Decoder α) (P : α → Prop) : Prop :=
  ∀ left result, decoder.run left = some result → P result.1

theorem yields_pure {value : α} (h : P value) : Yields (pure value) P := by
  intro left result hrun
  cases hrun
  exact h

theorem Yields.mono {P' : α → Prop} (h : decoder.Yields P) (himp : ∀ value, P value → P' value) :
    decoder.Yields P' :=
  fun left result hrun => himp _ (h left result hrun)

theorem Yields.bind {next : α → Decoder β} (h : decoder.Yields P)
    (hnext : ∀ value, P value → (next value).Yields Q) : (decoder >>= next).Yields Q := by
  intro left result hrun
  rw [StateT.run_bind] at hrun
  obtain ⟨⟨value, left'⟩, hvalue, hresult⟩ := Option.bind_eq_some_iff.1 hrun
  exact hnext value (h left _ hvalue) left' result hresult

theorem yields_true : decoder.Yields fun _ => True := fun _ _ _ => trivial

theorem yields_failure : Yields failure P := nofun

theorem yields_mapM {xs : List β} {f : β → Decoder α} (h : ∀ x ∈ xs, (f x).Yields P) :
    (xs.mapM f).Yields fun ys => ∀ y ∈ ys, P y := by
  induction xs with
  | nil =>
      rw [List.mapM_nil]
      exact yields_pure nofun
  | cons x rest ih =>
      obtain ⟨hfirst, hrest⟩ := List.forall_mem_cons.1 h
      rw [List.mapM_cons]
      refine hfirst.bind fun y hy => (ih hrest).bind fun ys hys => yields_pure ?_
      exact List.forall_mem_cons.2 ⟨hy, hys⟩

theorem yields_lift {value? : Option α} (h : ∀ value, value? = some value → P value) :
    Yields (liftM value?) P := by
  intro left result hrun
  obtain ⟨value, hvalue, hresult⟩ := Option.bind_eq_some_iff.1 hrun
  cases hresult
  exact h value hvalue

section Fields

variable {fields : Members σ} {name : String} {decode : σ → Decoder α}

theorem yields_required (h : ∀ field ∈ fields, (decode field.2).Yields P) :
    (required fields name decode).Yields P :=
  (yields_lift fun _ => Members.mem_of_get?).bind fun _ hfield => h _ hfield

theorem yields_optional {default : α} (h : ∀ field ∈ fields, (decode field.2).Yields P)
    (hdefault : P default) : (optional fields name decode default).Yields P := by
  unfold optional
  split
  · next source hsource => exact h _ (Members.mem_of_get? hsource)
  · exact yields_pure hdefault

end Fields

variable [Source σ] {Good : σ → Prop} {decode : σ → Decoder α} {source : σ}

theorem yields_list
    (hitems : (Source.items source).Yields fun items => ∀ item ∈ items, Good item)
    (h : ∀ source, Good source → (decode source).Yields P) :
    (list decode source).Yields fun values => ∀ value ∈ values, P value :=
  hitems.bind fun _ hgood => yields_mapM fun item hitem => h item (hgood item hitem)

/-- A dictionary is in ascending order, with values that the decoder yields. -/
theorem yields_dictionary
    (hentries : (Source.entries source).Yields fun entries => ∀ entry ∈ entries, Good entry.2)
    (h : ∀ source, Good source → (decode source).Yields P) :
    (dictionary decode source).Yields fun members =>
      members.Ascending ∧ ∀ pair ∈ members, P pair.2 := by
  refine hentries.bind fun (entries : List (String × σ)) hgood => ?_
  have hpairs : Yields
      (entries.mapM fun entry => (do return (entry.1, ← decode entry.2) : Decoder (String × α)))
      fun pairs => ∀ pair ∈ pairs, P pair.2 :=
    yields_mapM fun entry hentry =>
      (h entry.2 (hgood entry hentry)).bind fun value hvalue => yields_pure hvalue
  refine hpairs.bind fun pairs hpairs => yields_pure ⟨?_, ?_⟩
  · exact Members.ascending_mergeSort (Members.nodup_names_ofList pairs)
  · intro pair hpair
    exact Members.forall_ofList hpairs pair (List.mem_mergeSort.1 hpair)

end Decoder

/-- A format whose values are proper, as long as a property of its sources holds that goes
from each source to its parts. -/
structure Source.Sound {σ : Type} [Source σ] (Good : σ → Prop) : Prop where
  value : ∀ source, Good source → (Source.value source).Yields Json.Proper
  items : ∀ source, Good source →
    (Source.items source).Yields fun items => ∀ item ∈ items, Good item
  entries : ∀ source, Good source →
    (Source.entries source).Yields fun entries => ∀ entry ∈ entries, Good entry.2
  fields : ∀ names source, Good source →
    (Source.fields names source).Yields fun fields => ∀ field ∈ fields, Good field.2

/-! ### JSON -/

namespace Json.Slot

variable {slot : Slot}

theorem proper_of_value? {value : Json} (hflat : slot.literal.Flat)
    (h : slot.value? = some value) : value.Proper := by
  unfold value? at h
  split at h
  · exact Literal.proper_of_toJson? _ _ hflat h
  · cases h

theorem flat_of_items? {items : List Slot} (hflat : slot.literal.Flat)
    (h : slot.items? = some items) : ∀ item ∈ items, item.literal.Flat := by
  obtain ⟨room, -, h⟩ := Option.bind_eq_some_iff.1 h
  split at h
  · next literals hliteral =>
    cases h
    rw [hliteral, Literal.Flat, Literal.flatItems_iff] at hflat
    simpa using hflat
  · cases h

theorem entries_yields (hflat : slot.literal.Flat) :
    slot.entries.Yields fun entries => ∀ entry ∈ entries, entry.2.literal.Flat := by
  refine Decoder.yields_true.bind fun room _ => ?_
  dsimp only
  split
  · next members hliteral =>
    rw [hliteral, Literal.Flat, Literal.flatMembers_iff] at hflat
    exact Decoder.yields_mapM fun member hmember =>
      Decoder.yields_true.bind fun name _ => Decoder.yields_pure (hflat member hmember)
  · exact Decoder.yields_failure

theorem fields_yields (hflat : slot.literal.Flat) (names : List String) :
    (slot.fields names).Yields fun fields => ∀ field ∈ fields, field.2.literal.Flat := by
  unfold fields
  split
  · refine (Decoder.yields_lift fun items => flat_of_items? hflat).bind fun items hitems => ?_
    split
    · exact Decoder.yields_pure fun field hfield => hitems _ (List.of_mem_zip hfield).2
    · exact Decoder.yields_failure
  · refine (entries_yields hflat).bind fun entries hentries => ?_
    dsimp only
    split
    · exact Decoder.yields_pure fun field hfield => hentries _ (List.mem_filter.1 hfield).1
    · exact Decoder.yields_failure

/-- The literals of JSON texts hold scalars that are proper. -/
theorem sound : Source.Sound fun slot : Slot => slot.literal.Flat where
  value _ hflat := Decoder.yields_lift fun _ => proper_of_value? hflat
  items _ hflat := Decoder.yields_lift fun _ => flat_of_items? hflat
  entries _ hflat := entries_yields hflat
  fields names _ hflat := fields_yields hflat names

end Json.Slot

/-! ### YAML -/

namespace Yaml

theorem proper_of_number? {text : String} {value : Json} (h : number? text = some value) :
    value.Proper := by
  unfold number? at h
  split at h
  · cases h
    trivial
  · obtain ⟨_, -, rfl⟩ := Option.map_eq_some_iff.1 h
    trivial

theorem proper_otherValue (text : String) : (otherValue text).Proper := by
  unfold otherValue
  split
  · trivial
  · cases hnumber : number? text with
    | none => trivial
    | some value => exact proper_of_number? hnumber

theorem proper_of_plainValue? {text : String} {value : Json} (h : plainValue? text = some value) :
    value.Proper := by
  unfold plainValue? at h
  split at h
  · cases h
    trivial
  · split at h
    · cases h
      trivial
    · split at h
      · cases h
        trivial
      · split at h
        · cases h
        · cases h
          exact proper_otherValue text
    · cases h
      exact proper_otherValue text

theorem Scalar.proper_of_value? {s : Scalar} {value : Json} (h : s.value? = some value) :
    value.Proper := by
  have htext (text : String) : (Json.string text).Proper := trivial
  have hbool {found? : Option Bool} (h : found?.map Json.bool = some value) : value.Proper := by
    obtain ⟨_, -, rfl⟩ := Option.map_eq_some_iff.1 h
    trivial
  unfold Scalar.value? at h
  split at h
  · split at h
    · exact proper_of_plainValue? h
    · cases h
      trivial
  · split_ifs at h
    · exact hbool h
    · obtain ⟨n, -, h⟩ := Option.bind_eq_some_iff.1 h
      split at h
      · cases h
        trivial
      · cases h
    · exact proper_of_number? h
    · cases h
      trivial
    · exact proper_of_plainValue? h
    · cases h
      trivial

/-- What a node stands for is proper: of a key that a mapping repeats, one member is left. -/
theorem Node.value_yields (document : Document) (room : Nat) (node : Node) :
    (node.value document room).Yields Json.Proper := by
  induction room generalizing node with
  | zero =>
      rw [value]
      refine Decoder.yields_true.bind fun target _ => ?_
      cases target with
      | scalar anchor? s => exact Decoder.yields_lift fun _ => Scalar.proper_of_value?
      | _ => exact Decoder.yields_failure
  | succ room ih =>
      rw [value]
      refine Decoder.yields_true.bind fun target _ => ?_
      cases target with
      | scalar anchor? s => exact Decoder.yields_lift fun _ => Scalar.proper_of_value?
      | sequence anchor? tag? items =>
          refine Decoder.yields_true.bind fun _ _ => ?_
          refine (Decoder.yields_mapM fun item _ => ih item).bind fun values hvalues => ?_
          exact Decoder.yields_pure (Json.properItems_iff.2 hvalues)
      | mapping anchor? tag? members =>
          refine Decoder.yields_true.bind fun _ _ => ?_
          have hpairs : Decoder.Yields (members.mapM fun member => (do
              return (← member.1.text document, ← member.2.value document room) :
                Decoder (String × Json)))
              fun pairs => ∀ pair ∈ pairs, pair.2.Proper :=
            Decoder.yields_mapM fun member _ => Decoder.yields_true.bind fun key _ =>
              (ih member.2).bind fun value hvalue => Decoder.yields_pure hvalue
          exact hpairs.bind fun pairs hpairs => Decoder.yields_pure (Json.proper_ofPairs hpairs)
      | _ => exact Decoder.yields_failure

theorem Slot.sound : Source.Sound fun _ : Slot => True where
  value slot _ := slot.node.value_yields slot.document slot.room
  items _ _ := Decoder.yields_true.mono fun _ _ _ _ => trivial
  entries _ _ := Decoder.yields_true.mono fun _ _ _ _ => trivial
  fields _ _ _ := Decoder.yields_true.mono fun _ _ _ _ => trivial

end Yaml

/-- What a text is decoded to has each property that the decoder yields from any sound source. -/
theorem Format.decode?_yields {α : Type} {P : α → Prop} {format : Format} {text : String}
    {decode : (σ : Type) → [Source σ] → σ → Decoder α} {value : α}
    (h : ∀ (σ : Type) [Source σ] (Good : σ → Prop) (source : σ), Source.Sound Good →
      Good source → (decode σ source).Yields P)
    (hvalue : format.decode? text decode = some value) : P value := by
  have hrun {decoder : Decoder α} (hdecoder : decoder.Yields P) {left : Nat}
      (hfirst : decoder.run' left = some value) : P value := by
    obtain ⟨result, hresult, rfl⟩ := Option.map_eq_some_iff.1 hfirst
    exact hdecoder left result hresult
  cases format with
  | json =>
      obtain ⟨literal, hliteral, hresult⟩ := Option.bind_eq_some_iff.1 hvalue
      exact hrun (h _ _ _ Json.Slot.sound (Json.Literal.flat_of_ofText? hliteral)) hresult
  | yaml =>
      obtain ⟨document, -, hresult⟩ := Option.bind_eq_some_iff.1 hvalue
      exact hrun (h _ _ _ Yaml.Slot.sound trivial) hresult

end ResourceTypes
