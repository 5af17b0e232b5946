import Mathlib.Data.List.Nodup
import ResourceTypes.Proofs.Manifest.Spelled

/-!
Ids of declared documents. An id joins the names of a type and of a version by
a mark that both may hold, so that the mark may be taken for another one: two
documents of a manifest share an id exactly if one of them moves a part of the
version's name into the type's. Where the types or the versions hold no mark,
ids identify documents.
-/

namespace ResourceTypes

/-- Two texts that are joined by a mark in two ways: either they are split at one
mark, or what stands between the two marks belongs to one half or to the other. -/
theorem append_mark_eq_iff {α : Type} {mark : α} {front back front' back' : List α} :
    front ++ mark :: back = front' ++ mark :: back' ↔
      (front = front' ∧ back = back') ∨
        (∃ part, front' = front ++ mark :: part ∧ back = part ++ mark :: back') ∨
          ∃ part, front = front' ++ mark :: part ∧ back' = part ++ mark :: back := by
  constructor
  · intro h
    rcases List.append_eq_append_iff.1 h with ⟨more, rfl, hmore⟩ | ⟨more, rfl, hmore⟩
    · cases more with
      | nil =>
          obtain ⟨-, rfl⟩ := List.cons.inj hmore
          exact .inl ⟨(List.append_nil front).symm, rfl⟩
      | cons first part =>
          obtain ⟨rfl, rfl⟩ := List.cons.inj hmore
          exact .inr (.inl ⟨part, rfl, rfl⟩)
    · cases more with
      | nil =>
          obtain ⟨-, rfl⟩ := List.cons.inj hmore
          exact .inl ⟨List.append_nil front', rfl⟩
      | cons first part =>
          obtain ⟨rfl, rfl⟩ := List.cons.inj hmore
          exact .inr (.inr ⟨part, rfl, rfl⟩)
  · rintro (⟨rfl, rfl⟩ | ⟨part, rfl, rfl⟩ | ⟨part, rfl, rfl⟩) <;> simp

namespace Declaration

/-- A part of the first declaration's version, with the mark behind it, ends the
name of the second declaration's type instead. -/
def Shifts (first second : Declaration) : Prop :=
  ∃ part, second.type = first.type ++ "@" ++ part ∧ first.version = part ++ "@" ++ second.version

variable {first second : Declaration}

theorem Shifts.mem_version (h : first.Shifts second) : '@' ∈ first.version.toList := by
  obtain ⟨part, -, hversion⟩ := h
  simp [hversion]

theorem Shifts.mem_type (h : first.Shifts second) : '@' ∈ second.type.toList := by
  obtain ⟨part, htype, -⟩ := h
  simp [htype]

theorem shifts_iff : first.Shifts second ↔
    ∃ part, second.type.toList = first.type.toList ++ '@' :: part ∧
      first.version.toList = part ++ '@' :: second.version.toList := by
  constructor
  · rintro ⟨part, htype, hversion⟩
    exact ⟨part.toList, by simp [htype], by simp [hversion]⟩
  · rintro ⟨part, htype, hversion⟩
    refine ⟨String.ofList part, ?_, ?_⟩ <;> rw [← String.toList_inj] <;> simp [htype, hversion]

end Declaration

namespace Manifest

variable {manifest : Manifest} {first second : Declaration}

/-- Declarations have one id if they have one type and one version, or if one
shifts a part of its version into the type of the other. -/
theorem idOf_eq_iff : manifest.idOf first = manifest.idOf second ↔
    (first.type = second.type ∧ first.version = second.version) ∨
      first.Shifts second ∨ second.Shifts first := by
  have hchars (declaration : Declaration) : (manifest.idOf declaration).toList =
      (manifest.space.toList ++ ['/']) ++
        (declaration.type.toList ++ '@' :: declaration.version.toList) := by
    simp [idOf]
  rw [← String.toList_inj, hchars, hchars, List.append_cancel_left_eq, append_mark_eq_iff,
    String.toList_inj, String.toList_inj, Declaration.shifts_iff, Declaration.shifts_iff]

/-- A type and a version are declared once. -/
theorem Ordered.declaration_unique (h : manifest.Ordered) (hfirst : first ∈ manifest.declarations)
    (hsecond : second ∈ manifest.declarations) (htype : first.type = second.type)
    (hversion : first.version = second.version) : first = second := by
  rw [h.mem_declarations_iff] at hfirst hsecond
  rw [htype, hversion] at hfirst
  exact Except.ok.inj (hfirst.symm.trans hsecond)

theorem Ordered.nodup_declarations (h : manifest.Ordered) : manifest.declarations.Nodup :=
  h.pairwise_declarations.imp Declaration.Before.ne

/-- No part can be shifted in a manifest whose types, or whose versions, hold no mark. -/
theorem not_shifts (h : (∀ declaration ∈ manifest.declarations, '@' ∉ declaration.type.toList) ∨
      ∀ declaration ∈ manifest.declarations, '@' ∉ declaration.version.toList)
    (hfirst : first ∈ manifest.declarations) (hsecond : second ∈ manifest.declarations) :
    ¬ first.Shifts second := by
  intro hshifts
  rcases h with htypes | hversions
  · exact htypes second hsecond hshifts.mem_type
  · exact hversions first hfirst hshifts.mem_version

/-- In a manifest that is read, two documents share an id exactly if they are one,
or if one of them shifts a part of its version into the type of the other. The
ids are distinct where no type has the mark in its name, or no version has. -/
theorem ids_shared_iff {format : Format} {text : String}
    (h : Manifest.ofText format text = .ok manifest) :
    (∀ first ∈ manifest.declarations, ∀ second ∈ manifest.declarations,
        (manifest.idOf first = manifest.idOf second ↔
          first = second ∨ first.Shifts second ∨ second.Shifts first)) ∧
      ((∀ declaration ∈ manifest.declarations, '@' ∉ declaration.type.toList) ∨
          (∀ declaration ∈ manifest.declarations, '@' ∉ declaration.version.toList) →
        (manifest.declarations.map manifest.idOf).Nodup) := by
  have hordered := (ordered_proper_of_ofText h).1
  have hshared : ∀ first ∈ manifest.declarations, ∀ second ∈ manifest.declarations,
      (manifest.idOf first = manifest.idOf second ↔
        first = second ∨ first.Shifts second ∨ second.Shifts first) := by
    intro first hfirst second hsecond
    rw [idOf_eq_iff]
    refine or_congr_left ⟨fun hsame => ?_, ?_⟩
    · exact hordered.declaration_unique hfirst hsecond hsame.1 hsame.2
    · rintro rfl
      exact ⟨rfl, rfl⟩
  refine ⟨hshared, fun hmarks => ?_⟩
  refine List.Nodup.map_on (fun first hfirst second hsecond hid => ?_) hordered.nodup_declarations
  rcases (hshared first hfirst second hsecond).1 hid with heq | hshifts | hshifts
  · exact heq
  · exact absurd hshifts (not_shifts hmarks hfirst hsecond)
  · exact absurd hshifts (not_shifts hmarks hsecond hfirst)

theorem spelled_empty : (Json.object []).Proper ∧ (Json.object []).spelled.depth ≤ 122 :=
  ⟨⟨List.nodup_nil, trivial⟩, by decide⟩

/-- A manifest that declares a version of one type whose name holds a mark. -/
def lamps : String :=
  "\x7b\"namespace\":\"Home\",\"types\":\x7b\"lamp\":\x7b\"apiVersions\":\x7b" ++
    "\"2\":\x7b\"schema\":\x7b\x7d\x7d,\"wide@2\":\x7b\"schema\":\x7b\x7d\x7d" ++
    "\x7d\x7d\x7d\x7d"

def lampManifest : Manifest := ⟨"Home", [("lamp", [("2", .object []), ("wide@2", .object [])])]⟩

/-- Both versions of the lamp have an id of their own, although one of them holds the mark. -/
theorem ids_shared_iff_lamps :
    Manifest.ofText .json lamps = .ok lampManifest ∧
      (∀ declaration ∈ lampManifest.declarations, '@' ∉ declaration.type.toList) ∧
      lampManifest.declarations.map lampManifest.idOf = ["Home/lamp@2", "Home/lamp@wide@2"] ∧
      (lampManifest.declarations.map lampManifest.idOf).Nodup ∧
      ∀ first ∈ lampManifest.declarations, ∀ second ∈ lampManifest.declarations,
        (lampManifest.idOf first = lampManifest.idOf second ↔
          first = second ∨ first.Shifts second ∨ second.Shifts first) := by
  have hdistinct : lampManifest.Distinct := ⟨by simp [lampManifest], by simp [lampManifest]⟩
  have hsorted : lampManifest.sorted = lampManifest := by cbv
  have hread : Manifest.ofText .json lamps = .ok lampManifest.sorted :=
    ofText_of_literal (by cbv) hdistinct (by simp [lampManifest, declarations, spelled_empty])
      (by decide)
  rw [hsorted] at hread
  have htypes : ∀ declaration ∈ lampManifest.declarations, '@' ∉ declaration.type.toList := by
    simp [lampManifest, declarations]
  exact ⟨hread, htypes, rfl, (ids_shared_iff hread).2 (.inl htypes), (ids_shared_iff hread).1⟩

/-- A manifest in which a lamp comes in a wide version, and a wide lamp in a plain one. -/
def wideLamps : String :=
  "\x7b\"namespace\":\"Home\",\"types\":\x7b" ++
    "\"lamp\":\x7b\"apiVersions\":\x7b\"wide@2\":\x7b\"schema\":\x7b\x7d\x7d\x7d\x7d," ++
    "\"lamp@wide\":\x7b\"apiVersions\":\x7b\"2\":\x7b\"schema\":\x7b\x7d\x7d\x7d\x7d" ++
    "\x7d\x7d"

def wideLampManifest : Manifest :=
  ⟨"Home", [("lamp", [("wide@2", .object [])]), ("lamp@wide", [("2", .object [])])]⟩

/-- Documents of different types and versions may share an id. -/
theorem ids_ambiguous :
    ¬ ∀ (format : Format) (text : String) (manifest : Manifest),
      Manifest.ofText format text = .ok manifest →
        ∀ first ∈ manifest.declarations, ∀ second ∈ manifest.declarations,
          manifest.idOf first = manifest.idOf second →
            first.type = second.type ∧ first.version = second.version := by
  intro hall
  have hdistinct : wideLampManifest.Distinct :=
    ⟨by simp [wideLampManifest], by simp [wideLampManifest]⟩
  have hsorted : wideLampManifest.sorted = wideLampManifest := by cbv
  have hread : Manifest.ofText .json wideLamps = .ok wideLampManifest.sorted :=
    ofText_of_literal (by cbv) hdistinct (by simp [wideLampManifest, declarations, spelled_empty])
      (by decide)
  rw [hsorted] at hread
  have hsame := hall .json wideLamps wideLampManifest hread
    ⟨"lamp", "wide@2", .object []⟩ (by simp [wideLampManifest, declarations])
    ⟨"lamp@wide", "2", .object []⟩ (by simp [wideLampManifest, declarations]) rfl
  exact absurd hsame.1 (by decide)

end Manifest

end ResourceTypes
