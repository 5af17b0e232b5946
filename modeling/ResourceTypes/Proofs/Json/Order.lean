import ResourceTypes.Proofs.Json.Place

/-!
The places of a JSON value in document order: a value before what it holds,
members as they are written, and items by their positions.
-/

namespace ResourceTypes

namespace Json

mutual

/-- The paths to a value and to everything in it, depth first. -/
def places : Json → List Path
  | .array items => .root :: itemPlaces 0 items
  | .object members => .root :: memberPlaces members
  | _ => [.root]

/-- The paths into items that stand from a position on. -/
def itemPlaces : Nat → List Json → List Path
  | _, [] => []
  | position, item :: rest =>
    item.places.map (.index position :: ·) ++ itemPlaces (position + 1) rest

def memberPlaces : List (String × Json) → List Path
  | [] => []
  | (name, value) :: rest => value.places.map (.key name :: ·) ++ memberPlaces rest

end

theorem places_eq_cons (value : Json) : ∃ below, value.places = .root :: below := by
  cases value with
  | array items => exact ⟨_, by rw [places]⟩
  | object members => exact ⟨_, by rw [places]⟩
  | _ => exact ⟨[], by simp [places]⟩

/-! ### What is first

A search takes the places in their order, so what it finds among the places of
a member or an item comes before all that is found behind it. -/

open Classical in
/-- The first of some places that is such a place. -/
noncomputable def first? (Such : Path → Prop) (places : List Path) : Option Path :=
  places.find? (decide <| Such ·)

variable {Such : Path → Prop}

theorem first?_eq_some_iff {places : List Path} {path : Path} :
    first? Such places = some path ↔
      ∃ before after, places = before ++ path :: after ∧ Such path ∧
        ∀ place ∈ before, ¬ Such place := by
  simp only [first?, List.find?_eq_some_iff_append, decide_eq_true_eq, Bool.not_eq_true',
    decide_eq_false_iff_not]
  constructor
  · rintro ⟨hpath, before, after, hplaces, hbefore⟩
    exact ⟨before, after, hplaces, hpath, hbefore⟩
  · rintro ⟨before, after, hplaces, hpath, hbefore⟩
    exact ⟨hpath, before, after, hplaces, hbefore⟩

theorem first?_eq_none_iff {places : List Path} :
    first? Such places = none ↔ ∀ place ∈ places, ¬ Such place := by
  simp [first?]

/-- A value that is such a place itself is the first among its places. -/
theorem first?_places_of_root (value : Json) (h : Such .root) :
    first? Such value.places = some .root := by
  obtain ⟨below, hplaces⟩ := value.places_eq_cons
  rw [hplaces, first?, List.find?_cons_of_pos (by simpa using h)]

theorem first?_places_object {members : List (String × Json)} (h : ¬ Such .root) :
    first? Such (Json.object members).places = first? Such (memberPlaces members) := by
  rw [places, first?, List.find?_cons_of_neg (by simpa using h), first?]

theorem first?_places_array {items : List Json} (h : ¬ Such .root) :
    first? Such (Json.array items).places = first? Such (itemPlaces 0 items) := by
  rw [places, first?, List.find?_cons_of_neg (by simpa using h), first?]

theorem first?_append (places others : List Path) :
    first? Such (places ++ others) = (first? Such places).or (first? Such others) :=
  List.find?_append

theorem first?_map (step : Step) (places : List Path) :
    first? Such (places.map (step :: ·)) =
      (first? (fun path => Such (step :: path)) places).map (step :: ·) :=
  List.find?_map ..

/-- A search through members goes through the first before the others. -/
theorem first?_memberPlaces_cons (name : String) (value : Json) (rest : List (String × Json)) :
    first? Such (memberPlaces ((name, value) :: rest)) =
      ((first? (fun path => Such (.key name :: path)) value.places).map (.key name :: ·)).or
        (first? Such (memberPlaces rest)) := by
  rw [memberPlaces, first?_append, first?_map]

theorem first?_itemPlaces_cons (position : Nat) (item : Json) (rest : List Json) :
    first? Such (itemPlaces position (item :: rest)) =
      ((first? (fun path => Such (.index position :: path)) item.places).map
          (.index position :: ·)).or (first? Such (itemPlaces (position + 1) rest)) := by
  rw [itemPlaces, first?_append, first?_map]

end Json

end ResourceTypes
