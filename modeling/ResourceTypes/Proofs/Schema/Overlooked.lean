import ResourceTypes.Proofs.Schema.Context
import ResourceTypes.Proofs.Schema.FirstOffence

/-!
Keywords whose values are not looked into. A schema with another value there is
refused alike, for the same reason and at the same place.
-/

namespace ResourceTypes

/-- Two runs complain alike if their first steps do, and so does what follows. -/
theorem complaint?_bind {ε α β γ δ : Type} {step : Except ε α} {step' : Except ε β}
    {next : α → Except ε γ} {next' : β → Except ε δ} (hstep : complaint? step = complaint? step')
    (hnext : ∀ value value', step = .ok value → step' = .ok value' →
      complaint? (next value) = complaint? (next' value')) :
    complaint? (step >>= next) = complaint? (step' >>= next') := by
  cases step with
  | ok value =>
      cases step' with
      | ok value' => exact hnext value value' rfl rfl
      | error complaint => cases hstep
  | error complaint =>
      cases step' with
      | ok value => cases hstep
      | error other => exact hstep

theorem complaint?_bind_ok {ε α β : Type} (step : Except ε α) (f : α → β) :
    complaint? (step >>= fun value => .ok (f value)) = complaint? step := by
  cases step <;> rfl

namespace Schema

variable {limit depth : Nat} {path : Path} {name : String} {value value' : Json}

/-- A member is read without a look at the node so far, but for its path; what is
read is put into the node, which keeps its path. -/
def ReadApart (limit depth : Nat) (path : Path) (name : String) (value : Json) : Prop :=
  ∃ (α : Type) (step : Except (Located Malformation) α) (update : α → SchemaNode → SchemaNode),
    (∀ result node, (update result node).path = node.path) ∧
      ∀ rest node, node.path = path → readMembers limit depth ((name, value) :: rest) node =
        step >>= fun result => readMembers limit depth rest (update result node)

theorem ReadApart.refused {demand : Demand} (h : ∀ rest node, node.path = path →
    readMembers limit depth ((name, value) :: rest) node =
      .error ⟨path.key name, .wrongType name demand value⟩) :
    ReadApart limit depth path name value :=
  ⟨Unit, .error ⟨path.key name, .wrongType name demand value⟩, fun _ node => node,
    fun _ _ => rfl, h⟩

/-- A keyword that holds no schema is read without a look at the keywords so far. -/
theorem exists_keyword_update (path : Path) (name : String) (value : Json) :
    ∃ (α : Type) (step : Except (Located Malformation) α) (update : α → Keywords → Keywords),
      ∀ keywords, readKeyword path keywords name value =
        step >>= fun result => .ok (update result keywords) := by
  unfold readKeyword
  split
  · exact ⟨Unit, .ok (), fun _ keywords => { keywords with type := some (readType value) },
      fun _ => rfl⟩
  · exact ⟨_, readAs .text Json.text? path "$ref" value,
      fun id keywords => { keywords with reference := some (.unbound id) }, fun _ => rfl⟩
  · exact ⟨_, readRequired path value,
      fun names keywords => { keywords with required := some names }, fun _ => rfl⟩
  · exact ⟨_, readAs .flag Json.flag? path "readOnly" value,
      fun flag keywords => { keywords with readOnly := some flag }, fun _ => rfl⟩
  · exact ⟨_, readAs .text Json.text? path "description" value,
      fun text keywords => { keywords with description := some text }, fun _ => rfl⟩
  · split
    · exact ⟨Unit, .ok (),
        fun _ keywords => { keywords with polymorphism := keywords.polymorphism ++ [name] },
        fun _ => rfl⟩
    · exact ⟨Unit, .ok (),
        fun _ keywords => { keywords with validation := keywords.validation.insert name value },
        fun _ => rfl⟩
    · exact ⟨Unit, .ok (),
        fun _ keywords => { keywords with unknown := keywords.unknown ++ [name] }, fun _ => rfl⟩

theorem readApart (limit depth : Nat) (path : Path) (name : String) (value : Json) :
    ReadApart limit depth path name value := by
  -- the reader needs the node only for its path, and to put into it what was read
  by_cases hname : name = "properties"
  · subst hname
    cases value with
    | object schemas =>
        refine ⟨_, readProperties limit (path.key "properties") (depth + 1) schemas,
          fun properties node => { node with properties := some properties }, fun _ _ => rfl, ?_⟩
        rintro rest node rfl
        rw [readMembers]
    | _ => exact ReadApart.refused fun rest node hpath => by simp only [readMembers, hpath]; rfl
  by_cases hname' : name = "additionalProperties"
  · subst hname'
    cases value with
    | bool flag =>
        refine ⟨Unit, .ok (), fun _ node => { node with additional := some (.allowed flag) },
          fun _ _ => rfl, fun rest node _ => ?_⟩
        rw [readMembers]
        rfl
    | object fields =>
        refine ⟨_, readNode limit (path.key "additionalProperties") (depth + 1) (.object fields),
          fun typed node => { node with additional := some (.typed typed) }, fun _ _ => rfl, ?_⟩
        rintro rest node rfl
        rw [readMembers]
    | _ => exact ReadApart.refused fun rest node hpath => by simp only [readMembers, hpath]; rfl
  by_cases hname'' : name = "items"
  · subst hname''
    cases value with
    | object fields =>
        refine ⟨_, readNode limit (path.key "items") (depth + 1) (.object fields),
          fun items node => { node with items := some items }, fun _ _ => rfl, ?_⟩
        rintro rest node rfl
        rw [readMembers]
    | _ => exact ReadApart.refused fun rest node hpath => by simp only [readMembers, hpath]; rfl
  obtain ⟨α, step, update, hupdate⟩ := exists_keyword_update path name value
  refine ⟨α, step, fun result node => { node with keywords := update result node.keywords },
    fun _ _ => rfl, ?_⟩
  rintro rest node rfl
  simp only [readMembers, hupdate]
  cases step <;> rfl

/-- Members are refused alike at nodes of the same path. -/
theorem complaint?_readMembers (members : List (String × Json)) {node node' : SchemaNode}
    (hpath : node'.path = node.path) :
    complaint? (readMembers limit depth members node) =
      complaint? (readMembers limit depth members node') := by
  induction members generalizing node node' with
  | nil => rfl
  | cons pair rest ih =>
      obtain ⟨α, step, update, hupdate, hread⟩ := readApart limit depth node.path pair.1 pair.2
      rw [hread rest node rfl, hread rest node' hpath]
      refine complaint?_bind rfl fun result result' hresult hresult' => ?_
      obtain rfl := Except.ok.inj (hresult.symm.trans hresult')
      apply ih
      rw [hupdate, hupdate, hpath]

/-- One member in another's place makes no difference among others if it makes none alone. -/
theorem complaint?_readMembers_around {before after : List (String × Json)}
    (hmember : ∀ node, complaint? (readMembers limit depth [(name, value)] node) =
      complaint? (readMembers limit depth [(name, value')] node)) (node : SchemaNode) :
    complaint? (readMembers limit depth (before ++ (name, value) :: after) node) =
      complaint? (readMembers limit depth (before ++ (name, value') :: after) node) := by
  induction before generalizing node with
  | nil =>
      obtain ⟨α, step, update, hupdate, hread⟩ := readApart limit depth node.path name value
      obtain ⟨β, step', update', hupdate', hread'⟩ := readApart limit depth node.path name value'
      have hstep : complaint? step = complaint? step' := by
        have hsame := hmember node
        rw [hread [] node rfl, hread' [] node rfl] at hsame
        simpa only [readMembers, complaint?_bind_ok] using hsame
      rw [List.nil_append, List.nil_append, hread after node rfl, hread' after node rfl]
      refine complaint?_bind hstep fun result result' _ _ => complaint?_readMembers after ?_
      rw [hupdate, hupdate']
  | cons pair rest ih =>
      obtain ⟨α, step, update, -, hread⟩ := readApart limit depth node.path pair.1 pair.2
      rw [List.cons_append, List.cons_append, hread _ node rfl, hread _ node rfl]
      refine complaint?_bind rfl fun result result' hresult hresult' => ?_
      obtain rfl := Except.ok.inj (hresult.symm.trans hresult')
      exact ih (update result node)

/-- A keyword that asks for no type is never refused. -/
theorem complaint?_overlooked (h : Keyword.demand? name = none) (node : SchemaNode) :
    complaint? (readMembers limit depth [(name, value)] node) = none := by
  have hproperties : name ≠ "properties" := by
    rintro rfl
    cases h
  have hadditional : name ≠ "additionalProperties" := by
    rintro rfl
    cases h
  have hitems : name ≠ "items" := by
    rintro rfl
    cases h
  simp only [readMembers]
  rw [complaint?_bind_ok]
  unfold readKeyword
  split
  case h_1 => rfl
  case h_6 => split <;> rfl
  -- the other keywords with a part of their own do ask for a type
  all_goals cases h

theorem complaint?_readProperties {left right : List (String × Json)} {schema schema' : Json}
    (h : complaint? (readNode limit (path.key name) depth schema) =
      complaint? (readNode limit (path.key name) depth schema')) :
    complaint? (readProperties limit path depth (left ++ (name, schema) :: right)) =
      complaint? (readProperties limit path depth (left ++ (name, schema') :: right)) := by
  induction left with
  | nil =>
      rw [List.nil_append, List.nil_append, readProperties, readProperties]
      refine complaint?_bind h fun node node' _ _ => ?_
      rw [complaint?_bind_ok, complaint?_bind_ok]
  | cons pair rest ih =>
      obtain ⟨other, value⟩ := pair
      rw [List.cons_append, List.cons_append, readProperties, readProperties]
      refine complaint?_bind rfl fun node node' _ _ => ?_
      rw [complaint?_bind_ok, complaint?_bind_ok, ih]

/-- What fills a hole is refused for the schema around it. -/
theorem complaint?_fill (frame : Frame) {members members' : Members Json}
    (h : ∀ path, complaint? (readNode limit path (depth + 1) (.object members)) =
      complaint? (readNode limit path (depth + 1) (.object members'))) :
    complaint? (readNode limit path depth (frame.fill (.object members))) =
      complaint? (readNode limit path depth (frame.fill (.object members'))) := by
  obtain ⟨before, slot, after⟩ := frame
  rw [Frame.fill, Frame.fill, readNode, readNode]
  split
  · rfl
  · apply complaint?_readMembers_around
    intro node
    cases slot with
    | property left name right =>
        simp only [Slot.keyword, Slot.fill, readMembers]
        rw [complaint?_bind_ok, complaint?_bind_ok]
        exact complaint?_readProperties (h _)
    | value | items =>
        simp only [Slot.keyword, Slot.fill, readMembers]
        rw [complaint?_bind_ok, complaint?_bind_ok]
        exact h _

/-- The value of a keyword that asks for no type can be exchanged anywhere in a
document, and the document is refused alike. -/
theorem complaint?_exchanged (frames : List Frame) {before after : Members Json}
    (h : Keyword.demand? name = none) :
    complaint? (readNode limit path depth
        (frames.foldr Frame.fill (.object (before ++ (name, value) :: after)))) =
      complaint? (readNode limit path depth
        (frames.foldr Frame.fill (.object (before ++ (name, value') :: after)))) := by
  induction frames generalizing path depth with
  | nil =>
      rw [List.foldr_nil, List.foldr_nil, readNode, readNode]
      split
      · rfl
      · apply complaint?_readMembers_around
        intro node
        rw [complaint?_overlooked h, complaint?_overlooked h]
  | cons frame rest ih =>
      obtain ⟨inner, hinner⟩ := Frame.exists_object rest (before ++ (name, value) :: after)
      obtain ⟨inner', hinner'⟩ := Frame.exists_object rest (before ++ (name, value') :: after)
      rw [List.foldr_cons, List.foldr_cons]
      rw [hinner, hinner'] at ih ⊢
      exact complaint?_fill frame fun path => ih

end Schema

end ResourceTypes
