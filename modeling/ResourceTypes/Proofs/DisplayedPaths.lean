import ResourceTypes.Proofs.FailurePlaces
import ResourceTypes.Proofs.Path
import ResourceTypes.Proofs.Schema.Breaches

/-!
Displayed paths are unambiguous. Two paths are shown alike only if they are the
root and the member named as the root is shown; and no failure is reported at
such a member, since all that is reported lies under keywords of the language.
-/

namespace ResourceTypes

open ResourceTypes.Language

/-- The paths of failures that are reported for documents, when these are
validated or when they are compiled. -/
inductive Reported : Path → Prop
  | validated {table : TypeTable} {maxDepth : Nat} {document : Option String} {schema : Json}
      {failure : Failure} (proper : schema.Proper)
      (reported : failure ∈ validate table maxDepth document schema) : Reported failure.path
  | compiled {table : TypeTable} {maxDepth : Nat} {document : Option String} {schema : Json}
      {error : CompileError} {failure : Failure} (proper : schema.Proper)
      (refused : compile table maxDepth document schema = .error error)
      (reported : failure ∈ error.toReport) : Reported failure.path

/-- A path is the root, or it begins with a keyword of the language. -/
def Path.Keyed (path : Path) : Prop :=
  ∀ step rest, path = step :: rest → ∃ word, step = .key word ∧ Keyword.classOf word ≠ .unknown

theorem Keyword.classOf_ne_unknown_of_demand {word : String} {demand : Demand}
    (h : demand? word = some demand) : classOf word ≠ .unknown := by
  unfold demand? at h
  split at h
  case h_8 => cases h
  all_goals decide

theorem Keyword.classOf_ne_unknown_of_owner {word : String} {owner : SpelledKind}
    (h : owner? word = some owner) : classOf word ≠ .unknown := by
  unfold owner? at h
  split at h
  case h_5 => cases h
  all_goals decide

section Keyed

variable {document : Json} {path : Path} {hops : Nat} {schema : Json} {members : Members Json}

theorem Path.keyed_root : Path.root.Keyed := nofun

/-- A keyword below a path of this form, and all that is below the keyword, has it too. -/
theorem Path.Keyed.below (h : path.Keyed) {word : String} (hword : Keyword.classOf word ≠ .unknown)
    (more : Path) : Path.Keyed (path.key word ++ more) := by
  intro step rest heq
  cases path with
  | nil =>
      obtain ⟨rfl, -⟩ := List.cons.inj heq
      exact ⟨word, rfl, hword⟩
  | cons first others =>
      obtain ⟨rfl, -⟩ := List.cons.inj heq
      exact h _ others rfl

theorem Path.Keyed.keyword (h : path.Keyed) {word : String}
    (hword : Keyword.classOf word ≠ .unknown) : (path.key word).Keyed := by
  rw [← List.append_nil (path.key word)]
  exact h.below hword []

/-- The member that is shown as the root is lies under no keyword. -/
theorem Path.not_keyed_namesake : ¬ Path.Keyed [.key "(root)"] := by
  intro h
  obtain ⟨word, hword, hclass⟩ := h _ [] rfl
  obtain rfl := Step.key.inj hword
  exact hclass (by decide)

theorem Address.keyed (address : Address) : address.path.Keyed := by
  cases address with
  | nil => exact Path.keyed_root
  | cons hop rest =>
      cases hop with
      | property name => exact Path.keyed_root.below (by decide) (.key name :: path rest)
      | value => exact Path.keyed_root.below (by decide) (path rest)
      | items => exact Path.keyed_root.below (by decide) (path rest)

namespace Language

theorem Place.keyed (h : Place document path hops schema) : path.Keyed := by
  induction h with
  | root => exact Path.keyed_root
  | property around here named ih => exact ih.below (by decide) _
  | value around here ih => exact ih.keyword (by decide)
  | items around here ih => exact ih.keyword (by decide)

theorem KindBreach.keyed {declared : SpelledKind} {finding : Located Violation} (hpath : path.Keyed)
    (h : KindBreach path members declared finding) : finding.path.Keyed := by
  cases h with
  | structural there owned other =>
      exact hpath.keyword (Keyword.classOf_ne_unknown_of_owner owned)
  | validation there validates disallowed => exact hpath.keyword (by simp [validates])
  | enumNotList here allowed other => exact hpath.keyword (by decide)
  | enumEntry here allowed there other => exact hpath.below (by decide) _
  | default here allowed other => exact hpath.keyword (by decide)
  | twoShapes object there typed => exact hpath
  | openProperties object here => exact hpath.keyword (by decide)
  | undeclaredRequired object here there missing => exact hpath.below (by decide) _
  | arrayWithoutItems array absent => exact hpath

theorem DocumentBreach.keyed {finding : Located Violation} (h : DocumentBreach document finding) :
    finding.path.Keyed := by
  rcases h with ⟨-, hroot⟩ | ⟨-, hbreach⟩
  · cases hroot <;> exact Path.keyed_root
  · cases hbreach with
    | kind inPlace spells breach => exact breach.keyed (Address.keyed _)
    | _ => exact Address.keyed _

end Language

theorem Malformation.keyed {limit : Nat} {offence : Located Malformation}
    (h : Shown document (Malformation.Fits limit) offence) : offence.path.Keyed := by
  obtain ⟨path, cause⟩ := offence
  obtain ⟨spot, hmarks, hfits⟩ := h
  cases hmarks with
  | schema place => exact place.keyed
  | keyword place here =>
      cases cause with
      | wrongType keyword demand found =>
          obtain ⟨rfl, -, hdemand, -⟩ := hfits
          exact place.keyed.keyword (Keyword.classOf_ne_unknown_of_demand hdemand)
      | _ => cases hfits
  | entry place here there =>
      cases cause with
      | requiredEntry found =>
          obtain ⟨rfl, -, -⟩ := hfits
          exact place.keyed.below (by decide) _
      | _ => cases hfits

theorem BindingFault.keyed {scope : Binding.Scope} {fault : Located BindingFault}
    (h : Shown document (BindingFault.Fits scope) fault) : fault.path.Keyed := by
  obtain ⟨path, cause⟩ := fault
  obtain ⟨spot, hmarks, hfits⟩ := h
  cases hmarks with
  | schema place => exact place.keyed
  | _ => cases hfits

/-- Whatever a check reports lies at the root or under a keyword. -/
theorem keyed_of_check {table : TypeTable} {limit : Nat} {id : Option String} {error : CompileError}
    (hproper : schema.Proper) (h : check table limit id schema = .error error) {failure : Failure}
    (hfailure : failure ∈ error.toReport) : failure.path.Keyed := by
  rw [check_eq] at h
  split at h
  · next offence hread =>
    obtain rfl := Except.error.inj h
    obtain rfl := List.mem_singleton.1 hfailure
    exact Malformation.keyed (Schema.read_shown hproper hread)
  · next root hread =>
    split at h
    · split at h
      · cases h
      · obtain rfl := Except.error.inj h
        obtain ⟨fault, hfault, rfl⟩ := List.mem_map.1 hfailure
        exact BindingFault.keyed (Binding.faults_shown hproper hread hfault)
    · obtain rfl := Except.error.inj h
      obtain ⟨violation, hviolation, rfl⟩ := List.mem_map.1 hfailure
      exact ((Grammar.mem_violations hproper hread).1 hviolation).keyed

theorem Reported.keyed (h : Reported path) : path.Keyed := by
  cases h with
  | @validated table maxDepth document schema failure hproper hreported =>
      rw [validate] at hreported
      cases hcheck : check table maxDepth document schema with
      | ok root =>
          rw [hcheck] at hreported
          cases hreported
      | error error =>
          rw [hcheck] at hreported
          exact keyed_of_check hproper hcheck hreported
  | @compiled table maxDepth document schema error failure hproper hrefused hreported =>
      rcases compile_eq table maxDepth document schema with
        ⟨_, _, -, -, -, hok⟩ | ⟨other, hcheck, hother⟩
      · cases hrefused.symm.trans hok
      · obtain rfl := Except.error.inj (hrefused.symm.trans hother)
        exact keyed_of_check hproper hcheck hreported

end Keyed

/-- Paths have the same displayed form exactly if they are the same path, but for
the root and the member `(root)`, whichever characters are hidden between quotes;
and of the paths that are reported no two are shown alike. -/
theorem displayed_apart (hidden : Char → Bool) (path other : Path) :
    (path.displayWith hidden = other.displayWith hidden ↔
        path = other ∨ (path = .root ∧ other = [.key "(root)"]) ∨
          (path = [.key "(root)"] ∧ other = .root)) ∧
      (Reported path → Reported other →
        (path.displayWith hidden = other.displayWith hidden ↔ path = other)) := by
  refine ⟨Path.displayWith_inj_iff, fun hpath hother => ?_⟩
  rw [Path.displayWith_inj_iff]
  constructor
  · rintro (rfl | ⟨-, rfl⟩ | ⟨rfl, -⟩)
    · rfl
    · exact absurd hother.keyed Path.not_keyed_namesake
    · exact absurd hpath.keyed Path.not_keyed_namesake
  · exact Or.inl

/-- An object with two properties that lack a type, one of them named as the place
of the other would be shown without quotes. -/
def chest : Json :=
  .object [("type", .string "object"), ("properties", .object [
    ("lid.properties.lock", .object []),
    ("lid", .object [("type", .string "object"), ("properties", .object [
      ("lock", .object [])])])])]

theorem displayed_apart_chest :
    Reported [.key "properties", .key "lid.properties.lock"] ∧
      Reported [.key "properties", .key "lid", .key "properties", .key "lock"] ∧
      Path.display [.key "properties", .key "lid.properties.lock"] ≠
        Path.display [.key "properties", .key "lid", .key "properties", .key "lock"] := by
  have hproper : chest.Proper := by
    simp [chest, Json.Proper, Json.ProperMembers]
  have hreport : validate ⟨[], []⟩ 64 none chest =
      [⟨[.key "properties", .key "lid.properties.lock"], .typeRequired,
          Violation.message .untyped⟩,
        ⟨[.key "properties", .key "lid", .key "properties", .key "lock"], .typeRequired,
          Violation.message .untyped⟩] := rfl
  have hdotted : Reported [.key "properties", .key "lid.properties.lock"] :=
    .validated hproper (hreport ▸ List.mem_cons_self)
  have hnested : Reported [.key "properties", .key "lid", .key "properties", .key "lock"] :=
    .validated hproper (hreport ▸ List.mem_cons_of_mem _ List.mem_cons_self)
  refine ⟨hdotted, hnested, fun hsame => ?_⟩
  have heq := ((displayed_apart Text.isHidden _ _).2 hdotted hnested).1 hsame
  exact absurd heq (by decide)

end ResourceTypes
