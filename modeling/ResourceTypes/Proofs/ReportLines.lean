import ResourceTypes.Proofs.ReportedCycles
import ResourceTypes.Proofs.Text.Lines

/-!
The lines of a report. A failure shows values of the document as JSON, and the
names in its path between quotes if they could be taken for several steps; all
other names it shows as they are. So the text of a report has one line for each
failure, and one more for each line feed in a name that is shown as it is.
-/

namespace ResourceTypes

open ResourceTypes.Language Text

/-! ### Paths and messages -/

/-- The name in a step, unless it is shown between quotes. -/
def Step.bareNames : Step → List String
  | .index _ => []
  | .key name => if Path.needsQuotes name then [] else [name]

/-- The names in a path that are shown without quotes. -/
def Path.bareNames (path : Path) : List String := path.flatMap Step.bareNames

def Malformation.names : Malformation → List String
  | .wrongType keyword _ _ => [keyword]
  | _ => []

def Violation.names : Violation → List String
  | .polymorphic keyword => [keyword]
  | .unknownKeyword name => [name]
  | .notExclusive others => others
  | .misplaced keyword _ => [keyword]
  | .undeclaredRequired name => [name]
  | _ => []

def BindingFault.names : BindingFault → List String
  | .disallowed id => [id]
  | .selfReference id => [id, id]
  | .unregistered id => [id]
  | .cycle chain => chain

def Defect.names : Defect → List String
  | .unboundReference id => [id]
  | _ => []

section Messages

theorem Json.breaks_typeName (value : Json) : breaks value.typeName = 0 := by
  cases value <;> exact breaks_ofList (by decide)

theorem Demand.breaks_wording (demand : Demand) : breaks demand.wording = 0 := by
  cases demand <;> exact breaks_ofList (by decide)

theorem Kind.breaks_name (kind : Kind) : breaks kind.name = 0 := by
  cases kind with
  | scalar kind => cases kind <;> exact breaks_ofList (by decide)
  | _ => exact breaks_ofList (by decide)

theorem Rule.breaks_name (rule : Rule) : breaks rule.name = 0 := by
  cases rule <;> exact breaks_ofList (by decide)

theorem Malformation.breaks_message (cause : Malformation) :
    breaks cause.message = totalBreaks cause.names := by
  cases cause with
  | tooDeep limit =>
      exact (breaks_between (by decide) (by decide) _).trans (breaks_toString_nat limit)
  | notSchema found | requiredEntry found =>
      exact (breaks_behind (by decide) _).trans (Json.breaks_typeName found)
  | wrongType keyword demand found =>
      show breaks (keyword ++ " must be " ++ demand.wording ++ ", found " ++ found.typeName) = _
      rw [breaks_append, breaks_before, breaks_append, breaks_before, Demand.breaks_wording,
        Json.breaks_typeName]
      · rfl
      all_goals decide

theorem Violation.breaks_message (cause : Violation) :
    breaks cause.message = totalBreaks cause.names := by
  -- the fixed words around names and values are told as lists of characters by unification
  cases cause with
  | polymorphic name | unknownKeyword name | undeclaredRequired name =>
      exact breaks_between (by decide) (by decide) name
  | notExclusive others =>
      exact (breaks_behind (by decide) _).trans (breaks_intercalate rfl others)
  | rootKind kind =>
      exact (breaks_between (by decide) (by decide) _).trans (Kind.breaks_name kind)
  | unsupportedType value =>
      exact (breaks_between (by decide) (by decide) _).trans (Json.breaks_text value)
  | misplaced keyword kind =>
      refine (breaks_before (by decide) _).trans ?_
      rw [breaks_append, breaks_between, Kind.breaks_name]
      · rfl
      all_goals decide
  | enumEntry value kind | defaultValue value kind =>
      refine (breaks_before (by decide) _).trans ?_
      rw [breaks_append, breaks_between, Json.breaks_text, Kind.breaks_name]
      · rfl
      all_goals decide
  | _ => exact breaks_ofList (by decide)

theorem BindingFault.breaks_message (cause : BindingFault) :
    breaks cause.message = totalBreaks cause.names := by
  cases cause with
  | disallowed id | unregistered id => exact breaks_between (by decide) (by decide) id
  | selfReference id =>
      refine (breaks_append _ id).trans ?_
      rw [breaks_between]
      · rfl
      all_goals decide
  | cycle chain => exact (breaks_behind (by decide) _).trans (breaks_intercalate rfl chain)

theorem Defect.breaks_message (cause : Defect) :
    breaks cause.message = totalBreaks cause.names := by
  cases cause with
  | unboundReference id => exact breaks_between (by decide) (by decide) id
  | _ => exact breaks_ofList (by decide)

end Messages

section Paths

theorem Path.breaks_showStep (hidden : Char → Bool) (first : Bool) (step : Step) :
    breaks (showStep hidden first step) = totalBreaks step.bareNames := by
  cases step with
  | index position =>
      exact (breaks_between (by decide) (by decide) _).trans (breaks_toString_nat position)
  | key name =>
      by_cases hquotes : needsQuotes name = true
      · rw [showStep, if_pos hquotes, Step.bareNames, if_pos hquotes]
        exact (breaks_between (by decide) (by decide) _).trans (breaks_quote hidden name)
      · rw [showStep, if_neg hquotes, Step.bareNames, if_neg hquotes]
        cases first with
        | true => rfl
        | false => exact breaks_behind (by decide) name

/-- A path breaks the line only at names that are shown without quotes. -/
theorem Path.breaks_display (path : Path) : breaks path.display = totalBreaks path.bareNames := by
  cases path with
  | nil => exact breaks_ofList (by decide)
  | cons step rest =>
      rw [display, displayWith, breaks_append, breaks_join, breaks_showStep,
        totalBreaks_map (breaks_showStep _ _), ← totalBreaks_append, ← List.flatMap_cons,
        ← bareNames]

end Paths

/-! ### Failures and reports -/

/-- A cause whose message breaks the line only at names that it shows as they are. -/
class Naming (α : Type) [Cause α] where
  names : α → List String
  breaks_message (cause : α) : breaks (Cause.message cause) = totalBreaks (names cause)

instance : Naming Malformation := ⟨Malformation.names, Malformation.breaks_message⟩

instance : Naming Violation := ⟨Violation.names, Violation.breaks_message⟩

instance : Naming BindingFault := ⟨BindingFault.names, BindingFault.breaks_message⟩

instance : Naming Defect := ⟨Defect.names, Defect.breaks_message⟩

/-- The names that the failure of a cause at a place shows as they are. -/
def Located.names {α : Type} [Cause α] [Naming α] (located : Located α) : List String :=
  located.path.bareNames ++ Naming.names located.cause

def CompileError.names : CompileError → List String
  | .malformed offence => offence.names
  | .ungrammatical violations => violations.flatMap Located.names
  | .unbound faults => faults.flatMap Located.names
  | .defective defect => defect.names

/-- The names that the failures of a schema show as they are, one after another. -/
def shownNames (table : TypeTable) (maxDepth : Nat) (document : Option String) (schema : Json) :
    List String :=
  match check table maxDepth document schema with
  | .ok _ => []
  | .error error => error.names

section Reports

theorem Failure.breaks_text (failure : Failure) :
    breaks failure.text = totalBreaks failure.path.bareNames + breaks failure.message := by
  rw [text, breaks_append, breaks_before (by decide), breaks_append, breaks_before (by decide),
    Path.breaks_display, Rule.breaks_name, Nat.add_zero]

theorem Located.breaks_text {α : Type} [Cause α] [Naming α] (located : Located α) :
    breaks located.failure.text = totalBreaks located.names := by
  rw [Failure.breaks_text, names, totalBreaks_append, ← Naming.breaks_message]
  rfl

theorem totalBreaks_failures {α : Type} [Cause α] [Naming α] (causes : List (Located α)) :
    totalBreaks ((causes.map Located.failure).map Failure.text) =
      totalBreaks (causes.flatMap Located.names) := by
  rw [List.map_map]
  exact totalBreaks_map Located.breaks_text causes

theorem CompileError.totalBreaks_toReport (error : CompileError) :
    totalBreaks (error.toReport.map Failure.text) = totalBreaks error.names := by
  cases error with
  | malformed offence => exact (totalBreaks_singleton _).trans offence.breaks_text
  | ungrammatical violations => exact totalBreaks_failures violations
  | unbound faults => exact totalBreaks_failures faults
  | defective defect => exact (totalBreaks_singleton _).trans defect.breaks_text

theorem totalBreaks_validate (table : TypeTable) (maxDepth : Nat) (document : Option String)
    (schema : Json) : totalBreaks ((validate table maxDepth document schema).map Failure.text) =
      totalBreaks (shownNames table maxDepth document schema) := by
  rw [validate, shownNames]
  cases check table maxDepth document schema with
  | ok root => rfl
  | error error => exact error.totalBreaks_toReport

theorem Report.margin_ne_empty (failure : Failure) : "  " ++ failure.text ≠ "" := by simp

/-- The lines of a report are those of its failures, in their order. -/
theorem Report.lines_text (report : Report) :
    lines report.text = report.flatMap fun failure => lines ("  " ++ failure.text) := by
  rw [text, lines_intercalate (List.forall_mem_map.2 fun failure _ => margin_ne_empty failure),
    List.flatMap_map]

theorem Report.length_lines_text (report : Report) :
    (lines report.text).length = report.length + totalBreaks (report.map Failure.text) := by
  rw [lines_text]
  induction report with
  | nil => rfl
  | cons failure rest ih =>
      rw [List.flatMap_cons, List.length_append, ih, length_lines (margin_ne_empty failure),
        breaks_behind (by decide), List.length_cons, List.map_cons, totalBreaks]
      omega

/-- Without line feeds in its failures, a report has a line for each of them. -/
theorem Report.lines_eq_map {report : Report} (h : totalBreaks (report.map Failure.text) = 0) :
    lines report.text = report.map fun failure => "  " ++ failure.text := by
  rw [totalBreaks_eq_zero_iff, List.forall_mem_map] at h
  rw [lines_text, List.map_eq_flatMap]
  refine List.flatMap_congr fun failure hfailure => ?_
  refine lines_eq_singleton (margin_ne_empty failure) ?_
  rw [breaks_behind (by decide), h failure hfailure]

end Reports

/-! ### Where the names come from -/

/-- The names that a failure of a schema can show as they are: those that its
author gives to keywords, properties and references, properties only if they are
shown without quotes, and the ids of the document and of registered references. -/
inductive Nameable (scope : Binding.Scope) (schema : Json) : String → Prop
  | keyword {path : Path} {hops : Nat} {members : Members Json} {name : String}
      (place : Place schema path hops (.object members)) (here : name ∈ Members.names members) :
      Nameable scope schema name
  | property {path : Path} {hops : Nat} {members schemas : Members Json} {name : String}
      (place : Place schema path hops (.object members))
      (here : members.get? "properties" = some (.object schemas))
      (named : name ∈ Members.names schemas) (bare : Path.needsQuotes name = false) :
      Nameable scope schema name
  | required {path : Path} {hops : Nat} {members : Members Json} {entries : List Json}
      {name : String} (place : Place schema path hops (.object members))
      (here : members.get? "required" = some (.array entries))
      (there : Json.string name ∈ entries) : Nameable scope schema name
  | reference {path : Path} {hops : Nat} {members : Members Json} {id : String}
      (place : Place schema path hops (.object members))
      (here : members.get? "$ref" = some (.string id)) : Nameable scope schema id
  | document {id : String} (own : scope.document = some id) : Nameable scope schema id
  | registered {source target : String} (refers : scope.table.RefersTo source target) :
      Nameable scope schema target

section Origin

variable {scope : Binding.Scope} {schema value : Json} {path : Path} {hops : Nat} {name : String}

theorem Path.mem_bareNames_key {other : String} (h : name ∈ (path.key other).bareNames) :
    name ∈ path.bareNames ∨ (name = other ∧ needsQuotes other = false) := by
  rw [bareNames, key, List.flatMap_append, List.mem_append] at h
  refine h.imp_right fun hlast => ?_
  by_cases hquotes : needsQuotes other = true
  · simp [Step.bareNames, hquotes] at hlast
  · simpa [Step.bareNames, hquotes] using hlast

theorem Path.bareNames_index (path : Path) (position : Nat) :
    (path.index position).bareNames = path.bareNames := by
  simp [bareNames, index, Step.bareNames]

/-- A step to a keyword adds a name that the schema around it writes. -/
theorem Language.Place.nameable_key {members : Members Json} {word : String}
    (around : Place schema path hops (.object members)) (here : members.get? word = some value)
    (hpath : name ∈ path.bareNames → Nameable scope schema name)
    (hname : name ∈ (path.key word).bareNames) : Nameable scope schema name := by
  rcases Path.mem_bareNames_key hname with hname | ⟨rfl, -⟩
  · exact hpath hname
  · exact .keyword around (Members.mem_names_of_get? here)

theorem Language.Place.nameable (h : Place schema path hops value) (hname : name ∈ path.bareNames) :
    Nameable scope schema name := by
  induction h with
  | root => cases hname
  | property around here named ih =>
      rcases Path.mem_bareNames_key hname with hname | ⟨rfl, hbare⟩
      · exact around.nameable_key here ih hname
      · exact .property around here (Members.mem_names_of_get? named) hbare
  | value around here ih | items around here ih => exact around.nameable_key here ih hname

theorem Language.Marks.nameable {spot : Spot} (h : Marks schema path spot)
    (hname : name ∈ path.bareNames) : Nameable scope schema name := by
  cases h with
  | schema place => exact place.nameable hname
  | keyword place here => exact place.nameable_key here place.nameable hname
  | entry place here there =>
      rw [Path.bareNames_index] at hname
      exact place.nameable_key here place.nameable hname

/-- What a violation names stands at the spot that it is reported at. -/
theorem Violation.Fits.nameable {violation : Violation} {spot : Spot} (h : violation.Fits spot)
    (hmarks : Marks schema path spot) (hname : name ∈ violation.names) :
    Nameable scope schema name := by
  cases violation with
  | polymorphic keyword | unknownKeyword keyword =>
      obtain rfl := List.mem_singleton.1 hname
      cases hmarks with
      | @schema _ hops value place =>
          cases value with
          | object members => exact .keyword place h.1
          | _ => cases h
      | _ => cases h
  | notExclusive others =>
      cases hmarks with
      | @schema _ hops value place =>
          cases value with
          | object members => exact .keyword place (h.2.2 name hname).1
          | _ => cases h
      | _ => cases h
  | misplaced keyword kind =>
      obtain rfl := List.mem_singleton.1 hname
      cases hmarks with
      | keyword place here =>
          obtain ⟨rfl, -⟩ := h
          exact .keyword place (Members.mem_names_of_get? here)
      | _ => cases h
  | undeclaredRequired missing =>
      obtain rfl := List.mem_singleton.1 hname
      cases hmarks with
      | entry place here there =>
          obtain ⟨rfl, rfl, -⟩ := h
          exact .required place here (List.mem_of_getElem? there)
      | _ => cases h
  | _ => cases hname

theorem Malformation.Fits.nameable {limit : Nat} {malformation : Malformation} {spot : Spot}
    (h : malformation.Fits limit spot) (hmarks : Marks schema path spot)
    (hname : name ∈ malformation.names) : Nameable scope schema name := by
  cases malformation with
  | wrongType keyword demand found =>
      obtain rfl := List.mem_singleton.1 hname
      cases hmarks with
      | keyword place here =>
          obtain ⟨rfl, -⟩ := h
          exact .keyword place (Members.mem_names_of_get? here)
      | _ => cases h
  | _ => cases hname

/-- Behind its first id, a chain of references leads to ids that types refer to. -/
theorem TypeTable.exists_refersTo {table : TypeTable} {first : String} {rest : List String}
    (h : (first :: rest).IsChain table.RefersTo) (hname : name ∈ rest) :
    ∃ source, table.RefersTo source name := by
  induction rest generalizing first with
  | nil => cases hname
  | cons next rest ih =>
      obtain ⟨hstep, hrest⟩ := List.isChain_cons_cons.1 h
      rcases List.mem_cons.1 hname with rfl | hname
      · exact ⟨first, hstep⟩
      · exact ih hrest hname

/-- A way round leads through the document, the id of the reference, and ids that
types refer to. -/
theorem Binding.Circuit.nameable {id : String} {chain : List String} (h : Circuit scope id chain)
    (hid : Nameable scope schema id) (hname : name ∈ chain) : Nameable scope schema name := by
  cases h with
  | @throughDocument document inner own distinct steps =>
      rcases List.mem_cons.1 hname with rfl | hname
      · exact .document own
      rcases List.mem_cons.1 hname with rfl | hname
      · exact hid
      obtain ⟨source, hrefers⟩ := TypeTable.exists_refersTo steps hname
      exact .registered hrefers
  | @amongTypes first inner elsewhere distinct steps leads =>
      -- the first id is met again at the end, behind the first step
      have hbehind : name ∈ inner ++ [first] := by
        rcases List.mem_cons.1 hname with rfl | hname
        · exact List.mem_append_right _ List.mem_cons_self
        · exact hname
      obtain ⟨source, hrefers⟩ := TypeTable.exists_refersTo steps hbehind
      exact .registered hrefers

theorem BindingFault.Fits.nameable {fault : BindingFault} {spot : Spot}
    (h : fault.Fits scope spot) (hmarks : Marks schema path spot) (hname : name ∈ fault.names) :
    Nameable scope schema name := by
  obtain ⟨hops, members, rfl, id, hid, hverdict⟩ := h.schema
  have hreference : Nameable scope schema id := by
    cases hmarks with
    | schema place => exact .reference place hid
  have hexact := Binding.verdict_exact scope id
  rw [hverdict] at hexact
  cases hexact with
  | cycle known inside other registered leads back chain =>
      exact (Binding.circuit_of_verdict hverdict).nameable hreference hname
  | _ =>
      obtain rfl : name = id := by simpa [BindingFault.names] using hname
      exact hreference

/-- A failure takes its names from its path and from the spot that the path leads to. -/
theorem Shown.nameable {α : Type} [Cause α] [Naming α] {Fits : α → Spot → Prop}
    {located : Located α} (h : Shown schema Fits located)
    (hcause : ∀ spot, Fits located.cause spot → Marks schema located.path spot →
      name ∈ Naming.names located.cause → Nameable scope schema name)
    (hname : name ∈ located.names) : Nameable scope schema name := by
  obtain ⟨spot, hmarks, hfits⟩ := h
  rcases List.mem_append.1 hname with hname | hname
  · exact hmarks.nameable hname
  · exact hcause spot hfits hmarks hname

/-- Whatever a failure of a schema shows as it is, is written in the schema, is the
id of the document, or is the target of a registered reference. -/
theorem nameable_of_mem_shownNames {table : TypeTable} {maxDepth : Nat} {document : Option String}
    (hproper : schema.Proper) (hname : name ∈ shownNames table maxDepth document schema) :
    Nameable ⟨table, document⟩ schema name := by
  rw [shownNames, check_eq] at hname
  split at hname
  · cases hname
  · next error herror =>
    split at herror
    · next offence hread =>
      obtain rfl := Except.error.inj herror
      exact (Schema.read_shown hproper hread).nameable (fun _ => Malformation.Fits.nameable) hname
    · next root hread =>
      split at herror
      · split at herror
        · cases herror
        · obtain rfl := Except.error.inj herror
          obtain ⟨fault, hfault, hname⟩ := List.mem_flatMap.1 hname
          exact (Binding.faults_shown hproper hread hfault).nameable
            (fun _ => BindingFault.Fits.nameable) hname
      · obtain rfl := Except.error.inj herror
        obtain ⟨violation, hviolation, hname⟩ := List.mem_flatMap.1 hname
        exact (Grammar.violations_shown hproper hread hviolation).nameable
          (fun _ => Violation.Fits.nameable) hname

end Origin

/-- The text of a report has as many lines as the report has failures and the names
that these show as they are have line feeds; the lines of each failure stand
together, in the order of the failures. If no name that the failures could show
has a line feed, each failure is on a line of its own, whatever line feeds there
are in the types, defaults, descriptions and other values of the schema. -/
theorem report_lines (table : TypeTable) (maxDepth : Nat) (document : Option String)
    (schema : Json) :
    (lines (validate table maxDepth document schema).text).length =
        (validate table maxDepth document schema).length +
          totalBreaks (shownNames table maxDepth document schema) ∧
      lines (validate table maxDepth document schema).text =
        (validate table maxDepth document schema).flatMap
          (fun failure => lines ("  " ++ failure.text)) ∧
      (schema.Proper → (∀ name, Nameable ⟨table, document⟩ schema name → '\n' ∉ name.toList) →
        lines (validate table maxDepth document schema).text =
          (validate table maxDepth document schema).map fun failure => "  " ++ failure.text) := by
  refine ⟨?_, Report.lines_text _, fun hproper hunbroken => Report.lines_eq_map ?_⟩
  · rw [Report.length_lines_text, totalBreaks_validate]
  · rw [totalBreaks_validate, totalBreaks_eq_zero_iff]
    intro name hname
    exact breaks_eq_zero (hunbroken name (nameable_of_mem_shownNames hproper hname))

/-- An object with line feeds in the name of a property, which is shown between
quotes, and in what it says its type is. -/
def foldedShade : Json :=
  .object [("type", .string "object"), ("properties", .object [
    ("shade.\ncolour", .object [("type", .string "str\ning")])])]

theorem members_foldedShade {path : Path} {hops : Nat} {members : Members Json}
    (h : Place foldedShade path hops (.object members)) :
    members = [("type", .string "object"), ("properties", .object [
        ("shade.\ncolour", .object [("type", .string "str\ning")])])] ∨
      members = [("type", .string "str\ning")] := by
  generalize hvalue : Json.object members = value at h
  induction h generalizing members with
  | root => exact .inl (Json.object.inj hvalue)
  | property around here named ih =>
      subst hvalue
      rcases ih rfl with rfl | rfl
      · obtain rfl := Json.object.inj (Option.some.inj here)
        obtain ⟨-, rfl⟩ : "shade.\ncolour" = _ ∧ _ = members := by simpa [Members.get?] using named
        exact .inr rfl
      · cases here
  | value around here ih => rcases ih rfl with rfl | rfl <;> cases here
  | items around here ih => rcases ih rfl with rfl | rfl <;> cases here

theorem unbroken_foldedShade {name : String}
    (h : Nameable ⟨⟨[], []⟩, none⟩ foldedShade name) : '\n' ∉ name.toList := by
  cases h with
  | keyword place here =>
      rcases members_foldedShade place with rfl | rfl
      · rcases List.mem_pair.1 here with rfl | rfl <;> decide
      · obtain rfl := List.mem_singleton.1 here
        decide
  | property place here named bare =>
      rcases members_foldedShade place with rfl | rfl
      · obtain rfl := Json.object.inj (Option.some.inj here)
        obtain rfl := List.mem_singleton.1 named
        cases bare
      · cases here
  | required place here there => rcases members_foldedShade place with rfl | rfl <;> cases here
  | reference place here => rcases members_foldedShade place with rfl | rfl <;> cases here
  | document own => cases own
  | registered refers => cases refers

theorem report_lines_foldedShade :
    foldedShade.Proper ∧
      (∀ name, Nameable ⟨⟨[], []⟩, none⟩ foldedShade name → '\n' ∉ name.toList) ∧
      lines (validate ⟨[], []⟩ 64 none foldedShade).text =
        ["  " ++ Failure.text ⟨[.key "properties", .key "shade.\ncolour"], .unsupportedType,
          Violation.message (.unsupportedType (.string "str\ning"))⟩] := by
  have hproper : foldedShade.Proper := by
    simp [foldedShade, Json.Proper, Json.ProperMembers]
  have hlines := (report_lines ⟨[], []⟩ 64 none foldedShade).2.2 hproper
    fun _ => unbroken_foldedShade
  exact ⟨hproper, fun _ => unbroken_foldedShade, hlines.trans rfl⟩

/-- A shade with one keyword that is not known, whose name holds a whole failure. -/
def forgingShade : Json :=
  .object [("type", .string "object"),
    ("size' is not a recognized schema keyword\n  (root): [UnknownKeyword] 'colour", .null)]

/-- A shade with two keywords that are not known. -/
def plainShade : Json :=
  .object [("type", .string "object"), ("size", .null), ("colour", .null)]

/-- One failure may be shown on two lines, and read as the two failures of another schema. -/
theorem report_forged :
    forgingShade.Proper ∧ (validate ⟨[], []⟩ 64 none forgingShade).length = 1 ∧
      (lines (validate ⟨[], []⟩ 64 none forgingShade).text).length = 2 ∧
      (validate ⟨[], []⟩ 64 none plainShade).length = 2 ∧
      (validate ⟨[], []⟩ 64 none forgingShade).text =
        (validate ⟨[], []⟩ 64 none plainShade).text := by
  refine ⟨by simp [forgingShade, Json.Proper, Json.ProperMembers], rfl, ?_, rfl, by decide⟩
  rw [Report.length_lines_text, totalBreaks_validate]
  decide

end ResourceTypes
