import ResourceTypes.Proofs.CycleDetection
import ResourceTypes.Proofs.Registry.Trail

/-!
Reported reference cycles are real ones. The chain in the message of a failure
leads along references of registered types back to where it began, or through
the document around the reference.
-/

namespace ResourceTypes

open ResourceTypes.Language Binding

section Report

variable {table : TypeTable} {maxDepth : Nat} {document : Option String} {schema : Json}
  {root : SchemaNode} {failure : Failure}

/-- The report on a document that keeps to the grammar is about its references alone. -/
theorem validate_of_grammatical (hread : Schema.read maxDepth schema = .ok root)
    (hgrammar : Grammar.violations root = []) :
    validate table maxDepth document schema =
      (root.references.filterMap (faultOf ⟨table, document⟩)).map Located.failure := by
  rw [validate, check_eq, hread]
  simp only [hgrammar, if_true]
  by_cases hfaults : root.references.filterMap (faultOf ⟨table, document⟩) = []
  · simp only [hfaults, if_true, List.map_nil]
  · simp only [hfaults, if_false, CompileError.toReport]

/-- A failure to bind a reference is that of a fault with a reference of the tree. -/
theorem exists_fault_of_mem_validate (h : failure ∈ validate table maxDepth document schema)
    (hrule : failure.rule ∈ Binding.rules) :
    ∃ root, Schema.read maxDepth schema = .ok root ∧
      ∃ fault ∈ root.references.filterMap (faultOf ⟨table, document⟩), fault.failure = failure := by
  rw [validate, check_eq] at h
  split at h
  · cases h
  · next error herror =>
    split at herror
    · obtain rfl := Except.error.inj herror
      obtain rfl := List.mem_singleton.1 h
      exact absurd hrule (show Rule.malformedInput ∉ Binding.rules by decide)
    · next root hread =>
      split at herror
      · split at herror
        · cases herror
        · obtain rfl := Except.error.inj herror
          exact ⟨root, hread, List.mem_map.1 h⟩
      · obtain rfl := Except.error.inj herror
        obtain ⟨violation, -, rfl⟩ := List.mem_map.1 h
        have hgrammar : ∀ rule ∈ Grammar.rules, rule ∉ Binding.rules := by decide
        exact absurd hrule (hgrammar _ violation.cause.rule_mem)

end Report

/-- A fault fits nothing but a schema, which is a reference. -/
theorem BindingFault.Fits.schema {scope : Scope} {fault : BindingFault} {spot : Spot}
    (h : fault.Fits scope spot) :
    ∃ hops members, spot = .schema hops (.object members) ∧ ∃ id,
      Members.get? members "$ref" = some (.string id) ∧ verdict scope id = .error fault := by
  unfold BindingFault.Fits at h
  split at h
  · next hops members =>
    obtain ⟨id, hid, hverdict, -⟩ := h
    exact ⟨hops, members, rfl, id, hid, hverdict⟩
  · cases h

/-- A failure tells a way round: a reference stands at its path, and its message
lists the chain that was found for the id of that reference. -/
def Failure.TellsCircuit (scope : Scope) (schema : Json) (failure : Failure) : Prop :=
  ∃ members id chain, schema.at? failure.path = some (.object members) ∧
    Members.get? members "$ref" = some (.string id) ∧
    verdict scope id = .error (.cycle chain) ∧
    failure.message = "reference cycle: " ++ " -> ".intercalate chain ∧ Circuit scope id chain

theorem head?_toList_append {front : String} {first : Char} (h : front.toList.head? = some first)
    (rest : String) : (front ++ rest).toList.head? = some first := by
  rw [String.toList_append, List.head?_append, h, Option.some_or]

/-- What is said to be a reference cycle is one: that a document refers to itself
is told in other words. -/
theorem BindingFault.exists_chain {fault : BindingFault} (hrule : fault.rule = .cyclicReference)
    {rest : String} (hmessage : fault.message = "reference cycle: " ++ rest) :
    ∃ chain, fault = .cycle chain := by
  cases fault with
  | disallowed id => cases hrule
  | unregistered id => cases hrule
  | cycle chain => exact ⟨chain, rfl⟩
  | selfReference id =>
      change "schema references itself: " ++ id ++ " -> " ++ id = _ at hmessage
      rw [String.append_assoc, String.append_assoc] at hmessage
      have hself : "schema references itself: ".toList.head? = some 's' := by decide
      have hcycle : "reference cycle: ".toList.head? = some 'r' := by decide
      have hfirst := head?_toList_append hself (id ++ (" -> " ++ id))
      rw [hmessage, head?_toList_append hcycle] at hfirst
      cases hfirst

/-- Each failure that is said to be a reference cycle tells a way round, whatever
the types of the table refer to. -/
theorem reported_cycles {schema : Json} (hproper : schema.Proper) (table : TypeTable)
    (maxDepth : Nat) (document : Option String) :
    ∀ failure ∈ validate table maxDepth document schema, failure.rule = .cyclicReference →
      (∃ rest, failure.message = "reference cycle: " ++ rest) →
        failure.TellsCircuit ⟨table, document⟩ schema := by
  rintro failure hfailure hrule ⟨rest, hmessage⟩
  obtain ⟨root, hread, ⟨path, fault⟩, hfault, rfl⟩ :=
    exists_fault_of_mem_validate hfailure (by simp [hrule, Binding.rules])
  obtain ⟨chain, rfl⟩ := BindingFault.exists_chain hrule hmessage
  obtain ⟨spot, hmarks, hfits⟩ := faults_shown hproper hread hfault
  obtain ⟨hops, members, rfl, id, hid, hverdict⟩ := hfits.schema
  exact ⟨members, id, chain, hmarks.at?, hid, hverdict, rfl, circuit_of_verdict hverdict⟩

/-- A type with one property, which refers to another type. -/
def wholeOf (id part : String) : Entry :=
  ⟨id, .plain (.object [⟨"part", .referenced part default none false, false, false, none⟩])⟩

/-- A frame has edges, and an edge has corners that have edges. -/
def framework : TypeTable :=
  ⟨["shapes#"], [wholeOf "shapes#Frame" "shapes#Edge", wholeOf "shapes#Edge" "shapes#Corner",
    wholeOf "shapes#Corner" "shapes#Edge"]⟩

theorem verdict_framework :
    verdict ⟨framework, some "shapes#Page"⟩ "shapes#Frame" =
      .error (.cycle ["shapes#Edge", "shapes#Corner", "shapes#Edge"]) := by
  have hallowed : framework.allows "shapes#Frame" = true := by decide +kernel
  have hfound : (framework.find? "shapes#Frame").isSome = true := by decide +kernel
  obtain ⟨entry, hentry⟩ := Option.isSome_iff_exists.1 hfound
  have hframe : framework.references "shapes#Frame" = ["shapes#Edge"] := rfl
  have hedge : framework.references "shapes#Edge" = ["shapes#Corner"] := rfl
  have hcorner : framework.references "shapes#Corner" = ["shapes#Edge"] := rfl
  have hwalk : framework.findCycle ["shapes#Page"] [] ["shapes#Frame"] =
      (some ["shapes#Edge", "shapes#Corner", "shapes#Edge"], []) := by
    simp [TypeTable.findCycle, hframe, hedge, hcorner]
  rw [verdict, lookup, if_neg (by simp [hallowed]), if_neg (by simp)]
  simp [hentry, hwalk]

/-- The reference to a frame is told the way round among its parts. -/
theorem reported_cycles_framework :
    Registry.page.Proper ∧
      validate framework 64 (some "shapes#Page") Registry.page =
        [⟨[.key "properties", .key "frame"], .cyclicReference,
          "reference cycle: shapes#Edge -> shapes#Corner -> shapes#Edge"⟩] ∧
      ∀ failure ∈ validate framework 64 (some "shapes#Page") Registry.page,
        failure.TellsCircuit ⟨framework, some "shapes#Page"⟩ Registry.page := by
  have hproper : Registry.page.Proper := by simp [Registry.page, Json.Proper, Json.ProperMembers]
  have hreport : validate framework 64 (some "shapes#Page") Registry.page =
      [⟨[.key "properties", .key "frame"], .cyclicReference,
        "reference cycle: shapes#Edge -> shapes#Corner -> shapes#Edge"⟩] := by
    refine (validate_of_grammatical rfl rfl).trans ?_
    change (List.filterMap (faultOf ⟨framework, some "shapes#Page"⟩)
      [([.key "properties", .key "frame"], .unbound "shapes#Frame")]).map Located.failure = _
    simp only [List.filterMap_cons, faultOf, verdict_framework, List.filterMap_nil]
    rfl
  refine ⟨hproper, hreport, fun failure hfailure => ?_⟩
  have hall := reported_cycles hproper framework 64 (some "shapes#Page") failure hfailure
  rw [hreport] at hfailure
  obtain rfl := List.mem_singleton.1 hfailure
  exact hall rfl ⟨"shapes#Edge -> shapes#Corner -> shapes#Edge", by decide⟩

end ResourceTypes
