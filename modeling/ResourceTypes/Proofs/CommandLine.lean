import ResourceTypes.CommandLine.Run
import ResourceTypes.Proofs.Compile
import ResourceTypes.Proofs.Manifest.Spelled

/-!
The two commands agree on every document. What the check of a manifest shows
for a declared schema is what the description of that schema comes to: its type
where the check accepts it, and otherwise the very lines of the check.
-/

namespace ResourceTypes.CommandLine

/-! ### Preparing a request -/

theorem run_bind_eq_ok_iff {ε α β : Type} {step : ExceptT ε Id α} {next : α → ExceptT ε Id β}
    {result : β} :
    (step >>= next).run = Except.ok result ↔
      ∃ value, step.run = Except.ok value ∧ (next value).run = Except.ok result := by
  rw [ExceptT.run_bind]
  cases hstep : step.run with
  | ok value =>
      constructor
      · intro h
        exact ⟨value, rfl, h⟩
      · rintro ⟨_, ⟨⟩, h⟩
        exact h
  | error problem =>
      constructor
      · intro h
        cases h
      · rintro ⟨_, ⟨⟩, _⟩

theorem ofText_of_manifestIn {file : String} {content : Except ReadFault String}
    {manifest : Manifest} (h : manifestIn file content = .ok manifest) :
    ∃ text, Manifest.ofText (Manifest.formatOf file) text = .ok manifest := by
  obtain ⟨text, -, h⟩ := bind_eq_ok_iff.1 h
  exact ⟨text, mapError_eq_ok_iff.1 h⟩

section Prepare

variable {read : String → Id (Except ReadFault String)} {request : Request} {session : Session}
  {manifest : Manifest}

/-- What a request is prepared with: a session over the table of a catalog, or over the
table without one, and the manifest that its file holds. -/
theorem prepare_eq_ok (h : (prepare read request).run = Except.ok (session, manifest)) :
    ∃ configuration table, session = .start table configuration.settings ∧
      (table = emptyTable configuration ∨
        ∃ file, tableOf configuration file (read file) = .ok table) ∧
      ∃ file, manifestIn file (read file) = .ok manifest := by
  rw [prepare] at h
  split at h
  all_goals
    obtain ⟨configuration, -, h⟩ := run_bind_eq_ok_iff.1 h
    dsimp only at h
    split at h
    all_goals
      obtain ⟨table, htable, h⟩ := run_bind_eq_ok_iff.1 h
      obtain ⟨found, hfound, h⟩ := run_bind_eq_ok_iff.1 h
      obtain ⟨rfl, rfl⟩ := Prod.mk.inj (Except.ok.inj h)
      refine ⟨configuration, table, rfl, ?_, _, hfound⟩
    · exact .inr ⟨_, htable⟩
    · exact .inl (Except.ok.inj htable).symm

/-- The session remembers nothing yet, and the manifest is in order. -/
theorem prepared (h : (prepare read request).run = Except.ok (session, manifest)) :
    session.cache = [] ∧ manifest.Ordered := by
  obtain ⟨configuration, table, rfl, -, file, hmanifest⟩ := prepare_eq_ok h
  obtain ⟨text, htext⟩ := ofText_of_manifestIn hmanifest
  exact ⟨rfl, (Manifest.ordered_proper_of_ofText htext).1⟩

theorem answer_of_prepare (h : (prepare read request).run = Except.ok (session, manifest)) :
    Request.answer read request = request.command.answer session manifest := by
  rw [Request.answer, h]
  rfl

end Prepare

/-! ### The lines of a check -/

theorem intercalate_concat (lines : List String) (last : String) :
    "\n".intercalate (lines ++ [last]) = String.join (lines.map (· ++ "\n")) ++ last := by
  induction lines with
  | nil => simp
  | cons line rest ih =>
      calc "\n".intercalate (line :: (rest ++ [last]))
          = line ++ "\n" ++ "\n".intercalate (rest ++ [last]) :=
            String.intercalate_cons_of_ne_nil (by simp)
        _ = String.join ((line :: rest).map (· ++ "\n")) ++ last := by
            simp only [ih, List.map_cons, String.join_cons, String.append_assoc]

/-- A rejected document is never shown as an accepted one. -/
theorem rejectionText_ne (id : String) (report : Report) :
    rejectionText id report ≠ id ++ ": ok" := by
  intro h
  have hrest : ": rejected (" ++ (toString report.length ++ " failure(s))\n" ++ report.text) =
      ": ok" := by
    simpa only [rejectionText, String.append_assoc, String.append_right_inj] using h
  have hthird := congrArg (fun text => text.toList[2]?) hrest
  simp at hthird

theorem Outcome.text_eq_iff {outcome : Outcome} :
    outcome.text = outcome.id ++ ": ok" ↔ outcome.isAccepted = true := by
  rw [text]
  split
  · next haccepted => simp [haccepted]
  · next hrejected => simp [hrejected, rejectionText_ne]

/-- Each outcome is counted as accepted or as rejected. -/
theorem counted (outcomes : List Outcome) :
    outcomes.length = outcomes.countP Outcome.isAccepted +
      outcomes.countP fun outcome => !outcome.isAccepted := by
  simpa using List.length_eq_countP_add_countP Outcome.isAccepted

theorem summary_eq (outcomes : List Outcome) :
    summary outcomes = "Schemas: " ++ toString outcomes.length ++ ", accepted: " ++
      toString (outcomes.countP Outcome.isAccepted) ++ ", rejected: " ++
        toString (outcomes.countP fun outcome => !outcome.isAccepted) := by
  have haccepted : outcomes.length - outcomes.countP (fun outcome => !outcome.isAccepted) =
      outcomes.countP Outcome.isAccepted := by
    rw [counted outcomes, Nat.add_sub_cancel]
  rw [summary, haccepted]

section Outcomes

variable {session : Session} {manifest : Manifest} {declaration : Declaration}

theorem declaration_outcomes (session : Session) (manifest : Manifest) :
    (outcomes session manifest).map Outcome.declaration = manifest.declarations := by
  simp [outcomes, Function.comp_def]

theorem length_outcomes (session : Session) (manifest : Manifest) :
    (outcomes session manifest).length = manifest.declarations.length := by
  rw [← declaration_outcomes session manifest, List.length_map]

theorem output_validate_text (session : Session) (manifest : Manifest) :
    (validate session manifest false).output =
      String.join ((outcomes session manifest).map fun outcome => outcome.text ++ "\n") ++
        (summary (outcomes session manifest) ++ "\n") := by
  have houtput : (validate session manifest false).output =
      "\n".intercalate ((outcomes session manifest).map Outcome.text ++
        [summary (outcomes session manifest)]) ++ "\n" := by
    rw [validate]
    split <;> rfl
  rw [houtput, intercalate_concat, List.map_map, String.append_assoc]
  rfl

theorem output_validate_json (session : Session) (manifest : Manifest) :
    (validate session manifest true).output =
      (Json.array ((outcomes session manifest).map Outcome.toJson)).prettyText ++ "\n" := by
  rw [validate]
  split <;> rfl

theorem code_validate (session : Session) (manifest : Manifest) (asJson : Bool) :
    (validate session manifest asJson).code =
      if ∀ outcome ∈ outcomes session manifest, outcome.isAccepted = true then 0 else 1 := by
  simp only [validate, List.all_eq_true]
  split <;> rfl

/-- Compiling with a session that remembers nothing is compiling anew. -/
theorem compileDocument_of_cache (hcache : session.cache = []) (id : String) (schema : Json) :
    (session.compileDocument id schema).1 =
      compile session.table session.settings.maxDepth (some id) schema := by
  have hnone : session.remembered? id schema = none := by
    simp [Session.remembered?, hcache, Members.get?]
  rw [Session.compileDocument, hnone]
  cases compile session.table session.settings.maxDepth (some id) schema <;> rfl

/-- How the document of an outcome is described: by the type that it is compiled to
if it was accepted, and by the lines of its outcome if it was rejected. -/
inductive Described (session : Session) (outcome : Outcome) : Answer → Prop
  | accepted {descriptor : TypeDescriptor} (accepted : outcome.isAccepted = true)
      (compiled : compile session.table session.settings.maxDepth (some outcome.id)
        outcome.declaration.schema = .ok descriptor) :
      Described session outcome ⟨0, descriptor.toJson.prettyText ++ "\n", none⟩
  | rejected (rejected : outcome.isAccepted = false) :
      Described session outcome ⟨1, outcome.text ++ "\n", none⟩

theorem Described.code_ne {outcome : Outcome} {answer : Answer}
    (h : Described session outcome answer) : answer.code ≠ 2 := by
  cases h <;> exact nofun

/-- The description of a document is told from the outcome of its check, which is
made without compiling it. -/
theorem described_outcome (hcache : session.cache = []) (hordered : manifest.Ordered)
    {outcome : Outcome} (houtcome : outcome ∈ outcomes session manifest) :
    Described session outcome
      (describe session manifest outcome.declaration.type outcome.declaration.version) := by
  obtain ⟨declaration, hdeclaration, rfl⟩ := List.mem_map.1 houtcome
  rw [describe, hordered.mem_declarations_iff.1 hdeclaration]
  simp only [compileDocument_of_cache hcache]
  -- both commands check the document alike, so the report decides what is described
  rcases compile_eq session.table session.settings.maxDepth (some (manifest.idOf declaration))
      declaration.schema with
    ⟨root, descriptor, hcheck, -, -, hcompile⟩ | ⟨error, hcheck, hcompile⟩
  · rw [hcompile]
    refine .accepted ?_ hcompile
    simp only [Outcome.isAccepted, Session.validateDocument, ResourceTypes.validate, hcheck,
      List.isEmpty_nil]
  · obtain ⟨hdefect, hreport, -⟩ := report_of_check hcheck
    have herror : error.report? = some error.toReport := by
      cases error with
      | defective defect => exact absurd rfl (hdefect defect)
      | _ => rfl
    simp only [Session.validateDocument, ResourceTypes.validate, hcheck, hcompile, herror]
    have hrejected : Outcome.isAccepted ⟨manifest.idOf declaration, declaration,
        error.toReport⟩ = false := by
      simpa [Outcome.isAccepted] using hreport
    have htext : rejectionText (manifest.idOf declaration) error.toReport =
        Outcome.text ⟨manifest.idOf declaration, declaration, error.toReport⟩ := by
      simp [Outcome.text, hrejected]
    rw [htext]
    exact .rejected hrejected

end Outcomes

/-! ### The two commands -/

/-- The answers to the two commands on a manifest, one for each format and one for each
version of a type, fit together. -/
structure Consistent (session : Session) (manifest : Manifest) (validated : OutputFormat → Answer)
    (description : String → String → Answer) : Prop where
  /-- A version of a type has one outcome if it is declared, and else none. -/
  once (type version : String) :
    (((outcomes session manifest).map Outcome.declaration).filter fun declaration =>
        declaration.type = type ∧ declaration.version = version) =
      (manifest.find type version).toOption.toList
  ordered : ((outcomes session manifest).map Outcome.declaration).Pairwise Declaration.Before
  counted :
    (outcomes session manifest).countP Outcome.isAccepted +
        (outcomes session manifest).countP (fun outcome => !outcome.isAccepted) =
      manifest.declarations.length
  /-- As text, each outcome has lines of its own, and the last line counts them. -/
  printed :
    (validated .text).output =
      String.join ((outcomes session manifest).map fun outcome => outcome.text ++ "\n") ++
        ("Schemas: " ++ toString manifest.declarations.length ++ ", accepted: " ++
          toString ((outcomes session manifest).countP Outcome.isAccepted) ++ ", rejected: " ++
            toString ((outcomes session manifest).countP fun outcome => !outcome.isAccepted) ++
              "\n")
  listed :
    (validated .json).output =
      (Json.array ((outcomes session manifest).map Outcome.toJson)).prettyText ++ "\n"
  code (format : OutputFormat) :
    (validated format).code =
      if ∀ outcome ∈ outcomes session manifest, outcome.isAccepted = true then 0 else 1
  identified : ∀ outcome ∈ outcomes session manifest,
    outcome.id = manifest.idOf outcome.declaration
  /-- Only what is accepted is shown as such. -/
  shown : ∀ outcome ∈ outcomes session manifest,
    outcome.text = outcome.id ++ ": ok" ↔ outcome.isAccepted = true
  described : ∀ outcome ∈ outcomes session manifest, Described session outcome
    (description outcome.declaration.type outcome.declaration.version)
  /-- Nothing stands in the way of describing what is declared. -/
  completes (type version : String) (declaration : Declaration) :
    manifest.find type version = .ok declaration → (description type version).code ≠ 2

/-- On an ordered manifest, and with a session that remembers nothing, the commands
fit together. -/
theorem consistent {session : Session} {manifest : Manifest} (hcache : session.cache = [])
    (hordered : manifest.Ordered) :
    Consistent session manifest (fun format => validate session manifest (format = .json))
      (describe session manifest) where
  once type version := by
    rw [declaration_outcomes]
    exact hordered.filter_declarations type version
  ordered := by
    rw [declaration_outcomes]
    exact hordered.pairwise_declarations
  counted := by
    rw [← counted, length_outcomes]
  printed := by
    refine (output_validate_text session manifest).trans ?_
    rw [summary_eq, length_outcomes]
  listed := output_validate_json session manifest
  code format := code_validate session manifest (format = .json)
  identified outcome houtcome := by
    obtain ⟨declaration, -, rfl⟩ := List.mem_map.1 houtcome
    rfl
  shown outcome _ := Outcome.text_eq_iff
  described outcome houtcome := described_outcome hcache hordered houtcome
  completes type version declaration hfind := by
    obtain ⟨-, -, -, rfl, rfl⟩ := Manifest.find_eq_ok_iff.1 hfind
    have hdeclared := hordered.mem_declarations_iff.2 hfind
    exact (described_outcome hcache hordered (List.mem_map_of_mem hdeclared)).code_ne

/-- Once a request is prepared, what the two commands answer fits together. -/
theorem commands_agree {read : String → Id (Except ReadFault String)} {config? : Option String}
    {file : String} {catalog? : Option String} {session : Session} {manifest : Manifest}
    (h : (prepare read ⟨config?, .validate file catalog? .text⟩).run =
      Except.ok (session, manifest)) :
    Consistent session manifest
      (fun format => Request.answer read ⟨config?, .validate file catalog? format⟩)
      fun type version => Request.answer read ⟨config?, .describe file type version catalog?⟩ := by
  obtain ⟨hcache, hordered⟩ := prepared h
  -- what is prepared depends neither on the format nor on what is to be described
  have hvalidated (format : OutputFormat) :
      Request.answer read ⟨config?, .validate file catalog? format⟩ =
        validate session manifest (format = .json) :=
    answer_of_prepare h
  have hdescription (type version : String) :
      Request.answer read ⟨config?, .describe file type version catalog?⟩ =
        describe session manifest type version :=
    answer_of_prepare h
  simp only [hvalidated, hdescription]
  exact consistent hcache hordered

/-- A manifest that declares two versions of a type, of which only the second is accepted. -/
def tins : String :=
  "\x7b\"namespace\":\"Shop\",\"types\":\x7b\"tin\":\x7b\"apiVersions\":\x7b" ++
    "\"2\":\x7b\"schema\":\x7b\"type\":\"object\"\x7d\x7d,\"1\":\x7b\"schema\":\x7b\x7d\x7d" ++
    "\x7d\x7d\x7d\x7d"

/-- The only file there is holds the manifest. -/
def readTins (file : String) : Id (Except ReadFault String) :=
  if file = "tins.json" then .ok tins else .error .missing

/-- The declarations in the order of the text. -/
def writtenTins : Manifest :=
  ⟨"Shop", [("tin", [("2", .object [("type", .string "object")]), ("1", .object [])])]⟩

def tinManifest : Manifest :=
  ⟨"Shop", [("tin", [("1", .object []), ("2", .object [("type", .string "object")])])]⟩

def tinSession : Session := .start (emptyTable .standard) Configuration.standard.settings

theorem prepare_tins :
    (prepare readTins ⟨none, .validate "tins.json" none .text⟩).run =
      Except.ok (tinSession, tinManifest) := by
  have hslash : "tins.json".splitOn "/" = ["tins.json"] := by
    simp +decide [String.splitOn, String.splitOnAux]
  have hdot : "tins.json".splitOn "." = ["tins", "json"] := by
    simp +decide [String.splitOn, String.splitOnAux]
  have hformat : Manifest.formatOf "tins.json" = .json := by
    simp [Manifest.formatOf, FileName.extension?, FileName.partsBackward, hslash, hdot]
  have hdistinct : writtenTins.Distinct := ⟨by simp [writtenTins], by simp [writtenTins]⟩
  have hschemas : ∀ declaration ∈ writtenTins.declarations,
      declaration.schema.Proper ∧ declaration.schema.spelled.depth ≤ 122 := by
    simp [writtenTins, Manifest.declarations, Json.Proper, Json.ProperMembers, Json.spelled,
      Json.spelledMembers, Json.Literal.ofMembers, Json.Literal.depth, Json.Literal.depthMembers]
  have hsorted : writtenTins.sorted = tinManifest := by cbv
  have htext : Manifest.ofText .json tins = .ok tinManifest :=
    hsorted ▸ Manifest.ofText_of_literal (by cbv) hdistinct hschemas (by decide)
  have hmanifest : manifestIn "tins.json" (readTins "tins.json") = .ok tinManifest := by
    have hread : readTins "tins.json" = (.ok tins : Except ReadFault String) := rfl
    simp [manifestIn, hread, hformat, htext, Except.mapError, bind, Except.bind]
  exact run_bind_eq_ok_iff.2 ⟨_, rfl, run_bind_eq_ok_iff.2
    ⟨_, rfl, run_bind_eq_ok_iff.2 ⟨tinManifest, hmanifest, rfl⟩⟩⟩

theorem commands_agree_tins :
    (prepare readTins ⟨none, .validate "tins.json" none .text⟩).run =
        Except.ok (tinSession, tinManifest) ∧
      (outcomes tinSession tinManifest).map Outcome.isAccepted = [false, true] ∧
      Consistent tinSession tinManifest
        (fun format => Request.answer readTins ⟨none, .validate "tins.json" none format⟩)
        fun type version =>
          Request.answer readTins ⟨none, .describe "tins.json" type version none⟩ :=
  ⟨prepare_tins, by decide +kernel, commands_agree prepare_tins⟩

end ResourceTypes.CommandLine
