import ResourceTypes.Proofs.Acceptance
import ResourceTypes.Proofs.Canonical
import ResourceTypes.Proofs.CommandLine

/-!
What the commands read. In whichever format a catalog and a manifest are
written, their schemas are proper, and so are the types that a session starts
with. So all that is said of proper schemas and tables holds of what a command
checks: a declared schema is accepted exactly if it belongs to the language.
-/

namespace ResourceTypes

namespace Catalog

section Decode

variable {σ : Type} [Source σ] {Good : σ → Prop} {source : σ}

theorem decodeEntry_yields (hsound : Source.Sound Good) (hgood : Good source) :
    (CatalogEntry.decode source).Yields fun entry => entry.schema.Proper := by
  refine (hsound.fields _ _ hgood).bind fun fields hfields => ?_
  have hschema : (Decoder.required fields "schema" Source.value).Yields Json.Proper :=
    Decoder.yields_required fun field hfield => hsound.value _ (hfields field hfield)
  exact Decoder.yields_true.bind fun id _ => hschema.bind fun schema hproper =>
    Decoder.yields_pure hproper

theorem decode_yields (hsound : Source.Sound Good) (hgood : Good source) :
    (decode source).Yields fun catalog => ∀ entry ∈ catalog.entries, entry.schema.Proper := by
  refine (hsound.fields _ _ hgood).bind fun fields hfields => ?_
  have hentries : (Decoder.optional fields "entries" (.list CatalogEntry.decode) []).Yields
      fun entries => ∀ entry ∈ entries, entry.schema.Proper :=
    Decoder.yields_optional
      (fun field hfield => Decoder.yields_list (hsound.items _ (hfields field hfield))
        fun _ => decodeEntry_yields hsound)
      (by simp)
  exact Decoder.yields_true.bind fun namespaces _ => hentries.bind fun entries hproper =>
    Decoder.yields_pure hproper

end Decode

/-- The schemas of a catalog that is read from a text are proper. -/
theorem proper_of_ofText {format : Format} {text : String} {catalog : Catalog}
    (h : ofText format text = .ok catalog) : ∀ entry ∈ catalog.entries, entry.schema.Proper := by
  unfold ofText at h
  cases hread : ofText? format text with
  | none =>
      rw [hread] at h
      cases h
  | some read =>
      rw [hread] at h
      cases h
      exact Format.decode?_yields (fun _ _ _ _ => decode_yields) hread

end Catalog

open ResourceTypes.Language

namespace CommandLine

theorem proper_of_tableOf {configuration : Configuration} {file : String}
    {content : Except ReadFault String} {table : TypeTable}
    (h : tableOf configuration file content = .ok table) : table.Proper := by
  rw [tableOf, mapError_eq_ok_iff] at h
  obtain ⟨catalog, hcatalog, h⟩ := bind_eq_ok_iff.1 h
  obtain ⟨registry, hload, h⟩ := bind_eq_ok_iff.1 h
  obtain rfl := Except.ok.inj h
  rw [Catalog.ofFile] at hcatalog
  obtain ⟨text, -, htext⟩ := bind_eq_ok_iff.1 hcatalog
  exact Catalog.proper_of_load (mapError_eq_ok_iff.1 hload) (Catalog.proper_of_ofText htext)

section Prepare

variable {read : String → Id (Except ReadFault String)} {request : Request} {session : Session}
  {manifest : Manifest}

/-- All schemas and types that a request is prepared with are proper. -/
theorem proper_of_prepare (h : (prepare read request).run = Except.ok (session, manifest)) :
    session.table.Proper ∧ manifest.Proper := by
  obtain ⟨configuration, table, rfl, htable, file, hmanifest⟩ := prepare_eq_ok h
  obtain ⟨text, htext⟩ := ofText_of_manifestIn hmanifest
  refine ⟨?_, (Manifest.ordered_proper_of_ofText htext).2⟩
  rcases htable with rfl | ⟨file, htable⟩
  · exact nofun
  · exact proper_of_tableOf htable

/-- The check of a manifest accepts exactly those of its schemas that belong to the language. -/
theorem accepted_iff_inLanguage (h : (prepare read request).run = Except.ok (session, manifest))
    {outcome : Outcome} (houtcome : outcome ∈ outcomes session manifest) :
    outcome.isAccepted = true ↔
      InLanguage ⟨session.table, some outcome.id⟩ session.settings.maxDepth
        outcome.declaration.schema := by
  obtain ⟨declaration, hdeclaration, rfl⟩ := List.mem_map.1 houtcome
  have hproper := (proper_of_prepare h).2.of_mem_declarations hdeclaration
  rw [← check_accepts_iff _ _ _ hproper]
  simp only [Outcome.isAccepted, Session.validateDocument, ResourceTypes.validate]
  cases hcheck : check session.table session.settings.maxDepth
      (some (manifest.idOf declaration)) declaration.schema with
  | ok root => simp
  | error error => simpa using (report_of_check hcheck).2.1

end Prepare

end CommandLine

end ResourceTypes
