import Mathlib.Data.Finset.Card
import Mathlib.Data.List.Induction
import ResourceTypes.Proofs.MemberOrder
import ResourceTypes.Session.Request

/-!
Sessions, request by request. What a session remembers is what compiling would
give again, so that its answers are those of a session without memory, up to
the order of properties; and it remembers each compiled document once.
-/

namespace ResourceTypes

namespace Session

/-- The schema that a request is about is proper, as every JSON value is. -/
def Request.Proper : Request → Prop
  | .compile schema | .compileDocument _ schema | .validate schema | .validateDocument _ schema =>
    schema.Proper
  | .clear => True

/-- The requests behind the last one that cleared the session. -/
def sinceClear (requests : List Request) : List Request :=
  (requests.reverse.takeWhile fun request => !request.isClear).reverse

/-- The id of a document that compiles, if a request is for one. -/
def compiledId? (table : TypeTable) (settings : Settings) : Request → Option String
  | .compileDocument id schema =>
    match ResourceTypes.compile table settings.maxDepth (some id) schema with
    | .ok _ => some id
    | .error _ => none
  | _ => none

/-- The ids of the documents compiled since the session was cleared, as often as they were. -/
def compiledIds (table : TypeTable) (settings : Settings) (requests : List Request) :
    List String :=
  (sinceClear requests).filterMap (compiledId? table settings)

/-- The same error, or types that are alike. -/
inductive SameAnswer :
    Except CompileError TypeDescriptor → Except CompileError TypeDescriptor → Prop
  | refused (error : CompileError) : SameAnswer (.error error) (.error error)
  | compiled {type type' : TypeDescriptor} (types : type.Alike type') :
      SameAnswer (.ok type) (.ok type')

/-- What holds of a session at every moment: it remembers nothing unless it is
set to, and under each id once, what compiling would give again. -/
structure Faithful (table : TypeTable) (settings : Settings) (session : Session) : Prop where
  sameTable : session.table = table
  sameSettings : session.settings = settings
  distinct : (Members.names session.cache).Nodup
  off : settings.cacheDocuments = false → session.cache = []
  proper : ∀ id compiled, session.cache.get? id = some compiled → compiled.schema.Proper
  again : ∀ id compiled, session.cache.get? id = some compiled →
    ResourceTypes.compile table settings.maxDepth (some id) compiled.schema = .ok compiled.type

section Step

variable {table : TypeTable} {settings : Settings} {session : Session} {id : String}
  {schema : Json}

theorem faithful_start (table : TypeTable) (settings : Settings) :
    Faithful table settings (start table settings) :=
  ⟨rfl, rfl, List.nodup_nil, fun _ => rfl, nofun, nofun⟩

/-- What is remembered for a schema was compiled from an equal one. -/
theorem remembered?_eq_some {type : TypeDescriptor}
    (h : session.remembered? id schema = some type) :
    ∃ compiled, session.cache.get? id = some compiled ∧ compiled.schema.same schema = true ∧
      compiled.type = type := by
  unfold remembered? at h
  split at h
  · split at h
    · next compiled hfound =>
      split at h
      · next hsame => exact ⟨compiled, hfound, hsame, Option.some.inj h⟩
      · cases h
    · cases h
  · cases h

/-- How a document is compiled: from memory if an equal schema was compiled
under its id, else afresh, and only a new type is remembered. -/
theorem compileDocument_cases (session : Session) (id : String) (schema : Json) :
    (∃ compiled, session.cache.get? id = some compiled ∧ compiled.schema.same schema = true ∧
        session.compileDocument id schema = (.ok compiled.type, session)) ∨
      (∃ type, ResourceTypes.compile session.table session.settings.maxDepth (some id) schema =
          .ok type ∧
        session.compileDocument id schema = (.ok type, session.remember id schema type)) ∨
      ∃ error, ResourceTypes.compile session.table session.settings.maxDepth (some id) schema =
          .error error ∧
        session.compileDocument id schema = (.error error, session) := by
  unfold compileDocument
  cases hremembered : session.remembered? id schema with
  | some type =>
      obtain ⟨compiled, hfound, hsame, rfl⟩ := remembered?_eq_some hremembered
      exact .inl ⟨compiled, hfound, hsame, rfl⟩
  | none =>
      cases hcompile :
          ResourceTypes.compile session.table session.settings.maxDepth (some id) schema with
      | ok type => exact .inr (.inl ⟨type, rfl, rfl⟩)
      | error error => exact .inr (.inr ⟨error, rfl, rfl⟩)

theorem Faithful.remember (h : Faithful table settings session) (hproper : schema.Proper)
    {type : TypeDescriptor}
    (hcompile : ResourceTypes.compile table settings.maxDepth (some id) schema = .ok type) :
    Faithful table settings (session.remember id schema type) := by
  unfold Session.remember
  split
  · next hon =>
    rw [h.sameSettings] at hon
    refine ⟨h.sameTable, h.sameSettings, Members.nodup_names_insert h.distinct id _, ?_, ?_, ?_⟩
    · intro hoff
      rw [hon] at hoff
      cases hoff
    · intro other compiled hfound
      rw [Members.get?_insert] at hfound
      split at hfound
      · obtain rfl := Option.some.inj hfound
        exact hproper
      · exact h.proper other compiled hfound
    · intro other compiled hfound
      rw [Members.get?_insert] at hfound
      split at hfound
      · next heq =>
        subst heq
        obtain rfl := Option.some.inj hfound
        exact hcompile
      · exact h.again other compiled hfound
  · exact h

theorem Faithful.clear (h : Faithful table settings session) :
    Faithful table settings session.clear :=
  ⟨h.sameTable, h.sameSettings, List.nodup_nil, fun _ => rfl, nofun, nofun⟩

/-- Each request keeps the session faithful. -/
theorem Faithful.step (h : Faithful table settings session) {request : Request}
    (hproper : request.Proper) : Faithful table settings (session.step request).2 := by
  cases request with
  | compileDocument id schema =>
      have hcases := session.compileDocument_cases id schema
      rw [h.sameTable, h.sameSettings] at hcases
      rw [Session.step]
      rcases hcases with ⟨_, -, -, hresult⟩ | ⟨type, hcompile, hresult⟩ | ⟨_, -, hresult⟩
      · rw [hresult]
        exact h
      · rw [hresult]
        exact h.remember hproper hcompile
      · rw [hresult]
        exact h
  | clear => exact h.clear
  | _ => exact h

/-- The answer for a document is the one without memory: on a hit, the schema
that was compiled is equal to the one that is asked for. -/
theorem Faithful.answer (h : Faithful table settings session) (hproper : schema.Proper) :
    SameAnswer (session.compileDocument id schema).1
      (ResourceTypes.compile table settings.maxDepth (some id) schema) := by
  have hcases := session.compileDocument_cases id schema
  rw [h.sameTable, h.sameSettings] at hcases
  rcases hcases with ⟨compiled, hfound, hsame, hresult⟩ | ⟨type, hcompile, hresult⟩ |
    ⟨error, hcompile, hresult⟩
  · have hagain := h.again id compiled hfound
    obtain ⟨other, hother, htypes⟩ :=
      exists_compile_of_same (h.proper id compiled hfound) hproper hsame hagain
    rw [hresult, hother]
    exact .compiled htypes
  · obtain ⟨other, hother, htypes⟩ :=
      exists_compile_of_same hproper hproper (Json.same_refl hproper) hcompile
    obtain rfl := Except.ok.inj (hcompile.symm.trans hother)
    rw [hresult, hcompile]
    exact .compiled htypes
  · rw [hresult, hcompile]
    exact .refused error

/-- The ids that a session remembers after a request, if it remembers any. -/
theorem Faithful.mem_names_step (h : Faithful table settings session)
    (hon : settings.cacheDocuments = true) {request : Request} (hproper : request.Proper) :
    id ∈ Members.names (session.step request).2.cache ↔
      request.isClear = false ∧ (id ∈ Members.names session.cache ∨
        compiledId? table settings request = some id) := by
  cases request with
  | compileDocument other schema =>
      have hclear : (Request.compileDocument other schema).isClear = false := rfl
      have hcases := session.compileDocument_cases other schema
      rw [h.sameTable, h.sameSettings] at hcases
      simp only [hclear, true_and, Session.step, compiledId?]
      rcases hcases with ⟨compiled, hfound, hsame, hresult⟩ | ⟨type, hcompile, hresult⟩ |
        ⟨_, hcompile, hresult⟩
      -- an id that is remembered already is compiled again, and nothing is new
      · have hmem : other ∈ Members.names session.cache :=
          Members.mem_names_of_mem (Members.mem_of_get? hfound)
        obtain ⟨_, hother, -⟩ := exists_compile_of_same (h.proper other compiled hfound) hproper
          hsame (h.again other compiled hfound)
        simp only [hresult, hother, Option.some.injEq]
        exact (or_iff_left_of_imp fun heq => heq ▸ hmem).symm
      · simp only [hresult, hcompile, Session.remember, h.sameSettings, hon, if_true,
          Members.names_insert, Option.some.injEq]
        split
        · next hmem => exact (or_iff_left_of_imp fun heq => heq ▸ hmem).symm
        · rw [List.mem_append, List.mem_singleton, eq_comm (a := other)]
      · simp [hresult, hcompile]
  | clear => simp [Session.step, Session.clear, Request.isClear]
  | _ => simp [Session.step, compiledId?, Request.isClear]

end Step

section Run

variable {table : TypeTable} {settings : Settings} {session : Session} {requests : List Request}

theorem Faithful.afterAll (h : Faithful table settings session)
    (hproper : ∀ request ∈ requests, request.Proper) :
    Faithful table settings (session.afterAll requests) := by
  induction requests generalizing session with
  | nil => exact h
  | cons request rest ih =>
      rw [List.forall_mem_cons] at hproper
      exact ih (h.step hproper.1) hproper.2

theorem compiledIds_concat (table : TypeTable) (settings : Settings) (requests : List Request)
    (request : Request) :
    compiledIds table settings (requests ++ [request]) =
      if request.isClear then []
      else compiledIds table settings requests ++ (compiledId? table settings request).toList := by
  rw [compiledIds, sinceClear, List.reverse_append, List.reverse_singleton, List.singleton_append,
    List.takeWhile_cons]
  cases request.isClear with
  | true => rfl
  | false =>
      cases hid : compiledId? table settings request <;>
        simp [compiledIds, sinceClear, hid]

/-- A session remembers the ids that were compiled since it was cleared. -/
theorem mem_names_iff (hon : settings.cacheDocuments = true)
    (hproper : ∀ request ∈ requests, request.Proper) {id : String} :
    id ∈ Members.names ((start table settings).afterAll requests).cache ↔
      id ∈ compiledIds table settings requests := by
  induction requests using List.reverseRecOn with
  | nil => simp [Session.afterAll, start, compiledIds, sinceClear]
  | append_singleton requests request ih =>
      simp only [List.forall_mem_append, List.forall_mem_singleton] at hproper
      obtain ⟨hbefore, hlast⟩ := hproper
      have hfaithful := (faithful_start table settings).afterAll hbefore
      have hstep : (start table settings).afterAll (requests ++ [request]) =
          (((start table settings).afterAll requests).step request).2 := by
        simp [Session.afterAll]
      rw [hstep, hfaithful.mem_names_step hon hlast, ih hbefore, compiledIds_concat]
      cases request.isClear <;> simp

/-- A session remembers each document compiled since it was cleared once, or none at all. -/
theorem length_cache (hproper : ∀ request ∈ requests, request.Proper) :
    ((start table settings).afterAll requests).cache.length =
      if settings.cacheDocuments then (compiledIds table settings requests).toFinset.card
      else 0 := by
  have hfaithful := (faithful_start table settings).afterAll hproper
  cases hon : settings.cacheDocuments with
  | false => simp [hfaithful.off hon]
  | true =>
      have hids : (Members.names ((start table settings).afterAll requests).cache).toFinset =
          (compiledIds table settings requests).toFinset := by
        ext id
        rw [List.mem_toFinset, List.mem_toFinset, mem_names_iff hon hproper]
      rw [if_pos rfl, ← hids, List.toFinset_card_of_nodup hfaithful.distinct, Members.names,
        List.length_map]

end Run

/-- A session whose memory makes no difference to what it answers: each of its
entries is what compiling gives again, only new types change it, and the answer
for a document is what compiling its schema gives, up to the order of properties. -/
structure Transparent (table : TypeTable) (settings : Settings) (session : Session) : Prop where
  entries : ∀ id compiled, (id, compiled) ∈ session.cache →
    ResourceTypes.compile table settings.maxDepth (some id) compiled.schema = .ok compiled.type
  quiet : ∀ request, (∀ id schema, request ≠ .compileDocument id schema) → request ≠ .clear →
    (session.step request).2 = session
  refusing : ∀ id schema error, (session.compileDocument id schema).1 = .error error →
    (session.compileDocument id schema).2 = session
  agrees : ∀ id schema, schema.Proper → SameAnswer (session.compileDocument id schema).1
    (ResourceTypes.compile table settings.maxDepth (some id) schema)

theorem Faithful.transparent {table : TypeTable} {settings : Settings} {session : Session}
    (h : Faithful table settings session) : Transparent table settings session := by
  refine ⟨?_, ?_, ?_, fun id schema hproper => h.answer hproper⟩
  · intro id compiled hmem
    exact h.again id compiled (Members.get?_of_mem h.distinct hmem)
  · intro request hdocument hclear
    cases request with
    | compileDocument id schema => exact absurd rfl (hdocument id schema)
    | clear => exact absurd rfl hclear
    | _ => rfl
  · intro id schema error herror
    rcases session.compileDocument_cases id schema with
      ⟨compiled, -, -, hresult⟩ | ⟨type, -, hresult⟩ | ⟨other, -, hresult⟩
    · rw [hresult] at herror
      cases herror
    · rw [hresult] at herror
      cases herror
    · rw [hresult]

/-- After any requests the memory of a session makes no difference to what it
answers, and it holds one entry for each document compiled since it was
cleared, or none if the session is set to remember nothing. -/
theorem memory_transparent (table : TypeTable) (settings : Settings) (requests : List Request)
    (hproper : ∀ request ∈ requests, request.Proper) :
    Transparent table settings ((start table settings).afterAll requests) ∧
      ((start table settings).afterAll requests).cache.length =
        if settings.cacheDocuments then (compiledIds table settings requests).toFinset.card
        else 0 :=
  ⟨((faithful_start table settings).afterAll hproper).transparent, length_cache hproper⟩

/-- A document that is compiled again with its members in another order. -/
def repeated : List Request :=
  [.compileDocument "shapes#Label" labelled, .compileDocument "shapes#Label" labelled']

theorem memory_transparent_repeated :
    ((start ⟨[], []⟩ .standard).afterAll repeated).cache.length = 1 ∧
      SameAnswer
        (((start ⟨[], []⟩ .standard).afterAll repeated).compileDocument "shapes#Label" labelled').1
        (ResourceTypes.compile ⟨[], []⟩ 64 (some "shapes#Label") labelled') := by
  have hproper : ∀ request ∈ repeated, request.Proper := by
    simp [repeated, Request.Proper, labelled, labelled', Json.Proper, Json.ProperMembers,
      Members.names]
  obtain ⟨htransparent, hlength⟩ := memory_transparent ⟨[], []⟩ .standard repeated hproper
  refine ⟨hlength.trans rfl, htransparent.agrees _ _ (hproper _ (.tail _ (.head _)))⟩

end Session

end ResourceTypes
