import McpShield.Error
import McpShield.Lib.Literal
import McpShield.Policy.Cedar

/-!
# The entities of a policy question

The strings of a question are spliced into Cedar source, which the policy engine reads back.  They
are put between quotes as they are, so a quote or a backslash in one of them makes Cedar read
something else, if it reads the source at all.
-/

open Literal

namespace McpShield

/-- The name of an entity: its type and its id. -/
structure EntityUid where
  typeName : String
  id : String
deriving DecidableEq

/-- A restricted expression: the set of the strings that a set literal lists, or anything else. -/
inductive RestrictedExpression where
  | strings (elements : List String)
  | other
deriving DecidableEq

/-- An entity without parents. -/
structure Entity where
  uid : EntityUid
  attrs : List (String × RestrictedExpression)
deriving DecidableEq

/-- What the authorizer uses of the `cedar-policy` crate to build entities.  Errors are texts. -/
structure CedarSyntax where
  escapes : Escapes
  parseEntityUid : String → Except String EntityUid
  parseRestrictedExpression : String → Except String RestrictedExpression
  attrsError : List (String × RestrictedExpression) → Option String

namespace CedarSyntax

/-- The documented syntax: an entity name has its id in a literal, the strings of a set are literals
between the other parts of its source, and a bracketed, comma-separated list of literals is the set
of their values, which lists them. -/
structure Documented (C : CedarSyntax) : Prop where
  uid : ∀ text euid, C.parseEntityUid text = .ok euid →
    Literals C.escapes text.toList [euid.id.toList]
  elements : ∀ text elements, C.parseRestrictedExpression text = .ok (.strings elements) →
    Literals C.escapes text.toList (elements.map String.toList)
  set : ∀ bodies values, List.Forall₂ (Body C.escapes) bodies values → ∀ expr,
    C.parseRestrictedExpression (String.ofList (bracketed bodies)) = .ok expr →
      expr = .strings (values.map String.ofList)

/-! ## Building entities -/

variable (C : CedarSyntax)

def parseEuid (euidStr : String) : Except CedarError EntityUid :=
  (C.parseEntityUid euidStr).mapError fun e =>
    .evaluationError s!"Invalid entity UID '{euidStr}': {e}"

/-- The name of an entity in Cedar source. -/
def uidText (typeName id : String) : String := s!"{typeName}::\"{id}\""

/-- The set of scopes in Cedar source. -/
def scopesText (scopes : List String) : String :=
  let scopeList := scopes.map fun s => s!"\"{s}\""
  let joined := ",".intercalate scopeList
  s!"[{joined}]"

/-- `Entity::new`. -/
def newEntity (uid : EntityUid) (attrs : List (String × RestrictedExpression)) :
    Except CedarError Entity :=
  match C.attrsError attrs with
  | some e => .error (.evaluationError e)
  | none => .ok { uid, attrs }

/-- Build the `Client` entity with its scopes. -/
def buildPrincipalEntity (principalId : String) (scopes : List String) :
    Except CedarError Entity := do
  let euid ← C.parseEuid (uidText "Client" principalId)
  let scopesSet ← (C.parseRestrictedExpression (scopesText scopes)).mapError .evaluationError
  C.newEntity euid [("scopes", scopesSet)]

def buildActionEntity (action : String) : Except CedarError Entity := do
  let euid ← C.parseEuid (uidText "Action" action)
  pure { uid := euid, attrs := [] }

/-- Build the `Tool` entity of a tool call, or a `Resource` entity. -/
def buildResourceEntity (resourceId : String) (isTool : Bool) : Except CedarError Entity := do
  let euid ← C.parseEuid (uidText (if isTool then "Tool" else "Resource") resourceId)
  pure { uid := euid, attrs := [] }

/-- The entities of a question. -/
structure RequestEntities where
  principal : Entity
  action : Entity
  resource : Entity
deriving DecidableEq

/-- The scopes in the context of a question. -/
def requestScopes (request : AuthorizationRequest) : List String :=
  (((request.context.lookup "scopes").bind Value.asArray).map fun arr =>
    arr.filterMap Value.asStr).getD []

/-- The first part of `evaluate`. -/
def buildEntities (request : AuthorizationRequest) : Except CedarError RequestEntities := do
  let principal ← C.buildPrincipalEntity request.principal (requestScopes request)
  let action ← C.buildActionEntity request.action
  let isToolCall := request.action == "tools/call"
  let resource ← C.buildResourceEntity request.resource isToolCall
  pure { principal, action, resource }

/-! ## Faithful entities -/

/-- The entities carry the strings of the question. -/
structure Faithful (request : AuthorizationRequest) (entities : RequestEntities) : Prop where
  principal : entities.principal.uid.id = request.principal
  action : entities.action.uid.id = request.action
  resource : entities.resource.uid.id = request.resource
  scopes : ∃ elements, entities.principal.attrs = [("scopes", .strings elements)] ∧
    ∀ scope, scope ∈ elements ↔ scope ∈ requestScopes request

/-- The type of the resource entity. -/
def resourceType (request : AuthorizationRequest) : String :=
  if request.action == "tools/call" then "Tool" else "Resource"

/-- Cedar accepts the source of the entities. -/
def Accepts (request : AuthorizationRequest) : Prop :=
  (∃ euid, C.parseEntityUid (uidText "Client" request.principal) = .ok euid) ∧
    (∃ expr, C.parseRestrictedExpression (scopesText (requestScopes request)) = .ok expr ∧
      C.attrsError [("scopes", expr)] = none) ∧
    (∃ euid, C.parseEntityUid (uidText "Action" request.action) = .ok euid) ∧
    ∃ euid, C.parseEntityUid (uidText (resourceType request) request.resource) = .ok euid

/-- None of the strings of a question has a quote or a backslash. -/
def CleanRequest (request : AuthorizationRequest) : Prop :=
  Clean request.principal.toList ∧ Clean request.action.toList ∧ Clean request.resource.toList ∧
    ∀ scope ∈ requestScopes request, Clean scope.toList

instance (request : AuthorizationRequest) : Decidable (CleanRequest request) :=
  inferInstanceAs (Decidable (_ ∧ _ ∧ _ ∧ _))

variable {C} {request : AuthorizationRequest} {entities : RequestEntities}

theorem parseEuid_eq_ok_iff {text : String} {euid : EntityUid} :
    C.parseEuid text = .ok euid ↔ C.parseEntityUid text = .ok euid :=
  mapError_eq_ok_iff

theorem newEntity_eq_ok_iff {uid : EntityUid} {attrs : List (String × RestrictedExpression)}
    {entity : Entity} :
    C.newEntity uid attrs = .ok entity ↔ C.attrsError attrs = none ∧ { uid, attrs } = entity := by
  unfold newEntity
  cases C.attrsError attrs <;> simp

/-- The entities are what Cedar reads from the four texts. -/
theorem buildEntities_eq_ok_iff : C.buildEntities request = .ok entities ↔
    ∃ client expr action resource,
      C.parseEntityUid (uidText "Client" request.principal) = .ok client ∧
      C.parseRestrictedExpression (scopesText (requestScopes request)) = .ok expr ∧
      C.attrsError [("scopes", expr)] = none ∧
      C.parseEntityUid (uidText "Action" request.action) = .ok action ∧
      C.parseEntityUid (uidText (resourceType request) request.resource) = .ok resource ∧
      entities = ⟨⟨client, [("scopes", expr)]⟩, ⟨action, []⟩, ⟨resource, []⟩⟩ := by
  simp only [buildEntities, buildPrincipalEntity, buildActionEntity, buildResourceEntity,
    bind_eq_ok_iff, parseEuid_eq_ok_iff, mapError_eq_ok_iff, newEntity_eq_ok_iff, pure,
    Except.pure, Except.ok.injEq, resourceType]
  constructor
  · rintro ⟨_, ⟨client, hclient, expr, hexpr, hattrs, rfl⟩, _, ⟨action, haction, rfl⟩, _,
      ⟨resource, hresource, rfl⟩, rfl⟩
    exact ⟨client, expr, action, resource, hclient, hexpr, hattrs, haction, hresource, rfl⟩
  · rintro ⟨client, expr, action, resource, hclient, hexpr, hattrs, haction, hresource, rfl⟩
    exact ⟨_, ⟨client, hclient, expr, hexpr, hattrs, rfl⟩, _, ⟨action, haction, rfl⟩, _,
      ⟨resource, hresource, rfl⟩, rfl⟩

theorem exists_buildEntities_iff :
    (∃ entities, C.buildEntities request = .ok entities) ↔ C.Accepts request := by
  simp only [buildEntities_eq_ok_iff, Accepts]
  constructor
  · rintro ⟨_, client, expr, action, resource, hclient, hexpr, hattrs, haction, hresource, -⟩
    exact ⟨⟨client, hclient⟩, ⟨expr, hexpr, hattrs⟩, ⟨action, haction⟩, resource, hresource⟩
  · rintro ⟨⟨client, hclient⟩, ⟨expr, hexpr, hattrs⟩, ⟨action, haction⟩, resource, hresource⟩
    exact ⟨_, client, expr, action, resource, hclient, hexpr, hattrs, haction, hresource, rfl⟩

/-! ## Reading back -/

theorem toList_uidText (typeName id : String) :
    (uidText typeName id).toList =
      (typeName.toList ++ "::".toList) ++ '"' :: (id.toList ++ ['"']) := by
  show (typeName ++ "::\"" ++ id ++ "\"").toList = _
  simp

/-- The id of an accepted name is the string that has been spliced exactly when the string is
clean. -/
theorem Documented.id_eq_iff (hC : C.Documented) {typeName id : String} {euid : EntityUid}
    (htype : '"' ∉ typeName.toList) (h : C.parseEntityUid (uidText typeName id) = .ok euid) :
    euid.id = id ↔ Clean id.toList := by
  have hliteral := hC.uid _ _ h
  rw [toList_uidText] at hliteral
  have hbefore : '"' ∉ typeName.toList ++ "::".toList := by simpa using htype
  rw [← literal_eq_iff hbefore hliteral, String.toList_inj]

theorem scopesText_eq (scopes : List String) :
    scopesText scopes = String.ofList (bracketed (scopes.map String.toList)) := by
  have hquoted : (scopes.map fun s => "\"" ++ s ++ "\"").map String.toList =
      (scopes.map String.toList).map quoted := by
    simp [quoted, Function.comp_def]
  rw [← String.toList_inj, String.toList_ofList (l := bracketed _)]
  show ("[" ++ ",".intercalate (scopes.map fun s => "\"" ++ s ++ "\"") ++ "]").toList = _
  rw [String.toList_append, String.toList_append, String.toList_intercalate, hquoted]
  rfl

/-- The set that is accepted has the scopes that have been spliced exactly when these are clean. -/
theorem Documented.scopes_iff (hC : C.Documented) {scopes : List String}
    {expr : RestrictedExpression}
    (h : C.parseRestrictedExpression (scopesText scopes) = .ok expr) :
    (∃ elements, expr = .strings elements ∧ ∀ scope, scope ∈ elements ↔ scope ∈ scopes) ↔
      ∀ scope ∈ scopes, Clean scope.toList := by
  constructor
  · rintro ⟨elements, rfl, hsame⟩
    have hliterals := hC.elements _ _ h
    rw [scopesText_eq, String.toList_ofList] at hliterals
    have hclean := clean_of_literals hliterals fun s => by simp [hsame]
    exact List.forall_mem_map.mp hclean
  · intro hclean
    have hbodies : List.Forall₂ (Body C.escapes) (scopes.map String.toList)
        (scopes.map String.toList) := by
      rw [List.forall₂_same]
      exact List.forall_mem_map.mpr fun scope hmem => body_of_clean (hclean scope hmem)
    rw [scopesText_eq] at h
    refine ⟨scopes, ?_, fun _ => Iff.rfl⟩
    rw [hC.set _ _ hbodies expr h, List.map_map]
    simp [Function.comp_def]

theorem not_quote_resourceType (request : AuthorizationRequest) :
    '"' ∉ (resourceType request).toList := by
  unfold resourceType
  split_ifs <;> decide

/-- If Cedar accepts the source of the entities, they are faithful exactly when the strings of the
question are clean. -/
theorem Documented.faithful_iff (hC : C.Documented)
    (h : C.buildEntities request = .ok entities) :
    Faithful request entities ↔ CleanRequest request := by
  obtain ⟨client, expr, action, resource, hclient, hexpr, -, haction, hresource, rfl⟩ :=
    buildEntities_eq_ok_iff.mp h
  rw [CleanRequest, ← hC.id_eq_iff (by decide) hclient, ← hC.id_eq_iff (by decide) haction,
    ← hC.id_eq_iff (not_quote_resourceType request) hresource, ← hC.scopes_iff hexpr]
  constructor
  · rintro ⟨hprincipal, haction, hresource, elements, hattrs, hsame⟩
    exact ⟨hprincipal, haction, hresource, elements, by simpa using hattrs, hsame⟩
  · rintro ⟨hprincipal, haction, hresource, elements, rfl, hsame⟩
    exact ⟨hprincipal, haction, hresource, elements, rfl, hsame⟩

/-- The entities that are built are faithful exactly when Cedar rejects their source or the strings
of the question are clean. -/
theorem translation_faithful_iff (hC : C.Documented) (request : AuthorizationRequest) :
    (∀ entities, C.buildEntities request = .ok entities → Faithful request entities) ↔
      (C.Accepts request → CleanRequest request) := by
  rw [← exists_buildEntities_iff]
  constructor
  · rintro h ⟨entities, hbuild⟩
    exact (hC.faithful_iff hbuild).mp (h entities hbuild)
  · exact fun h entities hbuild => (hC.faithful_iff hbuild).mpr (h ⟨entities, hbuild⟩)

/-! ## A Cedar reader -/

/-- The escape sequences of one character. -/
def unescape : Char → Option Char
  | '"' => some '"'
  | '\\' => some '\\'
  | '\'' => some '\''
  | 'n' => some '\n'
  | 'r' => some '\r'
  | 't' => some '\t'
  | '0' => some (Char.ofNat 0)
  | _ => none

theorem eq_slash_of_unescape (c : Char) (h : unescape c = some '\\') : c = '\\' := by
  unfold unescape at h
  split at h <;> first | rfl | exact absurd h (by decide)

/-- A reader of entity names and of sets of strings without blanks, with the escape sequences of one
character. -/
def plainCedar : CedarSyntax where
  escapes := .ofChars unescape eq_slash_of_unescape
  parseEntityUid text :=
    let typeChars := text.toList.takeWhile (· ≠ '"')
    match text.toList.dropWhile (· ≠ '"') with
    | '"' :: rest =>
        match readBody unescape rest with
        | some (v, []) =>
            if typeChars = [] then .error "missing type"
            else .ok { typeName := String.ofList (typeChars.dropLast.dropLast)
                       id := String.ofList v }
        | _ => .error "invalid literal"
    | _ => .error "missing literal"
  parseRestrictedExpression text :=
    match readList unescape text.toList with
    | some vs => .ok (.strings (vs.map String.ofList))
    | none => .error "not a set of strings"
  attrsError _ := none

theorem documented_plainCedar : plainCedar.Documented where
  uid text euid h := by
    simp only [plainCedar] at h
    split at h
    · next rest hdrop =>
      split at h
      · next v hread =>
        split_ifs at h with htype
        obtain rfl := Except.ok.inj h
        obtain ⟨body, rfl, hbody⟩ := readBody_sound eq_slash_of_unescape hread
        rw [← List.takeWhile_append_dropWhile (p := (· ≠ '"')) (l := text.toList), hdrop,
          String.toList_ofList]
        exact .cons htype hbody (.nil [])
      · cases h
    · cases h
  elements text elements h := by
    simp only [plainCedar] at h
    split at h
    · next vs hread =>
      obtain rfl := RestrictedExpression.strings.inj (Except.ok.inj h)
      have hvs : (vs.map String.ofList).map String.toList = vs := by simp [Function.comp_def]
      rw [hvs]
      exact readList_sound eq_slash_of_unescape hread
    · cases h
  set bodies values hbodies expr h := by
    have hread := readList_complete eq_slash_of_unescape hbodies
    simp only [plainCedar, String.toList_ofList, hread] at h
    exact (Except.ok.inj h).symm

/-- A question with some scopes about a tool call. -/
def toolQuestion (principal : String) (scopes : List String) : AuthorizationRequest :=
  { principal, action := "tools/call", resource := "com.example:echo"
    context := AList.insert "scopes" (.ofStrings scopes) ∅ }

theorem translation_faithful_toolQuestion :
    (∀ entities, plainCedar.buildEntities (toolQuestion "mcp:tools:call" ["mcp:tools:call"]) =
        .ok entities → Faithful (toolQuestion "mcp:tools:call" ["mcp:tools:call"]) entities) ↔
      (plainCedar.Accepts (toolQuestion "mcp:tools:call" ["mcp:tools:call"]) →
        CleanRequest (toolQuestion "mcp:tools:call" ["mcp:tools:call"])) :=
  translation_faithful_iff documented_plainCedar _

/-- One granted scope is read back as two, of which the second is the administrator's. -/
theorem scope_grants_another :
    plainCedar.Documented ∧
      ¬ ∀ entities, plainCedar.buildEntities
          (toolQuestion "mcp:tools:read" ["mcp:tools:read\",\"mcp:admin"]) = .ok entities →
        Faithful (toolQuestion "mcp:tools:read" ["mcp:tools:read\",\"mcp:admin"]) entities := by
  refine ⟨documented_plainCedar, fun h => ?_⟩
  have hbuild : plainCedar.buildEntities
      (toolQuestion "mcp:tools:read" ["mcp:tools:read\",\"mcp:admin"]) =
      .ok ⟨⟨⟨"Client", "mcp:tools:read"⟩, [("scopes", .strings ["mcp:tools:read", "mcp:admin"])]⟩,
        ⟨⟨"Action", "tools/call"⟩, []⟩, ⟨⟨"Tool", "com.example:echo"⟩, []⟩⟩ := by
    rfl
  obtain ⟨elements, hattrs, hsame⟩ := (h _ hbuild).scopes
  obtain rfl : ["mcp:tools:read", "mcp:admin"] = elements := by simpa using hattrs
  exact absurd ((hsame "mcp:admin").mp (by simp)) (by decide)

end CedarSyntax

end McpShield
