import AccessPlan.Json.Writer
import AccessPlan.Policy.Diff
import AccessPlan.Policy.Resolution
import AccessPlan.Principal.Rotation
import AccessPlan.Service.Path

/-!
# The service

The resolution as a service: a request has a method, a target and a body, and is answered with a status and a body.
Errors of a resolution become answers; every other failure is left to the caller.

* `Route` lists what can be asked for; `Route.ofPath?` finds the route of a path.
* `Service.handle` answers one request. Resolutions are limited; they are counted on every path by itself
  (`Tally`).
-/

namespace AccessPlan.Service

open Schema (Reader Fault)

/-- What can be asked for. -/
inductive Route where
  | about
  | health
  | resolve
  | diff
  | roleNames
  | environmentRoles (environment persona : String)
  | resourceTypeRoles (resourceType persona : String)
  | rotate
  deriving DecidableEq, Repr

namespace Route

/-- A fixed path. -/
def fixed (segments : List String) : List Segment := segments.map .fixed

/-- The patterns of the paths, each with the route of its parameters. -/
def patterns : List (List Segment × (List String → Route)) := [
  (fixed [""], fun _ => about),
  (fixed ["health"], fun _ => health),
  (fixed ["policy", "resolve"], fun _ => resolve),
  (fixed ["policy", "diff"], fun _ => diff),
  (fixed ["roles"], fun _ => roleNames),
  (fixed ["roles", "environments"] ++ [.parameter, .parameter],
    fun texts => environmentRoles (texts.getD 0 "") (texts.getD 1 "")),
  (fixed ["roles", "resource-types"] ++ [.parameter, .parameter],
    fun texts => resourceTypeRoles (texts.getD 0 "") (texts.getD 1 "")),
  (fixed ["service-principals", "credentials", "rotate"], fun _ => rotate)]

/-- The route of a path. -/
def ofPath? (path : List Char) : Option Route :=
  patterns.findSome? fun (pattern, route) => (matchPath pattern path).map route

def method : Route → String
  | resolve => "POST"
  | diff => "POST"
  | rotate => "POST"
  | _ => "GET"

end Route

/-- A request. Its parts are ordinary strings. -/
structure Request where
  method : String
  target : String
  body : String

/-- A status and a body; `null` stands for no body. -/
structure Response where
  status : Nat
  body : Json

/-- What a fault is reported under. An index and a text are different, though they may be written alike. -/
inductive Label where
  | index (i : Nat)
  | text (s : String)
  deriving DecidableEq, Repr

namespace Label

def written : Label → String
  | index i => toString i
  | text s => s

/-- Texts that begin like names of internal state are not reported. -/
def isInternal : Label → Bool
  | index _ => false
  | text s => "_sa".toList.isPrefixOf s.toList

end Label

namespace Response

def ok (body : Json) : Response := ⟨200, body⟩

def detail (status : Nat) (text : String) : Response := ⟨status, .obj [("detail", .str text)]⟩

/-- What a fault is reported under: the last step of its place. The body itself is the place of a fault without steps,
and a step that is called `__root__` is reported as `root`. -/
def faultLabel (f : Fault) : Label :=
  match f.path.getLast? with
  | none => .text "body"
  | some (.item index) => .index index
  | some step => .text (if step.text = "__root__" then "root" else step.text)

/-- The labels of faults with their messages. A later fault with one label replaces an earlier one. -/
def labelled (faults : List Fault) : List (Label × String) :=
  faults.foldl (fun entries f => withEntry entries (faultLabel f) f.cause.message) []

/-- The answer to a request with faults: a message for the last step of every place. Labels that are written alike
become one field, and the last one counts. -/
def ofFaults (faults : List Fault) : Except Failure Response :=
  match Schema.loneHalves? faults with
  | some halves => .error (.unencodable halves)
  | none =>
    let shown := (labelled faults).filter fun e => !e.1.isInternal
    .ok ⟨400, .obj (shown.foldl (fun fields e => withEntry fields e.1.written (.str e.2)) [])⟩

/-- The status of an error of a resolution. -/
def statusOf : ErrorKind → Nat
  | .config => 400
  | .roleLookup => 404
  | .reference => 422
  | .cardinality => 500
  | .general => 400

/-- The answer to a request that could not be served. Only errors of a resolution have one. -/
def ofFailure : Failure → Except Failure Response
  | .policy e => .ok ⟨statusOf e.report.kind, e.report.toJson⟩
  | f => .error f

def ofResult (r : Except Failure Json) : Except Failure Response :=
  match r with
  | .ok body => .ok (.ok body)
  | .error f => ofFailure f

end Response

/-! ## Bodies of requests -/

structure ResolveBody where
  config : PolicyConfig
  context : Option Context

def ResolveBody.read (clock : Calendar.Timestamp) : Reader ResolveBody :=
  .record .request "PolicyRequest" fun j =>
    ResolveBody.mk
      <$> Reader.required "config" (PolicyConfig.read .request) j
      <*> Reader.optional "context" (Context.read clock .request) j

structure DiffBody where
  previous : ResolvedPolicy
  current : ResolvedPolicy

def DiffBody.read : Reader DiffBody :=
  .record .request "PolicyDiffRequest" fun j =>
    DiffBody.mk
      <$> Reader.required "previous" (ResolvedPolicy.read .request) j
      <*> Reader.required "current" (ResolvedPolicy.read .request) j

structure RotateBody where
  credentials : List Credential
  rotationDays : Option Int
  renewWithinDays : Option Int
  now : Option Calendar.Timestamp

def RotateBody.read : Reader RotateBody :=
  .record .request "CredentialRotationRequest" fun j =>
    RotateBody.mk
      <$> Reader.required "credentials" (.listOf (Credential.read .request)) j
      <*> Reader.optional "rotation_days" .integer j
      <*> Reader.optional "renew_within_days" .integer j
      <*> Reader.optional "now" .timestampUtc j

/-- The answer to a body that is given up: its bytes are ill formed, or a limit of the reader is met. -/
def unreadableBody : Response := .detail 400 "There was an error parsing the body"

/-- The checked body of a request, or else the answer that says what is wrong with it. -/
def readBody {α : Type} (read : Reader α) (body : String) : Except (Except Failure Response) α :=
  if body = "" then .error (Response.ofFaults [⟨[], .missing⟩])
  else match Json.readBody body with
    | none => .error (.ok unreadableBody)
    | some (.error e) =>
      .error (.ok (if e.cause.isLimit then unreadableBody
        else ⟨400, .obj [(toString e.position, .str "JSON decode error")]⟩))
    | some (.ok j) => (read j).toExcept Response.ofFaults

/-! ## Answers -/

/-- What the service is, and where its pages of documentation are. -/
def about (settings : Settings) : Json := .obj [
  ("message", .str "RBAC Compiler API"),
  ("version", .str "0.1.0"),
  ("status", .str "online"),
  ("docs", if settings.showsDocs then .str "/docs" else .null),
  ("features", .obj [
    ("policy", .str "Resolve a policy configuration into groups, memberships and single-role assignments"),
    ("roles", .str "Built-in role tables by environment and resource type"),
    ("service_principals", .str "Credential rotation for resolved service principals")])]

def roleNames : Json := .obj [
  ("environments", .ofTexts RoleBook.builtin.environments.names),
  ("resource_types", .ofTexts RoleBook.builtin.resourceTypes.names)]

def roleList (persona : Persona) (environment resourceType : Option String) (roles : List String) : Json := .obj [
  ("persona", .str persona.name),
  ("environment", .ofOption environment),
  ("resource_type", .ofOption resourceType),
  ("roles", .ofTexts roles)]

/-- The answer for a persona of the path, which has to be one. -/
def withPersona (name : String) (answer : Persona → Except Failure Json) : Except Failure Response :=
  match Persona.read (.str name) with
  | .faulty faults => Response.ofFaults (faults.map (·.under (.field "persona")))
  | .ok p => Response.ofResult (answer p)

def environmentRoles (environment persona : String) : Except Failure Response :=
  withPersona persona fun p => do
    let roles ← RoleBook.builtin.environmentRoles (some environment) p
    return roleList p (some environment) none roles

def resourceTypeRoles (resourceType persona : String) : Except Failure Response :=
  withPersona persona fun p => do
    let roles ← RoleBook.builtin.resourceTypeRoles resourceType p
    return roleList p none (some resourceType) roles

/-- The document of a configuration, in the context of the request or else of the settings. -/
def resolved (settings : Settings) (b : ResolveBody) : Except Failure Json := do
  let context ← match b.context with
    | some c => pure c
    | none => Context.ofSettings settings (.ofOption b.config.tenantId) none
  (← resolve b.config context).document true

def rotated (settings : Settings) (b : RotateBody) : Except Failure Json := do
  let context ← Context.ofSettings settings .null b.now
  return (← rotate b.credentials context (b.rotationDays.map .int) (b.renewWithinDays.map .int)).toJson

def diffed (b : DiffBody) : Json := .obj [("changes", (PolicyDiff.between b.previous b.current).changesJson)]

/-- How many resolutions are served on one path. -/
def resolveLimit : Nat := 60

/-- The resolutions that were served, by the paths they were asked for on. -/
abbrev Tally := List (List Char × Nat)

/-- The number of resolutions that were served on a path. -/
def Tally.count (t : Tally) (path : List Char) : Nat := (t.lookup path).getD 0

/-- The tally after one more resolution on a path. -/
def Tally.increment (t : Tally) (path : List Char) : Tally := withEntry t path (t.count path + 1)

/-- The answer on a route whose method fits, and the tally after it. -/
def serve (settings : Settings) (tally : Tally) (path : List Char) (body : String) :
    Route → Except Failure Response × Tally
  | .about => (.ok (.ok (about settings)), tally)
  | .health => (.ok (.ok (.obj [("status", .str "healthy")])), tally)
  | .roleNames => (.ok (.ok roleNames), tally)
  | .environmentRoles environment persona => (environmentRoles environment persona, tally)
  | .resourceTypeRoles resourceType persona => (resourceTypeRoles resourceType persona, tally)
  | .diff =>
    match readBody DiffBody.read body with
    | .error answer => (answer, tally)
    | .ok b => (.ok (.ok (diffed b)), tally)
  | .rotate =>
    match readBody RotateBody.read body with
    | .error answer => (answer, tally)
    | .ok b => (Response.ofResult (rotated settings b), tally)
  | .resolve =>
    match readBody (ResolveBody.read settings.clock) body with
    | .error answer => (answer, tally)
    | .ok b =>
      if tally.count path < resolveLimit then (Response.ofResult (resolved settings b), tally.increment path)
      else (.ok ⟨429, .obj [("error", .str "You are going too fast")]⟩, tally)

/-- The first halves of surrogate pairs in a value, counted in the text that holds them. The names of the fields of what
was asked for hold none. -/
def firstHalves? (j : Json) : Option Text.LoneHalves := j.allTexts.findSome? Text.loneHalves?

/-- An answer goes out as bytes. What was asked for is written text by text, a refusal as a whole. -/
def sent (r : Response) : Except Failure Response :=
  if r.status = 200 then
    match firstHalves? r.body with
    | some halves => .error (.unwritable halves)
    | none => .ok r
  else
    match Text.loneHalves? r.body.text with
    | some halves => .error (.unencodable halves)
    | none => .ok r

/-- The answer to a request, before it is sent, and the tally after it. A path that would match with or without a slash
at its end is redirected. -/
def respond (settings : Settings) (tally : Tally) (r : Request) : Except Failure Response × Tally :=
  let path := pathOf r.target
  match Route.ofPath? path with
  | some route =>
    if r.method = route.method then serve settings tally path r.body route
    else (.ok (.detail 405 "Method Not Allowed"), tally)
  | none =>
    if (Route.ofPath? (alternative path)).isSome then (.ok ⟨307, .null⟩, tally)
    else (.ok (.detail 404 "Not Found"), tally)

/-- The answer to a request and the tally after it. -/
def handle (settings : Settings) (tally : Tally) (r : Request) : Except Failure Response × Tally :=
  let (answer, tally) := respond settings tally r
  (answer >>= sent, tally)

end AccessPlan.Service
