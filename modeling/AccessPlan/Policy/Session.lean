import AccessPlan.Policy.Diff
import AccessPlan.Policy.Resolution
import AccessPlan.Principal.Rotation

/-!
# Sessions

A session keeps policies in named slots and works on them by commands. A command that fails leaves all slots as they
are.

* `Session.answer` is the answer to a command together with the slots after it; `Session.run` goes through commands.
-/

namespace AccessPlan

open Calendar (Timestamp)

/-- Where a policy comes from: a configuration with a context, or a document. None of them has been checked. -/
inductive PolicySource where
  | configuration (config : Option Json) (context : Json)
  | document (document : Json)

namespace PolicySource

def policy (settings : Settings) : PolicySource → Except Failure ResolvedPolicy
  | configuration config context => do
    let context ← Context.ofJson settings.clock context
    resolveJson (← Failure.require "config" config) (some context) settings
  | document d => ResolvedPolicy.ofDocument d

end PolicySource

/-- What a session is told to do. Optional arguments may have been left out. -/
inductive Command where
  | load (slot : Json) (source : PolicySource)
  | diff (previous current : Option Json)
  | setSecret (slot : Json) (key secret : Option Json)
  | rotate (slot target : Json) (request : RotationRequest)
  | document (slot : Json) (maskSecrets : Bool)
  | stages (slot : Json)
  /-- Reads the document of a slot into another one. -/
  | reload (slot : Json) (target : Option Json) (maskSecrets : Bool)

inductive Answer where
  /-- The number of different keys of every kind. -/
  | counts (numbers : List (EntityKind × Nat))
  | diff (diff : PolicyDiff)
  /-- The secrets of all credentials. -/
  | secrets (values : List (Option Json))
  | rotation (rotation : Rotation)
  | document (document : Json)
  | stages (stages : List Stage)
  /-- Whether a reloaded policy is the same as before. -/
  | same (isSame : Bool)

inductive CommandFailure where
  | failed (failure : Failure)
  /-- There is no policy in the slot. -/
  | noSlot (slot : Json)

/-- Policies by their slots. A slot is named by any value that can be looked up. -/
abbrev Session := List (Json × ResolvedPolicy)

namespace Session

def checkSlot (slot : Json) : Except CommandFailure Unit :=
  if slot.isKey then .ok () else .error (.failed (.misfit (.noKey slot)))

def policy (s : Session) (slot : Json) : Except CommandFailure ResolvedPolicy := do
  checkSlot slot
  match s.lookup slot with
  | some p => return p
  | none => throw (.noSlot slot)

/-- The slots with a policy in one of them. -/
def store (s : Session) (slot : Json) (p : ResolvedPolicy) : Except CommandFailure Session := do
  checkSlot slot
  return withEntry s slot p

def keyCounts (p : ResolvedPolicy) : List (EntityKind × Nat) :=
  EntityKind.all.map fun k => (k, (p.keys k).eraseDups.length)

/-- The value of an argument that is needed. -/
def require (name : String) (value : Option Json) : Except CommandFailure Json :=
  (Failure.require name value).mapError .failed

/-- The answer to a command and the slots after it. -/
def answer (settings : Settings) (s : Session) : Command → Except CommandFailure (Answer × Session)
  | .load slot source => do
    let p ← (source.policy settings).mapError .failed
    return (.counts (keyCounts p), ← s.store slot p)
  | .diff previous current => do
    let p ← s.policy (← require "previous" previous)
    let q ← s.policy (← require "current" current)
    return (.diff (.between p q), s)
  | .setSecret slot key secret => do
    let p ← ((← s.policy slot).withSecret key secret).mapError .failed
    return (.secrets (p.credentials.map Credential.secret), ← s.store slot p)
  | .rotate slot target request => do
    let p ← s.policy slot
    let r ← (request.answer settings.clock p.credentials).mapError .failed
    return (.rotation r, ← s.store target { p with credentials := r.credentials })
  | .document slot maskSecrets => do
    return (.document (← ((← s.policy slot).document maskSecrets).mapError .failed), s)
  | .stages slot => do return (.stages (← s.policy slot).stages, s)
  | .reload slot target maskSecrets => do
    let p ← s.policy slot
    let q ← (p.document maskSecrets >>= ResolvedPolicy.ofDocument).mapError .failed
    return (.same (p.same q), ← s.store (← require "as" target) q)

/-- The answers to commands in turn, of which some may not have been understood. -/
def run (settings : Settings) : Session → List (Except Failure Command) → List (Except CommandFailure Answer)
  | _, [] => []
  | s, c :: cs =>
    match c.mapError .failed >>= s.answer settings with
    | .ok (a, s) => .ok a :: run settings s cs
    | .error f => .error f :: run settings s cs

end Session

end AccessPlan
