import AgentDesktop.CopilotDocument
import AgentDesktop.JsonPlan

namespace AgentDesktop

/-- What `llmGateway.whenProxyUnavailable` asks for. -/
inductive ProxyUnavailable where
  | failClosed
  | failOpen
  deriving DecidableEq

def proxyMissing : String :=
  "local LLM proxy not available; see llmProxy.error in daemon-info, or set daemon.llmProxy.listen"

def failClosedReason : String :=
  proxyMissing ++
    "; the managed entries stay and the tool fails until the proxy is back (whenProxyUnavailable: failClosed)"

def failClosedNotInPlaceReason : String :=
  proxyMissing ++ "; no managed entries are in place, so the tool keeps its own settings until the proxy is back " ++
    "(whenProxyUnavailable: failClosed)"

def failOpenReason : String :=
  proxyMissing ++ "; the managed entries are removed until the proxy is back (whenProxyUnavailable: failOpen)"

def copilotName : String := "GitHub Copilot CLI"

def providersTarget (path : Path) : MergeTarget :=
  userTarget path "providers" copilotName providersOptions

/-- The pairing that a provider entry carries; `null` if it carries none. -/
def pairingOf (provider : Value) : Value :=
  ((provider.get "headers").bind fun headers => headers.get pairingHeaderName).getD .null

/-- A provider under a managed name with a pairing header: with the given pairing, or with any. -/
def paired (provider : Value) (pairing : Option String) : Bool :=
  underManagedName "name" provider &&
    match pairing with
    | some pairing => decide (pairingOf provider = .string pairing)
    | none => decide (pairingOf provider ≠ .null)

/-- The first entry under a managed key that no daemon wrote, as a reason for a conflict. -/
def foreignEntry (managed current : Value) : Option String :=
  let names := (elementsOf keyedProviders managed).filterMap (strAt "name")
  let written := ((elementsOf keyedProviders current).filter fun provider =>
    decide (pairingOf provider ≠ .null)).filterMap (strAt "name")
  let foreign name := names.contains name && !written.contains name
  match (elementsOf keyedProviders current).findSome? fun provider => (strAt "name" provider).filter foreign with
  | some name => some ("provider " ++ name ++ " exists but was not written by agentdesktop")
  | none =>
    (elementsOf keyedModels current).findSome? fun model =>
      match (strAt "provider" model).filter foreign, strAt "id" model with
      | some provider, some id =>
        some ("model " ++ provider ++ "/" ++ id ++
          " exists under a managed provider name that was not written by agentdesktop")
      | _, _ => none

/-- The document without the elements of an array that have one of the names under a key. -/
def withoutNamed (names : List String) (keyed : KeyedArray) (key : String) (document : Value) : Value :=
  modifyKeyedArray keyed (List.filter fun element => !(strAt key element).any names.contains) document

theorem withoutNamed_valid (names : List String) (keyed : KeyedArray) (key : String) {document : Value}
    (h : document.valid = true) : (withoutNamed names keyed key document).valid = true :=
  modifyKeyedArray_valid (fun _ _ => List.mem_of_mem_filter) h

/-- The document without the named providers and the models under them. -/
def withoutProviders (names : List String) (document : Json) : Json where
  value := withoutNamed names keyedModels "provider" (withoutNamed names keyedProviders "name" document.value)
  valid :=
    withoutNamed_valid names keyedModels "provider" (withoutNamed_valid names keyedProviders "name" document.valid)

/-- The names of the providers in a document that a daemon wrote, with the given pairing or with any. -/
def orphanedNames (pairing : Option String) (document : Value) : List String :=
  ((elementsOf keyedProviders document).filter (paired · pairing)).filterMap (strAt "name")

section

variable {β : Type} (codec : Codec β) (files : FileSystem β) (path : Path)

/-- The object in the file. Anything else is left to the merge. -/
def readObject (plan : ReconcilePlan β) : Except String (ReconcilePlan β × Option Json) :=
  match plan.read files path with
  | .error _ => .error ("read " ++ copilotName ++ " providers from " ++ displayPath path)
  | .ok (plan, none) => .ok (plan, none)
  | .ok (plan, some contents) =>
    .ok (plan, (codec.parse .json contents).filter fun document => document.value.isObject)

/-- Before the first write, an entry under a managed key that no daemon wrote is the user's. -/
def foreignManagedEntry (managed : Json) (plan : ReconcilePlan β) : Except String (ReconcilePlan β × Option String) :=
  match readState codec files (statePath path) copilotName plan with
  | .error error => .error error
  | .ok (plan, some _) => .ok (plan, none)
  | .ok (plan, none) =>
  match readObject codec files path plan with
  | .error error => .error error
  | .ok (plan, none) => .ok (plan, none)
  | .ok (plan, some current) => .ok (plan, foreignEntry managed.value current.value)

/-- A provider entry that a daemon wrote is in the file. -/
def inPlace (plan : ReconcilePlan β) : ReconcilePlan β × Bool :=
  match readObject codec files path plan with
  | .ok (plan, some current) => (plan, (elementsOf keyedProviders current.value).any (paired · none))
  | .ok (plan, none) => (plan, false)
  | .error _ => (plan, false)

variable [DecidableEq β] (host : Host)

/-- Removal without a sidecar. The file keeps its mode and is never deleted. -/
def planRemoveOrphaned (pairing : Option String) (plan : ReconcilePlan β) : Except String (ReconcilePlan β) :=
  match readObject codec files path plan with
  | .error _ => .ok plan
  | .ok (plan, none) => .ok plan
  | .ok (plan, some current) =>
    let orphaned := orphanedNames pairing current.value
    if orphaned.isEmpty then .ok plan
    else
      match plan.read files path with
      | .error _ => .error ("read " ++ displayPath path)
      | .ok (plan, existing) =>
        let contents := codec.print (withoutProviders orphaned current)
        if existing = some contents then .ok plan
        else
          (plan.recordDiff copilotName "providers" .update path none none).writeFile files path contents
            ((currentMode host files path).getD 0o600)

/-- Managed entries go through the sidecar if there is one, and by their pairing header if not. -/
def planProvidersRemoval (pairing : Option String) (plan : ReconcilePlan β) : Except String (ReconcilePlan β) :=
  match planRemoveWith codec host files (providersTarget path) plan with
  | .error error => .error error
  | .ok (plan, true) => .ok plan
  | .ok (plan, false) => planRemoveOrphaned codec files path host pairing plan

/-- What is planned for `providers.json`, whose directory is there. -/
def planProviders (proxy : Option (SocketAddr × String))
    (configured : Option (CopilotConfig × Option ProxyUnavailable)) (plan : ReconcilePlan β) :
    Except String (ReconcilePlan β) :=
  match configured, proxy with
  | some (config, some _), some (listen, pairing) =>
    let managed := managedDocument config listen pairing
    match foreignManagedEntry codec files path managed plan with
    | .error error => .error error
    | .ok (plan, some reason) =>
      .ok (plan.record files copilotName ("providers (" ++ reason ++ ")") .conflict path)
    | .ok (plan, none) => planMergeWith codec host files (providersTarget path) managed false plan
  | some (_, some .failClosed), none =>
    let (plan, there) := inPlace codec files path plan
    .ok { plan with inactive := some (if there then failClosedReason else failClosedNotInPlaceReason) }
  | some (_, some .failOpen), none =>
    planProvidersRemoval codec files path host none { plan with inactive := some failOpenReason }
  | _, _ => planProvidersRemoval codec files path host (proxy.map Prod.snd) plan

end

end AgentDesktop
