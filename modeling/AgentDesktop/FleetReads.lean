import AgentDesktop.FleetStore

namespace AgentDesktop

structure DeviceSummary where
  id : String
  hostname : String
  os : String
  architecture : String
  agentVersion : String
  createdAt : Int
  lastSeenAt : Option Int
  enrolledByIssuer : String
  enrolledBySubject : String
  enrolledByName : Option String
  configRevision : Option Int
  configState : Option Int
  configError : Option String
  configUpdatedAt : Option Int
  discoveryCount : Nat
  installedTools : List String
  deriving DecidableEq

def DeviceSummary.withTools (device : DeviceSummary) (installedTools : List String) : DeviceSummary :=
  { device with installedTools }

structure DeviceDiscovery where
  kind : String
  version : String
  path : String
  mcpServers : List McpServer
  skills : List Skill
  deriving DecidableEq

structure TelemetryEventRecord where
  id : String
  timestampUnixMs : Int
  eventType : String
  payload : Json
  deriving DecidableEq

structure ProgramStatusRecord where
  program : String
  state : String
  detail : String
  revision : Int
  updatedAt : Int
  deriving DecidableEq

structure DeviceDetail where
  device : DeviceSummary
  discoveries : List DeviceDiscovery
  modelRuntimes : List ModelRuntime
  recentEvents : List TelemetryEventRecord
  programs : List ProgramStatusRecord
  programsReported : Option Bool
  deriving DecidableEq

structure DevicePrincipal where
  issuer : String
  subject : String
  idpClaims : Option Json
  deriving DecidableEq

/-- The stored name of a program state; values this controller does not know are
`unspecified`. -/
def programStateName (state : Int) : String :=
  if state = 1 then "applied"
  else if state = 2 then "unchanged"
  else if state = 3 then "removed"
  else if state = 4 then "conflict"
  else if state = 5 then "inactive"
  else if state = 6 then "blocked"
  else if state = 8 then "opted_out"
  else if state = 7 then "failed"
  else "unspecified"

def nonEmptyString : Value → Option String
  | .string s => if s = "" then none else some s
  | _ => none

/-- The first of `email`, `preferred_username` and `name` that is a text and not empty. -/
def claimedName (claims : Json) : Option String :=
  ["email", "preferred_username", "name"].findSome? fun claim => (claims.value.get claim).bind nonEmptyString

def readableName {Text : Type} (text : JsonText Text) (idpClaims : Text) : Option String :=
  (text.value.decode idpClaims).bind claimedName

namespace FleetStore

variable {Text : Type}

open SqlTable

abbrev JoinedRow (Text : Type) := (DeviceRow Text × Option ConfigStatusRow) × Option (DiscoveryRow Text)

/-- The device columns and the status columns that the joined rows are grouped by. -/
abbrev GroupedColumns (Text : Type) := DeviceRow Text × Option (Int × Int × String × Int)

def statusColumns (status : ConfigStatusRow) : Int × Int × String × Int :=
  (status.revision, status.state, status.error, status.updatedAt)

def groupedColumns (row : JoinedRow Text) : GroupedColumns Text :=
  (row.1.1, row.1.2.map statusColumns)

/-- `devices` with the status and the discoveries of each device. -/
def joinedRows (store : FleetStore Text) : List (JoinedRow Text) :=
  leftJoin (fun row discovery => decide (discovery.deviceId = row.1.id))
    (leftJoin (fun device status => decide (status.deviceId = device.id)) store.devices store.configStatuses)
    store.discoveries

/-- The rows of the devices that pass a test, with `COUNT(x.kind)`. -/
def deviceQuery [DecidableEq Text] (store : FleetStore Text) (test : DeviceRow Text → Bool) :
    List (GroupedColumns Text × Nat) :=
  (groupBy groupedColumns (store.joinedRows.filter fun row => test row.1.1)).map fun group =>
    (group.1, (group.2.filter fun row => row.2.isSome).length)

def deviceSummary (text : JsonText Text) (row : GroupedColumns Text × Nat) : DeviceSummary where
  id := row.1.1.id
  hostname := row.1.1.hostname
  os := row.1.1.os
  architecture := row.1.1.architecture
  agentVersion := row.1.1.agentVersion
  createdAt := row.1.1.createdAt
  lastSeenAt := row.1.1.lastSeenAt
  enrolledByIssuer := row.1.1.enrolledByIssuer
  enrolledBySubject := row.1.1.enrolledBySubject
  enrolledByName := row.1.1.idpClaimsJson.bind (readableName text)
  configRevision := row.1.2.map (·.1)
  configState := row.1.2.map (·.2.1)
  configError := row.1.2.map (·.2.2.1)
  configUpdatedAt := row.1.2.map (·.2.2.2)
  discoveryCount := row.2
  installedTools := []

/-- Decodes rows in their order, up to the first that cannot be. -/
def decodeAll {ρ α : Type} (decode : ρ → Except DatabaseError α) : List ρ → Except DatabaseError (List α)
  | [] => .ok []
  | row :: rest =>
    match decode row with
    | .error error => .error error
    | .ok first =>
      match decodeAll decode rest with
      | .error error => .error error
      | .ok values => .ok (first :: values)

def deviceDiscovery (text : JsonText Text) (row : DiscoveryRow Text) : Except DatabaseError DeviceDiscovery :=
  match text.servers.decode row.mcpServersJson with
  | none => .error (.invalid "decode discovered MCP servers")
  | some mcpServers =>
    match text.skills.decode row.skillsJson with
    | none => .error (.invalid "decode discovered skills")
    | some skills => .ok ⟨row.kind, row.version, row.path, mcpServers, skills⟩

def modelRuntime (text : JsonText Text) (row : ModelRuntimeRow Text) : Except DatabaseError ModelRuntime :=
  match text.models.decode row.modelsJson with
  | none => .error (.invalid "decode discovered local models")
  | some models => .ok ⟨row.kind, models⟩

def telemetryRecord (text : JsonText Text) (row : TelemetryRow Text) : Except DatabaseError TelemetryEventRecord :=
  match text.value.decode row.payloadJson with
  | none => .error (.invalid "decode telemetry payload")
  | some payload => .ok ⟨row.id, row.timestampUnixMs, row.eventType, payload⟩

def programRecord (row : ProgramStatusRow) : ProgramStatusRecord :=
  ⟨row.program, programStateName row.state, row.detail, row.revision, row.updatedAt⟩

/-- The last events of a device. The query orders them by their time alone; of events of one time this
has those first that were stored first. -/
def recentTelemetry (text : JsonText Text) (store : FleetStore Text) (deviceId : String) (limit : Nat) :
    Except DatabaseError (List TelemetryEventRecord) :=
  decodeAll (telemetryRecord text) (((rowsOf TelemetryRow.deviceId deviceId store.telemetryEvents).insertionSort
    fun a b => b.timestampUnixMs ≤ a.timestampUnixMs).take limit)

/-- A device with everything that was reported of it. -/
def getDevice [DecidableEq Text] (text : JsonText Text) (store : FleetStore Text) (deviceId : String) :
    Except DatabaseError (Option DeviceDetail) :=
  match (store.deviceQuery fun device => decide (device.id = deviceId)).head? with
  | none => .ok none
  | some row =>
    match decodeAll (deviceDiscovery text) ((rowsOf DiscoveryRow.deviceId deviceId store.discoveries).insertionSort
        (orderedBy (·.kind) (·.path))) with
    | .error error => .error error
    | .ok discoveries =>
      match decodeAll (modelRuntime text) ((rowsOf ModelRuntimeRow.deviceId deviceId
          store.modelRuntimes).insertionSort fun a b => a.kind ≤ b.kind) with
      | .error error => .error error
      | .ok modelRuntimes =>
        match store.recentTelemetry text deviceId 50 with
        | .error error => .error error
        | .ok recentEvents => .ok <| some
          { device := (deviceSummary text row).withTools (discoveries.map (·.kind))
            discoveries, modelRuntimes, recentEvents
            programs := ((rowsOf ProgramStatusRow.deviceId deviceId store.programStatuses).insertionSort
              fun a b => a.position ≤ b.position).map programRecord
            programsReported := (rowsOf ConfigStatusRow.deviceId deviceId store.configStatuses).head?.map
              fun status => decide (status.programsReported ≠ 0) }

end FleetStore

end AgentDesktop
