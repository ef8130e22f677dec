import AgentDesktop.FleetReads

namespace AgentDesktop

structure ReportedStatus where
  revision : Int
  state : Int
  error : String
  updatedAt : Int
  programsReported : Bool

structure ReportedProgram where
  program : String
  state : Int
  detail : String
  revision : Int
  updatedAt : Int

/-- What the controller knows of one device: who enrolled it, the last inventory and the
last report of its programs that were accepted, and its events. -/
structure DeviceRecord where
  hostname : String
  os : String := ""
  architecture : String := ""
  agentVersion : String := ""
  createdAt : Int
  lastSeenAt : Int
  principal : DevicePrincipal
  discoveries : List DeviceDiscovery := []
  modelRuntimes : List ModelRuntime := []
  status : Option ReportedStatus := none
  programs : List ReportedProgram := []
  events : List TelemetryEventRecord := []

/-- What happens to the fleet: an enrollment, a deletion, or a message of a device. -/
inductive FleetAction where
  | enroll (now : Int) (deviceId hostname issuer subject : String) (idpClaims : Option Json)
  | delete (deviceId : String)
  | message (now : Int) (eventId deviceId : String) (message : Option Fleet.AgentMessage)

def FleetAction.deviceId : FleetAction → String
  | .enroll _ deviceId _ _ _ _ => deviceId
  | .delete deviceId => deviceId
  | .message _ _ deviceId _ => deviceId

def FleetAction.eventId : FleetAction → Option String
  | .message _ eventId _ _ => some eventId
  | _ => none

section

variable {Text : Type}

open SqlTable FleetStore

/-- An action on the tables; one that fails leaves them as they are. -/
def FleetStore.act (text : JsonText Text) (store : FleetStore Text) : FleetAction → FleetStore Text
  | .enroll now deviceId hostname issuer subject idpClaims =>
    (store.enrollDevice text now deviceId hostname issuer subject idpClaims).toOption.getD store
  | .delete deviceId => (store.deleteDevice deviceId).1
  | .message now eventId deviceId message => (store.receive text now eventId deviceId message).getD store

def readDiscovery (text : JsonText Text) (discovery : Fleet.Discovery) : Except DatabaseError DeviceDiscovery :=
  match readSkills text discovery.skills with
  | .error error => .error error
  | .ok skills =>
    .ok ⟨discovery.kind, discovery.version, discovery.path, discovery.mcpServers.map readServer, skills⟩

/-- An inventory that can be stored: its skills are readable, and nothing is listed twice. -/
def readInventory (text : JsonText Text) (inventory : Fleet.Inventory) :
    Option (List DeviceDiscovery × List ModelRuntime) :=
  match makeAll (readDiscovery text) inventory.discoveries with
  | none => none
  | some discoveries =>
    if (discoveries.map fun discovery => (discovery.kind, discovery.path)).Nodup ∧
        (inventory.modelRuntimes.map (·.kind)).Nodup then some (discoveries, inventory.modelRuntimes)
    else none

def DeviceDiscovery.row (text : JsonText Text) (id : String) (discovery : DeviceDiscovery) : DiscoveryRow Text :=
  ⟨id, discovery.kind, discovery.version, discovery.path, text.servers.encode discovery.mcpServers,
    text.skills.encode discovery.skills⟩

def ModelRuntime.row (text : JsonText Text) (id : String) (runtime : ModelRuntime) : ModelRuntimeRow Text :=
  ⟨id, runtime.kind, text.models.encode runtime.models⟩

def ReportedStatus.row (id : String) (status : ReportedStatus) : ConfigStatusRow :=
  ⟨id, status.revision, status.state, status.error, status.updatedAt, boolI64 status.programsReported⟩

def ReportedProgram.row (id : String) (program : ReportedProgram × Nat) : ProgramStatusRow :=
  ⟨id, program.1.program, program.2, program.1.revision, program.1.state, program.1.detail, program.1.updatedAt⟩

def TelemetryEventRecord.row (text : JsonText Text) (id : String) (event : TelemetryEventRecord) : TelemetryRow Text :=
  ⟨event.id, id, event.timestampUnixMs, event.eventType, text.value.encode event.payload⟩

namespace DeviceRecord

def storeInventory (text : JsonText Text) (record : DeviceRecord) (inventory : Fleet.Inventory) : DeviceRecord :=
  match readInventory text inventory with
  | none => record
  | some (discoveries, modelRuntimes) => { record with discoveries, modelRuntimes }

def storeStatus (record : DeviceRecord) (now : Int) (status : Fleet.ConfigStatus) : DeviceRecord :=
  let revision := saturatingI64 status.revision
  match validateProgramStatus status with
  | .error _ => { record with
      status := some ⟨revision, status.state, status.error, now, record.status.any (·.programsReported)⟩ }
  | .ok () => { record with
      status := some ⟨revision, status.state, status.error, now, status.programsReported⟩
      programs := status.programs.map fun program => ⟨program.program, program.state, program.detail, revision, now⟩ }

def storeEvent (text : JsonText Text) (record : DeviceRecord) (eventId : String) (telemetry : Fleet.TelemetryEvent) :
    DeviceRecord :=
  match telemetry.event.bind fun event => (readEvent text event).toOption with
  | none => record
  | some (eventType, payload) => { record with
      events := record.events ++ [⟨eventId, saturatingI64 telemetry.timestampUnixMs, eventType, payload⟩] }

def receive (text : JsonText Text) (record : DeviceRecord) (now : Int) (eventId deviceId : String) :
    Option Fleet.AgentMessage → DeviceRecord
  | some (.hello hello) =>
    if hello.deviceId ≠ deviceId then record
    else { record with
      hostname := hello.hostname
      os := hello.os
      architecture := hello.architecture
      agentVersion := hello.agentVersion
      lastSeenAt := now }
  | some (.heartbeat timestamp) => { record with lastSeenAt := saturatingI64 timestamp }
  | some (.inventory inventory) => record.storeInventory text inventory
  | some (.configStatus status) => record.storeStatus now status
  | some (.telemetry event) => record.storeEvent text eventId event
  | none => record

/-- An action on the record of its device. -/
def act (text : JsonText Text) : Option DeviceRecord → FleetAction → Option DeviceRecord
  | none, .enroll now _ hostname issuer subject idpClaims =>
    some { hostname, createdAt := now, lastSeenAt := now, principal := ⟨issuer, subject, idpClaims⟩ }
  | some record, .enroll .. => some record
  | _, .delete _ => none
  | record, .message now eventId deviceId message => record.map fun record =>
      record.receive text now eventId deviceId message

def deviceRow (text : JsonText Text) (id : String) (record : DeviceRecord) : DeviceRow Text :=
  ⟨id, record.hostname, record.os, record.architecture, record.agentVersion, record.createdAt,
    some record.lastSeenAt, record.principal.issuer, record.principal.subject,
    record.principal.idpClaims.map text.value.encode⟩

/-- The rows that hold a record. -/
def rows (text : JsonText Text) (id : String) (record : DeviceRecord) : FleetStore Text where
  devices := [record.deviceRow text id]
  discoveries := record.discoveries.map (·.row text id)
  modelRuntimes := record.modelRuntimes.map (·.row text id)
  configStatuses := record.status.toList.map (·.row id)
  programStatuses := record.programs.zipIdx.map (ReportedProgram.row id)
  telemetryEvents := record.events.map (·.row text id)

/-- The rows of a device: none, or those of its record. -/
def rowsOf (text : JsonText Text) (id : String) : Option DeviceRecord → FleetStore Text
  | none => {}
  | some record => record.rows text id

end DeviceRecord

namespace DeviceRecord

def summary (id : String) (record : DeviceRecord) : DeviceSummary where
  id := id
  hostname := record.hostname
  os := record.os
  architecture := record.architecture
  agentVersion := record.agentVersion
  createdAt := record.createdAt
  lastSeenAt := some record.lastSeenAt
  enrolledByIssuer := record.principal.issuer
  enrolledBySubject := record.principal.subject
  enrolledByName := record.principal.idpClaims.bind claimedName
  configRevision := record.status.map (·.revision)
  configState := record.status.map (·.state)
  configError := record.status.map (·.error)
  configUpdatedAt := record.status.map (·.updatedAt)
  discoveryCount := record.discoveries.length
  installedTools := (record.discoveries.insertionSort (orderedBy (·.kind) (·.path))).map (·.kind)

/-- What is shown of a record. -/
def detail (id : String) (record : DeviceRecord) : DeviceDetail where
  device := record.summary id
  discoveries := record.discoveries.insertionSort (orderedBy (·.kind) (·.path))
  modelRuntimes := record.modelRuntimes.insertionSort fun a b => a.kind ≤ b.kind
  recentEvents := (record.events.insertionSort fun a b => b.timestampUnixMs ≤ a.timestampUnixMs).take 50
  programs := record.programs.map fun program =>
    ⟨program.program, programStateName program.state, program.detail, program.revision, program.updatedAt⟩
  programsReported := record.status.map (·.programsReported)

/-- The record of a device after the actions that name it. -/
def after (text : JsonText Text) (id : String) (actions : List FleetAction) : Option DeviceRecord :=
  (actions.filter fun action => decide (action.deviceId = id)).foldl (act text) none

end DeviceRecord

namespace FleetStore

def run (text : JsonText Text) (actions : List FleetAction) : FleetStore Text :=
  actions.foldl (FleetStore.act text) {}

/-- The rows that are about one device. -/
def ofDevice (store : FleetStore Text) (id : String) : FleetStore Text where
  devices := SqlTable.rowsOf DeviceRow.id id store.devices
  discoveries := SqlTable.rowsOf DiscoveryRow.deviceId id store.discoveries
  modelRuntimes := SqlTable.rowsOf ModelRuntimeRow.deviceId id store.modelRuntimes
  configStatuses := SqlTable.rowsOf ConfigStatusRow.deviceId id store.configStatuses
  programStatuses := SqlTable.rowsOf ProgramStatusRow.deviceId id store.programStatuses
  telemetryEvents := SqlTable.rowsOf TelemetryRow.deviceId id store.telemetryEvents

end FleetStore

end

end AgentDesktop
