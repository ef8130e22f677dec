import AgentDesktop.ConfigPush
import AgentDesktop.JsonValue
import AgentDesktop.SqlTable

namespace AgentDesktop

structure McpServer where
  name : String
  transport : String
  command : Option String
  url : Option String
  enabled : Bool
  source : String
  deriving DecidableEq

structure Skill where
  path : String
  frontMatter : Json
  deriving DecidableEq

structure LocalModel where
  name : String
  deriving DecidableEq

structure ModelRuntime where
  kind : String
  models : List LocalModel
  deriving DecidableEq

namespace Fleet

/-! The messages of the fleet protocol. -/

structure Hello where
  deviceId : String
  hostname : String
  os : String
  architecture : String
  agentVersion : String

structure McpServer where
  name : String
  transport : String
  command : String
  url : String
  enabled : Bool
  source : String

structure Skill where
  path : String
  frontMatterJson : Bytes

structure Discovery where
  kind : String
  version : String
  path : String
  mcpServers : List McpServer
  skills : List Skill

structure Inventory where
  discoveries : List Discovery
  modelRuntimes : List ModelRuntime

structure ProgramStatus where
  program : String
  state : Int
  detail : String

structure ConfigStatus where
  revision : UInt64
  state : Int
  error : String
  programs : List ProgramStatus
  programsReported : Bool

inductive Event where
  | sessionNew (clientId sessionId : String)
  | toolUse (clientId toolName toolUseId : String) (inputJson : Bytes)

structure TelemetryEvent where
  timestampUnixMs : UInt64
  event : Option Event

inductive AgentMessage where
  | hello (hello : Hello)
  | heartbeat (unixTimeSeconds : UInt64)
  | inventory (inventory : Inventory)
  | configStatus (status : ConfigStatus)
  | telemetry (event : TelemetryEvent)

end Fleet

/-- How values of a type are kept as JSON text. -/
structure TextCodec (Text α : Type) where
  encode : α → Text
  decode : Text → Option α
  decode_encode : ∀ value, decode (encode value) = some value

/-- The JSON of the controller: the documents that devices send, and the columns of its
tables. -/
structure JsonText (Text : Type) where
  parse : Bytes → Option Json
  servers : TextCodec Text (List McpServer)
  skills : TextCodec Text (List Skill)
  models : TextCodec Text (List LocalModel)
  value : TextCodec Text Json

structure DeviceRow (Text : Type) where
  id : String
  hostname : String
  os : String
  architecture : String
  agentVersion : String
  createdAt : Int
  lastSeenAt : Option Int
  enrolledByIssuer : String
  enrolledBySubject : String
  idpClaimsJson : Option Text
  deriving DecidableEq

structure DiscoveryRow (Text : Type) where
  deviceId : String
  kind : String
  version : String
  path : String
  mcpServersJson : Text
  skillsJson : Text

structure ModelRuntimeRow (Text : Type) where
  deviceId : String
  kind : String
  modelsJson : Text

structure ConfigStatusRow where
  deviceId : String
  revision : Int
  state : Int
  error : String
  updatedAt : Int
  programsReported : Int

structure ProgramStatusRow where
  deviceId : String
  program : String
  position : Int
  revision : Int
  state : Int
  detail : String
  updatedAt : Int

structure TelemetryRow (Text : Type) where
  id : String
  deviceId : String
  timestampUnixMs : Int
  eventType : String
  payloadJson : Text

/-- The tables of the controller that are about devices. -/
structure FleetStore (Text : Type) where
  devices : List (DeviceRow Text) := []
  discoveries : List (DiscoveryRow Text) := []
  modelRuntimes : List (ModelRuntimeRow Text) := []
  configStatuses : List ConfigStatusRow := []
  programStatuses : List ProgramStatusRow := []
  telemetryEvents : List (TelemetryRow Text) := []

/-- Why an operation on the tables fails: a key of the schema, or a check. -/
inductive DatabaseError where
  | constraint
  | invalid (message : String)
  deriving DecidableEq

/-- `i64::try_from(n).unwrap_or(i64::MAX)`. -/
def saturatingI64 (n : UInt64) : Int :=
  min n.toNat (2 ^ 63 - 1)

def validProgramName (program : String) : Bool :=
  program ≠ "" && decide (program.utf8ByteSize ≤ 64) &&
    program.toList.all fun c => c.isLower || c.isDigit || c == '-'

def checkPrograms (seen : List String) : List Fleet.ProgramStatus → Except String Unit
  | [] => .ok ()
  | program :: rest =>
    if !validProgramName program.program then .error "invalid program in configuration status"
    else if program.program ∈ seen then .error "duplicate program in configuration status"
    else if program.detail.utf8ByteSize > 2048 then .error "program detail too long in configuration status"
    else checkPrograms (program.program :: seen) rest

/-- Bounds on what an agent reports per program. -/
def validateProgramStatus (status : Fleet.ConfigStatus) : Except String Unit :=
  if status.programs.length > 32 then .error "too many programs in configuration status"
  else checkPrograms [] status.programs

def sessionPayload (clientId sessionId : String) : Json where
  value := .object [("clientId", .string clientId), ("sessionId", .string sessionId)]
  valid := by
    simp only [Value.valid, validFields, List.all_cons, List.all_nil, Bool.and_true, decide_eq_true_eq]
    decide

def toolPayload (clientId toolName toolUseId : String) (toolInput : Option Json) : Json where
  value := .object <|
    let id := if toolUseId = "" then Value.null else .string toolUseId
    match toolInput with
    | none => [("clientId", .string clientId), ("toolName", .string toolName), ("toolUseId", id)]
    | some input => [("clientId", .string clientId), ("toolInput", input.value), ("toolName", .string toolName),
        ("toolUseId", id)]
  valid := by
    have hid : (if toolUseId = "" then Value.null else .string toolUseId).valid = true := by
      split <;> rfl
    cases toolInput with
    | none =>
      refine valid_object.mpr ⟨?_, by simp [hid, Value.valid]⟩
      simp only [SortedMap.Sorted, List.pairwise_cons, List.mem_cons, List.not_mem_nil, or_false, forall_eq_or_imp,
        forall_eq, List.Pairwise.nil, and_true, false_implies, implies_true]
      decide
    | some input =>
      refine valid_object.mpr ⟨?_, by simp [hid, input.valid, Value.valid]⟩
      simp only [SortedMap.Sorted, List.pairwise_cons, List.mem_cons, List.not_mem_nil, or_false, forall_eq_or_imp,
        forall_eq, List.Pairwise.nil, and_true, false_implies, implies_true]
      decide

namespace FleetStore

variable {Text : Type}

open SqlTable

def enrollDevice (text : JsonText Text) (store : FleetStore Text) (now : Int)
    (deviceId hostname issuer subject : String) (idpClaims : Option Json) : Except DatabaseError (FleetStore Text) :=
  let row : DeviceRow Text := ⟨deviceId, hostname, "", "", "", now, some now, issuer, subject,
    idpClaims.map text.value.encode⟩
  match insert DeviceRow.id row store.devices with
  | none => .error .constraint
  | some devices => .ok { store with devices }

/-- Every other table refers to `devices` with `ON DELETE CASCADE`. -/
def deleteDevice (store : FleetStore Text) (deviceId : String) : FleetStore Text × Bool :=
  ({ devices := deleteOf DeviceRow.id deviceId store.devices
     discoveries := deleteOf DiscoveryRow.deviceId deviceId store.discoveries
     modelRuntimes := deleteOf ModelRuntimeRow.deviceId deviceId store.modelRuntimes
     configStatuses := deleteOf ConfigStatusRow.deviceId deviceId store.configStatuses
     programStatuses := deleteOf ProgramStatusRow.deviceId deviceId store.programStatuses
     telemetryEvents := deleteOf TelemetryRow.deviceId deviceId store.telemetryEvents },
    !(rowsOf DeviceRow.id deviceId store.devices).isEmpty)

def updateHello (store : FleetStore Text) (now : Int) (deviceId : String) (hello : Fleet.Hello) : FleetStore Text :=
  { store with
    devices := updateOf DeviceRow.id deviceId (fun row => { row with
      hostname := hello.hostname
      os := hello.os
      architecture := hello.architecture
      agentVersion := hello.agentVersion
      lastSeenAt := some now }) store.devices }

def updateHeartbeat (store : FleetStore Text) (deviceId : String) (timestamp : UInt64) : FleetStore Text :=
  { store with
    devices := updateOf DeviceRow.id deviceId (fun row => { row with lastSeenAt := some (saturatingI64 timestamp) })
      store.devices }

/-- A row of another table refers to a device that is there. -/
def reference {ρ : Type} (store : FleetStore Text) (deviceId : String) (row : ρ) : Except DatabaseError ρ :=
  if deviceId ∈ store.devices.map DeviceRow.id then .ok row else .error .constraint

def readServer (server : Fleet.McpServer) : McpServer where
  name := server.name
  transport := server.transport
  command := if server.command = "" then none else some server.command
  url := if server.url = "" then none else some server.url
  enabled := server.enabled
  source := server.source

def readSkill (text : JsonText Text) (skill : Fleet.Skill) : Except DatabaseError Skill :=
  match text.parse skill.frontMatterJson with
  | some frontMatter =>
    if frontMatter.value.isObject then .ok ⟨skill.path, frontMatter⟩
    else .error (.invalid "decode reported skill front matter")
  | none => .error (.invalid "decode reported skill front matter")

def readSkills (text : JsonText Text) : List Fleet.Skill → Except DatabaseError (List Skill)
  | [] => .ok []
  | skill :: rest =>
    match readSkill text skill with
    | .error error => .error error
    | .ok first =>
      match readSkills text rest with
      | .error error => .error error
      | .ok skills => .ok (first :: skills)

def discoveryRow (text : JsonText Text) (store : FleetStore Text) (deviceId : String) (discovery : Fleet.Discovery) :
    Except DatabaseError (DiscoveryRow Text) :=
  match readSkills text discovery.skills with
  | .error error => .error error
  | .ok skills => store.reference deviceId ⟨deviceId, discovery.kind, discovery.version, discovery.path,
      text.servers.encode (discovery.mcpServers.map readServer), text.skills.encode skills⟩

def modelRuntimeRow (text : JsonText Text) (store : FleetStore Text) (deviceId : String) (runtime : ModelRuntime) :
    Except DatabaseError (ModelRuntimeRow Text) :=
  store.reference deviceId ⟨deviceId, runtime.kind, text.models.encode runtime.models⟩

def discoveryKey (row : DiscoveryRow Text) : String × String × String :=
  (row.deviceId, row.kind, row.path)

def modelRuntimeKey (row : ModelRuntimeRow Text) : String × String :=
  (row.deviceId, row.kind)

/-- One transaction: an error leaves the tables as they are. -/
def replaceInventory (text : JsonText Text) (store : FleetStore Text) (deviceId : String)
    (inventory : Fleet.Inventory) : Except DatabaseError (FleetStore Text) :=
  match insertAll discoveryKey .constraint (discoveryRow text store deviceId) inventory.discoveries
      (deleteOf DiscoveryRow.deviceId deviceId store.discoveries) with
  | .error error => .error error
  | .ok discoveries =>
    match insertAll modelRuntimeKey .constraint (modelRuntimeRow text store deviceId) inventory.modelRuntimes
        (deleteOf ModelRuntimeRow.deviceId deviceId store.modelRuntimes) with
    | .error error => .error error
    | .ok modelRuntimes => .ok { store with discoveries, modelRuntimes }

def statusRow (now : Int) (status : Fleet.ConfigStatus) (programsReported : Int) (deviceId : String) :
    ConfigStatusRow :=
  ⟨deviceId, saturatingI64 status.revision, status.state, status.error, now, programsReported⟩

/-- Stores only the device-wide status and keeps the program rows and
`programs_reported` of the last accepted report. -/
def updateDeviceConfigState (store : FleetStore Text) (now : Int) (deviceId : String) (status : Fleet.ConfigStatus) :
    Except DatabaseError (FleetStore Text) :=
  match store.reference deviceId (statusRow now status 0 deviceId) with
  | .error error => .error error
  | .ok row => .ok { store with
      configStatuses := SqlTable.upsert ConfigStatusRow.deviceId
        (fun old => statusRow now status old.programsReported old.deviceId) row store.configStatuses }

def programStatusKey (row : ProgramStatusRow) : String × String :=
  (row.deviceId, row.program)

def programStatusRow (now : Int) (deviceId : String) (revision : UInt64) (program : Fleet.ProgramStatus × Nat) :
    ProgramStatusRow :=
  ⟨deviceId, program.1.program, program.2, saturatingI64 revision, program.1.state, program.1.detail, now⟩

/-- `i64::from` of a `bool`. -/
def boolI64 (b : Bool) : Int :=
  if b then 1 else 0

/-- One transaction, after the check of the report. -/
def updateConfigStatus (store : FleetStore Text) (now : Int) (deviceId : String) (status : Fleet.ConfigStatus) :
    Except DatabaseError (FleetStore Text) :=
  match validateProgramStatus status with
  | .error message => .error (.invalid message)
  | .ok () =>
    let reported := boolI64 status.programsReported
    match store.reference deviceId (statusRow now status reported deviceId) with
    | .error error => .error error
    | .ok row =>
      match insertAll programStatusKey .constraint
          (fun program => store.reference deviceId (programStatusRow now deviceId status.revision program))
          status.programs.zipIdx (deleteOf ProgramStatusRow.deviceId deviceId store.programStatuses) with
      | .error error => .error error
      | .ok programStatuses => .ok { store with
          programStatuses
          configStatuses := SqlTable.upsert ConfigStatusRow.deviceId
            (fun old => statusRow now status reported old.deviceId) row store.configStatuses }

def checkClientId (clientId : String) : Except DatabaseError Unit :=
  if clientId = "" ∨ clientId.utf8ByteSize > 64 then .error (.invalid "invalid telemetry client ID") else .ok ()

def readToolInput (text : JsonText Text) (inputJson : Bytes) : Except DatabaseError (Option Json) :=
  if inputJson = [] then .ok none
  else
    match text.parse inputJson with
    | none => .error (.invalid "decode telemetry tool input")
    | some input => .ok (some input)

/-- The type and the payload of an event that passes its checks. -/
def readEvent (text : JsonText Text) : Fleet.Event → Except DatabaseError (String × Json)
  | .sessionNew clientId sessionId =>
    match checkClientId clientId with
    | .error error => .error error
    | .ok () =>
      if sessionId = "" ∨ sessionId.utf8ByteSize > 256 then .error (.invalid "invalid telemetry session ID")
      else .ok ("session.new", sessionPayload clientId sessionId)
  | .toolUse clientId toolName toolUseId inputJson =>
    match checkClientId clientId with
    | .error error => .error error
    | .ok () =>
      if toolName = "" ∨ toolName.utf8ByteSize > 128 then .error (.invalid "invalid telemetry tool name")
      else if toolUseId.utf8ByteSize > 256 then .error (.invalid "invalid telemetry tool use ID")
      else if inputJson.length > 256 * 1024 then .error (.invalid "telemetry tool input is too large")
      else
        match readToolInput text inputJson with
        | .error error => .error error
        | .ok input => .ok ("tool.use", toolPayload clientId toolName toolUseId input)

def insertTelemetry (text : JsonText Text) (store : FleetStore Text) (eventId deviceId : String)
    (telemetry : Fleet.TelemetryEvent) : Except DatabaseError (FleetStore Text) :=
  match telemetry.event with
  | none => .error (.invalid "telemetry has no event")
  | some event =>
    match readEvent text event with
    | .error error => .error error
    | .ok (eventType, payload) =>
      match store.reference deviceId (⟨eventId, deviceId, saturatingI64 telemetry.timestampUnixMs, eventType,
          text.value.encode payload⟩ : TelemetryRow Text) with
      | .error error => .error error
      | .ok row =>
        match insert TelemetryRow.id row store.telemetryEvents with
        | none => .error .constraint
        | some telemetryEvents => .ok { store with telemetryEvents }

/-- A report that is rejected still stores the device-wide status. -/
def storeConfigStatus (store : FleetStore Text) (now : Int) (deviceId : String) (status : Fleet.ConfigStatus) :
    Except DatabaseError (FleetStore Text) :=
  match validateProgramStatus status with
  | .error _ => store.updateDeviceConfigState now deviceId status
  | .ok () => store.updateConfigStatus now deviceId status

def handleAgentMessage (text : JsonText Text) (store : FleetStore Text) (now : Int) (eventId deviceId : String) :
    Option Fleet.AgentMessage → Except DatabaseError (FleetStore Text)
  | some (.hello hello) => .ok (store.updateHello now deviceId hello)
  | some (.heartbeat timestamp) => .ok (store.updateHeartbeat deviceId timestamp)
  | some (.inventory inventory) => store.replaceInventory text deviceId inventory
  | some (.configStatus status) => store.storeConfigStatus now deviceId status
  | some (.telemetry event) => store.insertTelemetry text eventId deviceId event
  | none => .ok store

/-- A message on the stream of a device. The stream ends (`none`) at a hello of another
device and where a message cannot be stored. -/
def receive (text : JsonText Text) (store : FleetStore Text) (now : Int) (eventId deviceId : String)
    (message : Option Fleet.AgentMessage) : Option (FleetStore Text) :=
  match message with
  | some (.hello hello) =>
    if hello.deviceId ≠ deviceId then none else some (store.updateHello now deviceId hello)
  | message => (store.handleAgentMessage text now eventId deviceId message).toOption

end FleetStore

end AgentDesktop
