import AgentDesktop.FleetRuns

namespace AgentDesktop

variable {Text : Type} {text : JsonText Text} {store : FleetStore Text} {records : String → Option DeviceRecord}

open SqlTable FleetStore

namespace FleetStore

/-- A device with its status and the number of its discoveries. -/
def listing (store : FleetStore Text) (device : DeviceRow Text) : GroupedColumns Text × Nat :=
  ((device, (rowsOf ConfigStatusRow.deviceId device.id store.configStatuses).head?.map statusColumns),
    (rowsOf DiscoveryRow.deviceId device.id store.discoveries).length)

/-- The joined rows of one device. -/
def joinedBlock (store : FleetStore Text) (device : DeviceRow Text) : List (JoinedRow Text) :=
  joinRow (device, (rowsOf ConfigStatusRow.deviceId device.id store.configStatuses).head?)
    (rowsOf DiscoveryRow.deviceId device.id store.discoveries)

theorem groupedColumns_joinedBlock {device : DeviceRow Text} {row : JoinedRow Text}
    (h : row ∈ store.joinedBlock device) : row.1.1 = device ∧ groupedColumns row = (store.listing device).1 := by
  have hfirst := fst_of_mem_joinRow h
  unfold groupedColumns
  rw [hfirst]
  exact ⟨rfl, rfl⟩

/-- A device has at most one status, so its joined rows are those of its discoveries. -/
theorem joinedRows_eq (hstatus : ∀ id, (rowsOf ConfigStatusRow.deviceId id store.configStatuses).length ≤ 1) :
    store.joinedRows = store.devices.flatMap store.joinedBlock := by
  unfold joinedRows leftJoin
  rw [List.flatMap_assoc]
  refine List.flatMap_congr fun device _ => ?_
  have hone := hstatus device.id
  have hjoined : joinRow device (store.configStatuses.filter fun status => decide (status.deviceId = device.id)) =
      [(device, (rowsOf ConfigStatusRow.deviceId device.id store.configStatuses).head?)] := by
    change joinRow device (rowsOf ConfigStatusRow.deviceId device.id store.configStatuses) = _
    cases hrows : rowsOf ConfigStatusRow.deviceId device.id store.configStatuses with
    | nil => rfl
    | cons status rest =>
      rw [hrows, List.length_cons] at hone
      obtain rfl : rest = [] := List.length_eq_zero_iff.mp (by omega)
      rfl
  rw [hjoined, List.flatMap_singleton]
  rfl

theorem filter_joinedRows {test : DeviceRow Text → Bool}
    (hstatus : ∀ id, (rowsOf ConfigStatusRow.deviceId id store.configStatuses).length ≤ 1) :
    store.joinedRows.filter (fun row => test row.1.1) = (store.devices.filter test).flatMap store.joinedBlock := by
  rw [joinedRows_eq hstatus]
  induction store.devices with
  | nil => rfl
  | cons device rest ih =>
    rw [List.flatMap_cons, List.filter_append, ih, List.filter_cons]
    cases htest : test device with
    | true =>
      rw [if_pos rfl, List.flatMap_cons, List.filter_eq_self.mpr]
      intro row hrow
      rw [(groupedColumns_joinedBlock hrow).1, htest]
    | false =>
      rw [if_neg (by simp), List.filter_eq_nil_iff.mpr, List.nil_append]
      intro row hrow
      rw [(groupedColumns_joinedBlock hrow).1, htest]
      simp

/-- The query gives each device that passes the test once. -/
theorem deviceQuery_eq [DecidableEq Text] {test : DeviceRow Text → Bool}
    (hdevices : (store.devices.map DeviceRow.id).Nodup)
    (hstatus : ∀ id, (rowsOf ConfigStatusRow.deviceId id store.configStatuses).length ≤ 1) :
    store.deviceQuery test = (store.devices.filter test).map store.listing := by
  have hdistinct : ((store.devices.filter test).map fun device => (store.listing device).1).Nodup := by
    have hids : ((store.devices.filter test).map DeviceRow.id).Nodup :=
      hdevices.sublist (List.filter_sublist.map DeviceRow.id)
    refine List.Nodup.of_map (fun columns => columns.1.id) ?_
    rw [List.map_map]
    exact hids
  have hblock : ∀ device, store.joinedBlock device ≠ [] := fun _ => joinRow_ne_nil _ _
  unfold deviceQuery
  rw [filter_joinedRows hstatus, groupBy_flatMap hdistinct hblock
    fun device row hrow => (groupedColumns_joinedBlock hrow).2, List.map_map]
  refine List.map_congr_left fun device _ => ?_
  exact Prod.ext rfl (count_joinRow _ _)

theorem Holds.devices_distinct (hholds : Holds text store records) : (store.devices.map DeviceRow.id).Nodup := by
  refine nodup_of_rowsOf fun id => ?_
  have hrows := congrArg FleetStore.devices (hholds id)
  change rowsOf DeviceRow.id id store.devices = _ at hrows
  rw [hrows]
  cases records id <;> simp [DeviceRecord.rowsOf, DeviceRecord.rows]

theorem Holds.status_unique (hholds : Holds text store records) (id : String) :
    (rowsOf ConfigStatusRow.deviceId id store.configStatuses).length ≤ 1 := by
  have hrows := congrArg FleetStore.configStatuses (hholds id)
  change rowsOf ConfigStatusRow.deviceId id store.configStatuses = _ at hrows
  rw [hrows]
  cases records id with
  | none => simp [DeviceRecord.rowsOf]
  | some record => cases hstatus : record.status <;> simp [DeviceRecord.rowsOf, DeviceRecord.rows, hstatus]

theorem decodeAll_map {ρ α : Type} {decode : ρ → Except DatabaseError α} {row : α → ρ}
    (h : ∀ value, decode (row value) = .ok value) (values : List α) :
    decodeAll decode (values.map row) = .ok values := by
  induction values with
  | nil => rfl
  | cons value rest ih => rw [List.map_cons, decodeAll, h, ih]

theorem deviceDiscovery_row (id : String) (discovery : DeviceDiscovery) :
    deviceDiscovery text (discovery.row text id) = .ok discovery := by
  simp [deviceDiscovery, DeviceDiscovery.row, TextCodec.decode_encode]

theorem modelRuntime_row (id : String) (runtime : ModelRuntime) :
    modelRuntime text (runtime.row text id) = .ok runtime := by
  simp [modelRuntime, ModelRuntime.row, TextCodec.decode_encode]

theorem telemetryRecord_row (id : String) (event : TelemetryEventRecord) :
    telemetryRecord text (event.row text id) = .ok event := by
  simp [telemetryRecord, TelemetryEventRecord.row, TextCodec.decode_encode]

/-- The programs are read in the order they were reported in. -/
theorem programs_sorted (id : String) (programs : List ReportedProgram) :
    (programs.zipIdx.map (ReportedProgram.row id)).insertionSort (fun a b => a.position ≤ b.position) =
      programs.zipIdx.map (ReportedProgram.row id) := by
  refine List.Pairwise.insertionSort_eq (List.pairwise_map.mpr ?_)
  generalize 0 = first
  induction programs generalizing first with
  | nil => exact List.Pairwise.nil
  | cons program rest ih =>
    refine List.pairwise_cons.mpr ⟨fun later hlater => ?_, ih (first + 1)⟩
    have hle := List.le_snd_of_mem_zipIdx hlater
    change (first : Int) ≤ (later.2 : Int)
    omega

theorem Holds.rows {id : String} {record : DeviceRecord} (hholds : Holds text store records)
    (hrecord : records id = some record) : store.ofDevice id = record.rows text id := by
  rw [hholds id, hrecord]
  rfl

theorem rowsOf_rows {id : String} {record : DeviceRecord} (hrows : store.ofDevice id = record.rows text id) :
    rowsOf DiscoveryRow.deviceId id store.discoveries = record.discoveries.map (·.row text id) ∧
      rowsOf ModelRuntimeRow.deviceId id store.modelRuntimes = record.modelRuntimes.map (·.row text id) ∧
      rowsOf ConfigStatusRow.deviceId id store.configStatuses = record.status.toList.map (·.row id) ∧
      rowsOf ProgramStatusRow.deviceId id store.programStatuses =
        record.programs.zipIdx.map (ReportedProgram.row id) ∧
      rowsOf TelemetryRow.deviceId id store.telemetryEvents = record.events.map (·.row text id) :=
  ⟨congrArg FleetStore.discoveries hrows, congrArg FleetStore.modelRuntimes hrows,
    congrArg FleetStore.configStatuses hrows, congrArg FleetStore.programStatuses hrows,
    congrArg FleetStore.telemetryEvents hrows⟩

/-- The columns of a device and what is shown of them. -/
theorem summary_listing {id : String} {record : DeviceRecord} (hrows : store.ofDevice id = record.rows text id)
    (tools : List String) :
    (deviceSummary text (store.listing (record.deviceRow text id))).withTools tools =
      (record.summary id).withTools tools := by
  obtain ⟨hdiscoveries, _, hstatus, _, _⟩ := rowsOf_rows hrows
  have hname : (record.principal.idpClaims.map text.value.encode).bind (readableName text) =
      record.principal.idpClaims.bind claimedName := by
    cases record.principal.idpClaims with
    | none => rfl
    | some claims => simp [readableName, TextCodec.decode_encode]
  unfold deviceSummary listing DeviceRecord.deviceRow DeviceRecord.summary DeviceSummary.withTools
  dsimp only
  rw [hstatus, hdiscoveries, List.length_map, hname]
  cases record.status <;> rfl

/-- Values that are kept as rows are sorted as the rows are. -/
theorem decodeAll_sorted {α ρ : Type} {decode : ρ → Except DatabaseError α} {row : α → ρ} {before : α → α → Prop}
    {rowBefore : ρ → ρ → Prop} [DecidableRel before] [DecidableRel rowBefore]
    (hdecode : ∀ value, decode (row value) = .ok value) (hbefore : ∀ a b, before a b ↔ rowBefore (row a) (row b))
    (values : List α) (limit : Nat) :
    decodeAll decode ((values.map row).insertionSort rowBefore) = .ok (values.insertionSort before) ∧
      decodeAll decode (((values.map row).insertionSort rowBefore).take limit) =
        .ok ((values.insertionSort before).take limit) := by
  rw [← List.map_insertionSort before rowBefore row values fun a _ b _ => hbefore a b, ← List.map_take]
  exact ⟨decodeAll_map hdecode _, decodeAll_map hdecode _⟩

/-- Tables that hold records show what is shown of the records. -/
theorem Holds.getDevice [DecidableEq Text] (hholds : Holds text store records) (id : String) :
    store.getDevice text id = .ok ((records id).map (·.detail id)) := by
  have hquery : store.deviceQuery (fun device => decide (device.id = id)) =
      (store.ofDevice id).devices.map store.listing :=
    deviceQuery_eq hholds.devices_distinct hholds.status_unique
  unfold FleetStore.getDevice
  rw [hquery]
  cases hrecord : records id with
  | none =>
    rw [hholds id, hrecord]
    rfl
  | some record =>
    have hrows := hholds.rows hrecord
    obtain ⟨hdiscoveries, hruntimes, hstatus, hprograms, hevents⟩ := rowsOf_rows hrows
    have hfound : decodeAll (deviceDiscovery text) ((rowsOf DiscoveryRow.deviceId id store.discoveries).insertionSort
        (orderedBy (·.kind) (·.path))) = .ok (record.detail id).discoveries := by
      rw [hdiscoveries]
      exact (decodeAll_sorted (deviceDiscovery_row id) (fun _ _ => Iff.rfl) _ 0).1
    have hmodels : decodeAll (modelRuntime text) ((rowsOf ModelRuntimeRow.deviceId id
        store.modelRuntimes).insertionSort fun a b => a.kind ≤ b.kind) = .ok (record.detail id).modelRuntimes := by
      rw [hruntimes]
      exact (decodeAll_sorted (modelRuntime_row id) (fun _ _ => Iff.rfl) _ 0).1
    have hrecent : store.recentTelemetry text id 50 = .ok (record.detail id).recentEvents := by
      unfold recentTelemetry
      rw [hevents]
      exact (decodeAll_sorted (telemetryRecord_row id) (fun _ _ => Iff.rfl) _ 50).2
    have hreported : (record.programs.zipIdx.map (ReportedProgram.row id)).map programRecord =
        (record.detail id).programs := by
      have hfirst := congrArg (List.map fun program : ReportedProgram => (⟨program.program,
        programStateName program.state, program.detail, program.revision, program.updatedAt⟩ : ProgramStatusRecord))
        (List.zipIdx_map_fst 0 record.programs)
      rw [List.map_map] at hfirst
      rw [List.map_map]
      exact hfirst
    have hflag : (record.status.toList.map (·.row id)).head?.map (fun status => decide (status.programsReported ≠ 0)) =
        (record.detail id).programsReported := by
      unfold DeviceRecord.detail
      dsimp only
      cases record.status with
      | none => rfl
      | some status =>
        cases hreported : status.programsReported <;> simp [ReportedStatus.row, boolI64, hreported]
    have hdevice := summary_listing hrows ((record.detail id).discoveries.map (·.kind))
    have hhead : ((store.ofDevice id).devices.map store.listing).head? =
        some (store.listing (record.deviceRow text id)) := by
      rw [hrows]
      rfl
    rw [hhead]
    dsimp only
    rw [hfound]
    dsimp only
    rw [hmodels]
    dsimp only
    rw [hrecent, hprograms, programs_sorted, hreported, hstatus, hdevice, hflag]
    rfl

end FleetStore

/-- Columns that keep their values. -/
inductive PlainColumn where
  | servers (servers : List McpServer)
  | skills (skills : List Skill)
  | models (models : List LocalModel)
  | value (value : Json)
  deriving DecidableEq

def plainText : JsonText PlainColumn where
  parse := fun bytes => if bytes = [110, 117, 108, 108] then some ⟨.null, rfl⟩ else none
  servers := ⟨.servers, fun | .servers servers => some servers | _ => none, fun _ => rfl⟩
  skills := ⟨.skills, fun | .skills skills => some skills | _ => none, fun _ => rfl⟩
  models := ⟨.models, fun | .models models => some models | _ => none, fun _ => rfl⟩
  value := ⟨.value, fun | .value value => some value | _ => none, fun _ => rfl⟩

/-- After any enrollments, deletions and messages of any devices, a device is shown as its
own actions made it, and one that was deleted is not shown. -/
theorem getDevice_run [DecidableEq Text] (text : JsonText Text) {actions : List FleetAction}
    (hdistinct : (actions.filterMap FleetAction.eventId).Nodup) (id : String) :
    (run text actions).getDevice text id = .ok ((DeviceRecord.after text id actions).map (·.detail id)) :=
  (run_holds hdistinct).getDevice id

/-- A laptop that is enrolled, reports and is deleted, beside a desktop. -/
def laptopActions : List FleetAction :=
  [.enroll 100 "laptop" "host" "issuer" "subject" none, .enroll 110 "desktop" "tower" "issuer" "other" none,
    .message 120 "e1" "laptop" (some (.telemetry ⟨5, some (.sessionNew "codex" "s1")⟩)), .delete "laptop",
    .message 130 "e2" "laptop" (some (.telemetry ⟨6, some (.sessionNew "codex" "s2")⟩)),
    .message 140 "e3" "desktop" (some (.heartbeat 140))]

theorem getDevice_run_laptop :
    (laptopActions.filterMap FleetAction.eventId).Nodup ∧
      (run plainText laptopActions).getDevice plainText "laptop" = .ok none ∧
      ∃ detail, (run plainText laptopActions).getDevice plainText "desktop" = .ok (some detail) ∧
        detail.device.hostname = "tower" ∧ detail.device.lastSeenAt = some 140 ∧ detail.recentEvents = [] :=
  ⟨by decide, getDevice_run plainText (by decide) "laptop", _, getDevice_run plainText (by decide) "desktop", rfl, rfl,
    rfl⟩

end AgentDesktop
