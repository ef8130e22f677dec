import AgentDesktop.FleetRecords

namespace AgentDesktop

variable {Text : Type} {text : JsonText Text} {store next : FleetStore Text} {deviceId id : String} {now : Int}

open SqlTable FleetStore

namespace FleetStore

theorem reference_ok {ρ : Type} {row made : ρ} :
    store.reference deviceId row = .ok made ↔ made = row ∧ deviceId ∈ store.devices.map DeviceRow.id := by
  unfold reference
  split
  next h => simp only [Except.ok.injEq, h, and_true, eq_comm]
  next h => simp [h]

theorem reference_there {ρ : Type} (row : ρ) (h : deviceId ∈ store.devices.map DeviceRow.id) :
    store.reference deviceId row = .ok row :=
  if_pos h

theorem reference_gone {ρ : Type} (row : ρ) (h : deviceId ∉ store.devices.map DeviceRow.id) :
    store.reference deviceId row = .error .constraint :=
  if_neg h

theorem mem_devices_iff : deviceId ∈ store.devices.map DeviceRow.id ↔ (store.ofDevice deviceId).devices ≠ [] := by
  rw [Ne, ofDevice, rowsOf_eq_nil_iff, not_not]

theorem ofDevice_updateDevices {update : DeviceRow Text → DeviceRow Text} (hkeeps : ∀ row, (update row).id = row.id) :
    ({ store with devices := updateOf DeviceRow.id deviceId update store.devices } : FleetStore Text).ofDevice id =
      if id = deviceId then { store.ofDevice id with devices := (store.ofDevice id).devices.map update }
      else store.ofDevice id := by
  unfold ofDevice
  rw [rowsOf_updateOf hkeeps]
  split <;> rfl

theorem discoveryRow_deviceId {discovery : Fleet.Discovery} {row : DiscoveryRow Text}
    (h : discoveryRow text store deviceId discovery = .ok row) :
    row.deviceId = deviceId ∧ deviceId ∈ store.devices.map DeviceRow.id := by
  unfold discoveryRow at h
  cases hskills : readSkills text discovery.skills with
  | error error => simp [hskills] at h
  | ok skills =>
    rw [hskills] at h
    obtain ⟨rfl, hmem⟩ := reference_ok.mp h
    exact ⟨rfl, hmem⟩

theorem modelRuntimeRow_deviceId {runtime : ModelRuntime} {row : ModelRuntimeRow Text}
    (h : modelRuntimeRow text store deviceId runtime = .ok row) :
    row.deviceId = deviceId ∧ deviceId ∈ store.devices.map DeviceRow.id := by
  obtain ⟨rfl, hmem⟩ := reference_ok.mp h
  exact ⟨rfl, hmem⟩

/-- The rows of a device replaced by others that are about it. -/
theorem rowsOf_replaced {ρ : Type} {owner : ρ → String} {table rows : List ρ}
    (hrows : ∀ row ∈ rows, owner row = deviceId) :
    rowsOf owner id (deleteOf owner deviceId table ++ rows) =
      if id = deviceId then rows else rowsOf owner id table := by
  rw [rowsOf_append]
  split
  next h =>
    subst h
    rw [rowsOf_deleteOf_self, rowsOf_eq_self hrows, List.nil_append]
  next h =>
    rw [rowsOf_deleteOf_ne h, rowsOf_eq_nil fun row hrow heq => h (heq.symm.trans (hrows row hrow)), List.append_nil]

/-- Keys that begin with the device are free once the device's rows are deleted. -/
theorem insertAll_replacing {α ρ κ : Type} [DecidableEq κ] {owner : ρ → String} {rest : ρ → κ}
    {make : α → Except DatabaseError ρ} (howner : ∀ item row, make item = .ok row → owner row = deviceId)
    {items : List α} {table made : List ρ} :
    insertAll (fun row => (owner row, rest row)) .constraint make items (deleteOf owner deviceId table) = .ok made ↔
      ∃ rows, makeAll make items = some rows ∧ (rows.map rest).Nodup ∧
        made = deleteOf owner deviceId table ++ rows := by
  rw [insertAll_ok]
  refine exists_congr fun rows => and_congr_right fun hrows => ?_
  have hall := makeAll_forall howner hrows
  have hfresh : ∀ row ∈ rows, (owner row, rest row) ∉
      (deleteOf owner deviceId table).map fun row => (owner row, rest row) := by
    intro row hrow hmem
    obtain ⟨other, hother, heq⟩ := List.mem_map.mp hmem
    have hne : owner other ≠ deviceId := by simpa using (List.mem_filter.mp hother).2
    exact hne ((Prod.mk.inj heq).1.trans (hall row hrow))
  have hdistinct : (rows.map fun row => (owner row, rest row)).Nodup ↔ (rows.map rest).Nodup := by
    have hmap : rows.map (fun row => (owner row, rest row)) = (rows.map rest).map (deviceId, ·) := by
      simpa using hall
    rw [hmap]
    exact List.nodup_map_iff fun a b h => (Prod.mk.inj h).2
  rw [hdistinct]
  exact and_congr_right fun _ => and_iff_right hfresh

variable {inventory : Fleet.Inventory}

/-- What a stored inventory replaces, and that nothing else changes. -/
theorem replaceInventory_ok :
    store.replaceInventory text deviceId inventory = .ok next ↔
      ∃ discoveries modelRuntimes,
        makeAll (discoveryRow text store deviceId) inventory.discoveries = some discoveries ∧
        (discoveries.map fun row => (row.kind, row.path)).Nodup ∧
        makeAll (modelRuntimeRow text store deviceId) inventory.modelRuntimes = some modelRuntimes ∧
        (modelRuntimes.map (·.kind)).Nodup ∧
        next = { store with
          discoveries := deleteOf DiscoveryRow.deviceId deviceId store.discoveries ++ discoveries
          modelRuntimes := deleteOf ModelRuntimeRow.deviceId deviceId store.modelRuntimes ++ modelRuntimes } := by
  have howner : ∀ discovery row, discoveryRow text store deviceId discovery = .ok row → row.deviceId = deviceId :=
    fun _ _ h => (discoveryRow_deviceId h).1
  have hruntime : ∀ runtime row, modelRuntimeRow text store deviceId runtime = .ok row → row.deviceId = deviceId :=
    fun _ _ h => (modelRuntimeRow_deviceId h).1
  unfold replaceInventory
  constructor
  · intro h
    cases hdiscoveries : insertAll discoveryKey .constraint (discoveryRow text store deviceId) inventory.discoveries
        (deleteOf DiscoveryRow.deviceId deviceId store.discoveries) with
    | error error => simp [hdiscoveries] at h
    | ok discoveries =>
      rw [hdiscoveries] at h
      dsimp only at h
      cases hruntimes : insertAll modelRuntimeKey .constraint (modelRuntimeRow text store deviceId)
          inventory.modelRuntimes (deleteOf ModelRuntimeRow.deviceId deviceId store.modelRuntimes) with
      | error error => simp [hruntimes] at h
      | ok modelRuntimes =>
        rw [hruntimes] at h
        cases h
        obtain ⟨rows, hrows, hdistinct, rfl⟩ := (insertAll_replacing howner).mp hdiscoveries
        obtain ⟨others, hothers, hkinds, rfl⟩ := (insertAll_replacing hruntime).mp hruntimes
        exact ⟨rows, others, hrows, hdistinct, hothers, hkinds, rfl⟩
  · rintro ⟨rows, others, hrows, hdistinct, hothers, hkinds, rfl⟩
    have hdiscoveries : insertAll discoveryKey .constraint (discoveryRow text store deviceId) inventory.discoveries
        (deleteOf DiscoveryRow.deviceId deviceId store.discoveries) = .ok _ :=
      (insertAll_replacing howner).mpr ⟨rows, hrows, hdistinct, rfl⟩
    have hruntimes : insertAll modelRuntimeKey .constraint (modelRuntimeRow text store deviceId)
        inventory.modelRuntimes (deleteOf ModelRuntimeRow.deviceId deviceId store.modelRuntimes) = .ok _ :=
      (insertAll_replacing hruntime).mpr ⟨others, hothers, hkinds, rfl⟩
    rw [hdiscoveries]
    dsimp only
    rw [hruntimes]

theorem checkPrograms_ok {seen : List String} {programs : List Fleet.ProgramStatus} :
    checkPrograms seen programs = .ok () ↔
      (∀ program ∈ programs, validProgramName program.program = true ∧ program.detail.utf8ByteSize ≤ 2048 ∧
        program.program ∉ seen) ∧ (programs.map (·.program)).Nodup := by
  induction programs generalizing seen with
  | nil => simp [checkPrograms]
  | cons program rest ih =>
    have hrest : (program.program ∉ rest.map (·.program)) ↔ ∀ other ∈ rest, other.program ≠ program.program := by
      simp
    rw [checkPrograms, List.map_cons, List.nodup_cons, hrest, List.forall_mem_cons]
    split_ifs <;> grind

variable {status : Fleet.ConfigStatus}

/-- The reports that are accepted. -/
theorem validateProgramStatus_ok :
    validateProgramStatus status = .ok () ↔
      status.programs.length ≤ 32 ∧ (status.programs.map (·.program)).Nodup ∧
        ∀ program ∈ status.programs, validProgramName program.program = true ∧
          program.detail.utf8ByteSize ≤ 2048 := by
  unfold validateProgramStatus
  split
  next h => simp [show ¬ status.programs.length ≤ 32 by omega]
  next h =>
    rw [checkPrograms_ok]
    simp only [List.not_mem_nil, not_false_iff, and_true, show status.programs.length ≤ 32 by omega, true_and]
    exact and_comm

/-- What a status changes in the rows of its device. -/
def statusRows (now : Int) (deviceId : String) (status : Fleet.ConfigStatus) (rows : FleetStore Text) :
    FleetStore Text :=
  match validateProgramStatus status with
  | .error _ => { rows with
      configStatuses := if rows.configStatuses = [] then [statusRow now status 0 deviceId]
        else rows.configStatuses.map fun old => statusRow now status old.programsReported old.deviceId }
  | .ok () => { rows with
      programStatuses := status.programs.zipIdx.map (programStatusRow now deviceId status.revision)
      configStatuses := if rows.configStatuses = [] then
          [statusRow now status (boolI64 status.programsReported) deviceId]
        else rows.configStatuses.map fun old => statusRow now status (boolI64 status.programsReported) old.deviceId }

theorem insertAll_programs (hvalid : validateProgramStatus status = .ok ())
    (h : deviceId ∈ store.devices.map DeviceRow.id) :
    insertAll programStatusKey .constraint
      (fun program => store.reference deviceId (programStatusRow now deviceId status.revision program))
      status.programs.zipIdx (deleteOf ProgramStatusRow.deviceId deviceId store.programStatuses) =
      .ok (deleteOf ProgramStatusRow.deviceId deviceId store.programStatuses ++
        status.programs.zipIdx.map (programStatusRow now deviceId status.revision)) := by
  have hmade : makeAll (fun program => store.reference deviceId (programStatusRow now deviceId status.revision program))
      status.programs.zipIdx = some (status.programs.zipIdx.map (programStatusRow now deviceId status.revision)) :=
    makeAll_ok (fun program => reference_there _ h) _
  have hnames : ((status.programs.zipIdx.map (programStatusRow now deviceId status.revision)).map
      (·.program)).Nodup := by
    have hdistinct := (validateProgramStatus_ok.mp hvalid).2.1
    rw [← List.zipIdx_map_fst 0 status.programs, List.map_map] at hdistinct
    rw [List.map_map]
    exact hdistinct
  exact (insertAll_replacing fun _ _ hrow => (reference_ok.mp hrow).1 ▸ rfl).mpr ⟨_, hmade, hnames, rfl⟩

theorem rowsOf_statuses {first : Int} {reported : ConfigStatusRow → Int} {table : List ConfigStatusRow} :
    rowsOf ConfigStatusRow.deviceId id (SqlTable.upsert ConfigStatusRow.deviceId
      (fun old => statusRow now status (reported old) old.deviceId) (statusRow now status first deviceId) table) =
      if id = deviceId then
        (if rowsOf ConfigStatusRow.deviceId id table = [] then [statusRow now status first deviceId]
          else (rowsOf ConfigStatusRow.deviceId id table).map fun old =>
            statusRow now status (reported old) old.deviceId)
      else rowsOf ConfigStatusRow.deviceId id table :=
  rowsOf_upsert fun _ => rfl

theorem storeConfigStatus_there (now : Int) (status : Fleet.ConfigStatus)
    (h : deviceId ∈ store.devices.map DeviceRow.id) :
    ∃ next, store.storeConfigStatus now deviceId status = .ok next ∧
      ∀ id, next.ofDevice id =
        if id = deviceId then statusRows now deviceId status (store.ofDevice id) else store.ofDevice id := by
  unfold storeConfigStatus statusRows
  cases hvalid : validateProgramStatus status with
  | error error =>
    dsimp only
    unfold updateDeviceConfigState
    rw [reference_there _ h]
    refine ⟨_, rfl, fun id => ?_⟩
    unfold ofDevice
    rw [rowsOf_statuses]
    split <;> rfl
  | ok =>
    dsimp only
    unfold updateConfigStatus
    rw [hvalid]
    dsimp only
    rw [reference_there _ h, insertAll_programs hvalid h]
    refine ⟨_, rfl, fun id => ?_⟩
    have howner : ∀ row ∈ status.programs.zipIdx.map (programStatusRow now deviceId status.revision),
        row.deviceId = deviceId := by
      intro row hrow
      obtain ⟨_, _, rfl⟩ := List.mem_map.mp hrow
      rfl
    unfold ofDevice
    rw [rowsOf_statuses, rowsOf_replaced howner]
    split <;> rfl

theorem storeConfigStatus_gone (h : deviceId ∉ store.devices.map DeviceRow.id) :
    store.storeConfigStatus now deviceId status = .error .constraint := by
  unfold storeConfigStatus
  cases hvalid : validateProgramStatus status with
  | error error =>
    dsimp only
    unfold updateDeviceConfigState
    rw [reference_gone _ h]
  | ok =>
    dsimp only
    unfold updateConfigStatus
    rw [hvalid]
    dsimp only
    rw [reference_gone _ h]

theorem insertTelemetry_ok {eventId : String} {telemetry : Fleet.TelemetryEvent} :
    store.insertTelemetry text eventId deviceId telemetry = .ok next ↔
      ∃ eventType payload, (telemetry.event.bind fun event => (readEvent text event).toOption) =
          some (eventType, payload) ∧
        deviceId ∈ store.devices.map DeviceRow.id ∧ eventId ∉ store.telemetryEvents.map TelemetryRow.id ∧
        next = { store with telemetryEvents := store.telemetryEvents ++ [⟨eventId, deviceId,
          saturatingI64 telemetry.timestampUnixMs, eventType, text.value.encode payload⟩] } := by
  unfold insertTelemetry
  cases telemetry.event with
  | none => simp
  | some event =>
    dsimp only
    cases hread : readEvent text event with
    | error error => simp [hread, Except.toOption]
    | ok result =>
      obtain ⟨eventType, payload⟩ := result
      dsimp only
      by_cases h : deviceId ∈ store.devices.map DeviceRow.id
      · rw [reference_there _ h]
        dsimp only
        by_cases hid : eventId ∈ store.telemetryEvents.map TelemetryRow.id
        · rw [SqlTable.insert, if_pos hid]
          refine iff_of_false (by simp) ?_
          rintro ⟨_, _, _, _, hnew, _⟩
          exact hnew hid
        · rw [SqlTable.insert, if_neg hid]
          simp only [Except.ok.injEq, Option.bind_some, hread, Except.toOption, Option.some.injEq, Prod.mk.injEq, h,
            hid, not_false_iff, true_and, and_assoc, exists_eq_left', exists_and_left]
          exact eq_comm
      · simp [reference_gone _ h, h]

theorem ofDevice_inventory {discoveries : List (DiscoveryRow Text)} {modelRuntimes : List (ModelRuntimeRow Text)}
    (hdiscoveries : ∀ row ∈ discoveries, row.deviceId = deviceId)
    (hruntimes : ∀ row ∈ modelRuntimes, row.deviceId = deviceId) :
    ({ store with
      discoveries := deleteOf DiscoveryRow.deviceId deviceId store.discoveries ++ discoveries
      modelRuntimes := deleteOf ModelRuntimeRow.deviceId deviceId store.modelRuntimes ++ modelRuntimes } :
      FleetStore Text).ofDevice id =
      if id = deviceId then { store.ofDevice id with discoveries, modelRuntimes } else store.ofDevice id := by
  unfold ofDevice
  rw [rowsOf_replaced hdiscoveries, rowsOf_replaced hruntimes]
  split <;> rfl

theorem ofDevice_event {row : TelemetryRow Text} :
    ({ store with telemetryEvents := store.telemetryEvents ++ [row] } : FleetStore Text).ofDevice id =
      if id = row.deviceId then { store.ofDevice id with
        telemetryEvents := (store.ofDevice id).telemetryEvents ++ [row] }
      else store.ofDevice id := by
  unfold ofDevice
  rw [rowsOf_snoc]
  split <;> rfl

theorem ofDevice_device {row : DeviceRow Text} :
    ({ store with devices := store.devices ++ [row] } : FleetStore Text).ofDevice id =
      if id = row.id then { store.ofDevice id with devices := (store.ofDevice id).devices ++ [row] }
      else store.ofDevice id := by
  unfold ofDevice
  rw [rowsOf_snoc]
  split <;> rfl

theorem toOption_eq_some {ε α : Type} {result : Except ε α} {value : α} :
    result.toOption = some value ↔ result = .ok value := by
  cases result <;> simp [Except.toOption]

theorem discoveryRow_read (h : deviceId ∈ store.devices.map DeviceRow.id) (discovery : Fleet.Discovery) :
    discoveryRow text store deviceId discovery = (readDiscovery text discovery).map (·.row text deviceId) := by
  unfold discoveryRow readDiscovery
  cases readSkills text discovery.skills with
  | error error => rfl
  | ok skills => exact reference_there _ h

theorem makeAll_runtimes (h : deviceId ∈ store.devices.map DeviceRow.id) (runtimes : List ModelRuntime) :
    makeAll (modelRuntimeRow text store deviceId) runtimes = some (runtimes.map (·.row text deviceId)) :=
  makeAll_ok (fun _ => reference_there _ h) runtimes

/-- An inventory of a device that is there is stored just if it can be read. -/
theorem replaceInventory_there (h : deviceId ∈ store.devices.map DeviceRow.id) :
    store.replaceInventory text deviceId inventory = .ok next ↔
      ∃ discoveries modelRuntimes, readInventory text inventory = some (discoveries, modelRuntimes) ∧
        next = { store with
          discoveries := deleteOf DiscoveryRow.deviceId deviceId store.discoveries ++
            discoveries.map (·.row text deviceId)
          modelRuntimes := deleteOf ModelRuntimeRow.deviceId deviceId store.modelRuntimes ++
            modelRuntimes.map (·.row text deviceId) } := by
  rw [replaceInventory_ok, makeAll_map (discoveryRow_read h), makeAll_runtimes h]
  unfold readInventory
  cases makeAll (readDiscovery text) inventory.discoveries with
  | none => simp
  | some discoveries =>
    have hkeys : ((discoveries.map (·.row text deviceId)).map fun row => (row.kind, row.path)) =
        discoveries.map fun discovery => (discovery.kind, discovery.path) := by
      rw [List.map_map]
      rfl
    have hkinds : ((inventory.modelRuntimes.map (·.row text deviceId)).map (·.kind)) =
        inventory.modelRuntimes.map (·.kind) := by
      rw [List.map_map]
      rfl
    dsimp only
    constructor
    · rintro ⟨_, _, hrows, hdistinct, hruntimes, hdistinct', rfl⟩
      cases hrows
      cases hruntimes
      rw [hkeys] at hdistinct
      rw [hkinds] at hdistinct'
      exact ⟨discoveries, inventory.modelRuntimes, if_pos ⟨hdistinct, hdistinct'⟩, rfl⟩
    · rintro ⟨_, _, hread, rfl⟩
      split at hread
      next hdistinct =>
        cases hread
        exact ⟨_, _, rfl, hkeys ▸ hdistinct.1, rfl, hkinds ▸ hdistinct.2, rfl⟩
      next => cases hread

theorem replaceInventory_rows (h : store.replaceInventory text deviceId inventory = .ok next) :
    ∃ discoveries modelRuntimes,
      makeAll (discoveryRow text store deviceId) inventory.discoveries = some discoveries ∧
      makeAll (modelRuntimeRow text store deviceId) inventory.modelRuntimes = some modelRuntimes ∧
      ∀ id, next.ofDevice id =
        if id = deviceId then { store.ofDevice id with discoveries, modelRuntimes } else store.ofDevice id := by
  obtain ⟨discoveries, modelRuntimes, hdiscoveries, _, hruntimes, _, rfl⟩ := replaceInventory_ok.mp h
  refine ⟨discoveries, modelRuntimes, hdiscoveries, hruntimes, fun id => ofDevice_inventory ?_ ?_⟩
  · exact makeAll_forall (fun _ _ hrow => (discoveryRow_deviceId hrow).1) hdiscoveries
  · exact makeAll_forall (fun _ _ hrow => (modelRuntimeRow_deviceId hrow).1) hruntimes

end FleetStore

end AgentDesktop
