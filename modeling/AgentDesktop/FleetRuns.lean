import AgentDesktop.FleetSteps

namespace AgentDesktop

variable {Text : Type} {text : JsonText Text} {store next : FleetStore Text} {deviceId id eventId : String} {now : Int}

open SqlTable FleetStore

namespace FleetStore

theorem ofDevice_delete :
    (store.deleteDevice deviceId).1.ofDevice id = if id = deviceId then {} else store.ofDevice id := by
  unfold deleteDevice ofDevice
  split
  next h =>
    subst h
    simp only [rowsOf_deleteOf_self]
  next h => simp only [rowsOf_deleteOf_ne h]

variable {message : Option Fleet.AgentMessage}

/-- A message changes no rows but those of its device, and those only if the device is there. -/
theorem ofDevice_receive_kept (hkept : id = deviceId → store.ofDevice id = {})
    (h : store.receive text now eventId deviceId message = some next) : next.ofDevice id = store.ofDevice id := by
  have hgone : id = deviceId → deviceId ∉ store.devices.map DeviceRow.id := by
    rintro rfl
    rw [mem_devices_iff, hkept rfl]
    exact fun h => h rfl
  have hdevices : ∀ update : DeviceRow Text → DeviceRow Text, (∀ row, (update row).id = row.id) →
      ({ store with devices := updateOf DeviceRow.id deviceId update store.devices } : FleetStore Text).ofDevice id =
        store.ofDevice id := by
    intro update hid
    rw [ofDevice_updateDevices hid]
    split
    next h =>
      rw [hkept h]
      rfl
    next => rfl
  cases message with
  | none =>
    cases h
    rfl
  | some message =>
    cases message with
    | hello hello =>
      unfold receive at h
      by_cases hid : hello.deviceId = deviceId
      · simp only [ne_eq, hid, not_true, if_false, Option.some.injEq] at h
        cases h
        exact hdevices _ fun _ => rfl
      · simp [hid] at h
    | heartbeat timestamp =>
      cases h
      exact hdevices _ fun _ => rfl
    | inventory inventory =>
      obtain ⟨discoveries, runtimes, hdiscoveries, hruntimes, hnext⟩ := replaceInventory_rows (toOption_eq_some.mp h)
      rw [hnext]
      split
      next hid =>
        have hnone := makeAll_forall (fun _ _ hrow => hgone hid (discoveryRow_deviceId hrow).2) hdiscoveries
        have hnoruntime := makeAll_forall (fun _ _ hrow => hgone hid (modelRuntimeRow_deviceId hrow).2) hruntimes
        rw [hkept hid, List.eq_nil_iff_forall_not_mem.mpr hnone, List.eq_nil_iff_forall_not_mem.mpr hnoruntime]
      next => rfl
    | configStatus status =>
      have hstored := toOption_eq_some.mp h
      by_cases hmem : deviceId ∈ store.devices.map DeviceRow.id
      · obtain ⟨_, hthere, hnext⟩ := storeConfigStatus_there now status hmem
        cases hstored.symm.trans hthere
        rw [hnext, if_neg fun hid => hgone hid hmem]
      · cases hstored.symm.trans (storeConfigStatus_gone hmem)
    | telemetry event =>
      obtain ⟨_, _, _, hmem, _, rfl⟩ := insertTelemetry_ok.mp (toOption_eq_some.mp h)
      exact ofDevice_event.trans (if_neg fun hid => hgone hid hmem)

variable {record : DeviceRecord}

theorem mem_of_rows (hrows : store.ofDevice deviceId = record.rows text deviceId) :
    deviceId ∈ store.devices.map DeviceRow.id := by
  rw [mem_devices_iff, hrows]
  simp [DeviceRecord.rows]

theorem ofDevice_inventory_own {inventory : Fleet.Inventory}
    (hrows : store.ofDevice deviceId = record.rows text deviceId) :
    ((store.replaceInventory text deviceId inventory).toOption.getD store).ofDevice deviceId =
      (record.storeInventory text inventory).rows text deviceId := by
  have hmem := mem_of_rows hrows
  unfold DeviceRecord.storeInventory
  cases hread : readInventory text inventory with
  | none =>
    cases hstored : store.replaceInventory text deviceId inventory with
    | error error => exact hrows
    | ok next =>
      obtain ⟨_, _, hsome, _⟩ := (replaceInventory_there hmem).mp hstored
      cases hread.symm.trans hsome
  | some read =>
    obtain ⟨discoveries, modelRuntimes⟩ := read
    rw [(replaceInventory_there hmem).mpr ⟨discoveries, modelRuntimes, hread, rfl⟩, Except.toOption,
      Option.getD_some, ofDevice_inventory, if_pos rfl, hrows]
    · rfl
    · intro row hrow
      obtain ⟨_, _, rfl⟩ := List.mem_map.mp hrow
      rfl
    · intro row hrow
      obtain ⟨_, _, rfl⟩ := List.mem_map.mp hrow
      rfl

theorem statusRows_rows {status : Fleet.ConfigStatus} :
    statusRows now deviceId status (record.rows text deviceId) =
      (record.storeStatus now status).rows text deviceId := by
  unfold statusRows DeviceRecord.storeStatus
  cases validateProgramStatus status with
  | error error =>
    dsimp only
    unfold DeviceRecord.rows
    cases record.status <;> rfl
  | ok =>
    dsimp only
    unfold DeviceRecord.rows
    have hprograms : status.programs.zipIdx.map (programStatusRow now deviceId status.revision) =
        (status.programs.map fun program => (⟨program.program, program.state, program.detail,
          saturatingI64 status.revision, now⟩ : ReportedProgram)).zipIdx.map (ReportedProgram.row deviceId) := by
      rw [List.zipIdx_map, List.map_map]
      rfl
    rw [hprograms]
    cases record.status <;> rfl

theorem ofDevice_telemetry_own {event : Fleet.TelemetryEvent}
    (hrows : store.ofDevice deviceId = record.rows text deviceId)
    (hfresh : eventId ∉ store.telemetryEvents.map TelemetryRow.id) :
    ((store.insertTelemetry text eventId deviceId event).toOption.getD store).ofDevice deviceId =
      (record.storeEvent text eventId event).rows text deviceId := by
  have hmem := mem_of_rows hrows
  unfold DeviceRecord.storeEvent
  cases hread : event.event.bind fun event => (readEvent text event).toOption with
  | none =>
    cases hstored : store.insertTelemetry text eventId deviceId event with
    | error error => exact hrows
    | ok next =>
      obtain ⟨_, _, hsome, _⟩ := insertTelemetry_ok.mp hstored
      cases hread.symm.trans hsome
  | some read =>
    obtain ⟨eventType, payload⟩ := read
    rw [insertTelemetry_ok.mpr ⟨eventType, payload, hread, hmem, hfresh, rfl⟩, Except.toOption, Option.getD_some,
      ofDevice_event, if_pos rfl, hrows]
    unfold DeviceRecord.rows
    rw [List.map_append]
    rfl

/-- A message to a device that is there changes its rows as it changes the record. -/
theorem ofDevice_receive_own (hrows : store.ofDevice deviceId = record.rows text deviceId)
    (hfresh : eventId ∉ store.telemetryEvents.map TelemetryRow.id) :
    ((store.receive text now eventId deviceId message).getD store).ofDevice deviceId =
      (record.receive text now eventId deviceId message).rows text deviceId := by
  have hmem := mem_of_rows hrows
  cases message with
  | none => exact hrows
  | some message =>
    cases message with
    | hello hello =>
      unfold receive DeviceRecord.receive
      by_cases hid : hello.deviceId = deviceId
      · simp only [ne_eq, hid, not_true, if_false, Option.getD_some]
        have hstored : (store.updateHello now deviceId hello).ofDevice deviceId = _ :=
          ofDevice_updateDevices fun _ => rfl
        rw [if_pos rfl, hrows] at hstored
        exact hstored
      · simp only [ne_eq, hid, not_false_iff, if_true, Option.getD_none]
        exact hrows
    | heartbeat timestamp =>
      have hstored : (store.updateHeartbeat deviceId timestamp).ofDevice deviceId = _ :=
        ofDevice_updateDevices fun _ => rfl
      rw [if_pos rfl, hrows] at hstored
      exact hstored
    | inventory inventory => exact ofDevice_inventory_own hrows
    | configStatus status =>
      obtain ⟨next, hstored, hnext⟩ := storeConfigStatus_there now status hmem
      have hreceive : store.receive text now eventId deviceId (some (.configStatus status)) = some next :=
        toOption_eq_some.mpr hstored
      rw [hreceive, Option.getD_some, hnext, if_pos rfl, hrows]
      exact statusRows_rows
    | telemetry event => exact ofDevice_telemetry_own hrows hfresh

theorem ofDevice_enroll {hostname issuer subject : String} {idpClaims : Option Json} {record : Option DeviceRecord}
    (hrows : store.ofDevice deviceId = DeviceRecord.rowsOf text deviceId record) :
    (store.act text (.enroll now deviceId hostname issuer subject idpClaims)).ofDevice id =
      if id = deviceId then DeviceRecord.rowsOf text id
        (DeviceRecord.act text record (.enroll now deviceId hostname issuer subject idpClaims))
      else store.ofDevice id := by
  have hthere : deviceId ∈ store.devices.map DeviceRow.id ↔ record ≠ none := by
    rw [mem_devices_iff, hrows]
    cases record <;> simp [DeviceRecord.rowsOf, DeviceRecord.rows]
  cases record with
  | some record =>
    have htaken : store.enrollDevice text now deviceId hostname issuer subject idpClaims = .error .constraint := by
      unfold enrollDevice
      dsimp only
      rw [SqlTable.insert, if_pos (hthere.mpr (by simp))]
    rw [act, htaken, Except.toOption, Option.getD_none]
    split
    next hid => rw [hid, hrows]; rfl
    next => rfl
  | none =>
    have hnew : store.enrollDevice text now deviceId hostname issuer subject idpClaims = .ok { store with
        devices := store.devices ++ [⟨deviceId, hostname, "", "", "", now, some now, issuer, subject,
          idpClaims.map text.value.encode⟩] } := by
      unfold enrollDevice
      dsimp only
      rw [SqlTable.insert, if_neg (mt hthere.mp (by simp))]
    rw [act, hnew, Except.toOption, Option.getD_some, ofDevice_device]
    split
    next hid => rw [hid, hrows]; rfl
    next => rfl

theorem ofDevice_message {record : Option DeviceRecord}
    (hrows : store.ofDevice deviceId = DeviceRecord.rowsOf text deviceId record)
    (hfresh : eventId ∉ store.telemetryEvents.map TelemetryRow.id) :
    (store.act text (.message now eventId deviceId message)).ofDevice id =
      if id = deviceId then DeviceRecord.rowsOf text id
        (DeviceRecord.act text record (.message now eventId deviceId message))
      else store.ofDevice id := by
  have hkept : (id = deviceId → store.ofDevice id = {}) →
      (store.act text (.message now eventId deviceId message)).ofDevice id = store.ofDevice id := by
    intro hgone
    rw [act]
    cases hreceived : store.receive text now eventId deviceId message with
    | none => rfl
    | some next => exact ofDevice_receive_kept hgone hreceived
  split
  next hid =>
    subst hid
    cases record with
    | some record => exact ofDevice_receive_own hrows hfresh
    | none => exact (hkept fun _ => hrows).trans hrows
  next hid => exact hkept fun h => absurd h hid

/-- The tables hold a record of each device. -/
def Holds (text : JsonText Text) (store : FleetStore Text) (records : String → Option DeviceRecord) : Prop :=
  ∀ id, store.ofDevice id = DeviceRecord.rowsOf text id (records id)

/-- No event of a record has the id. -/
def FreshEvent (records : String → Option DeviceRecord) (eventId : String) : Prop :=
  ∀ id, ∀ record ∈ records id, eventId ∉ record.events.map (·.id)

variable {records : String → Option DeviceRecord}

theorem Holds.fresh (hholds : Holds text store records) (hfresh : FreshEvent records eventId) :
    eventId ∉ store.telemetryEvents.map TelemetryRow.id := by
  intro hmem
  obtain ⟨row, hrow, rfl⟩ := List.mem_map.mp hmem
  have hown : row ∈ (store.ofDevice row.deviceId).telemetryEvents := mem_rowsOf.mpr ⟨hrow, rfl⟩
  rw [hholds] at hown
  cases hrecord : records row.deviceId with
  | none =>
    rw [hrecord] at hown
    simp [DeviceRecord.rowsOf] at hown
  | some record =>
    rw [hrecord] at hown
    obtain ⟨event, hevent, heq⟩ := List.mem_map.mp hown
    refine hfresh _ record hrecord (List.mem_map.mpr ⟨event, hevent, ?_⟩)
    rw [← heq]
    rfl

/-- The records after an action. -/
def actOn (text : JsonText Text) (records : String → Option DeviceRecord) (action : FleetAction) :
    String → Option DeviceRecord :=
  fun id => if id = action.deviceId then DeviceRecord.act text (records id) action else records id

/-- One action changes the record of its device, and the tables hold the records. -/
theorem Holds.act {action : FleetAction} (hholds : Holds text store records)
    (hfresh : ∀ eventId, action.eventId = some eventId → FreshEvent records eventId) :
    Holds text (store.act text action) (actOn text records action) := by
  intro id
  have hone : (store.act text action).ofDevice id = if id = action.deviceId then
      DeviceRecord.rowsOf text id (DeviceRecord.act text (records action.deviceId) action)
      else store.ofDevice id := by
    cases action with
    | enroll now deviceId hostname issuer subject idpClaims => exact ofDevice_enroll (hholds deviceId)
    | delete deviceId =>
      have hdeleted : (store.act text (.delete deviceId)).ofDevice id = _ := ofDevice_delete
      simpa [DeviceRecord.act, DeviceRecord.rowsOf, FleetAction.deviceId] using hdeleted
    | message now eventId deviceId message =>
      exact ofDevice_message (hholds deviceId) (hholds.fresh (hfresh eventId rfl))
  rw [hone, actOn]
  split
  next hid => rw [hid]
  next => exact hholds id

/-- Every event of a record has the id of the action that it came with. -/
theorem eventIds_receive {record : DeviceRecord} {stored : String}
    (h : stored ∈ (record.receive text now eventId deviceId message).events.map (·.id)) :
    stored ∈ record.events.map (·.id) ∨ stored = eventId := by
  unfold DeviceRecord.receive at h
  split at h
  · split at h <;> exact .inl h
  · exact .inl h
  · unfold DeviceRecord.storeInventory at h
    split at h <;> exact .inl h
  · unfold DeviceRecord.storeStatus at h
    dsimp only at h
    split at h <;> exact .inl h
  · unfold DeviceRecord.storeEvent at h
    split at h
    · exact .inl h
    · simpa using h
  · exact .inl h

theorem FreshEvent.actOn {action : FleetAction} (hfresh : FreshEvent records eventId)
    (hne : action.eventId ≠ some eventId) : FreshEvent (actOn text records action) eventId := by
  intro id record hrecord hmem
  unfold FleetStore.actOn at hrecord
  split at hrecord
  next =>
    cases action with
    | enroll now deviceId hostname issuer subject idpClaims =>
      cases hold : records id with
      | none =>
        rw [hold] at hrecord
        cases hrecord
        simp at hmem
      | some old =>
        rw [hold] at hrecord
        cases hrecord
        exact hfresh id _ hold hmem
    | delete deviceId => simp [DeviceRecord.act] at hrecord
    | message now other deviceId message =>
      cases hold : records id with
      | none =>
        rw [hold] at hrecord
        cases hrecord
      | some old =>
        rw [hold] at hrecord
        cases hrecord
        rcases eventIds_receive hmem with hmem | rfl
        · exact hfresh id old hold hmem
        · exact hne rfl
  next => exact hfresh id record hrecord hmem

/-- After any actions the tables hold of each device what its own actions made of it. -/
theorem Holds.foldl {actions : List FleetAction} (hholds : Holds text store records)
    (hdistinct : (actions.filterMap FleetAction.eventId).Nodup)
    (hfresh : ∀ eventId ∈ actions.filterMap FleetAction.eventId, FreshEvent records eventId) :
    Holds text (actions.foldl (FleetStore.act text) store) fun id =>
      (actions.filter fun action => decide (action.deviceId = id)).foldl (DeviceRecord.act text) (records id) := by
  induction actions generalizing store records with
  | nil => exact hholds
  | cons action rest ih =>
    have hone : ∀ eventId, action.eventId = some eventId → FreshEvent records eventId := fun eventId h =>
      hfresh eventId (List.mem_filterMap.mpr ⟨action, List.mem_cons_self, h⟩)
    have hrest : (rest.filterMap FleetAction.eventId).Nodup :=
      hdistinct.sublist ((List.sublist_cons_self _ _).filterMap _)
    have hlater : ∀ eventId ∈ rest.filterMap FleetAction.eventId, FreshEvent (actOn text records action) eventId := by
      intro eventId hmem
      refine (hfresh eventId ?_).actOn fun heq => ?_
      · obtain ⟨other, hother, heq⟩ := List.mem_filterMap.mp hmem
        exact List.mem_filterMap.mpr ⟨other, List.mem_cons_of_mem _ hother, heq⟩
      · rw [List.filterMap_cons_some heq] at hdistinct
        exact (List.nodup_cons.mp hdistinct).1 hmem
    have hfolded := ih (hholds.act hone) hrest hlater
    intro id
    rw [List.foldl_cons, hfolded id]
    unfold actOn
    by_cases hid : action.deviceId = id
    · simp [hid]
    · simp [hid, Ne.symm hid]

/-- The tables of a run hold what each device's own actions made of it. -/
theorem run_holds {actions : List FleetAction} (hdistinct : (actions.filterMap FleetAction.eventId).Nodup) :
    Holds text (run text actions) fun id => DeviceRecord.after text id actions := by
  have hempty : Holds text ({} : FleetStore Text) fun _ => none := fun _ => rfl
  exact hempty.foldl hdistinct fun _ _ _ _ hrecord => absurd hrecord (by simp)

end FleetStore

end AgentDesktop
