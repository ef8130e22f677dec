import AgentDesktop.SecretStore

namespace AgentDesktop

@[simp] theorem StepOutcome.works_done : StepOutcome.done.works = true := rfl

@[simp] theorem StepOutcome.takesEffect_done : StepOutcome.done.takesEffect = true := rfl

section

variable {Key : Type}

namespace SecretStore

variable (store : SecretStore Key) (path : String) (file : Option (Sealed Key)) (entry : String × String)
  (value : Option String)

@[simp] theorem setFile_storeId : (store.setFile path file).storeId = store.storeId := rfl

@[simp] theorem setEntry_storeId : (store.setEntry entry value).storeId = store.storeId := rfl

@[simp] theorem setFile_entries : (store.setFile path file).entries = store.entries := rfl

@[simp] theorem setEntry_files : (store.setEntry entry value).files = store.files := rfl

@[simp] theorem setFile_files (other : String) :
    (store.setFile path file).files other = if other = path then file else store.files other := rfl

@[simp] theorem setEntry_entries (other : String × String) :
    (store.setEntry entry value).entries other = if other = entry then value else store.entries other := rfl

end SecretStore

def StoredKey.key? : StoredKey Key → Option Key
  | .key found => some found
  | _ => none

variable (envelope : Envelope Key)

namespace SetEnv

variable (env : SetEnv Key)

def locks : Bool :=
  (env.outcome .openLock).works && (env.outcome .lock).works

def identifies (store : SecretStore Key) : Bool :=
  (env.outcome .readStoreId).works &&
    (store.storeId.isSome || (env.outcome .generateId).works && (env.outcome .writeStoreId).works)

/-- The key is gone, and the file is removed. -/
def clears (secret : Secret) (id : String) (store : SecretStore Key) : Bool :=
  (env.outcome .readKey).works && (envelope.readKey store (keyEntry id secret)).key?.isNone &&
    (env.outcome .removeFile).works

def storesKey : Bool :=
  (env.outcome .generateKey).works && (env.outcome .setKey).works

def writes : Bool :=
  (env.outcome .encrypt).works && (env.outcome .writeFile).works

/-- A write removes the file since its key is gone, and stops before the file is written again. -/
def strands (secret : Secret) (store : SecretStore Key) : Bool :=
  env.locks && env.identifies store && env.clears envelope secret (store.storeId.getD env.storeId) store &&
    !(env.storesKey && env.writes)

end SetEnv

/-- The store once it has an identity. -/
inductive Identified (env : SetEnv Key) (store : SecretStore Key) : String → SecretStore Key → Prop where
  | found {id : String} (hid : store.storeId = some id) : Identified env store id store
  | created (hid : store.storeId = none) :
    Identified env store env.storeId { store with storeIdFile := some env.storeId }

/-- The store once it has the key of a secret: as it was, or without the file and with a new key. -/
inductive Keyed (env : SetEnv Key) (secret : Secret) (id : String) (store : SecretStore Key) :
    Key → SecretStore Key → Prop where
  | found {key : Key} (hkey : (envelope.readKey store (keyEntry id secret)).key? = some key) :
    Keyed env secret id store key store
  | made :
    Keyed env secret id store env.key ((store.setFile (envelope.entryPath secret) none).setEntry (keyEntry id secret)
      (some (envelope.encode env.key)))

/-- What a write leaves. -/
inductive SetResult (env : SetEnv Key) (secret : Secret) (value : String) (store : SecretStore Key) :
    SecretStore Key × Except String Unit → Prop where
  | refused (hkept : env.strands envelope secret store = false) (error : String) :
    SetResult env secret value store (store, .error error)
  | stopped {id : String} {base : SecretStore Key} (hbase : Identified env store id base)
      (hkept : env.strands envelope secret store = false) (error : String) :
    SetResult env secret value store (base, .error error)
  | cleared {id : String} {base : SecretStore Key} (hbase : Identified env store id base)
      (hstranded : env.strands envelope secret store = true) (error : String) :
    SetResult env secret value store (base.setFile (envelope.entryPath secret) none, .error error)
  | keyed {id : String} {base : SecretStore Key} (hbase : Identified env store id base)
      (hstranded : env.strands envelope secret store = true) (error : String) :
    SetResult env secret value store ((base.setFile (envelope.entryPath secret) none).setEntry (keyEntry id secret)
      (some (envelope.encode env.key)), .error error)
  | written {id : String} {base prepared : SecretStore Key} {key : Key} (hbase : Identified env store id base)
      (hkey : Keyed envelope env secret id base key prepared) (hkept : env.strands envelope secret store = false) :
    SetResult env secret value store
      (prepared.setFile (envelope.entryPath secret) (some (Envelope.sealSecret key secret value)), .ok ())
  | replaced {id : String} {base prepared : SecretStore Key} {key : Key} (hbase : Identified env store id base)
      (hkey : Keyed envelope env secret id base key prepared) (hkept : env.strands envelope secret store = false) :
    SetResult env secret value store
      ((prepared.setFile (envelope.entryPath secret) (some (Envelope.sealSecret key secret value))).setEntry
        (directEntry secret) none, .ok ())

/-- What a deletion leaves. -/
inductive DeleteResult (secret : Secret) (store : SecretStore Key) : SecretStore Key × Except String Unit → Prop where
  | refused (error : String) : DeleteResult secret store (store, .error error)
  | undirected (error : String) : DeleteResult secret store (store.setEntry (directEntry secret) none, .error error)
  | removed (result : Except String Unit) (hresult : result = .ok () → store.storeId = none) : DeleteResult secret store
      ((store.setEntry (directEntry secret) none).setFile (envelope.entryPath secret) none, result)
  | unkeyed {id : String} (hid : store.storeId = some id) (result : Except String Unit) :
    DeleteResult secret store (((store.setEntry (directEntry secret) none).setFile (envelope.entryPath secret)
      none).setEntry (keyEntry id secret) none, result)

variable {envelope} {env : SetEnv Key} {secret : Secret} {value : String} {store : SecretStore Key}

theorem delete_spec (outcome : SecretOperation → StepOutcome) :
    DeleteResult envelope secret store (envelope.delete outcome secret store) := by
  unfold Envelope.delete
  cases envelope.lockStore outcome with
  | error error => exact .refused error
  | ok =>
    dsimp only
    cases hlegacy : outcome .deleteLegacy with
    | failed => exact .refused _
    | doneButFailed => exact .undirected _
    | done =>
      cases hremove : (outcome .removeFile).works with
      | false => exact .undirected _
      | true =>
        cases hread : (outcome .readStoreId).works with
        | false => exact .removed _ (by simp)
        | true =>
          simp only [StepOutcome.takesEffect_done, StepOutcome.works_done, if_true, Bool.not_true, Bool.false_eq_true,
            if_false, SecretStore.setFile_storeId, SecretStore.setEntry_storeId]
          cases hid : store.storeId with
          | none => exact .removed _ fun _ => hid
          | some id =>
            cases hkey : outcome .deleteKey with
            | done => exact .unkeyed hid _
            | failed => exact .removed _ (by simp)
            | doneButFailed => exact .unkeyed hid _

theorem lockStore_spec (env : SetEnv Key) :
    (∃ error, envelope.lockStore env.outcome = .error error ∧ env.locks = false) ∨
      envelope.lockStore env.outcome = .ok () ∧ env.locks = true := by
  unfold Envelope.lockStore SetEnv.locks
  cases (env.outcome .openLock).works with
  | false => exact Or.inl ⟨_, rfl, rfl⟩
  | true =>
    cases (env.outcome .lock).works with
    | false => exact Or.inl ⟨_, rfl, rfl⟩
    | true => exact Or.inr ⟨rfl, rfl⟩

theorem createStoreId_spec (env : SetEnv Key) (store : SecretStore Key) :
    (∃ error, envelope.createStoreId env store = (store, .error error) ∧ env.identifies store = false) ∨
      ∃ base, envelope.createStoreId env store = (base, .ok (store.storeId.getD env.storeId)) ∧
        Identified env store (store.storeId.getD env.storeId) base ∧ env.identifies store = true := by
  unfold Envelope.createStoreId SetEnv.identifies
  cases (env.outcome .readStoreId).works with
  | false => exact Or.inl ⟨_, rfl, rfl⟩
  | true =>
    cases hid : store.storeId with
    | some id => exact Or.inr ⟨store, rfl, .found hid, rfl⟩
    | none =>
      cases (env.outcome .generateId).works with
      | false => exact Or.inl ⟨_, rfl, rfl⟩
      | true =>
        cases (env.outcome .writeStoreId).works with
        | false => exact Or.inl ⟨_, rfl, rfl⟩
        | true => exact Or.inr ⟨_, rfl, .created hid, rfl⟩

/-- What is done for the key of a secret. -/
inductive KeyResult (envelope : Envelope Key) (env : SetEnv Key) (secret : Secret) (id : String)
    (store : SecretStore Key) : SecretStore Key × Except String Key → Prop where
  | kept (hkept : env.clears envelope secret id store = false) (error : String) :
    KeyResult envelope env secret id store (store, .error error)
  | found {key : Key} (hkey : (envelope.readKey store (keyEntry id secret)).key? = some key)
      (hkept : env.clears envelope secret id store = false) : KeyResult envelope env secret id store (store, .ok key)
  | cleared (hclears : env.clears envelope secret id store = true) (hstops : env.storesKey = false) (error : String) :
    KeyResult envelope env secret id store (store.setFile (envelope.entryPath secret) none, .error error)
  | keyed (hclears : env.clears envelope secret id store = true) (hstops : env.storesKey = false) (error : String) :
    KeyResult envelope env secret id store ((store.setFile (envelope.entryPath secret) none).setEntry
      (keyEntry id secret) (some (envelope.encode env.key)), .error error)
  | made (hclears : env.clears envelope secret id store = true) (hstored : env.storesKey = true) :
    KeyResult envelope env secret id store ((store.setFile (envelope.entryPath secret) none).setEntry
      (keyEntry id secret) (some (envelope.encode env.key)), .ok env.key)

theorem replaceKey_spec (hread : (env.outcome .readKey).works = true) {id : String}
    (hgone : (envelope.readKey store (keyEntry id secret)).key? = none) :
    KeyResult envelope env secret id store (envelope.replaceKey env secret id store) := by
  have hclears : env.clears envelope secret id store = (env.outcome .removeFile).works := by
    rw [SetEnv.clears, hread, hgone]
    rfl
  unfold Envelope.replaceKey
  cases hremove : (env.outcome .removeFile).works with
  | false => exact .kept (hclears.trans hremove) _
  | true =>
    have hclears := hclears.trans hremove
    cases hgenerate : (env.outcome .generateKey).works with
    | false => exact .cleared hclears (by rw [SetEnv.storesKey, hgenerate]; rfl) _
    | true =>
      cases hset : env.outcome .setKey with
      | done => exact .made hclears (by rw [SetEnv.storesKey, hgenerate, hset]; rfl)
      | failed => exact .cleared hclears (by rw [SetEnv.storesKey, hset]; exact Bool.and_false _) _
      | doneButFailed => exact .keyed hclears (by rw [SetEnv.storesKey, hset]; exact Bool.and_false _) _

theorem fileKey_spec (env : SetEnv Key) (secret : Secret) (id : String) (store : SecretStore Key) :
    KeyResult envelope env secret id store (envelope.fileKey env secret id store) := by
  unfold Envelope.fileKey
  cases hread : (env.outcome .readKey).works with
  | false => exact .kept (by simp [SetEnv.clears, hread]) _
  | true =>
    cases hkey : envelope.readKey store (keyEntry id secret) with
    | key key => exact .found (by rw [hkey]; rfl) (by simp [SetEnv.clears, hkey, StoredKey.key?])
    | missing => exact replaceKey_spec hread (by rw [hkey]; rfl)
    | malformed => exact replaceKey_spec hread (by rw [hkey]; rfl)

theorem writeSecret_spec (env : SetEnv Key) (secret : Secret) (value : String) (key : Key) (store : SecretStore Key) :
    (∃ error, envelope.writeSecret env secret value key store = (store, .error error) ∧ env.writes = false) ∨
    env.writes = true ∧ (envelope.writeSecret env secret value key store =
        (store.setFile (envelope.entryPath secret) (some (Envelope.sealSecret key secret value)), .ok ()) ∨
      envelope.writeSecret env secret value key store =
        ((store.setFile (envelope.entryPath secret) (some (Envelope.sealSecret key secret value))).setEntry
          (directEntry secret) none, .ok ())) := by
  unfold Envelope.writeSecret SetEnv.writes
  cases (env.outcome .encrypt).works with
  | false => exact Or.inl ⟨_, rfl, rfl⟩
  | true =>
    cases (env.outcome .writeFile).works with
    | false => exact Or.inl ⟨_, rfl, rfl⟩
    | true =>
      refine Or.inr ⟨rfl, ?_⟩
      simp only [Bool.not_true, Bool.false_eq_true, if_false]
      split
      next => exact Or.inr rfl
      next => exact Or.inl rfl

theorem Identified.readKey {id : String} {base : SecretStore Key} (h : Identified env store id base)
    (entry : String × String) : envelope.readKey base entry = envelope.readKey store entry := by
  cases h <;> rfl

theorem set_spec (env : SetEnv Key) (secret : Secret) (value : String) (store : SecretStore Key) :
    SetResult envelope env secret value store (envelope.set env secret value store) := by
  unfold Envelope.set
  rcases lockStore_spec env with ⟨error, hlock, hlocks⟩ | ⟨hlock, hlocks⟩
  · rw [hlock]
    exact .refused (by rw [SetEnv.strands, hlocks]; rfl) error
  · rw [hlock]
    dsimp only
    rcases createStoreId_spec env store with ⟨error, hid, hidentifies⟩ | ⟨base, hid, hbase, hidentifies⟩
    · rw [hid]
      exact .refused (by rw [SetEnv.strands, hlocks, hidentifies]; rfl) error
    · rw [hid]
      dsimp only
      have hclears : env.clears envelope secret (store.storeId.getD env.storeId) base =
          env.clears envelope secret (store.storeId.getD env.storeId) store := by
        rw [SetEnv.clears, SetEnv.clears, hbase.readKey]
      have hstrands : env.strands envelope secret store =
          (env.clears envelope secret (store.storeId.getD env.storeId) base && !(env.storesKey && env.writes)) := by
        rw [SetEnv.strands, hlocks, hidentifies, hclears]
        rfl
      have hkeyed : KeyResult envelope env secret _ base (envelope.fileKey env secret _ base) :=
        fileKey_spec env secret (store.storeId.getD env.storeId) base
      generalize envelope.fileKey env secret (store.storeId.getD env.storeId) base = result at hkeyed ⊢
      cases hkeyed with
      | kept hkept error =>
        rw [hkept] at hstrands
        exact .stopped hbase hstrands error
      | found hkey hkept =>
        rw [hkept] at hstrands
        rcases writeSecret_spec env secret value _ base with ⟨error, hwrite, _⟩ | ⟨_, hwrite | hwrite⟩
        · dsimp only
          rw [hwrite]
          exact .stopped hbase hstrands error
        · dsimp only
          rw [hwrite]
          exact .written hbase (.found hkey) hstrands
        · dsimp only
          rw [hwrite]
          exact .replaced hbase (.found hkey) hstrands
      | cleared hclears hstops error =>
        rw [hclears, hstops] at hstrands
        exact .cleared hbase hstrands error
      | keyed hclears hstops error =>
        rw [hclears, hstops] at hstrands
        exact .keyed hbase hstrands error
      | made hclears hstored =>
        rw [hclears, hstored] at hstrands
        rcases writeSecret_spec env secret value env.key _ with ⟨error, hwrite, hwrites⟩ | ⟨hwrites, hwrite | hwrite⟩
        · dsimp only
          rw [hwrite]
          rw [hwrites] at hstrands
          exact .keyed hbase hstrands error
        · dsimp only
          rw [hwrite]
          rw [hwrites] at hstrands
          exact .written hbase .made hstrands
        · dsimp only
          rw [hwrite]
          rw [hwrites] at hstrands
          exact .replaced hbase .made hstrands

/-- Every step of a write works but those whose failure is ignored. -/
def SetEnv.Works (env : SetEnv Key) : Prop :=
  ∀ operation, operation ≠ .tryExists → operation ≠ .deleteLegacy → env.outcome operation = .done

theorem fileKey_works (hworks : env.Works) (id : String) :
    ∃ prepared key, envelope.fileKey env secret id store = (prepared, .ok key) := by
  have hread := hworks .readKey (by decide) (by decide)
  have hremove := hworks .removeFile (by decide) (by decide)
  have hgenerate := hworks .generateKey (by decide) (by decide)
  have hset := hworks .setKey (by decide) (by decide)
  unfold Envelope.fileKey
  cases envelope.readKey store (keyEntry id secret) with
  | key key => exact ⟨store, key, by simp [hread]⟩
  | missing => simp [Envelope.replaceKey, hread, hremove, hgenerate, hset]
  | malformed => simp [Envelope.replaceKey, hread, hremove, hgenerate, hset]

theorem set_works (hworks : env.Works) : (envelope.set env secret value store).2 = .ok () := by
  have hlocks : env.locks = true := by
    simp [SetEnv.locks, hworks .openLock (by decide) (by decide), hworks .lock (by decide) (by decide)]
  have hidentifies : env.identifies store = true := by
    simp [SetEnv.identifies, hworks .readStoreId (by decide) (by decide), hworks .generateId (by decide) (by decide),
      hworks .writeStoreId (by decide) (by decide)]
  have hwrites : env.writes = true := by
    simp [SetEnv.writes, hworks .encrypt (by decide) (by decide), hworks .writeFile (by decide) (by decide)]
  have hlock : envelope.lockStore env.outcome = .ok () := ((lockStore_spec env).resolve_left (by simp [hlocks])).1
  obtain ⟨base, hid⟩ : ∃ base, envelope.createStoreId env store = (base, .ok (store.storeId.getD env.storeId)) :=
    ((createStoreId_spec env store).resolve_left (by simp [hidentifies])).imp fun _ => And.left
  obtain ⟨prepared, key, hkey⟩ : ∃ prepared key,
      envelope.fileKey env secret (store.storeId.getD env.storeId) base = (prepared, .ok key) :=
    fileKey_works hworks _
  unfold Envelope.set
  rw [hlock]
  dsimp only
  rw [hid]
  dsimp only
  rw [hkey]
  rcases (writeSecret_spec env secret value key prepared).resolve_left (by simp [hwrites]) with ⟨_, hwrite | hwrite⟩
  · exact congrArg Prod.snd hwrite
  · exact congrArg Prod.snd hwrite

theorem delete_works : (envelope.delete (fun _ => .done) secret store).2 = .ok () := by
  unfold Envelope.delete Envelope.lockStore
  simp only [StepOutcome.works_done, StepOutcome.takesEffect_done, Bool.not_true, Bool.false_eq_true, if_false, if_true]
  split
  next => rfl
  next => rfl

end

end AgentDesktop
