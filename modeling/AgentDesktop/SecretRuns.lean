import AgentDesktop.SecretSteps
import AgentDesktop.Transitions

namespace AgentDesktop

/-- The store beside the values of the last writes that replaced a file. -/
structure SecretRun (Key : Type) where
  store : SecretStore Key
  written : Secret → Option String := fun _ => none

/-- The calls, one after another, and what else can happen to the keys and the identity. -/
inductive SecretAction (Key : Type) where
  | set (secret : Secret) (value : String) (env : SetEnv Key)
  | get (secret : Secret) (outcome : SecretOperation → StepOutcome)
  | delete (secret : Secret) (outcome : SecretOperation → StepOutcome)
  | loseKey (id : String) (secret : Secret)
  | spoilKey (secret : Secret) (contents : String)
  | loseStoreId (contents : Option String)

section

variable {Key : Type} (envelope : Envelope Key) (secrets : List Secret)

def SecretAction.isCall : SecretAction Key → Bool
  | .set _ _ _ => true
  | .get _ _ => true
  | .delete _ _ => true
  | _ => false

def SecretRun.next (run : SecretRun Key) : SecretAction Key → SecretRun Key
  | .set secret value env =>
    let result := envelope.set env secret value run.store
    { store := result.1
      written := fun other => if other = secret ∧ result.2.isOk = true then some value else run.written other }
  | .get _ _ => run
  | .delete secret outcome => { run with store := (envelope.delete outcome secret run.store).1 }
  | .loseKey id secret => { run with store := run.store.setEntry (keyEntry id secret) none }
  | .spoilKey secret contents =>
    match run.store.storeId with
    | some id => { run with store := run.store.setEntry (keyEntry id secret) (some contents) }
    | none => run
  | .loseStoreId contents => { run with store := { run.store with storeIdFile := contents } }

/-- A generated identity under which there are no entries, and whose entries are none of those
that hold secrets directly. -/
def freshId (store : SecretStore Key) (id : String) : Bool :=
  isStoreId id && secrets.all fun secret =>
    (store.entries (keyEntry id secret)).isNone && secrets.all fun other => keyEntry id secret != directEntry other

/-- The store has an identity, or a write gives it a fresh one. -/
def Identifiable (store : SecretStore Key) (env : SetEnv Key) : Prop :=
  store.storeId.isSome = true ∨ freshId secrets store env.storeId = true

def SecretRun.allowed (run : SecretRun Key) : SecretAction Key → Bool
  | .set secret _ env =>
    decide (secret ∈ secrets) && (run.store.storeId.isSome || freshId secrets run.store env.storeId)
  | .get secret _ => decide (secret ∈ secrets)
  | .delete secret _ => decide (secret ∈ secrets)
  | .loseKey _ _ => true
  | .spoilKey secret contents => decide (secret ∈ secrets) && (envelope.decode contents).isNone
  | .loseStoreId contents => !contents.any isStoreId

/-- No two of the secrets have the same file. -/
def DistinctFiles : Prop :=
  ∀ secret ∈ secrets, ∀ other ∈ secrets, envelope.entryPath secret = envelope.entryPath other → secret = other

/-- A file holds what was last written, and opens under the key that it has in the store. -/
structure Coherent (store : SecretStore Key) (written : Secret → Option String) : Prop where
  separate : ∀ id, store.storeId = some id → ∀ secret ∈ secrets, ∀ other ∈ secrets,
    keyEntry id secret ≠ directEntry other
  file : ∀ secret ∈ secrets, ∀ file, store.files (envelope.entryPath secret) = some file →
    file.aad = aad secret ∧ written secret = some file.secret
  key : ∀ secret ∈ secrets, ∀ file, store.files (envelope.entryPath secret) = some file →
    ∀ id key, store.storeId = some id → (envelope.readKey store (keyEntry id secret)).key? = some key → file.key = key

variable {envelope secrets}

theorem SecretRun.allowed_set {run : SecretRun Key} {secret : Secret} {value : String} {env : SetEnv Key}
    (h : run.allowed envelope secrets (.set secret value env) = true) :
    secret ∈ secrets ∧ Identifiable secrets run.store env := by
  obtain ⟨hsecret, hfresh⟩ := Bool.and_eq_true_iff.mp h
  exact ⟨of_decide_eq_true hsecret, Bool.or_eq_true_iff.mp hfresh⟩

variable {store after : SecretStore Key} {written : Secret → Option String} {secret other : Secret}
  {env : SetEnv Key} {id : String}

theorem coherent_start (hfiles : ∀ path, store.files path = none) (hid : store.storeId = none) :
    Coherent envelope secrets store fun _ => none := by
  refine ⟨fun id hfound => ?_, fun _ _ _ hfile => ?_, fun _ _ _ hfile => ?_⟩
  · cases hid.symm.trans hfound
  · cases (hfiles _).symm.trans hfile
  · cases (hfiles _).symm.trans hfile

theorem keyEntry_injective (h : keyEntry id secret = keyEntry id other) : secret = other := by
  obtain ⟨hservice, haccount⟩ := Prod.ext_iff.mp h
  have hservice : secret.service = other.service := by
    have hlist := congrArg String.toList hservice
    simp only [keyEntry, String.toList_append] at hlist
    exact String.toList_inj.mp (List.append_cancel_right hlist)
  have haccount : secret.account = other.account := by
    have hlist := congrArg String.toList haccount
    simp only [keyEntry, String.toList_append] at hlist
    exact String.toList_inj.mp (List.append_cancel_left hlist)
  cases secret
  cases other
  simp_all

theorem readKey_congr {entry : String × String} (h : after.entries entry = store.entries entry) :
    envelope.readKey after entry = envelope.readKey store entry := by
  unfold Envelope.readKey
  rw [h]

theorem freshId_iff : freshId secrets store id = true ↔ isStoreId id = true ∧ ∀ secret ∈ secrets,
    store.entries (keyEntry id secret) = none ∧ ∀ other ∈ secrets, keyEntry id secret ≠ directEntry other := by
  simp [freshId]

/-- Files and keys that go leave the others as they were. -/
theorem Coherent.fewer (h : Coherent envelope secrets store written)
    (hid : ∀ id, after.storeId = some id → store.storeId = some id)
    (hfiles : ∀ secret ∈ secrets, ∀ file, after.files (envelope.entryPath secret) = some file →
      store.files (envelope.entryPath secret) = some file)
    (hkeys : ∀ secret ∈ secrets, after.files (envelope.entryPath secret) ≠ none → ∀ id key, after.storeId = some id →
      (envelope.readKey after (keyEntry id secret)).key? = some key →
      (envelope.readKey store (keyEntry id secret)).key? = some key) :
    Coherent envelope secrets after written := by
  refine ⟨fun id hafter => h.separate id (hid id hafter), fun secret hsecret file hfile =>
    h.file secret hsecret file (hfiles secret hsecret file hfile),
    fun secret hsecret file hfile id key hafter hkey => ?_⟩
  refine h.key secret hsecret file (hfiles secret hsecret file hfile) id key (hid id hafter) ?_
  exact hkeys secret hsecret (by simp [hfile]) id key hafter hkey

theorem Identified.storeId (h : Identified env store id after)
    (hfresh : Identifiable secrets store env) : after.storeId = some id := by
  cases h with
  | found hid => exact hid
  | created hnone =>
    obtain ⟨hvalid, _⟩ := freshId_iff.mp (hfresh.resolve_left (by simp [hnone]))
    simp [SecretStore.storeId, hvalid]

theorem Coherent.identified (h : Coherent envelope secrets store written) (hid : Identified env store id after)
    (hfresh : Identifiable secrets store env) : Coherent envelope secrets after written := by
  have hafter := hid.storeId hfresh
  cases hid with
  | found => exact h
  | created hnone =>
    obtain ⟨_, hnew⟩ := freshId_iff.mp (hfresh.resolve_left (by simp [hnone]))
    refine ⟨fun id hid secret hsecret other hother => ?_, h.file, fun secret hsecret file hfile id key hid hkey => ?_⟩
    · cases hafter.symm.trans hid
      exact (hnew secret hsecret).2 other hother
    · cases hafter.symm.trans hid
      have hmissing : (envelope.readKey store (keyEntry env.storeId secret)).key? = none := by
        simp [Envelope.readKey, (hnew secret hsecret).1, StoredKey.key?]
      cases hmissing.symm.trans hkey

/-- Without its file a secret can get any key. -/
theorem Coherent.rekeyed (h : Coherent envelope secrets store written) (secret : Secret) (id : String)
    (contents : Option String) (hid : ∀ other, store.storeId = some other → other = id) :
    Coherent envelope secrets
      ((store.setFile (envelope.entryPath secret) none).setEntry (keyEntry id secret) contents) written := by
  refine h.fewer (fun _ hid => hid) (fun other _ file hfile => ?_) fun other _ hfile used key hused hkey => ?_
  · simp only [SecretStore.setEntry_files, SecretStore.setFile_files] at hfile
    split at hfile
    next => cases hfile
    next => exact hfile
  · have hother : keyEntry used other ≠ keyEntry id secret := by
      rw [hid used hused]
      intro hsame
      rw [keyEntry_injective hsame] at hfile
      exact hfile (by simp)
    rw [← hkey, readKey_congr]
    simp [hother]

theorem Coherent.cleared (h : Coherent envelope secrets store written) (path : String) :
    Coherent envelope secrets (store.setFile path none) written := by
  refine h.fewer (fun _ hid => hid) (fun other _ file hfile => ?_) fun _ _ _ _ _ _ hkey => hkey
  simp only [SecretStore.setFile_files] at hfile
  split at hfile
  next => cases hfile
  next => exact hfile

/-- An entry that goes, or that becomes malformed, leaves the keys of the others. -/
theorem Coherent.unkeyed (h : Coherent envelope secrets store written) (entry : String × String)
    {contents : Option String} (hmalformed : contents.bind envelope.decode = none) :
    Coherent envelope secrets (store.setEntry entry contents) written := by
  refine h.fewer (fun _ hid => hid) (fun _ _ _ hfile => hfile) fun other _ _ id key _ hkey => ?_
  by_cases hentry : keyEntry id other = entry
  · have hnone : (envelope.readKey (store.setEntry entry contents) (keyEntry id other)).key? = none := by
      cases contents with
      | none => simp [Envelope.readKey, hentry, StoredKey.key?]
      | some encoded =>
        have hdecode : envelope.decode encoded = none := hmalformed
        simp [Envelope.readKey, hentry, hdecode, StoredKey.key?]
    cases hnone.symm.trans hkey
  · rw [← hkey, readKey_congr]
    simp [hentry]

theorem Coherent.wrote (h : Coherent envelope secrets store written) (hdistinct : DistinctFiles envelope secrets)
    (hsecret : secret ∈ secrets) (hid : store.storeId = some id) {key : Key}
    (hkey : (envelope.readKey store (keyEntry id secret)).key? = some key) (value : String) :
    Coherent envelope secrets
      (store.setFile (envelope.entryPath secret) (some (Envelope.sealSecret key secret value)))
      (fun other => if other = secret then some value else written other) := by
  refine ⟨h.separate, fun other hother file hfile => ?_, fun other hother file hfile used found hused hfound => ?_⟩
  · by_cases hsame : other = secret
    · subst hsame
      simp only [SecretStore.setFile_files, if_true] at hfile
      cases hfile
      exact ⟨rfl, if_pos rfl⟩
    · have hpath : envelope.entryPath other ≠ envelope.entryPath secret :=
        fun hpath => hsame (hdistinct other hother secret hsecret hpath)
      rw [SecretStore.setFile_files, if_neg hpath] at hfile
      rw [if_neg hsame]
      exact h.file other hother file hfile
  · by_cases hsame : other = secret
    · subst hsame
      simp only [SecretStore.setFile_files, if_true] at hfile
      cases hfile
      cases hid.symm.trans hused
      exact Option.some.inj (hkey.symm.trans hfound)
    · have hpath : envelope.entryPath other ≠ envelope.entryPath secret :=
        fun hpath => hsame (hdistinct other hother secret hsecret hpath)
      rw [SecretStore.setFile_files, if_neg hpath] at hfile
      exact h.key other hother file hfile used found hused hfound

variable {base prepared : SecretStore Key}

theorem Keyed.key {key : Key} (h : Keyed envelope env secret id base key prepared) :
    (envelope.readKey prepared (keyEntry id secret)).key? = some key := by
  cases h with
  | found hkey => exact hkey
  | made => simp [Envelope.readKey, envelope.decode_encode, StoredKey.key?]

theorem Keyed.storeId {key : Key} (h : Keyed envelope env secret id base key prepared) :
    prepared.storeId = base.storeId := by
  cases h <;> rfl

theorem Coherent.keyed {key : Key} (h : Coherent envelope secrets base written) (hid : base.storeId = some id)
    (hkey : Keyed envelope env secret id base key prepared) :
    Coherent envelope secrets prepared written := by
  cases hkey with
  | found => exact h
  | made => exact h.rekeyed secret id _ fun other hother => Option.some.inj (hother.symm.trans hid)

end

end AgentDesktop
