import AgentDesktop.SecretRuns

namespace AgentDesktop

section

variable {Key : Type} (envelope : Envelope Key) (secrets : List Secret)

/-- What a secret is read as while the key of every file is there. -/
def held (secret : Secret) (store : SecretStore Key) : Option String :=
  match store.files (envelope.entryPath secret) with
  | some file => some file.secret
  | none => store.entries (directEntry secret)

/-- Every file has the key that it was sealed with. -/
def KeysKept (store : SecretStore Key) : Prop :=
  ∀ secret ∈ secrets, ∀ file, store.files (envelope.entryPath secret) = some file →
    ∃ id, store.storeId = some id ∧ (envelope.readKey store (keyEntry id secret)).key? = some file.key

variable {envelope secrets} {store after base prepared : SecretStore Key} {written : Secret → Option String}
  {secret other : Secret} {env : SetEnv Key} {id value : String} {key : Key}

/-- A call reads what is held. -/
theorem get_held [DecidableEq Key] (h : Coherent envelope secrets store written)
    (hkept : KeysKept envelope secrets store) (hsecret : secret ∈ secrets) :
    envelope.get (fun _ => .done) secret store = .ok (held envelope secret store) := by
  unfold Envelope.get held
  cases hfile : store.files (envelope.entryPath secret) with
  | none => rfl
  | some file =>
    obtain ⟨id, hid, hkey⟩ := hkept secret hsecret file hfile
    cases hread : envelope.readKey store (keyEntry id secret) with
    | key key =>
      rw [hread] at hkey
      cases hkey
      have haad := (h.file secret hsecret file hfile).1
      simp only [Envelope.lockStore, StepOutcome.works_done, Bool.not_true, Bool.false_eq_true, if_false, hid, hread,
        Envelope.openSealed, haad, and_self, if_true]
      rfl
    | missing =>
      rw [hread] at hkey
      cases hkey
    | malformed =>
      rw [hread] at hkey
      cases hkey

theorem KeysKept.identified (h : KeysKept envelope secrets store) (hbase : Identified env store id base) :
    KeysKept envelope secrets base := by
  cases hbase with
  | found => exact h
  | created hnone =>
    intro secret hsecret file hfile
    obtain ⟨id, hid, _⟩ := h secret hsecret file hfile
    cases hnone.symm.trans hid

theorem KeysKept.cleared (h : KeysKept envelope secrets store) (path : String) :
    KeysKept envelope secrets (store.setFile path none) := by
  intro secret hsecret file hfile
  simp only [SecretStore.setFile_files] at hfile
  split at hfile
  next => cases hfile
  next => exact h secret hsecret file hfile

theorem KeysKept.rekeyed (h : KeysKept envelope secrets store) (hid : store.storeId = some id) (secret : Secret)
    (contents : Option String) : KeysKept envelope secrets
      ((store.setFile (envelope.entryPath secret) none).setEntry (keyEntry id secret) contents) := by
  intro other hother file hfile
  simp only [SecretStore.setEntry_files, SecretStore.setFile_files] at hfile
  split at hfile
  next => cases hfile
  next hpath =>
    obtain ⟨used, hused, hkey⟩ := h other hother file hfile
    cases hid.symm.trans hused
    have hentry : keyEntry id other ≠ keyEntry id secret :=
      fun hsame => hpath (congrArg envelope.entryPath (keyEntry_injective hsame))
    refine ⟨id, hid, ?_⟩
    rw [← hkey, readKey_congr]
    simp [hentry]

theorem KeysKept.undirected (h : KeysKept envelope secrets store) (hcoherent : Coherent envelope secrets store written)
    (hsecret : secret ∈ secrets) : KeysKept envelope secrets (store.setEntry (directEntry secret) none) := by
  intro other hother file hfile
  obtain ⟨id, hid, hkey⟩ := h other hother file hfile
  refine ⟨id, hid, ?_⟩
  rw [← hkey, readKey_congr]
  simp [hcoherent.separate id hid other hother secret hsecret]

theorem KeysKept.keyed (h : KeysKept envelope secrets base) (hid : base.storeId = some id)
    (hkey : Keyed envelope env secret id base key prepared) : KeysKept envelope secrets prepared := by
  cases hkey with
  | found => exact h
  | made => exact h.rekeyed hid secret _

theorem KeysKept.wrote (h : KeysKept envelope secrets store) (hdistinct : DistinctFiles envelope secrets)
    (hsecret : secret ∈ secrets) (hid : store.storeId = some id)
    (hkey : (envelope.readKey store (keyEntry id secret)).key? = some key) (value : String) :
    KeysKept envelope secrets
      (store.setFile (envelope.entryPath secret) (some (Envelope.sealSecret key secret value))) := by
  intro other hother file hfile
  by_cases hsame : other = secret
  · subst hsame
    simp only [SecretStore.setFile_files, if_true] at hfile
    cases hfile
    exact ⟨id, hid, hkey⟩
  · have hpath : envelope.entryPath other ≠ envelope.entryPath secret :=
      fun hpath => hsame (hdistinct other hother secret hsecret hpath)
    rw [SecretStore.setFile_files, if_neg hpath] at hfile
    exact h other hother file hfile

/-- A secret has the file and the direct entry that it had. -/
structure Undisturbed (envelope : Envelope Key) (secret : Secret) (store after : SecretStore Key) : Prop where
  file : after.files (envelope.entryPath secret) = store.files (envelope.entryPath secret)
  direct : after.entries (directEntry secret) = store.entries (directEntry secret)

theorem Undisturbed.refl (envelope : Envelope Key) (secret : Secret) (store : SecretStore Key) :
    Undisturbed envelope secret store store :=
  ⟨rfl, rfl⟩

theorem Undisturbed.held (h : Undisturbed envelope secret store after) :
    held envelope secret after = AgentDesktop.held envelope secret store := by
  unfold AgentDesktop.held
  rw [h.file, h.direct]

theorem Undisturbed.setFile (h : Undisturbed envelope other store after)
    (hpath : envelope.entryPath other ≠ envelope.entryPath secret) (file : Option (Sealed Key)) :
    Undisturbed envelope other store (after.setFile (envelope.entryPath secret) file) := by
  refine ⟨?_, h.direct⟩
  rw [SecretStore.setFile_files, if_neg hpath]
  exact h.file

theorem Undisturbed.setEntry (h : Undisturbed envelope other store after) {entry : String × String}
    (hentry : directEntry other ≠ entry) (contents : Option String) :
    Undisturbed envelope other store (after.setEntry entry contents) := by
  refine ⟨h.file, ?_⟩
  rw [SecretStore.setEntry_entries, if_neg hentry]
  exact h.direct

theorem Identified.undisturbed (h : Identified env store id base) (secret : Secret) :
    Undisturbed envelope secret store base := by
  cases h <;> exact ⟨rfl, rfl⟩

theorem held_file {file : Sealed Key} (h : store.files (envelope.entryPath secret) = some file) :
    held envelope secret store = some file.secret := by
  unfold held
  rw [h]

/-- A file shadows what is stored directly. -/
theorem held_shadowed {file : Sealed Key} (h : store.files (envelope.entryPath secret) = some file)
    (entry : String × String) (contents : Option String) :
    held envelope secret (store.setEntry entry contents) = held envelope secret store := by
  unfold held
  rw [SecretStore.setEntry_files, h]

theorem held_none (hfile : store.files (envelope.entryPath secret) = none) :
    held envelope secret store = store.entries (directEntry secret) := by
  unfold held
  rw [hfile]

end

end AgentDesktop
