import AgentDesktop.SecretCoherent

namespace AgentDesktop

section

variable {Key : Type} [DecidableEq Key] (envelope : Envelope Key) (secrets : List Secret)

/-- The calls on secrets as one step of a run. -/
def SecretRun.step (run : SecretRun Key) (action : SecretAction Key) : Option (SecretRun Key) :=
  some (run.next envelope action)

/-- Reads a secret when nothing fails. -/
def readSecret (secret : Secret) (store : SecretStore Key) : Except String (Option String) :=
  envelope.get (fun _ => .done) secret store

/-- A file with a key opens to what was last written, and no call finds a mismatch. -/
structure Opens (secret : Secret) (run : SecretRun Key) : Prop where
  opened : ∀ file id key, run.store.files (envelope.entryPath secret) = some file → run.store.storeId = some id →
    (envelope.readKey run.store (keyEntry id secret)).key? = some key →
    ∃ value, run.written secret = some value ∧ Envelope.openSealed key secret file = .ok value
  matched : ∀ outcome, envelope.get outcome secret run.store ≠ .error "stored secret does not match its key"

/-- The calls on a store, whatever fails in them, change a secret just as they report, and they
succeed if nothing fails in them. -/
structure Register (store : SecretStore Key) : Prop where
  set_failed : ∀ secret ∈ secrets, ∀ value env error,
    Identifiable secrets store env → (envelope.set env secret value store).2 = .error error →
    ∀ other ∈ secrets, readSecret envelope other (envelope.set env secret value store).1 =
      readSecret envelope other store
  set_done : ∀ secret ∈ secrets, ∀ value env,
    Identifiable secrets store env → (envelope.set env secret value store).2 = .ok () →
    readSecret envelope secret (envelope.set env secret value store).1 = .ok (some value) ∧
      ∀ other ∈ secrets, other ≠ secret → readSecret envelope other (envelope.set env secret value store).1 =
        readSecret envelope other store
  delete_failed : ∀ secret ∈ secrets, ∀ outcome error, (envelope.delete outcome secret store).2 = .error error →
    readSecret envelope secret (envelope.delete outcome secret store).1 = readSecret envelope secret store ∨
      readSecret envelope secret (envelope.delete outcome secret store).1 = .ok none
  delete_done : ∀ secret ∈ secrets, ∀ outcome, (envelope.delete outcome secret store).2 = .ok () →
    readSecret envelope secret (envelope.delete outcome secret store).1 = .ok none
  delete_other : ∀ secret ∈ secrets, ∀ outcome, ∀ other ∈ secrets, other ≠ secret →
    readSecret envelope other (envelope.delete outcome secret store).1 = readSecret envelope other store
  set_works : ∀ secret ∈ secrets, ∀ value env, env.Works → (envelope.set env secret value store).2 = .ok ()
  delete_works : ∀ secret ∈ secrets, (envelope.delete (fun _ => .done) secret store).2 = .ok ()

variable {envelope secrets} {store : SecretStore Key} {written : Secret → Option String} {secret : Secret}

theorem append_ne {first rest text : String} (h : first.toList.head? ≠ none)
    (hne : first.toList.head? ≠ text.toList.head?) : first ++ rest ≠ text := by
  intro heq
  apply hne
  rw [← heq, String.toList_append]
  cases hfirst : first.toList with
  | nil => simp [hfirst] at h
  | cons => rfl

theorem Coherent.opened (h : Coherent envelope secrets store written) (hsecret : secret ∈ secrets) {file : Sealed Key}
    (hfile : store.files (envelope.entryPath secret) = some file) {id : String} (hid : store.storeId = some id)
    {key : Key} (hkey : (envelope.readKey store (keyEntry id secret)).key? = some key) :
    Envelope.openSealed key secret file = .ok file.secret := by
  have hsealed := h.key secret hsecret file hfile id key hid hkey
  have haad := (h.file secret hsecret file hfile).1
  unfold Envelope.openSealed
  rw [if_pos ⟨hsealed, haad⟩]

theorem Coherent.matched (h : Coherent envelope secrets store written) (hsecret : secret ∈ secrets)
    (outcome : SecretOperation → StepOutcome) :
    envelope.get outcome secret store ≠ .error "stored secret does not match its key" := by
  intro hget
  unfold Envelope.get Envelope.lockStore at hget
  split at hget
  next error hlock =>
    cases hget
    split at hlock
    next => exact append_ne (by decide) (by decide) (Except.error.inj hlock)
    next =>
      split at hlock
      next => exact append_ne (by decide) (by decide) (Except.error.inj hlock)
      next => cases hlock
  next =>
    split at hget
    next => exact append_ne (by decide) (by decide) (Except.error.inj hget)
    next =>
      split at hget
      next =>
        split at hget
        next => exact absurd (Except.error.inj hget) (by decide)
        next => cases hget
      next file hfile =>
        split at hget
        next => exact append_ne (by decide) (by decide) (Except.error.inj hget)
        next =>
          split at hget
          next => cases hget
          next id hid =>
            split at hget
            next => exact absurd (Except.error.inj hget) (by decide)
            next =>
              split at hget
              next key hkey =>
                rw [h.opened hsecret hfile hid (by rw [hkey]; rfl)] at hget
                cases hget
              next => cases hget
              next => exact absurd (Except.error.inj hget) (by decide)

theorem Coherent.register (h : Coherent envelope secrets store written) (hkept : KeysKept envelope secrets store)
    (hdistinct : DistinctFiles envelope secrets) : Register envelope secrets store := by
  have hread : ∀ secret ∈ secrets, readSecret envelope secret store = .ok (held envelope secret store) :=
    fun secret hsecret => get_held h hkept hsecret
  have hset : ∀ {secret value env other}, secret ∈ secrets →
      Identifiable secrets store env → other ∈ secrets →
      readSecret envelope other (envelope.set env secret value store).1 =
        .ok (held envelope other (envelope.set env secret value store).1) := by
    intro secret value env other hsecret hfresh hother
    have hresult : SetResult envelope env secret value store _ := set_spec env secret value store
    exact get_held (h.set hdistinct hsecret hfresh hresult) (hkept.set h hdistinct hsecret hfresh hresult) hother
  have hdelete : ∀ {secret outcome other}, secret ∈ secrets → other ∈ secrets →
      readSecret envelope other (envelope.delete outcome secret store).1 =
        .ok (held envelope other (envelope.delete outcome secret store).1) := by
    intro secret outcome other hsecret hother
    have hresult : DeleteResult envelope secret store (envelope.delete outcome secret store) := delete_spec outcome
    exact get_held (h.delete hresult) (hkept.delete h hsecret hresult) hother
  refine ⟨fun secret hsecret value env error hfresh hfailed other hother => ?_,
    fun secret hsecret value env hfresh hdone => ⟨?_, fun other hother hne => ?_⟩,
    fun secret hsecret outcome error hfailed => ?_, fun secret hsecret outcome hdone => ?_,
    fun secret hsecret outcome other hother hne => ?_, fun _ _ _ _ hworks => set_works hworks, fun _ _ => delete_works⟩
  · rw [hset hsecret hfresh hother, hread other hother]
    by_cases hsame : other = secret
    · rw [hsame, (set_spec env secret value store).held_failed h hkept hsecret hfresh hfailed]
    · rw [((set_spec env secret value store).undisturbed h hdistinct hsecret hfresh hother hsame).held]
  · obtain ⟨key, hfile⟩ := (set_spec env secret value store).written_file hdone
    rw [hset hsecret hfresh hsecret, held_file hfile]
    rfl
  · rw [hset hsecret hfresh hother, hread other hother,
      ((set_spec env secret value store).undisturbed h hdistinct hsecret hfresh hother hne).held]
  · rw [hdelete hsecret hsecret, hread secret hsecret]
    rcases (delete_spec outcome).held_deleted h hsecret with ⟨hsame, _⟩ | hgone
    · exact Or.inl (congrArg Except.ok hsame)
    · exact Or.inr (congrArg Except.ok hgone)
  · rw [hdelete hsecret hsecret]
    rcases (delete_spec outcome).held_deleted h hsecret with ⟨_, hfailed⟩ | hgone
    · exact absurd hdone hfailed
    · rw [hgone]
  · rw [hdelete hsecret hother, hread other hother,
      ((delete_spec outcome).undisturbed h hdistinct hsecret hother hne).held]

/-- Whatever fails and is lost, a file with a key opens to what was last written; and while
nothing is lost, the calls change the secrets just as they report. -/
theorem secret_store_is_register (hdistinct : DistinctFiles envelope secrets)
    (hfiles : ∀ path, store.files path = none) (hid : store.storeId = none) (actions : List (SecretAction Key))
    (final : SecretRun Key)
    (hrun : execute (SecretRun.step envelope) (SecretRun.allowed envelope secrets) actions ⟨store, fun _ => none⟩ =
      some final) :
    (∀ secret ∈ secrets, Opens envelope secret final) ∧
      ((∀ action ∈ actions, action.isCall = true) → Register envelope secrets final.store) := by
  have hstart : Coherent envelope secrets store fun _ => none := coherent_start hfiles hid
  have hfinal : Coherent envelope secrets final.store final.written :=
    execute_invariant (fun (run : SecretRun Key) action next
        (hkept : Coherent envelope secrets run.store run.written) hallowed hstep => by
      cases hstep
      exact hkept.next hdistinct hallowed) hstart hrun
  refine ⟨fun secret hsecret => ⟨fun file id key hfile hid hkey => ?_, hfinal.matched hsecret⟩, fun hcalls => ?_⟩
  · exact ⟨file.secret, (hfinal.file secret hsecret file hfile).2, hfinal.opened hsecret hfile hid hkey⟩
  · have hkept : KeysKept envelope secrets store := by
      intro secret _ file hfile
      cases (hfiles _).symm.trans hfile
    have hboth := execute_invariant_of_mem (fun (run : SecretRun Key) action hmem next
        (hkept : Coherent envelope secrets run.store run.written ∧ KeysKept envelope secrets run.store) hallowed
        hstep => by
      cases hstep
      exact ⟨hkept.1.next hdistinct hallowed, hkept.2.next hkept.1 hdistinct hallowed (hcalls action hmem)⟩)
      ⟨hstart, hkept⟩ hrun
    exact hboth.1.register hboth.2 hdistinct

end

section

def boolEnvelope : Envelope Bool where
  directory := "secrets"
  digest text := text
  encode key := if key then "t" else "f"
  decode text := if text = "t" then some true else if text = "f" then some false else none
  decode_encode := by decide

def deviceSecret : Secret := ⟨"dev.agentdesktop", "device"⟩

def tokenSecret : Secret := ⟨"dev.agentdesktop", "token"⟩

/-- A device secret that an earlier version stored. -/
def legacyStore : SecretStore Bool where
  files _ := none
  storeIdFile := none
  entries entry := if entry = directEntry deviceSecret then some "legacy" else none

def failing (operation : SecretOperation) : SetEnv Bool where
  outcome other := if other = operation then .failed else .done
  storeId := "0123456789abcdef0123456789abcdef"
  key := true

def workingEnv : SetEnv Bool where
  storeId := "fedcba9876543210fedcba9876543210"
  key := false

/-- A write that leaves the legacy value, one that does not reach its file, and a deletion that
does not remove the file. The first value is still read, and the next write is. -/
theorem secret_store_is_register_two_secrets : ∃ final,
    execute (SecretRun.step boolEnvelope) (SecretRun.allowed boolEnvelope [deviceSecret, tokenSecret])
        [.set deviceSecret "first" (failing .deleteLegacy), .set tokenSecret "second" (failing .writeFile),
          .delete deviceSecret (failing .removeFile).outcome]
        ⟨legacyStore, fun _ => none⟩ = some final ∧
      (∀ secret ∈ [deviceSecret, tokenSecret], Opens boolEnvelope secret final) ∧
      Register boolEnvelope [deviceSecret, tokenSecret] final.store ∧
      readSecret boolEnvelope deviceSecret final.store = .ok (some "first") ∧
      readSecret boolEnvelope tokenSecret (boolEnvelope.set workingEnv tokenSecret "third" final.store).1 =
        .ok (some "third") := by
  have hrun : execute (SecretRun.step boolEnvelope) (SecretRun.allowed boolEnvelope [deviceSecret, tokenSecret])
      [.set deviceSecret "first" (failing .deleteLegacy), .set tokenSecret "second" (failing .writeFile),
        .delete deviceSecret (failing .removeFile).outcome] ⟨legacyStore, fun _ => none⟩ = some _ := rfl
  have hdistinct : DistinctFiles boolEnvelope [deviceSecret, tokenSecret] := by
    unfold DistinctFiles
    decide
  obtain ⟨hopens, hregister⟩ := secret_store_is_register hdistinct (fun _ => rfl) rfl _ _ hrun
  have hcalls := hregister (by decide)
  have hworks : workingEnv.Works := fun _ _ _ => rfl
  exact ⟨_, hrun, hopens, hcalls, rfl, (hcalls.set_done tokenSecret (by decide) "third" workingEnv (.inl rfl)
    (hcalls.set_works tokenSecret (by decide) "third" workingEnv hworks)).1⟩

end

end AgentDesktop
