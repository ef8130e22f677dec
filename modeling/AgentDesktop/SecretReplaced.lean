import AgentDesktop.SecretRegister

namespace AgentDesktop

section

variable {Key : Type} (envelope : Envelope Key) (secrets : List Secret)

/-- A write that removes a file and stops before it is written again leaves no other value
stored directly. -/
def SecretRun.keepsShadow (run : SecretRun Key) : SecretAction Key → Bool
  | .set secret _ env =>
    !(env.strands envelope secret run.store && (run.store.files (envelope.entryPath secret)).isSome &&
      (run.store.entries (directEntry secret)).any fun direct => decide (run.written secret ≠ some direct))
  | _ => true

/-- A secret that was written has its file, or nothing else is stored directly. -/
def Shadowed (secret : Secret) (store : SecretStore Key) (written : Secret → Option String) : Prop :=
  ∀ value, written secret = some value → store.files (envelope.entryPath secret) = none →
    store.entries (directEntry secret) = none ∨ store.entries (directEntry secret) = some value

variable {envelope secrets} {store after : SecretStore Key} {written : Secret → Option String}
  {secret : Secret}

theorem Shadowed.undisturbed (h : Shadowed envelope secret store written)
    (hsame : Undisturbed envelope secret store after) : Shadowed envelope secret after written := by
  intro value hvalue hfile
  rw [hsame.direct]
  exact h value hvalue (hsame.file ▸ hfile)

theorem shadowed_of_direct (h : store.entries (directEntry secret) = none) (written : Secret → Option String) :
    Shadowed envelope secret store written :=
  fun _ _ _ => Or.inl h

/-- A write keeps the secret shadowed, unless it strands another value. -/
theorem Shadowed.set {env : SetEnv Key} {value : String} {result : SecretStore Key × Except String Unit}
    (h : Shadowed envelope secret store written) (hcoherent : Coherent envelope secrets store written)
    (hsecret : secret ∈ secrets) (hfresh : Identifiable secrets store env)
    (hresult : SetResult envelope env secret value store result)
    (hguard : SecretRun.keepsShadow envelope ⟨store, written⟩ (.set secret value env) = true) :
    Shadowed envelope secret result.1
      (fun other => if other = secret ∧ result.2.isOk = true then some value else written other) := by
  cases hdone : result.2 with
  | ok =>
    obtain ⟨key, hfile⟩ := hresult.written_file hdone
    intro _ _ hnone
    cases hfile.symm.trans hnone
  | error error =>
    have hsame : ∀ other, (if other = secret ∧ (Except.error error : Except String Unit).isOk = true then some value
        else written other) = written other := fun other => if_neg (by simp [Except.isOk, Except.toBool])
    simp only [hsame]
    cases hstranded : env.strands envelope secret store with
    | false => exact h.undisturbed (hresult.failed hstranded hdone)
    | true =>
      obtain ⟨_, hdirect⟩ := hresult.stranded hcoherent hsecret hfresh hstranded
      intro last hlast _
      rw [hdirect]
      cases hfile : store.files (envelope.entryPath secret) with
      | none => exact h last hlast hfile
      | some file =>
        simp only [SecretRun.keepsShadow, hstranded, hfile, hlast, Option.isSome_some, Bool.and_self, Bool.true_and,
          Bool.not_eq_true'] at hguard
        cases hvalue : store.entries (directEntry secret) with
        | none => exact Or.inl rfl
        | some direct =>
          rw [hvalue] at hguard
          simp only [Option.any_some, decide_eq_false_iff_not, not_not] at hguard
          exact Or.inr hguard.symm

theorem Shadowed.delete {result : SecretStore Key × Except String Unit} (h : Shadowed envelope secret store written)
    (hresult : DeleteResult envelope secret store result) : Shadowed envelope secret result.1 written := by
  cases hresult with
  | refused => exact h
  | undirected => exact shadowed_of_direct (by simp) written
  | removed => exact shadowed_of_direct (by simp) written
  | unkeyed => exact shadowed_of_direct (by simp) written

theorem Shadowed.lost (h : Shadowed envelope secret store written) (entry : String × String) :
    Shadowed envelope secret (store.setEntry entry none) written := by
  by_cases hentry : directEntry secret = entry
  · exact shadowed_of_direct (by simp [hentry]) written
  · exact h.undisturbed ((Undisturbed.refl envelope secret store).setEntry hentry none)

theorem Coherent.shadowed_next {run : SecretRun Key} {action : SecretAction Key}
    (h : Coherent envelope secrets run.store run.written) (hdistinct : DistinctFiles envelope secrets)
    (hshadowed : ∀ secret ∈ secrets, Shadowed envelope secret run.store run.written)
    (hallowed : run.allowed envelope secrets action = true) (hguard : run.keepsShadow envelope action = true) :
    ∀ secret ∈ secrets,
      Shadowed envelope secret (run.next envelope action).store (run.next envelope action).written := by
  intro other hother
  have hbefore := hshadowed other hother
  cases action with
  | set secret value env =>
    obtain ⟨hsecret, hfresh⟩ := SecretRun.allowed_set hallowed
    have hresult : SetResult envelope env secret value run.store _ := set_spec env secret value run.store
    by_cases hsame : other = secret
    · subst hsame
      exact hbefore.set h hsecret hfresh hresult hguard
    · have hkept := hbefore.undisturbed (hresult.undisturbed h hdistinct hsecret hfresh hother hsame)
      intro last hlast
      exact hkept last (by simpa [SecretRun.next, hsame] using hlast)
  | get => exact hbefore
  | delete secret outcome =>
    have hresult : DeleteResult envelope secret run.store _ := delete_spec outcome
    by_cases hsame : other = secret
    · subst hsame
      exact hbefore.delete hresult
    · exact hbefore.undisturbed (hresult.undisturbed h hdistinct (of_decide_eq_true hallowed) hother hsame)
  | loseKey => exact hbefore.lost _
  | spoilKey secret contents =>
    have hsecret := of_decide_eq_true (Bool.and_eq_true_iff.mp hallowed).1
    simp only [SecretRun.next]
    cases hid : run.store.storeId with
    | none => exact hbefore
    | some id =>
      have hentry := Ne.symm (h.separate id hid secret hsecret other hother)
      exact hbefore.undisturbed ((Undisturbed.refl envelope other run.store).setEntry hentry _)
  | loseStoreId => exact hbefore.undisturbed ⟨rfl, rfl⟩

variable [DecidableEq Key]

variable (envelope secrets) in
/-- No read of a secret that was written returns another value than the last one. -/
def NeverStale (run : SecretRun Key) : Prop :=
  ∀ secret ∈ secrets, ∀ value, run.written secret = some value → ∀ outcome found,
    envelope.get outcome secret run.store = .ok (some found) → found = value

theorem get_some {outcome : SecretOperation → StepOutcome} {found : String}
    (h : envelope.get outcome secret store = .ok (some found)) :
    (∃ file, store.files (envelope.entryPath secret) = some file ∧ found = file.secret) ∨
      store.files (envelope.entryPath secret) = none ∧ store.entries (directEntry secret) = some found := by
  unfold Envelope.get at h
  split at h
  next => cases h
  next =>
    split at h
    next => cases h
    next =>
      split at h
      next hfile =>
        split at h
        next => cases h
        next => exact Or.inr ⟨hfile, Except.ok.inj h⟩
      next file hfile =>
        refine Or.inl ⟨file, hfile, ?_⟩
        split at h
        next => cases h
        next =>
          split at h
          next => cases h
          next =>
            split at h
            next => cases h
            next =>
              split at h
              next key _ =>
                unfold Envelope.openSealed at h
                split at h
                next =>
                  cases h
                  rfl
                next => cases h
              next => cases h
              next => cases h

theorem get_direct {value : String} (hfile : store.files (envelope.entryPath secret) = none)
    (hvalue : store.entries (directEntry secret) = some value) :
    envelope.get (fun _ => .done) secret store = .ok (some value) := by
  simp [Envelope.get, Envelope.lockStore, hfile, hvalue]

theorem Coherent.never_stale {run : SecretRun Key} (h : Coherent envelope secrets run.store run.written)
    (hshadowed : ∀ secret ∈ secrets, Shadowed envelope secret run.store run.written) :
    NeverStale envelope secrets run := by
  intro secret hsecret value hvalue outcome found hget
  rcases get_some hget with ⟨file, hfile, rfl⟩ | ⟨hnone, hdirect⟩
  · have hwritten := (h.file secret hsecret file hfile).2
    exact Option.some.inj (hwritten.symm.trans hvalue)
  · rcases hshadowed secret hsecret value hvalue hnone with hgone | hsame
    · cases hgone.symm.trans hdirect
    · exact Option.some.inj (hdirect.symm.trans hsame)

/-- A write that strands another value lets it be read. -/
theorem Coherent.stale {run : SecretRun Key} {action : SecretAction Key}
    (h : Coherent envelope secrets run.store run.written) (hallowed : run.allowed envelope secrets action = true)
    (hguard : run.keepsShadow envelope action = false) : ¬ NeverStale envelope secrets (run.next envelope action) := by
  cases action with
  | set secret value env =>
    obtain ⟨hsecret, hfresh⟩ := SecretRun.allowed_set hallowed
    have hresult : SetResult envelope env secret value run.store _ := set_spec env secret value run.store
    simp only [SecretRun.keepsShadow, Bool.not_eq_false', Bool.and_eq_true] at hguard
    obtain ⟨⟨hstranded, hfile⟩, hdirect⟩ := hguard
    obtain ⟨file, hfile⟩ := Option.isSome_iff_exists.mp hfile
    obtain ⟨direct, hvalue, hother⟩ := Option.any_eq_true _ _ |>.mp hdirect
    have hwritten := (h.file secret hsecret file hfile).2
    obtain ⟨hnone, hkept⟩ := hresult.stranded h hsecret hfresh hstranded
    have hfailed : (envelope.set env secret value run.store).2.isOk = false := by
      cases hdone : (envelope.set env secret value run.store).2 with
      | ok =>
        obtain ⟨_, hagain⟩ := hresult.written_file hdone
        cases hnone.symm.trans hagain
      | error => rfl
    intro hnever
    have hlast : (run.next envelope (.set secret value env)).written secret = some file.secret := by
      simpa [SecretRun.next, hfailed] using hwritten
    have hread : envelope.get (fun _ => .done) secret (run.next envelope (.set secret value env)).store =
        .ok (some direct) := get_direct hnone (hkept.trans hvalue)
    have hsame := hnever secret hsecret _ hlast _ _ hread
    exact of_decide_eq_true hother (hsame ▸ hwritten)
  | get => cases hguard
  | delete => cases hguard
  | loseKey => cases hguard
  | spoilKey => cases hguard
  | loseStoreId => cases hguard

/-- Stopped anywhere, a run has returned no replaced value just if no write stranded one. -/
theorem replaced_secret_never_read_iff (hdistinct : DistinctFiles envelope secrets)
    (hfiles : ∀ path, store.files path = none) (hid : store.storeId = none) (actions : List (SecretAction Key))
    (final : SecretRun Key)
    (hrun : execute (SecretRun.step envelope) (SecretRun.allowed envelope secrets) actions ⟨store, fun _ => none⟩ =
      some final) :
    Throughout (SecretRun.next envelope) (NeverStale envelope secrets) ⟨store, fun _ => none⟩ actions ↔
      execute (SecretRun.step envelope)
        (fun run action => run.allowed envelope secrets action && run.keepsShadow envelope action) actions
        ⟨store, fun _ => none⟩ = some final := by
  have hstart : Coherent envelope secrets store fun _ => none := coherent_start hfiles hid
  refine throughout_iff_guarded
    (fun run action (hkept : Coherent envelope secrets run.store run.written ∧
      ∀ secret ∈ secrets, Shadowed envelope secret run.store run.written) hallowed hguard =>
        ⟨hkept.1.next hdistinct hallowed, hkept.1.shadowed_next hdistinct hkept.2 hallowed hguard⟩)
    (fun run action hkept hallowed hguard => hkept.1.stale hallowed hguard)
    (fun run hkept => hkept.1.never_stale hkept.2) ⟨hstart, fun secret _ value hvalue => ?_⟩ hrun
  cases hvalue

end

section

/-- The legacy value stays behind the file, the key is lost, and the next write completes. -/
theorem replaced_secret_never_read_rewritten :
    Throughout (SecretRun.next boolEnvelope) (NeverStale boolEnvelope [deviceSecret]) ⟨legacyStore, fun _ => none⟩
      [.set deviceSecret "first" (failing .deleteLegacy), .loseKey (failing .setKey).storeId deviceSecret,
        .set deviceSecret "second" (failing .deleteLegacy)] := by
  have hdistinct : DistinctFiles boolEnvelope [deviceSecret] := by
    unfold DistinctFiles
    decide
  exact (replaced_secret_never_read_iff hdistinct (fun _ => rfl) rfl _ _ rfl).mpr rfl

/-- The write after the lost key removes the file and cannot store a key. -/
theorem replaced_secret_read_again : ∃ final,
    execute (SecretRun.step boolEnvelope) (SecretRun.allowed boolEnvelope [deviceSecret])
        [.set deviceSecret "first" (failing .deleteLegacy), .loseKey (failing .setKey).storeId deviceSecret,
          .set deviceSecret "second" (failing .setKey)]
        ⟨legacyStore, fun _ => none⟩ = some final ∧
      final.written deviceSecret = some "first" ∧
      boolEnvelope.get (fun _ => .done) deviceSecret final.store = .ok (some "legacy") := by
  exact ⟨_, rfl, rfl, rfl⟩

end

end AgentDesktop
