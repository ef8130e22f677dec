import AgentDesktop.SecretHeld

namespace AgentDesktop

section

variable {Key : Type} {envelope : Envelope Key} {secrets : List Secret} {store : SecretStore Key}
  {base prepared : SecretStore Key} {written : Secret → Option String} {secret other : Secret} {env : SetEnv Key}
  {id value : String} {key : Key}
  {result : SecretStore Key × Except String Unit}

theorem Coherent.set (h : Coherent envelope secrets store written) (hdistinct : DistinctFiles envelope secrets)
    (hsecret : secret ∈ secrets) (hfresh : Identifiable secrets store env)
    (hresult : SetResult envelope env secret value store result) :
    Coherent envelope secrets result.1
      (fun other => if other = secret ∧ result.2.isOk = true then some value else written other) := by
  have hfailed : ∀ error, (fun other => if other = secret ∧ (Except.error error : Except String Unit).isOk = true then
      some value else written other) = written := by
    intro error
    funext other
    exact if_neg (by simp [Except.isOk, Except.toBool])
  have hworked : (fun other => if other = secret ∧ (Except.ok () : Except String Unit).isOk = true then
      some value else written other) = fun other => if other = secret then some value else written other := by
    funext other
    simp [Except.isOk, Except.toBool]
  cases hresult with
  | refused _ error =>
    rw [hfailed]
    exact h
  | stopped hbase _ error =>
    rw [hfailed]
    exact h.identified hbase hfresh
  | cleared hbase _ error =>
    rw [hfailed]
    exact (h.identified hbase hfresh).cleared _
  | keyed hbase _ error =>
    rw [hfailed]
    have hid := hbase.storeId hfresh
    exact (h.identified hbase hfresh).rekeyed _ _ _ fun other hother => Option.some.inj (hother.symm.trans hid)
  | written hbase hkey =>
    rw [hworked]
    have hid := hbase.storeId hfresh
    have hprepared := (h.identified hbase hfresh).keyed hid hkey
    exact hprepared.wrote hdistinct hsecret (hkey.storeId.trans hid) hkey.key value
  | replaced hbase hkey =>
    rw [hworked]
    have hid := hbase.storeId hfresh
    have hprepared := (h.identified hbase hfresh).keyed hid hkey
    exact (hprepared.wrote hdistinct hsecret (hkey.storeId.trans hid) hkey.key value).unkeyed _ rfl

theorem Coherent.delete (h : Coherent envelope secrets store written)
    (hresult : DeleteResult envelope secret store result) : Coherent envelope secrets result.1 written := by
  cases hresult with
  | refused => exact h
  | undirected => exact h.unkeyed _ rfl
  | removed => exact (h.unkeyed _ rfl).cleared _
  | unkeyed => exact ((h.unkeyed _ rfl).cleared _).unkeyed _ rfl

theorem Coherent.next {run : SecretRun Key} {action : SecretAction Key}
    (h : Coherent envelope secrets run.store run.written) (hdistinct : DistinctFiles envelope secrets)
    (hallowed : run.allowed envelope secrets action = true) :
    Coherent envelope secrets (run.next envelope action).store (run.next envelope action).written := by
  cases action with
  | set secret value env =>
    obtain ⟨hsecret, hfresh⟩ := SecretRun.allowed_set hallowed
    exact h.set hdistinct hsecret hfresh (set_spec env secret value _)
  | get => exact h
  | delete secret outcome => exact h.delete (delete_spec outcome)
  | loseKey => exact h.unkeyed _ rfl
  | spoilKey secret contents =>
    simp only [SecretRun.next]
    cases run.store.storeId with
    | none => exact h
    | some id => exact h.unkeyed _ (Option.isNone_iff_eq_none.mp (Bool.and_eq_true_iff.mp hallowed).2)
  | loseStoreId contents =>
    refine h.fewer (fun id hid => ?_) (fun _ _ _ hfile => hfile) fun _ _ _ _ _ _ hkey => hkey
    have hnone : contents.filter isStoreId = none := by
      cases contents with
      | none => rfl
      | some contents => simpa [SecretRun.allowed] using hallowed
    cases hnone.symm.trans hid

/-- While the keys are there, a write that removes a file has none to remove. -/
theorem KeysKept.stranded (h : KeysKept envelope secrets store) (hsecret : secret ∈ secrets)
    (hstranded : env.strands envelope secret store = true) : store.files (envelope.entryPath secret) = none := by
  cases hfile : store.files (envelope.entryPath secret) with
  | none => rfl
  | some file =>
    obtain ⟨id, hid, hkey⟩ := h secret hsecret file hfile
    simp [SetEnv.strands, SetEnv.clears, hid, hkey] at hstranded

theorem KeysKept.set (h : KeysKept envelope secrets store) (hcoherent : Coherent envelope secrets store written)
    (hdistinct : DistinctFiles envelope secrets) (hsecret : secret ∈ secrets)
    (hfresh : Identifiable secrets store env)
    (hresult : SetResult envelope env secret value store result) : KeysKept envelope secrets result.1 := by
  cases hresult with
  | refused => exact h
  | stopped hbase => exact h.identified hbase
  | cleared hbase => exact (h.identified hbase).cleared _
  | keyed hbase => exact (h.identified hbase).rekeyed (hbase.storeId hfresh) _ _
  | written hbase hkey =>
    have hid := hbase.storeId hfresh
    exact ((h.identified hbase).keyed hid hkey).wrote hdistinct hsecret (hkey.storeId.trans hid) hkey.key value
  | replaced hbase hkey =>
    have hid := hbase.storeId hfresh
    have hprepared := (hcoherent.identified hbase hfresh).keyed hid hkey
    have hwrote := hprepared.wrote hdistinct hsecret (hkey.storeId.trans hid) hkey.key value
    have hkept := ((h.identified hbase).keyed hid hkey).wrote hdistinct hsecret (hkey.storeId.trans hid) hkey.key value
    exact hkept.undirected hwrote hsecret

theorem KeysKept.delete (h : KeysKept envelope secrets store) (hcoherent : Coherent envelope secrets store written)
    (hsecret : secret ∈ secrets) (hresult : DeleteResult envelope secret store result) :
    KeysKept envelope secrets result.1 := by
  have hundirected := h.undirected hcoherent hsecret
  cases hresult with
  | refused => exact h
  | undirected => exact hundirected
  | removed => exact hundirected.cleared _
  | unkeyed hid => exact hundirected.rekeyed hid _ _

theorem KeysKept.next {run : SecretRun Key} {action : SecretAction Key} (h : KeysKept envelope secrets run.store)
    (hcoherent : Coherent envelope secrets run.store run.written) (hdistinct : DistinctFiles envelope secrets)
    (hallowed : run.allowed envelope secrets action = true) (hcall : action.isCall = true) :
    KeysKept envelope secrets (run.next envelope action).store := by
  cases action with
  | set secret value env =>
    obtain ⟨hsecret, hfresh⟩ := SecretRun.allowed_set hallowed
    exact h.set hcoherent hdistinct hsecret hfresh (set_spec env secret value _)
  | get => exact h
  | delete secret outcome => exact h.delete hcoherent (of_decide_eq_true hallowed) (delete_spec outcome)
  | loseKey => cases hcall
  | spoilKey => cases hcall
  | loseStoreId => cases hcall

theorem directEntry_ne (h : other ≠ secret) : directEntry other ≠ directEntry secret := by
  intro hsame
  obtain ⟨hservice, haccount⟩ := Prod.ext_iff.mp hsame
  cases other
  cases secret
  exact h (by simp_all [directEntry])

theorem Undisturbed.keyed (h : Undisturbed envelope other store base)
    (hkey : Keyed envelope env secret id base key prepared)
    (hpath : envelope.entryPath other ≠ envelope.entryPath secret) (hentry : directEntry other ≠ keyEntry id secret) :
    Undisturbed envelope other store prepared := by
  cases hkey with
  | found => exact h
  | made => exact (h.setFile hpath none).setEntry hentry _

/-- A write of one secret leaves the others. -/
theorem SetResult.undisturbed (h : SetResult envelope env secret value store result)
    (hcoherent : Coherent envelope secrets store written) (hdistinct : DistinctFiles envelope secrets)
    (hsecret : secret ∈ secrets) (hfresh : Identifiable secrets store env)
    (hother : other ∈ secrets) (hne : other ≠ secret) : Undisturbed envelope other store result.1 := by
  have hpath : envelope.entryPath other ≠ envelope.entryPath secret :=
    fun hpath => hne (hdistinct other hother secret hsecret hpath)
  have hentry : ∀ {id base}, Identified env store id base → directEntry other ≠ keyEntry id secret := by
    intro id base hbase
    have hseparate := (hcoherent.identified hbase hfresh).separate id (hbase.storeId hfresh)
    exact Ne.symm (hseparate secret hsecret other hother)
  cases h with
  | refused => exact .refl _ _ _
  | stopped hbase => exact hbase.undisturbed other
  | cleared hbase => exact (hbase.undisturbed other).setFile hpath none
  | keyed hbase => exact ((hbase.undisturbed other).setFile hpath none).setEntry (hentry hbase) _
  | written hbase hkey => exact ((hbase.undisturbed other).keyed hkey hpath (hentry hbase)).setFile hpath _
  | replaced hbase hkey =>
    have hprepared := (hbase.undisturbed other).keyed hkey hpath (hentry hbase)
    exact (hprepared.setFile hpath _).setEntry (directEntry_ne hne) none

/-- A write that removes the file and stops leaves what is stored directly. -/
theorem SetResult.stranded (h : SetResult envelope env secret value store result)
    (hcoherent : Coherent envelope secrets store written) (hsecret : secret ∈ secrets)
    (hfresh : Identifiable secrets store env)
    (hstranded : env.strands envelope secret store = true) :
    result.1.files (envelope.entryPath secret) = none ∧
      result.1.entries (directEntry secret) = store.entries (directEntry secret) := by
  have hbefore : ∀ {id base}, Identified env store id base →
      base.entries (directEntry secret) = store.entries (directEntry secret) ∧
        directEntry secret ≠ keyEntry id secret := by
    intro id base hbase
    have hseparate := (hcoherent.identified hbase hfresh).separate id (hbase.storeId hfresh)
    have hsame : Undisturbed envelope secret store base := hbase.undisturbed secret
    exact ⟨hsame.direct, Ne.symm (hseparate secret hsecret secret hsecret)⟩
  cases h with
  | cleared hbase => exact ⟨by simp, (hbefore hbase).1⟩
  | keyed hbase =>
    obtain ⟨hdirect, hentry⟩ := hbefore hbase
    exact ⟨by simp, by simp [hentry, hdirect]⟩
  | refused hkept => cases hkept.symm.trans hstranded
  | stopped _ hkept => cases hkept.symm.trans hstranded
  | written _ _ hkept => cases hkept.symm.trans hstranded
  | replaced _ _ hkept => cases hkept.symm.trans hstranded

/-- Any other write that fails leaves the secret. -/
theorem SetResult.failed (h : SetResult envelope env secret value store result)
    (hkept : env.strands envelope secret store = false) {error : String} (hfailed : result.2 = .error error) :
    Undisturbed envelope secret store result.1 := by
  cases h with
  | refused => exact .refl _ _ _
  | stopped hbase => exact hbase.undisturbed secret
  | cleared _ hstranded => cases hkept.symm.trans hstranded
  | keyed _ hstranded => cases hkept.symm.trans hstranded
  | written => cases hfailed
  | replaced => cases hfailed

theorem SetResult.held_failed (h : SetResult envelope env secret value store result)
    (hcoherent : Coherent envelope secrets store written) (hkept : KeysKept envelope secrets store)
    (hsecret : secret ∈ secrets)
    (hfresh : Identifiable secrets store env) {error : String}
    (hfailed : result.2 = .error error) : held envelope secret result.1 = held envelope secret store := by
  cases hstranded : env.strands envelope secret store with
  | false => exact (h.failed hstranded hfailed).held
  | true =>
    obtain ⟨hfile, hdirect⟩ := h.stranded hcoherent hsecret hfresh hstranded
    rw [held_none hfile, held_none (hkept.stranded hsecret hstranded), hdirect]

theorem SetResult.written_file (h : SetResult envelope env secret value store result) (hdone : result.2 = .ok ()) :
    ∃ key, result.1.files (envelope.entryPath secret) = some (Envelope.sealSecret key secret value) := by
  cases h with
  | refused => cases hdone
  | stopped => cases hdone
  | cleared => cases hdone
  | keyed => cases hdone
  | written => exact ⟨_, by simp; rfl⟩
  | replaced => exact ⟨_, by simp; rfl⟩

/-- A deletion leaves the secret as it was or gone, and gone if it is complete. -/
theorem DeleteResult.held_deleted (h : DeleteResult envelope secret store result)
    (hcoherent : Coherent envelope secrets store written) (hsecret : secret ∈ secrets) :
    (held envelope secret result.1 = held envelope secret store ∧ result.2 ≠ .ok ()) ∨
      held envelope secret result.1 = none := by
  cases h with
  | refused error => exact Or.inl ⟨rfl, by simp⟩
  | undirected error =>
    cases hfile : store.files (envelope.entryPath secret) with
    | some file => exact Or.inl ⟨held_shadowed hfile _ none, by simp⟩
    | none =>
      refine Or.inr ?_
      rw [held_none (by exact hfile)]
      simp
  | removed =>
    refine Or.inr ?_
    rw [held_none (by simp)]
    simp
  | unkeyed hid =>
    refine Or.inr ?_
    rw [held_none (by simp)]
    simp [Ne.symm (hcoherent.separate _ hid secret hsecret secret hsecret)]

theorem DeleteResult.undisturbed (h : DeleteResult envelope secret store result)
    (hcoherent : Coherent envelope secrets store written) (hdistinct : DistinctFiles envelope secrets)
    (hsecret : secret ∈ secrets) (hother : other ∈ secrets) (hne : other ≠ secret) :
    Undisturbed envelope other store result.1 := by
  have hdirect := (Undisturbed.refl envelope other store).setEntry (directEntry_ne hne) none
  have hpath : envelope.entryPath other ≠ envelope.entryPath secret :=
    fun hpath => hne (hdistinct other hother secret hsecret hpath)
  cases h with
  | refused => exact .refl _ _ _
  | undirected => exact hdirect
  | removed => exact hdirect.setFile hpath none
  | unkeyed hid =>
    exact (hdirect.setFile hpath none).setEntry (Ne.symm (hcoherent.separate _ hid secret hsecret other hother)) none

end

end AgentDesktop
