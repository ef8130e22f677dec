import AgentDesktop.CredentialCache

namespace AgentDesktop

/-- An insert: what was fetched for which device, and the clocks it read. -/
structure CacheInsert where
  deviceId : String
  fetched : LlmGatewayCredential
  nowUnix : Nat
  now : Nat
  later : Nat

def CacheInsert.entry (insert : CacheInsert) : Option CachedCredential :=
  cachedCredential insert.deviceId insert.fetched insert.nowUnix insert.now insert.later

/-- The latest insert under each key, and whether its entry was dropped since. -/
structure CacheHistory where
  latest : String → Option CacheInsert := fun _ => none
  invalidated : String → Bool := fun _ => false

namespace CacheHistory

def insert (history : CacheHistory) (key : String) (insert : CacheInsert) : CacheHistory where
  latest other := if other = key then some insert else history.latest other
  invalidated other := if other = key then false else history.invalidated other

def invalidateIf (history : CacheHistory) (cache : CredentialCache) (key credential : String) : CacheHistory :=
  if (cache.entries key).any fun entry => entry.credential == credential then
    { history with invalidated := fun other => if other = key then true else history.invalidated other }
  else history

/-- The entry of a key is that of its latest insert, unless it was dropped. -/
def Explains (history : CacheHistory) (cache : CredentialCache) : Prop :=
  ∀ key, cache.entries key = if history.invalidated key then none else (history.latest key).bind CacheInsert.entry

variable {history : CacheHistory} {cache : CredentialCache}

theorem Explains.insert (h : history.Explains cache) (key : String) (insert : CacheInsert) :
    (history.insert key insert).Explains (cache.insert key insert.deviceId insert.fetched insert.nowUnix insert.now
      insert.later) := by
  intro other
  simp only [CredentialCache.insert, CredentialCache.setEntry, CacheHistory.insert]
  split
  next => rfl
  next => exact h other

theorem Explains.invalidateIf (h : history.Explains cache) (key credential : String) :
    (history.invalidateIf cache key credential).Explains (cache.invalidateIf key credential) := by
  unfold CacheHistory.invalidateIf CredentialCache.invalidateIf
  split
  next =>
    intro other
    simp only [CredentialCache.setEntry]
    split
    next => rfl
    next => exact h other
  next => exact h

end CacheHistory

/-- A cached entry serves its credential for less than the cache's lifetime, and not
within the margin of its expiry. -/
theorem CacheInsert.entry_spec {insert : CacheInsert} {entry : CachedCredential} (h : insert.entry = some entry) :
    entry.credential = insert.fetched.credential ∧ entry.deviceId = insert.deviceId ∧
      entry.expiresUnix = insert.fetched.expiresAtUnixSeconds ∧
      entry.expires = insert.later + fromSecs (insert.fetched.expiresAtUnixSeconds - insert.nowUnix) ∧
      entry.validUntil ≤ insert.now + fromSecs credentialCacheTtl ∧
      entry.validUntilUnix ≤ insert.nowUnix + credentialCacheTtl ∧
      entry.validUntilUnix + credentialExpiryMargin ≤ insert.fetched.expiresAtUnixSeconds := by
  simp only [CacheInsert.entry, cachedCredential] at h
  split at h
  next hpositive =>
    cases h
    have hlifetime : min (insert.fetched.expiresAtUnixSeconds - insert.nowUnix - credentialExpiryMargin)
        credentialCacheTtl ≤ credentialCacheTtl := Nat.min_le_right _ _
    refine ⟨rfl, rfl, rfl, rfl, ?_, ?_, ?_⟩
    · exact Nat.add_le_add_left (Nat.mul_le_mul_right _ hlifetime) _
    · exact Nat.add_le_add_left hlifetime _
    · show insert.nowUnix + min _ _ + credentialExpiryMargin ≤ _
      omega
  next => cases h

/-- A credential that is valid for long enough is cached for the cache's whole lifetime. -/
theorem CacheInsert.entry_of_valid {insert : CacheInsert}
    (h : insert.nowUnix + credentialExpiryMargin + credentialCacheTtl ≤ insert.fetched.expiresAtUnixSeconds) :
    ∃ entry, insert.entry = some entry ∧ entry.credential = insert.fetched.credential ∧
      entry.deviceId = insert.deviceId ∧ entry.validUntil = insert.now + fromSecs credentialCacheTtl ∧
      entry.validUntilUnix = insert.nowUnix + credentialCacheTtl ∧
      entry.expires = insert.later + fromSecs (insert.fetched.expiresAtUnixSeconds - insert.nowUnix) ∧
      entry.expiresUnix = insert.fetched.expiresAtUnixSeconds := by
  have hlifetime : min (insert.fetched.expiresAtUnixSeconds - insert.nowUnix - credentialExpiryMargin)
      credentialCacheTtl = credentialCacheTtl := by omega
  have hpositive : credentialCacheTtl > 0 := by decide
  unfold CacheInsert.entry cachedCredential
  simp only [hlifetime, hpositive, if_true]
  exact ⟨_, rfl, rfl, rfl, rfl, rfl, rfl, rfl⟩

variable {cache : CredentialCache}

theorem CredentialCache.lookup_spec {key deviceId credential : String} {now nowUnix : Nat} {deadline : Deadline}
    (h : cache.lookup key deviceId now nowUnix = some (credential, deadline)) :
    ∃ entry, cache.entries key = some entry ∧ entry.deviceId = deviceId ∧ now < entry.validUntil ∧
      nowUnix < entry.validUntilUnix ∧ credential = entry.credential ∧
      deadline = ⟨entry.expires, entry.expiresUnix⟩ := by
  unfold lookup at h
  split at h
  next => cases h
  next entry hentry =>
    split at h
    next hvalid =>
      cases h
      simp only [CachedCredential.validFor, Bool.and_eq_true, beq_iff_eq, decide_eq_true_eq] at hvalid
      exact ⟨entry, hentry, hvalid.1.1, hvalid.1.2, hvalid.2, rfl, rfl⟩
    next => cases h

/-- What a served credential is. -/
structure ServedBy (insert : CacheInsert) (deviceId : String) (now nowUnix : Nat) (credential : String)
    (deadline : Deadline) : Prop where
  device : insert.deviceId = deviceId
  credential : insert.fetched.credential = credential
  monotonic : now < insert.now + fromSecs credentialCacheTtl
  wall : nowUnix < insert.nowUnix + credentialCacheTtl
  margin : nowUnix + credentialExpiryMargin < insert.fetched.expiresAtUnixSeconds
  expiry : deadline = ⟨insert.later + fromSecs (insert.fetched.expiresAtUnixSeconds - insert.nowUnix),
    insert.fetched.expiresAtUnixSeconds⟩

theorem CacheHistory.Explains.lookup {history : CacheHistory} (h : history.Explains cache)
    {key deviceId credential : String} {now nowUnix : Nat} {deadline : Deadline}
    (hlookup : cache.lookup key deviceId now nowUnix = some (credential, deadline)) :
    ∃ insert, history.latest key = some insert ∧ ServedBy insert deviceId now nowUnix credential deadline := by
  obtain ⟨entry, hentry, hdevice, hnow, hunix, rfl, rfl⟩ := CredentialCache.lookup_spec hlookup
  have hexplained := h key
  rw [hentry] at hexplained
  split at hexplained
  next => cases hexplained
  next =>
    obtain ⟨insert, hlatest, hinsert⟩ := Option.bind_eq_some_iff.mp hexplained.symm
    obtain ⟨hcredential, hsame, hexpiry, hexpires, hmonotonic, hwall, hmargin⟩ := CacheInsert.entry_spec hinsert
    refine ⟨insert, hlatest, hsame.symm.trans hdevice, hcredential.symm, Nat.lt_of_lt_of_le hnow hmonotonic,
      Nat.lt_of_lt_of_le hunix hwall, ?_, ?_⟩
    · exact Nat.lt_of_lt_of_le (Nat.add_lt_add_right hunix _) hmargin
    · rw [hexpires, hexpiry]

/-- An entry that was neither dropped nor replaced is served for the cache's lifetime. -/
theorem CacheHistory.Explains.hit {history : CacheHistory} (h : history.Explains cache) {key : String}
    {insert : CacheInsert} (hlatest : history.latest key = some insert) (hkept : history.invalidated key = false)
    (hvalid : insert.nowUnix + credentialExpiryMargin + credentialCacheTtl ≤ insert.fetched.expiresAtUnixSeconds)
    {now nowUnix : Nat} (hnow : now < insert.now + fromSecs credentialCacheTtl)
    (hunix : nowUnix < insert.nowUnix + credentialCacheTtl) :
    cache.lookup key insert.deviceId now nowUnix = some (insert.fetched.credential,
      ⟨insert.later + fromSecs (insert.fetched.expiresAtUnixSeconds - insert.nowUnix),
        insert.fetched.expiresAtUnixSeconds⟩) := by
  obtain ⟨entry, hentry, hcredential, hdevice, hmonotonic, hwall, hexpires, hexpiry⟩ := insert.entry_of_valid hvalid
  have hentries : cache.entries key = some entry := by
    rw [h key, hkept, hlatest]
    exact hentry
  have hok : entry.validFor insert.deviceId now nowUnix = true := by
    simp only [CachedCredential.validFor, hdevice, hmonotonic, hwall, beq_self_eq_true, Bool.true_and,
      Bool.and_eq_true, decide_eq_true_eq]
    exact ⟨hnow, hunix⟩
  simp only [CredentialCache.lookup, hentries, hok, if_true, hcredential, hexpires, hexpiry]

end AgentDesktop
