import AgentDesktop.CacheFetch
import AgentDesktop.ListAt
import AgentDesktop.Transitions

namespace AgentDesktop

variable {E : Type}

/-- A credential that came from the cache, with the clocks read and the latest insert
for its key at that time. -/
structure ServedCredential where
  key : String
  deviceId : String
  credential : String
  deadline : Deadline
  now : Nat
  nowUnix : Nat
  latest : Option CacheInsert

/-- A call of `insert` that has read the wall clock. -/
structure PendingInsert where
  key : String
  deviceId : String
  fetched : LlmGatewayCredential
  nowUnix : Nat

/-- The cache with the calls on it. -/
structure CacheRun where
  cache : CredentialCache := {}
  history : CacheHistory := {}
  calls : List FetchCall := []
  inserting : List PendingInsert := []
  served : List ServedCredential := []

inductive CacheAction (E : Type) where
  | lookup (key deviceId : String) (now nowUnix : Nat)
  | insert (key deviceId : String) (fetched : LlmGatewayCredential) (nowUnix : Nat)
  | store (index now later : Nat)
  | invalidateIf (key credential : String)
  | call (key deviceId : String)
  | advance (index : Nat) (input : FetchInput E)
  | cancel (index : Nat)

namespace CacheRun

def serve (key deviceId : String) (now nowUnix : Nat) (credential : String) (deadline : Deadline) (s : CacheRun) :
    ServedCredential :=
  ⟨key, deviceId, credential, deadline, now, nowUnix, s.history.latest key⟩

/-- What a step of a call serves from the cache. -/
def hits (call : FetchCall) (input : FetchInput E) (progress : FetchProgress E) (s : CacheRun) :
    List ServedCredential :=
  match input, progress with
  | .look now nowUnix, .finished credential deadline true =>
    [s.serve call.key call.deviceId now nowUnix credential deadline]
  | _, _ => []

def lookup (key deviceId : String) (now nowUnix : Nat) (s : CacheRun) : CacheRun :=
  match s.cache.lookup key deviceId now nowUnix with
  | none => s
  | some (credential, deadline) =>
    { s with served := s.served ++ [s.serve key deviceId now nowUnix credential deadline] }

def store (index now later : Nat) (s : CacheRun) : Option CacheRun :=
  match s.inserting[index]? with
  | none => none
  | some ⟨key, deviceId, fetched, nowUnix⟩ =>
    some { s with
      cache := s.cache.insert key deviceId fetched nowUnix now later
      history := s.history.insert key ⟨deviceId, fetched, nowUnix, now, later⟩
      inserting := s.inserting.eraseIdx index }

def advance (index : Nat) (input : FetchInput E) (s : CacheRun) : Option CacheRun :=
  match s.calls[index]? with
  | none => none
  | some call =>
    match getOrFetchStep s.cache call input with
    | none => none
    | some (cache, progress) =>
      some { s with
        cache
        history := match call.inserts input with
          | none => s.history
          | some insert => s.history.insert call.key insert
        calls := s.calls.take index ++ (progress.remaining call ++ s.calls.drop (index + 1))
        served := s.served ++ s.hits call input progress }

/-- A call that is dropped where it waits. -/
def cancel (index : Nat) (s : CacheRun) : Option CacheRun :=
  match s.calls[index]? with
  | some ⟨_, _, .waiting⟩ => some { s with calls := s.calls.eraseIdx index }
  | some ⟨key, _, .fetching⟩ =>
    some { s with cache := s.cache.setFlight key false, calls := s.calls.eraseIdx index }
  | _ => none

def step (s : CacheRun) : CacheAction E → Option CacheRun
  | .lookup key deviceId now nowUnix => some (s.lookup key deviceId now nowUnix)
  | .insert key deviceId fetched nowUnix =>
    some { s with inserting := s.inserting ++ [⟨key, deviceId, fetched, nowUnix⟩] }
  | .store index now later => s.store index now later
  | .invalidateIf key credential =>
    some { s with
      cache := s.cache.invalidateIf key credential
      history := s.history.invalidateIf s.cache key credential }
  | .call key deviceId => some { s with calls := s.calls ++ [⟨key, deviceId, .waiting⟩] }
  | .advance index input => s.advance index input
  | .cancel index => s.cancel index

/-- Entries are those of the latest inserts, and at most one call holds a flight lock. -/
structure Kept (s : CacheRun) : Prop where
  explained : s.history.Explains s.cache
  flights : ∀ key, s.calls.countP (FetchCall.holdsFlight key) = (s.cache.flights key).toNat
  served : ∀ served ∈ s.served, ∃ insert, served.latest = some insert ∧
    ServedBy insert served.deviceId served.now served.nowUnix served.credential served.deadline

variable {s t : CacheRun}

theorem hits_spec {call : FetchCall} {input : FetchInput E} {progress : FetchProgress E} {served : ServedCredential}
    (h : served ∈ s.hits call input progress) :
    ∃ now nowUnix credential deadline, input = .look now nowUnix ∧ progress = .finished credential deadline true ∧
      served = s.serve call.key call.deviceId now nowUnix credential deadline := by
  unfold hits at h
  split at h
  next => exact ⟨_, _, _, _, rfl, rfl, List.mem_singleton.mp h⟩
  next => cases h

namespace Kept

/-- What a lookup finds is served by the latest insert. -/
theorem serves (h : Kept s) {key deviceId credential : String} {now nowUnix : Nat} {deadline : Deadline}
    (hlookup : s.cache.lookup key deviceId now nowUnix = some (credential, deadline)) :
    ∃ insert, s.history.latest key = some insert ∧ ServedBy insert deviceId now nowUnix credential deadline :=
  h.explained.lookup hlookup

theorem lookup (h : Kept s) (key deviceId : String) (now nowUnix : Nat) :
    Kept (s.lookup key deviceId now nowUnix) := by
  unfold CacheRun.lookup
  split
  next => exact h
  next credential deadline hlookup =>
    refine ⟨h.explained, h.flights, fun served hs => ?_⟩
    rcases List.mem_append.mp hs with hs | hs
    · exact h.served served hs
    · rw [List.mem_singleton.mp hs]
      exact h.serves hlookup

variable {index : Nat}

/-- The flight locks after a step of one call. -/
theorem flights_step (h : Kept s) {call : FetchCall} (hget : s.calls[index]? = some call) {rest : List FetchCall}
    {next : CredentialCache}
    (hstep : ∀ key, (call.holdsFlight key = true → s.cache.flights key = true) →
      rest.countP (FetchCall.holdsFlight key) + (s.cache.flights key).toNat =
        [call].countP (FetchCall.holdsFlight key) + (next.flights key).toNat) (key : String) :
    (s.calls.take index ++ (rest ++ s.calls.drop (index + 1))).countP (FetchCall.holdsFlight key) =
      (next.flights key).toNat := by
  have hflights := h.flights key
  rw [split_at hget, List.countP_append, List.countP_cons] at hflights
  have hheld : call.holdsFlight key = true → s.cache.flights key = true := by
    intro hholds
    cases hflight : s.cache.flights key with
    | true => rfl
    | false =>
      rw [hflight, if_pos hholds] at hflights
      simp at hflights
  have hkey := hstep key hheld
  rw [List.countP_singleton] at hkey
  rw [List.countP_append, List.countP_append]
  omega

theorem flights_erased (h : Kept s) {call : FetchCall} (hget : s.calls[index]? = some call) {next : CredentialCache}
    (hstep : ∀ key, (call.holdsFlight key = true → s.cache.flights key = true) →
      0 + (s.cache.flights key).toNat = [call].countP (FetchCall.holdsFlight key) + (next.flights key).toNat)
    (key : String) :
    (s.calls.eraseIdx index).countP (FetchCall.holdsFlight key) = (next.flights key).toNat := by
  have hrest : ∀ key, (call.holdsFlight key = true → s.cache.flights key = true) →
      ([] : List FetchCall).countP (FetchCall.holdsFlight key) + (s.cache.flights key).toNat =
        [call].countP (FetchCall.holdsFlight key) + (next.flights key).toNat := hstep
  rw [List.eraseIdx_eq_take_drop_succ]
  exact h.flights_step hget hrest key

theorem advance {input : FetchInput E} (h : Kept s) (hstep : s.advance index input = some t) :
    Kept t := by
  unfold CacheRun.advance at hstep
  split at hstep
  next => cases hstep
  next call hget =>
    split at hstep
    next => cases hstep
    next cache progress hfetch =>
      cases hstep
      have hspec := getOrFetchStep_spec hfetch
      refine ⟨?_, h.flights_step hget hspec.flights, fun served hs => ?_⟩
      · have hentries := hspec.entries
        cases hinserts : call.inserts input with
        | none =>
          rw [hinserts] at hentries
          intro key
          rw [hentries]
          exact h.explained key
        | some insert =>
          rw [hinserts] at hentries
          intro key
          rw [hentries]
          exact h.explained.insert call.key insert key
      · rcases List.mem_append.mp hs with hs | hs
        · exact h.served served hs
        · obtain ⟨now, nowUnix, credential, deadline, rfl, rfl, rfl⟩ := hits_spec hs
          obtain ⟨_, _, hinput, hlookup⟩ := hspec.cached credential deadline rfl
          cases hinput
          exact h.serves hlookup

theorem cancel (h : Kept s) (hstep : s.cancel index = some t) : Kept t := by
  unfold CacheRun.cancel at hstep
  split at hstep
  next key deviceId hget =>
    cases hstep
    exact ⟨h.explained, h.flights_erased hget fun _ _ => rfl, h.served⟩
  next key deviceId hget =>
    cases hstep
    exact ⟨h.explained, h.flights_erased hget (flights_released nofun), h.served⟩
  next => cases hstep

theorem step {action : CacheAction E} (h : Kept s) (hstep : s.step action = some t) : Kept t := by
  cases action with
  | lookup key deviceId now nowUnix =>
    cases hstep
    exact h.lookup key deviceId now nowUnix
  | insert key deviceId fetched nowUnix =>
    cases hstep
    exact ⟨h.explained, h.flights, h.served⟩
  | store index now later =>
    simp only [CacheRun.step, CacheRun.store] at hstep
    split at hstep
    next => cases hstep
    next key deviceId fetched nowUnix _ =>
      cases hstep
      exact ⟨h.explained.insert key ⟨deviceId, fetched, nowUnix, now, later⟩, h.flights, h.served⟩
  | invalidateIf key credential =>
    cases hstep
    refine ⟨h.explained.invalidateIf key credential, fun other => ?_, h.served⟩
    rw [CredentialCache.invalidateIf_flights]
    exact h.flights other
  | call key deviceId =>
    cases hstep
    refine ⟨h.explained, fun other => ?_, h.served⟩
    rw [List.countP_append]
    exact h.flights other
  | advance index input => exact h.advance hstep
  | cancel index => exact h.cancel hstep

/-- A call finds the entry of the latest insert and does not fetch. -/
theorem look_hits (h : Kept s) {call : FetchCall} (hget : s.calls[index]? = some call) (hpc : call.pc = .looking)
    {insert : CacheInsert} (hlatest : s.history.latest call.key = some insert)
    (hkept : s.history.invalidated call.key = false) (hdevice : insert.deviceId = call.deviceId)
    (hvalid : insert.nowUnix + credentialExpiryMargin + credentialCacheTtl < insert.fetched.expiresAtUnixSeconds)
    {now nowUnix : Nat} (hnow : now < insert.now + fromSecs credentialCacheTtl)
    (hunix : nowUnix < insert.nowUnix + credentialCacheTtl) :
    ∃ t served, s.advance index (.look now nowUnix : FetchInput E) = some t ∧ t.calls = s.calls.eraseIdx index ∧
      t.served = s.served ++ [served] ∧ served.credential = insert.fetched.credential := by
  have hhit := h.explained.hit hlatest hkept (Nat.le_of_lt hvalid) hnow hunix
  rw [hdevice] at hhit
  have hfetch : getOrFetchStep s.cache call (.look now nowUnix : FetchInput E) =
      some (s.cache.setFlight call.key false, .finished insert.fetched.credential
        ⟨insert.later + fromSecs (insert.fetched.expiresAtUnixSeconds - insert.nowUnix),
          insert.fetched.expiresAtUnixSeconds⟩ true) := by
    simp only [getOrFetchStep, hpc, hhit]
  simp only [CacheRun.advance, hget, hfetch, Option.some.injEq, exists_and_left, exists_eq_left']
  refine ⟨?_, _, rfl, rfl⟩
  rw [List.eraseIdx_eq_take_drop_succ]
  rfl

end Kept

end CacheRun

/-- A credential from the cache comes from the latest insert under its key and device,
less than the cache's lifetime ago on both clocks and outside the margin of its
expiry, which is returned with it. At most one fetch for a key is in progress, and a
call that waited for a fetch takes what it inserted. -/
theorem cache_serves_latest_insert (actions : List (CacheAction E)) (s : CacheRun)
    (run : execute CacheRun.step (fun _ _ => true) actions {} = some s) :
    (∀ served ∈ s.served, ∃ insert, served.latest = some insert ∧
        ServedBy insert served.deviceId served.now served.nowUnix served.credential served.deadline) ∧
      (∀ key, s.calls.countP (FetchCall.fetches key) ≤ 1) ∧
      ∀ index call insert now nowUnix, s.calls[index]? = some call → call.pc = .looking →
        s.history.latest call.key = some insert → s.history.invalidated call.key = false →
        insert.deviceId = call.deviceId → insert.nowUnix + 90 < insert.fetched.expiresAtUnixSeconds →
        now < insert.now + fromSecs 60 → nowUnix < insert.nowUnix + 60 →
        ∃ t served, s.step (.advance index (.look now nowUnix) : CacheAction E) = some t ∧
          t.calls = s.calls.eraseIdx index ∧ t.served = s.served ++ [served] ∧
          served.credential = insert.fetched.credential := by
  have hstart : CacheRun.Kept {} := ⟨fun _ => rfl, fun _ => rfl, fun _ => nofun⟩
  have h : s.Kept := execute_invariant (fun _ _ _ h _ hstep => h.step hstep) hstart run
  refine ⟨h.served, fun key => ?_, ?_⟩
  · have hholds : ∀ call ∈ s.calls, call.fetches key = true → call.holdsFlight key = true := by
      intro call _ hfetches
      unfold FetchCall.fetches at hfetches
      unfold FetchCall.holdsFlight
      split at hfetches
      next hpc =>
        rw [hpc]
        exact hfetches
      next => cases hfetches
    exact Nat.le_trans (List.countP_mono_left hholds) (Nat.le_trans (Nat.le_of_eq (h.flights key)) (Bool.toNat_le _))
  · intro index call insert now nowUnix hget hpc hlatest hkept hdevice hvalid hnow hunix
    exact h.look_hits hget hpc hlatest hkept hdevice hvalid hnow hunix

/-- Two calls for a key: the second waits for the fetch of the first. -/
def waitedForFetch : List (CacheAction Unit) :=
  [.call "key" "device", .call "key" "device", .advance 0 .lock, .advance 0 (.look 1 100),
    .advance 0 (.respond (.ok ⟨"credential", 200⟩)), .advance 0 (.clock 101), .advance 0 (.store 2 3),
    .advance 0 (.deadline 4 101), .advance 0 .lock]

theorem cache_serves_waiting_call :
    ∃ s, execute CacheRun.step (fun _ _ => true) waitedForFetch {} = some s ∧ s.calls.length = 1 ∧
      ∃ t served, s.step (.advance 0 (.look 5 102) : CacheAction Unit) = some t ∧ t.calls = s.calls.eraseIdx 0 ∧
        t.served = s.served ++ [served] ∧ served.credential = "credential" :=
  ⟨_, rfl, rfl, (cache_serves_latest_insert waitedForFetch _ rfl).2.2 0 ⟨"key", "device", .looking⟩
    ⟨"device", ⟨"credential", 200⟩, 101, 2, 3⟩ 5 102 rfl rfl rfl rfl rfl (by decide) (by decide) (by decide)⟩

end AgentDesktop
