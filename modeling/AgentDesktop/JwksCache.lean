import AgentDesktop.ListAt
import AgentDesktop.Transitions

namespace AgentDesktop

/-- A signing key; some have no id. -/
structure Jwk (Material : Type) where
  keyId : Option String
  material : Material

def findKey {Material : Type} (keys : List (Jwk Material)) (kid : String) : Option (Jwk Material) :=
  keys.find? fun key => key.keyId == some kid

/-- A call of `key_for`: it looks into the key set, waits for the refresh gate, looks again
and fetches; one that is dropped ends without an answer. -/
inductive KeyPhase (Material : Type) where
  | looking
  | waiting
  | checking
  | fetching
  | returned (answer : Except String (Jwk Material))
  | dropped

structure KeyCall (Material : Type) where
  kid : String
  phase : KeyPhase Material

/-- The key set and the refresh gate with the time of the last attempt, the clock, and the
calls; `fetches` are the calls that fetched and when they started. -/
structure JwksCache (Material : Type) where
  keys : List (Jwk Material)
  gate : Bool := false
  lastAttempt : Option Nat := none
  now : Nat
  calls : List (KeyCall Material) := []
  fetches : List (Nat × Nat) := []

inductive KeyAction (Material : Type) where
  | tick (later : Nat)
  | call (kid : String)
  | look (index : Nat)
  | lock (index : Nat)
  | check (index : Nat)
  | fetched (index : Nat) (result : Except String (List (Jwk Material)))
  | cancel (index : Nat)

section

variable {Material : Type}

def KeyPhase.holdsGate : KeyPhase Material → Bool
  | .checking => true
  | .fetching => true
  | _ => false

def KeyPhase.isFetching : KeyPhase Material → Bool
  | .fetching => true
  | _ => false

/-- A call can be dropped where it waits. -/
def KeyPhase.awaits : KeyPhase Material → Bool
  | .looking => true
  | .waiting => true
  | .fetching => true
  | _ => false

namespace JwksCache

def cachedKey (s : JwksCache Material) (kid : String) : Option (Jwk Material) :=
  findKey s.keys kid

def setPhase (index : Nat) (call : KeyCall Material) (phase : KeyPhase Material) (s : JwksCache Material) :
    JwksCache Material :=
  { s with calls := s.calls.set index { call with phase } }

/-- The call ends and lets go of the gate. -/
def finish (index : Nat) (call : KeyCall Material) (phase : KeyPhase Material) (s : JwksCache Material) :
    JwksCache Material :=
  { s.setPhase index call phase with gate := s.gate && !call.phase.holdsGate }

def look (index : Nat) (s : JwksCache Material) : Option (JwksCache Material) :=
  match s.calls[index]? with
  | some ⟨kid, .looking⟩ =>
    match s.cachedKey kid with
    | some key => some (s.finish index ⟨kid, .looking⟩ (.returned (.ok key)))
    | none => some (s.setPhase index ⟨kid, .looking⟩ .waiting)
  | _ => none

def lock (index : Nat) (s : JwksCache Material) : Option (JwksCache Material) :=
  match s.calls[index]? with
  | some ⟨kid, .waiting⟩ =>
    if s.gate then none else some ({ s with gate := true }.setPhase index ⟨kid, .waiting⟩ .checking)
  | _ => none

def coolingDown (cooldown : Nat) (s : JwksCache Material) : Bool :=
  s.lastAttempt.any fun lastAttempt => decide (s.now - lastAttempt < cooldown)

/-- Behind the gate: the key set is looked at again, and a fetch starts unless the last
attempt is too recent. -/
def check (cooldown index : Nat) (s : JwksCache Material) : Option (JwksCache Material) :=
  match s.calls[index]? with
  | some ⟨kid, .checking⟩ =>
    match s.cachedKey kid with
    | some key => some (s.finish index ⟨kid, .checking⟩ (.returned (.ok key)))
    | none =>
      if s.coolingDown cooldown then
        some (s.finish index ⟨kid, .checking⟩
          (.returned (.error "ID token refers to an unknown key; OIDC JWKS refresh is rate limited")))
      else
        some ({ s with lastAttempt := some s.now, fetches := s.fetches ++ [(index, s.now)] }.setPhase index
          ⟨kid, .checking⟩ .fetching)
  | _ => none

def fetched (index : Nat) (result : Except String (List (Jwk Material))) (s : JwksCache Material) :
    Option (JwksCache Material) :=
  match s.calls[index]? with
  | some ⟨kid, .fetching⟩ =>
    match result with
    | .error _ =>
      some (s.finish index ⟨kid, .fetching⟩ (.returned (.error "refresh OIDC JWKS after unknown key")))
    | .ok keys =>
      match findKey keys kid with
      | some key => some ({ s with keys }.finish index ⟨kid, .fetching⟩ (.returned (.ok key)))
      | none =>
        some ({ s with keys }.finish index ⟨kid, .fetching⟩
          (.returned (.error "ID token refers to an unknown key after refreshing OIDC JWKS")))
  | _ => none

def cancel (index : Nat) (s : JwksCache Material) : Option (JwksCache Material) :=
  match s.calls[index]? with
  | some call => if call.phase.awaits then some (s.finish index call .dropped) else none
  | none => none

def step (cooldown : Nat) (s : JwksCache Material) : KeyAction Material → Option (JwksCache Material)
  | .tick later => some { s with now := later }
  | .call kid => some { s with calls := s.calls ++ [⟨kid, .looking⟩] }
  | .look index => s.look index
  | .lock index => s.lock index
  | .check index => s.check cooldown index
  | .fetched index result => s.fetched index result
  | .cancel index => s.cancel index

/-- The clock does not go back. -/
def allowed (s : JwksCache Material) : KeyAction Material → Bool
  | .tick later => decide (s.now ≤ later)
  | _ => true

end JwksCache

/-- What a step does to the gate, the key set, the calls and the fetches. -/
inductive KeyStep (cooldown : Nat) (s : JwksCache Material) (action : KeyAction Material) :
    JwksCache Material → Prop where
  | ticked (later : Nat) (forward : s.now ≤ later) : KeyStep cooldown s action { s with now := later }
  | called (kid : String) : KeyStep cooldown s action { s with calls := s.calls ++ [⟨kid, .looking⟩] }
  | queued {index : Nat} {kid : String} (hcall : s.calls[index]? = some ⟨kid, .looking⟩)
    (missing : s.cachedKey kid = none) : KeyStep cooldown s action (s.setPhase index ⟨kid, .looking⟩ .waiting)
  | locked {index : Nat} {kid : String} (hcall : s.calls[index]? = some ⟨kid, .waiting⟩) (free : s.gate = false) :
    KeyStep cooldown s action ({ s with gate := true }.setPhase index ⟨kid, .waiting⟩ .checking)
  | started {index : Nat} {kid : String} (hcall : s.calls[index]? = some ⟨kid, .checking⟩)
    (cool : s.coolingDown cooldown = false) :
    KeyStep cooldown s action ({ s with
      lastAttempt := some s.now, fetches := s.fetches ++ [(index, s.now)] }.setPhase index ⟨kid, .checking⟩ .fetching)
  | answered {index : Nat} {call : KeyCall Material} (hcall : s.calls[index]? = some call) {key : Jwk Material}
    (keys : List (Jwk Material)) (found : findKey keys call.kid = some key)
    (refreshes : keys = s.keys ∨ action = .fetched index (.ok keys)) :
    KeyStep cooldown s action ({ s with keys }.finish index call (.returned (.ok key)))
  | failed {index : Nat} {call : KeyCall Material} (hcall : s.calls[index]? = some call)
    (gated : call.phase.holdsGate = true) (keys : List (Jwk Material)) (message : String)
    (refreshes : keys = s.keys ∨ action = .fetched index (.ok keys)) :
    KeyStep cooldown s action ({ s with keys }.finish index call (.returned (.error message)))
  | cancelled {index : Nat} {call : KeyCall Material} (hcall : s.calls[index]? = some call)
    (awaits : call.phase.awaits = true) : KeyStep cooldown s action (s.finish index call .dropped)

variable {cooldown : Nat} {s t : JwksCache Material} {action : KeyAction Material}

namespace JwksCache

variable {index : Nat}

theorem look_spec (h : s.look index = some t) : KeyStep cooldown s action t := by
  unfold look at h
  split at h
  next kid hcall =>
    split at h
    next hfound =>
      cases h
      exact .answered hcall s.keys hfound (Or.inl rfl)
    next hmissing =>
      cases h
      exact .queued hcall hmissing
  next => cases h

theorem lock_spec (h : s.lock index = some t) : KeyStep cooldown s action t := by
  unfold lock at h
  split at h
  next kid hcall =>
    split at h
    next => cases h
    next hfree =>
      cases h
      exact .locked hcall (Bool.eq_false_iff.mpr hfree)
  next => cases h

theorem check_spec (h : s.check cooldown index = some t) : KeyStep cooldown s action t := by
  unfold check at h
  split at h
  next kid hcall =>
    split at h
    next hfound =>
      cases h
      exact .answered hcall s.keys hfound (Or.inl rfl)
    next =>
      split at h
      next =>
        cases h
        exact .failed hcall rfl s.keys _ (Or.inl rfl)
      next hcool =>
        cases h
        exact .started hcall (Bool.eq_false_iff.mpr hcool)
  next => cases h

theorem fetched_spec {result : Except String (List (Jwk Material))} (h : s.fetched index result = some t) :
    KeyStep cooldown s (.fetched index result) t := by
  unfold fetched at h
  split at h
  next kid hcall =>
    split at h
    next =>
      cases h
      exact .failed hcall rfl s.keys _ (Or.inl rfl)
    next keys =>
      split at h
      next hfound =>
        cases h
        exact .answered hcall keys hfound (Or.inr rfl)
      next =>
        cases h
        exact .failed hcall rfl keys _ (Or.inr rfl)
  next => cases h

theorem cancel_spec (h : s.cancel index = some t) : KeyStep cooldown s action t := by
  unfold cancel at h
  split at h
  next call hcall =>
    split at h
    next hawaits =>
      cases h
      exact .cancelled hcall hawaits
    next => cases h
  next => cases h

theorem step_spec (hallowed : s.allowed action = true) (h : s.step cooldown action = some t) :
    KeyStep cooldown s action t := by
  cases action with
  | tick later =>
    cases h
    exact .ticked later (of_decide_eq_true hallowed)
  | call kid =>
    cases h
    exact .called kid
  | look => exact look_spec h
  | lock => exact lock_spec h
  | check => exact check_spec h
  | fetched => exact fetched_spec h
  | cancel => exact cancel_spec h

end JwksCache

end

end AgentDesktop
