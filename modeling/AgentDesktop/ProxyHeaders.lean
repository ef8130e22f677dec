import AgentDesktop.OctetText

namespace AgentDesktop

/-- The values under each header name, in lower case, in the order they came in. -/
@[ext]
structure HeaderMap where
  values : Octets → List Octets := fun _ => []

namespace HeaderMap

def get (headers : HeaderMap) (name : Octets) : Option Octets :=
  (headers.values name).head?

def containsKey (headers : HeaderMap) (name : Octets) : Bool :=
  !(headers.values name).isEmpty

def remove (headers : HeaderMap) (name : Octets) : HeaderMap where
  values other := if other = name then [] else headers.values other

def insert (headers : HeaderMap) (name value : Octets) : HeaderMap where
  values other := if other = name then [value] else headers.values other

/-- The headers without those of the names. -/
def removeAll (headers : HeaderMap) (names : List Octets) : HeaderMap :=
  names.foldl remove headers

@[simp] theorem remove_values (headers : HeaderMap) (name other : Octets) :
    (headers.remove name).values other = if other = name then [] else headers.values other :=
  rfl

@[simp] theorem insert_values (headers : HeaderMap) (name value other : Octets) :
    (headers.insert name value).values other = if other = name then [value] else headers.values other :=
  rfl

@[simp] theorem removeAll_values (headers : HeaderMap) (names : List Octets) (other : Octets) :
    (headers.removeAll names).values other = if other ∈ names then [] else headers.values other := by
  induction names generalizing headers with
  | nil => simp [removeAll]
  | cons name names ih =>
    have hstep : headers.removeAll (name :: names) = (headers.remove name).removeAll names := rfl
    rw [hstep, ih]
    by_cases hname : other = name
    · simp [hname]
    · simp [hname]

/-- Two header maps that have the same values, except under the names. -/
def AgreeOff (names : List Octets) (a b : HeaderMap) : Prop :=
  ∀ name ∉ names, a.values name = b.values name

end HeaderMap

def authorizationHeader : Octets := octets "authorization"

def connectionHeader : Octets := octets "connection"

def hostHeader : Octets := octets "host"

def originHeader : Octets := octets "origin"

def upgradeHeader : Octets := octets "upgrade"

def llmTokenHeader : Octets := octets "x-llm-token"

def pairingHeader : Octets := octets "x-agentdesktop-pairing"

/-- The text of a header value, if it is visible ASCII. -/
def toStr (value : Octets) : Option Octets :=
  if value.all fun o => decide (32 ≤ o ∧ o < 127) || o == 9 then some value else none

/-- The header value of a text, if its octets are allowed in one. -/
def headerValueFromStr (text : Octets) : Option Octets :=
  if text.all fun o => decide (32 ≤ o ∧ o ≠ 127) || o == 9 then some text else none

/-- The items of the comma-separated values of a header. -/
def listItems (headers : HeaderMap) (name : Octets) : List Octets :=
  (((headers.values name).filterMap toStr).flatMap fun value => value.splitOn (octet ',')).map trim

def isWebsocketUpgrade (headers : HeaderMap) : Bool :=
  (listItems headers connectionHeader).any (eqIgnoreAsciiCase · (octets "upgrade")) &&
    (listItems headers upgradeHeader).any (eqIgnoreAsciiCase · (octets "websocket"))

def hopHeaders : List Octets :=
  ["connection", "keep-alive", "proxy-authenticate", "proxy-authorization", "te", "trailer", "transfer-encoding",
    "upgrade"].map octets

/-- Removes the headers that `Connection` nominates, and the hop headers. -/
def stripHopHeaders (headers : HeaderMap) : HeaderMap :=
  (headers.removeAll ((listItems headers connectionHeader).map toAsciiLowercase)).removeAll hopHeaders

/-- The token of a `Bearer` credential. -/
def stripBearer (value : Octets) : Octets :=
  match splitOnce (octet ' ') value with
  | some (scheme, token) => if eqIgnoreAsciiCase scheme (octets "bearer") then token else value
  | none => value

def bearerOrHeader (headers : HeaderMap) (header : Octets) : Option Octets :=
  (((headers.get header).or (headers.get authorizationHeader)).bind toStr).bind fun value =>
    let token := trim (stripBearer value)
    if token.isEmpty then none else some token

theorem stripHopHeaders_values (headers : HeaderMap) (name : Octets) :
    (stripHopHeaders headers).values name =
      if name ∈ hopHeaders ∨ name ∈ (listItems headers connectionHeader).map toAsciiLowercase then []
      else headers.values name := by
  by_cases hhop : name ∈ hopHeaders
  · simp [stripHopHeaders, hhop]
  · simp [stripHopHeaders, hhop]

variable {a b : HeaderMap}

theorem listItems_congr {name : Octets} (h : a.values name = b.values name) :
    listItems a name = listItems b name := by
  rw [listItems, h, listItems]

variable {names : List Octets}

theorem stripHopHeaders_agreeOff (h : a.AgreeOff names b) (hconnection : connectionHeader ∉ names) :
    (stripHopHeaders a).AgreeOff names (stripHopHeaders b) := by
  intro name hname
  rw [stripHopHeaders_values, stripHopHeaders_values, listItems_congr (h _ hconnection), h name hname]

theorem isWebsocketUpgrade_agreeOff (h : a.AgreeOff names b) (hconnection : connectionHeader ∉ names)
    (hupgrade : upgradeHeader ∉ names) :
    isWebsocketUpgrade a = isWebsocketUpgrade b := by
  rw [isWebsocketUpgrade, listItems_congr (h _ hconnection), listItems_congr (h _ hupgrade), isWebsocketUpgrade]

theorem get_agreeOff (h : a.AgreeOff names b) {name : Octets} (hname : name ∉ names) : a.get name = b.get name := by
  rw [HeaderMap.get, h name hname, HeaderMap.get]

theorem containsKey_agreeOff (h : a.AgreeOff names b) {name : Octets} (hname : name ∉ names) :
    a.containsKey name = b.containsKey name := by
  rw [HeaderMap.containsKey, h name hname, HeaderMap.containsKey]

end AgentDesktop
