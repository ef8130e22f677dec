import AgentDesktop.KeyOrder
import AgentDesktop.UsageHash
import AgentDesktop.UsageRecords

namespace AgentDesktop

def maxLabelBytes : Nat := 128

def maxSubjectBytes : Nat := 256

def maxTokensPerRequest : Int := 1000000000

def maxCostNanosPerRequest : Int := 1000000000000000

/-- Tools recognized by their user agent when the credential does not name the tool. -/
def userAgentTools : List (String × String) :=
  [("claude-cli/", "claude-code"), ("codex_", "codex")]

/-- What a log record holds beside its times. -/
structure RecordContent where
  traceId : Octets
  spanId : Octets
  attributes : List KeyValue
  body : Option (Option OtlpValue)

/-- The bytes of a record that are hashed. -/
def recordBytes (record : LogRecord RecordContent) : Octets :=
  toBeBytes record.timeUnixNano ++ (toBeBytes record.observedTimeUnixNano ++
    (hashBytes record.content.traceId ++ (hashBytes record.content.spanId ++
      (toBeBytes record.content.attributes.length ++ (hashEntries (SortedMap.sortByKey record.content.attributes) ++
        hashValue record.content.body)))))

/-- Digest of everything in the record, so the same record sent twice has the same
identifier. -/
def recordId (digest : Octets → String) (record : LogRecord RecordContent) : String :=
  digest (recordBytes record)

def setAttribute (entry : KeyValue) : Option (String × OtlpValue) :=
  entry.2.join.map fun value => (entry.1, value)

def attributeMap (attributes : List KeyValue) : BTreeMap String OtlpValue :=
  .collect (attributes.filterMap setAttribute)

def validClientId (clientId : String) : Bool :=
  !clientId.isEmpty && clientId.utf8ByteSize ≤ 64 &&
    clientId.toList.all fun c => c.isAlphanum || c = '-' || c = '_' || c = '.'

def isControl (c : Char) : Bool :=
  c.toNat < 32 || (127 ≤ c.toNat && c.toNat < 160)

def label (value : String) (maxBytes : Nat) : String :=
  if maxBytes < value.utf8ByteSize || value.toList.any isControl then "" else value

def integer (floats : Floats) : OtlpValue → Option Int
  | .intValue number => some number.toInt
  | .doubleValue number => floats.integer number
  | .stringValue text => parseI64 (trimUnicode text.toList)
  | _ => none

def isEmptyText : OtlpValue → Bool
  | .stringValue text => text.isEmpty
  | _ => false

/-- The attributes of a record that are set. -/
abbrev Attributes := String → Option OtlpValue

namespace Attributes

variable (attributes : Attributes)

def text (key : String) : Option String :=
  match attributes key with
  | some (.stringValue text) => some text
  | _ => none

def count (floats : Floats) (key : String) : Except String Int :=
  match attributes key with
  | none => .ok 0
  | some value =>
    match (integer floats value).filter fun count => 0 ≤ count && count ≤ maxTokensPerRequest with
    | some count => .ok count
    | none => .error (key ++ " must be an integer between 0 and 1000000000")

def cost (floats : Floats) : Except String (Option Int) :=
  match attributes "agw.ai.usage.cost.total" with
  | none => .ok none
  | some value =>
    match (costNanos floats value).filter fun amount => amount ≤ maxCostNanosPerRequest with
    | some amount => .ok (some amount)
    | none =>
      .error "agw.ai.usage.cost.total must be a dollar amount no greater than $1,000,000 per request"

/-- The tool the credential names, or the one the user agent shows. -/
def clientId : String :=
  let named := (attributes.text "agentdesktop.client").filter validClientId
  let shown := (attributes.text "user_agent.original").bind fun userAgent =>
    (userAgentTools.find? fun tool => (stripPrefix tool.1.toList userAgent.toList).isSome).map Prod.snd
  (named.or shown).getD ""

def attribution (uuid : String → Option String) (provider : String) : Attribution where
  subject := label (((attributes.text "agentdesktop.subject").or (attributes.text "jwt.sub")).getD "") maxSubjectBytes
  deviceId := ((attributes.text "agentdesktop.device").bind uuid).getD ""
  clientId := attributes.clientId
  provider := label provider maxLabelBytes
  model :=
    let response := (attributes.text "gen_ai.response.model").filter fun model => !model.isEmpty
    label ((response.or (attributes.text "gen_ai.request.model")).getD "") maxLabelBytes
  billing := if attributes.text "agentdesktop.billing" = some "subscription" then .subscription else .api

def status (floats : Floats) : Int :=
  ((attributes "http.response.status_code").bind (integer floats)).getD 0

def error : Bool :=
  (attributes "error").any fun value => !isEmptyText value

/-- The measures; the cached tokens are read after all else. A failed request without tokens
costs nothing; it is not unpriced. -/
def measures (floats : Floats) (inputTokens outputTokens : Int) (costNanos : Option Int) :
    Except String Measures := do
  let cacheReadTokens ← attributes.count floats "gen_ai.usage.cache_read.input_tokens"
  let cacheWriteTokens ← attributes.count floats "gen_ai.usage.cache_creation.input_tokens"
  return {
    requests := 1
    errors := if attributes.error || 400 ≤ attributes.status floats then 1 else 0
    inputTokens, outputTokens, cacheReadTokens, cacheWriteTokens
    costNanos := costNanos.getD 0
    unpricedRequests := if costNanos.isNone && 0 < inputTokens + outputTokens then 1 else 0 }

/-- Reads the usage of one access-log record. Requests that are not LLM calls have none. -/
def usage (floats : Floats) (uuid : String → Option String) :
    Except String (Option (Attribution × Except String Measures)) :=
  match (attributes.text "gen_ai.provider.name").filter fun provider => !provider.isEmpty with
  | none => .ok none
  | some provider => do
    let inputTokens ← attributes.count floats "gen_ai.usage.input_tokens"
    let outputTokens ← attributes.count floats "gen_ai.usage.output_tokens"
    let costNanos ← attributes.cost floats
    return some (attributes.attribution uuid provider, attributes.measures floats inputTokens outputTokens costNanos)

end Attributes

/-- How `parse_record` reads a record. The functions on doubles, the reading of a UUID and
the digest are those of libraries. -/
def recordReader (floats : Floats) (uuid : String → Option String) (digest : Octets → String) :
    RecordReader RecordContent where
  recordId := recordId digest
  usage content := Attributes.usage (attributeMap content.attributes).get? floats uuid

end AgentDesktop
