import AgentDesktop.UsageParse

namespace AgentDesktop

/-- The times and the lengths in a record are unsigned 64-bit numbers. -/
structure RecordFits (record : LogRecord RecordContent) : Prop where
  time : record.timeUnixNano < 2 ^ 64
  observedTime : record.observedTimeUnixNano < 2 ^ 64
  traceId : record.content.traceId.length < 2 ^ 64
  spanId : record.content.spanId.length < 2 ^ 64
  attributes : record.content.attributes.length < 2 ^ 64
  entries : fitsEntries record.content.attributes = true

def LogRecord.withAttributes (record : LogRecord RecordContent) (attributes : List KeyValue) :
    LogRecord RecordContent :=
  { record with content := { record.content with attributes } }

theorem canonicalValue_eq (value : Option (Option OtlpValue)) :
    canonicalValue value = value.join.map OtlpValue.canonical := by
  cases value with
  | none => rfl
  | some value => cases value <;> rfl

theorem fitsEntries_iff {entries : List KeyValue} :
    fitsEntries entries = true ↔
      ∀ entry ∈ entries, (octets entry.1).length < 2 ^ 64 ∧ fitsValue entry.2 = true := by
  induction entries with
  | nil => simp [fitsEntries]
  | cons entry entries ih =>
    obtain ⟨key, value⟩ := entry
    simp only [fitsEntries, Bool.and_eq_true, decide_eq_true_eq, ih, List.forall_mem_cons, and_assoc]

theorem fitsEntries_sortByKey {entries : List KeyValue} (h : fitsEntries entries = true) :
    fitsEntries (SortedMap.sortByKey entries) = true := by
  rw [fitsEntries_iff] at h ⊢
  exact fun entry hentry => h entry ((List.mem_insertionSort _).mp hentry)

theorem integer_canonical (floats : Floats) (value : OtlpValue) :
    integer floats value.canonical = integer floats value := by
  cases value <;> simp [OtlpValue.canonical, integer]

theorem costNanos_canonical (floats : Floats) (value : OtlpValue) :
    costNanos floats value.canonical = costNanos floats value := by
  cases value <;> simp [OtlpValue.canonical, costNanos]

theorem isEmptyText_canonical (value : OtlpValue) : isEmptyText value.canonical = isEmptyText value := by
  cases value <;> simp [OtlpValue.canonical, isEmptyText]

namespace Attributes

def canonical (attributes : Attributes) : Attributes :=
  fun key => (attributes key).map OtlpValue.canonical

variable (attributes : Attributes)

theorem text_canonical (key : String) : attributes.canonical.text key = attributes.text key := by
  unfold text canonical
  cases attributes key with
  | none => rfl
  | some value => cases value <;> simp [OtlpValue.canonical]

theorem count_canonical (floats : Floats) (key : String) :
    attributes.canonical.count floats key = attributes.count floats key := by
  unfold count canonical
  cases attributes key with
  | none => rfl
  | some value => simp only [Option.map_some, integer_canonical]

theorem cost_canonical (floats : Floats) : attributes.canonical.cost floats = attributes.cost floats := by
  unfold cost canonical
  cases attributes "agw.ai.usage.cost.total" with
  | none => rfl
  | some value => simp only [Option.map_some, costNanos_canonical]

theorem status_canonical (floats : Floats) : attributes.canonical.status floats = attributes.status floats := by
  unfold status canonical
  cases attributes "http.response.status_code" with
  | none => rfl
  | some value => simp only [Option.map_some, Option.bind_some, integer_canonical]

theorem error_canonical : attributes.canonical.error = attributes.error := by
  unfold error canonical
  cases attributes "error" with
  | none => rfl
  | some value => simp only [Option.map_some, Option.any_some, isEmptyText_canonical]

/-- What is read does not depend on how the values inside an attribute are not set. -/
theorem usage_canonical (floats : Floats) (uuid : String → Option String) :
    attributes.canonical.usage floats uuid = attributes.usage floats uuid := by
  simp only [usage, attribution, clientId, measures, text_canonical, count_canonical, cost_canonical,
    status_canonical, error_canonical]

end Attributes

theorem attributeMap_get? (attributes : List KeyValue) (key : String) :
    (attributeMap attributes).get? key =
      ((SortedMap.valuesOf key attributes).filterMap Option.join).getLast? := by
  have hvalues : SortedMap.valuesOf key (attributes.filterMap setAttribute) =
      (SortedMap.valuesOf key attributes).filterMap Option.join := by
    induction attributes with
    | nil => rfl
    | cons entry attributes ih =>
      obtain ⟨k, value⟩ := entry
      have hset : setAttribute (k, value) = value.join.map fun value => (k, value) := rfl
      rw [List.filterMap_cons, hset, SortedMap.valuesOf_cons]
      cases hvalue : value.join with
      | none =>
        by_cases heq : k = key
        · simp [heq, hvalue, ih]
        · simp [heq, ih]
      | some set =>
        by_cases heq : k = key
        · simp [heq, hvalue, SortedMap.valuesOf_cons, ih]
        · simp [heq, SortedMap.valuesOf_cons, ih]
  rw [attributeMap, BTreeMap.get?_collect, hvalues]

theorem attributeMap_sortByKey (attributes : List KeyValue) :
    (attributeMap (SortedMap.sortByKey attributes)).get? = (attributeMap attributes).get? := by
  funext key
  rw [attributeMap_get?, attributeMap_get?, SortedMap.valuesOf_sortByKey]

theorem attributeMap_canonicalEntries (attributes : List KeyValue) :
    (attributeMap (canonicalEntries attributes)).get? = Attributes.canonical (attributeMap attributes).get? := by
  funext key
  have hvalues : (SortedMap.valuesOf key (canonicalEntries attributes)).filterMap Option.join =
      ((SortedMap.valuesOf key attributes).filterMap Option.join).map OtlpValue.canonical := by
    induction attributes with
    | nil => rfl
    | cons entry attributes ih =>
      obtain ⟨k, value⟩ := entry
      rw [canonicalEntries, SortedMap.valuesOf_cons, SortedMap.valuesOf_cons]
      by_cases heq : k = key
      · rw [if_pos heq, if_pos heq, List.filterMap_cons, List.filterMap_cons, ih, Option.join_some, canonicalValue_eq]
        cases value.join <;> rfl
      · rw [if_neg heq, if_neg heq, ih]
  rw [Attributes.canonical, attributeMap_get?, attributeMap_get?, hvalues, List.getLast?_map]

/-- What the attributes of a record say is determined by their sorted list, up to how a value
is not set. -/
theorem usage_eq_of_sorted {first second : List KeyValue} (floats : Floats) (uuid : String → Option String)
    (h : canonicalEntries (SortedMap.sortByKey first) = canonicalEntries (SortedMap.sortByKey second)) :
    Attributes.usage (attributeMap first).get? floats uuid =
      Attributes.usage (attributeMap second).get? floats uuid := by
  rw [← attributeMap_sortByKey first, ← attributeMap_sortByKey second, ← Attributes.usage_canonical,
    ← attributeMap_canonicalEntries, h, attributeMap_canonicalEntries, Attributes.usage_canonical]

theorem parseRecord_congr {reader : RecordReader RecordContent} {first second : LogRecord RecordContent}
    (hid : reader.recordId first = reader.recordId second)
    (htime : first.timeUnixNano = second.timeUnixNano)
    (hobserved : first.observedTimeUnixNano = second.observedTimeUnixNano)
    (husage : reader.usage first.content = reader.usage second.content) (now : Int) :
    reader.parseRecord first now = reader.parseRecord second now := by
  have hnanos : first.nanos = second.nanos := by
    unfold LogRecord.nanos
    rw [htime, hobserved]
  have hoccurred : occurredAt first now = occurredAt second now := by
    unfold occurredAt
    rw [hnanos]
  simp only [RecordReader.parseRecord, hid, hoccurred, husage]

theorem recordBytes_inj {first second : LogRecord RecordContent} (hfirst : RecordFits first)
    (hsecond : RecordFits second) (h : recordBytes first = recordBytes second) :
    first.timeUnixNano = second.timeUnixNano ∧ first.observedTimeUnixNano = second.observedTimeUnixNano ∧
      canonicalEntries (SortedMap.sortByKey first.content.attributes) =
        canonicalEntries (SortedMap.sortByKey second.content.attributes) := by
  obtain ⟨htime, h⟩ := toBeBytes_append_inj hfirst.time hsecond.time h
  obtain ⟨hobserved, h⟩ := toBeBytes_append_inj hfirst.observedTime hsecond.observedTime h
  obtain ⟨_, h⟩ := hashBytes_append_inj hfirst.traceId hsecond.traceId h
  obtain ⟨_, h⟩ := hashBytes_append_inj hfirst.spanId hsecond.spanId h
  obtain ⟨hlength, h⟩ := toBeBytes_append_inj hfirst.attributes hsecond.attributes h
  have hsorted : (SortedMap.sortByKey first.content.attributes).length =
      (SortedMap.sortByKey second.content.attributes).length := by
    simpa [SortedMap.sortByKey, List.length_insertionSort] using hlength
  obtain ⟨hentries, _⟩ := hashEntries_append_inj _ _ _ _ hsorted (fitsEntries_sortByKey hfirst.entries)
    (fitsEntries_sortByKey hsecond.entries) h
  exact ⟨htime, hobserved, hentries⟩

/-- Records with one identifier are read alike whenever they are received, and the order of
attributes with distinct keys matters neither to the identifier nor to what is read. -/
theorem record_id_determines_usage (floats : Floats) (uuid : String → Option String) (digest : Octets → String)
    (hdigest : Function.Injective digest) :
    (∀ first second now, RecordFits first → RecordFits second → recordId digest first = recordId digest second →
      (recordReader floats uuid digest).parseRecord first now =
        (recordReader floats uuid digest).parseRecord second now) ∧
    ∀ (record : LogRecord RecordContent) attributes now, (record.content.attributes.map Prod.fst).Nodup →
      attributes.Perm record.content.attributes →
      recordId digest (record.withAttributes attributes) = recordId digest record ∧
        (recordReader floats uuid digest).parseRecord (record.withAttributes attributes) now =
          (recordReader floats uuid digest).parseRecord record now := by
  constructor
  · intro first second now hfirst hsecond hid
    obtain ⟨htime, hobserved, hentries⟩ := recordBytes_inj hfirst hsecond (hdigest hid)
    exact parseRecord_congr hid htime hobserved (usage_eq_of_sorted floats uuid hentries) now
  · intro record attributes now hdistinct hperm
    have hsorted : SortedMap.sortByKey attributes = SortedMap.sortByKey record.content.attributes :=
      SortedMap.sortByKey_eq_of_perm hdistinct hperm
    have hid : recordId digest (record.withAttributes attributes) = recordId digest record := by
      simp only [recordId, recordBytes, LogRecord.withAttributes, hsorted, hperm.length_eq]
    have husage := usage_eq_of_sorted floats uuid (congrArg canonicalEntries hsorted)
    refine ⟨hid, parseRecord_congr hid ?_ ?_ ?_ now⟩
    · rfl
    · rfl
    · exact husage

/-- The bytes as the characters with their numbers. -/
def latin1 (bytes : Octets) : String :=
  String.ofList (bytes.map fun byte => Char.ofNat byte.toNat)

theorem latin1_injective : Function.Injective latin1 := by
  intro a b h
  refine List.map_injective_iff.mpr ?_ (String.ofList_injective h)
  intro x y hxy
  have hvalid (z : UInt8) : (Char.ofNat z.toNat).toNat = z.toNat := by
    have hlt := z.toNat_lt
    have hchar : z.toNat.isValidChar := Or.inl (by omega)
    rw [Char.ofNat, dif_pos hchar]
    rfl
  have hnat := congrArg Char.toNat hxy
  rw [hvalid, hvalid] at hnat
  exact UInt8.toNat_inj.mp hnat

/-- Codex used twelve tokens, and how it failed is not set. -/
def codexRecord (error : Option (Option OtlpValue)) : LogRecord RecordContent :=
  ⟨5, 0, ⟨[], [], [("gen_ai.provider.name", some (some (.stringValue "openai"))),
    ("gen_ai.usage.input_tokens", some (some (.intValue 12))), ("error", error)], none⟩⟩

def codexReader : RecordReader RecordContent :=
  recordReader ⟨fun _ => none, fun _ => none, fun _ => none⟩ (fun _ => none) latin1

theorem codexRecord_fits : RecordFits (codexRecord none) ∧ RecordFits (codexRecord (some none)) :=
  ⟨⟨by decide, by decide, by decide, by decide, by decide, by decide +kernel⟩,
    ⟨by decide, by decide, by decide, by decide, by decide, by decide +kernel⟩⟩

/-- The two ways in which the error can be unset, and the attributes in another order, give one usage. -/
theorem record_id_determines_usage_unset :
    ∃ usage, usage.measures.inputTokens = 12 ∧ codexReader.parseRecord (codexRecord none) 9 = .ok (some usage) ∧
      codexReader.parseRecord (codexRecord (some none)) 9 = .ok (some usage) ∧
      recordId latin1 ((codexRecord none).withAttributes (codexRecord none).content.attributes.reverse) = usage.id ∧
      codexReader.parseRecord ((codexRecord none).withAttributes (codexRecord none).content.attributes.reverse) 9 =
        .ok (some usage) := by
  have h := record_id_determines_usage ⟨fun _ => none, fun _ => none, fun _ => none⟩ (fun _ => none) latin1
    latin1_injective
  have hread : ∃ usage, codexReader.parseRecord (codexRecord none) 9 = .ok (some usage) ∧
      usage.measures.inputTokens = 12 ∧ recordId latin1 (codexRecord none) = usage.id := ⟨_, rfl, rfl, rfl⟩
  obtain ⟨usage, husage, htokens, hid⟩ := hread
  obtain ⟨hsame, hreversed⟩ := h.2 (codexRecord none) _ 9 (by decide) (List.reverse_perm _)
  exact ⟨usage, htokens, husage, (h.1 _ _ 9 codexRecord_fits.1 codexRecord_fits.2 rfl).symm.trans husage,
    hsame.trans hid, hreversed.trans husage⟩

end AgentDesktop
