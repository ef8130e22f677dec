import AgentDesktop.JsonValue
import AgentDesktop.RegistryNames

namespace AgentDesktop

def registryOwnerValue : String := ".agentdesktop.owner"

/-- How JSON and names are printed. A set of names is read back from its text. -/
structure RegistryText (β : Type) where
  json : Value → String
  debug : String → String
  bytes : String → β
  parseNames : String → Option (List String)
  parse_json : ∀ names : List String, names.Pairwise (· < ·) →
    parseNames (json (.array (names.map .string))) = some names

section

variable {β : Type} (text : RegistryText β)

def RegistryText.names (names : List String) : String :=
  text.json (.array (names.map .string))

/-- The length of a name in UTF-16 code units. -/
def utf16Count (name : String) : Nat :=
  name.toList.foldl (fun count c => count + if c.toNat < 0x10000 then 1 else 2) 0

/-- A string value as it is, and any other as its JSON text. -/
def registryData : Value → String
  | .string data => data
  | other => text.json other

/-- The loop of `registry_values`, after the names in `folded`. -/
def registryValuesFrom : List (String × Value) → List String → BTreeMap String String →
    Except String (BTreeMap String String)
  | [], _, values => .ok values
  | (name, value) :: rest, folded, values =>
    if sameName name registryOwnerValue then
      .error ("Claude Desktop setting name " ++ registryOwnerValue ++
        " is reserved for agentdesktop's ownership marker")
    else if name.toList.contains '\x00' then
      .error ("Claude Desktop setting name " ++ text.debug name ++ " contains an embedded NUL")
    else if utf16Count name > 16383 then
      .error ("Claude Desktop setting name of " ++ toString name.length ++
        " characters is longer than a registry value name allows")
    else
      match folded.find? fun previous => sameName previous name with
      | some previous =>
        .error ("Claude Desktop setting names " ++ previous ++ " and " ++ name ++
          " differ only in case and address the same registry value")
      | none =>
        let data := registryData text value
        if data.toList.contains '\x00' then .error ("Claude Desktop setting " ++ name ++ " contains an embedded NUL")
        else registryValuesFrom rest (name :: folded) (values.insert name data)

def registryValues : Value → Except String (BTreeMap String String)
  | .object settings => registryValuesFrom text settings [] .empty
  | _ => .error "Claude Desktop managed settings serialize to an object"

/-- The names the ownership marker claims, none when it is missing or unreadable. -/
def registryOwnedValues (observed : RegistryValues) : List String :=
  (((observedValue observed registryOwnerValue).bind id).bind text.parseNames).getD []

/-- An object of values as dry-run diffs display it. -/
def registryObject (values : List (String × Value)) : β :=
  text.bytes (text.json (.object (values.foldl (fun fields entry => SortedMap.insert entry.1 entry.2 fields) [])))

def registryReport (names : List String) (observed : RegistryValues) : β :=
  registryObject text (names.filterMap fun name =>
    (observedValue observed name).map fun data => (name, (data.map Value.string).getD .null))

def registryReportDesired (desired : BTreeMap String String) : β :=
  registryObject text (desired.entries.map fun entry => (entry.1, .string entry.2))

def planRegistryRemove (key : RegistryKey) (observed : RegistryValues) (plan : ReconcilePlan β) : ReconcilePlan β :=
  let path := key.displayPath
  if !observesName observed registryOwnerValue then
    plan.recordDiff "Claude Desktop" "managed settings" .unchanged path none none
  else
    let owned := registryOwnedValues text observed
    let before := registryReport text owned observed
    let changes := (owned.filter (observesName observed)).map (fun name => (name, none)) ++ [(registryOwnerValue, none)]
    let plan := plan.recordDiff "Claude Desktop" "managed settings" .remove path (some before) none
    { plan with registry := plan.registry ++ [⟨key, observed, changes, true⟩] }

/-- The desired values to write. There are none when a value that is not ours is in the way. -/
def settingWrites (observed : RegistryValues) (owned : List String) :
    List (String × String) → Option (List (String × Option String))
  | [] => some []
  | (name, data) :: rest =>
    match observedValue observed name with
    | some existing =>
      if existing = some data then settingWrites observed owned rest
      else if !owned.any (fun claimed => sameName claimed name) then none
      else (settingWrites observed owned rest).map ((name, some data) :: ·)
    | none => (settingWrites observed owned rest).map ((name, some data) :: ·)

/-- The names that are claimed and no longer desired. -/
def staleNames (owned : List String) (desired : BTreeMap String String) : List String :=
  owned.filter fun name => !desired.entries.any fun kept => sameName kept.1 name

/-- The writes and deletions, between the marker that claims all their names and the marker
that claims the desired ones. -/
def settingChanges (observed : RegistryValues) (desired : BTreeMap String String) (stale : List String)
    (writes : List (String × Option String)) : List (String × Option String) :=
  let changes := writes ++ (stale.filter (observesName observed)).map fun name => (name, none)
  let names := desired.entries.map Prod.fst
  let fullClaim := text.names (SortedMap.insertKeys stale names)
  let finalClaim := text.names names
  let changes :=
    if (observedValue observed registryOwnerValue).bind id ≠ some fullClaim then
      (registryOwnerValue, some fullClaim) :: changes
    else changes
  if finalClaim ≠ fullClaim then changes ++ [(registryOwnerValue, some finalClaim)] else changes

def planRegistrySettings (key : RegistryKey) (observed : RegistryValues) (desired : BTreeMap String String)
    (plan : ReconcilePlan β) : ReconcilePlan β :=
  if desired.entries.isEmpty then planRegistryRemove text key observed plan
  else
    let path := key.displayPath
    let owned := registryOwnedValues text observed
    let before := registryReport text (desired.entries.map Prod.fst ++ owned) observed
    let after := registryReportDesired text desired
    match settingWrites observed owned desired.entries with
    | none => plan.recordDiff "Claude Desktop" "managed settings" .conflict path (some before) (some after)
    | some writes =>
      let changes := settingChanges text observed desired (staleNames owned desired) writes
      let action :=
        if changes.any fun change => change.1 != registryOwnerValue then
          if observed.entries.isEmpty then .create else .update
        else .unchanged
      let plan :=
        if changes.isEmpty then plan else { plan with registry := plan.registry ++ [⟨key, observed, changes, false⟩] }
      plan.recordDiff "Claude Desktop" "managed settings" action path (some before) (some after)

variable {text}

/-- What `registry_values` accepts: one spelling for a name, and none of the marker's. -/
structure AcceptedNames (desired : BTreeMap String String) : Prop where
  distinct : NamesDistinct desired
  unreserved : ∀ entry ∈ desired.entries, sameName entry.1 registryOwnerValue = false

theorem AcceptedNames.insert {values : BTreeMap String String} {name data : String} (h : AcceptedNames values)
    (hunreserved : sameName name registryOwnerValue = false)
    (hnew : ∀ entry ∈ values.entries, sameName entry.1 name = false) : AcceptedNames (values.insert name data) := by
  have hmem : ∀ entry ∈ (values.insert name data).entries, entry = (name, data) ∨ entry ∈ values.entries :=
    fun entry => SortedMap.mem_of_mem_insert
  constructor
  · intro first hfirst second hsecond hsame
    rcases hmem first hfirst with rfl | hfirst
    · rcases hmem second hsecond with rfl | hsecond
      · rfl
      · rw [sameName_comm, hnew second hsecond] at hsame
        cases hsame
    · rcases hmem second hsecond with rfl | hsecond
      · rw [hnew first hfirst] at hsame
        cases hsame
      · exact h.distinct first hfirst second hsecond hsame
  · intro entry hentry
    rcases hmem entry hentry with rfl | hentry
    · exact hunreserved
    · exact h.unreserved entry hentry

theorem registryValuesFrom_accepted {settings : List (String × Value)} {folded : List String}
    {values desired : BTreeMap String String} (hvalues : AcceptedNames values)
    (hfolded : ∀ entry ∈ values.entries, entry.1 ∈ folded)
    (h : registryValuesFrom text settings folded values = .ok desired) : AcceptedNames desired := by
  induction settings generalizing folded values with
  | nil =>
    cases h
    exact hvalues
  | cons setting rest ih =>
    obtain ⟨name, value⟩ := setting
    unfold registryValuesFrom at h
    split at h
    next => cases h
    next hreserved =>
    split at h
    next => cases h
    next =>
    split at h
    next => cases h
    next =>
    split at h
    next => cases h
    next hfresh =>
    dsimp only at h
    split at h
    next => cases h
    next =>
      have hnew : ∀ entry ∈ values.entries, sameName entry.1 name = false := by
        intro entry hentry
        exact Bool.eq_false_of_not_eq_true (List.find?_eq_none.mp hfresh _ (hfolded entry hentry))
      refine ih (hvalues.insert (Bool.eq_false_of_not_eq_true hreserved) hnew) (fun entry hentry => ?_) h
      rcases SortedMap.mem_of_mem_insert hentry with rfl | hentry
      · exact List.mem_cons_self
      · exact List.mem_cons_of_mem _ (hfolded entry hentry)

theorem registryValues_accepted {settings : Value} {desired : BTreeMap String String}
    (h : registryValues text settings = .ok desired) : AcceptedNames desired := by
  have hempty : AcceptedNames .empty := ⟨by rintro _ ⟨⟩, by rintro _ ⟨⟩⟩
  unfold registryValues at h
  split at h
  next => exact registryValuesFrom_accepted hempty (by rintro _ ⟨⟩) h
  next => cases h

section

variable {observed : RegistryValues} {owned : List String} {entries : List (String × String)}

/-- A value that is not claimed is in the way of a desired one. -/
def Blocked (observed : RegistryValues) (owned : List String) (entry : String × String) : Prop :=
  ∃ existing, observedValue observed entry.1 = some existing ∧ existing ≠ some entry.2 ∧
    ∀ claimed ∈ owned, sameName claimed entry.1 = false

theorem settingWrites_blocked (h : ∃ entry ∈ entries, Blocked observed owned entry) :
    settingWrites observed owned entries = none := by
  obtain ⟨entry, hentry, existing, hexisting, hdiffers, hunclaimed⟩ := h
  have hany : owned.any (fun claimed => sameName claimed entry.1) = false := by
    rw [List.any_eq_false]
    exact fun claimed hclaimed => by simp [hunclaimed claimed hclaimed]
  induction entries with
  | nil => cases hentry
  | cons first rest ih =>
    unfold settingWrites
    rcases List.mem_cons.mp hentry with rfl | hentry
    · rw [hexisting]
      simp [hdiffers, hany]
    · rw [ih hentry]
      split
      next => split <;> simp
      next => rfl

/-- Without one in the way, the values that are not there yet are written. -/
theorem settingWrites_eq (h : ∀ entry ∈ entries, ¬ Blocked observed owned entry) :
    settingWrites observed owned entries =
      some ((entries.filter fun entry => decide (observedValue observed entry.1 ≠ some (some entry.2))).map
        fun entry => (entry.1, some entry.2)) := by
  induction entries with
  | nil => rfl
  | cons first rest ih =>
    have hrest := ih fun entry hentry => h entry (List.mem_cons_of_mem _ hentry)
    have hfirst := h first List.mem_cons_self
    unfold settingWrites
    cases hvalue : observedValue observed first.1 with
    | none => simp [hrest, hvalue]
    | some existing =>
      dsimp only
      by_cases hsame : existing = some first.2
      · simp [hrest, hvalue, hsame]
      · have hclaimed : owned.any (fun claimed => sameName claimed first.1) = true := by
          by_contra hany
          refine hfirst ⟨existing, hvalue, hsame, fun claimed hclaimed => ?_⟩
          exact Bool.eq_false_of_not_eq_true fun htrue => hany (List.any_eq_true.mpr ⟨claimed, hclaimed, htrue⟩)
        simp [hrest, hvalue, hsame, hclaimed]

end

end

end AgentDesktop
