import AgentDesktop.JsonValue
import AgentDesktop.PlanApply

namespace AgentDesktop

def overrideKey : String := "github.copilot.advanced.debug.overrideCapiUrl"

def capiAliasKey : String := "github.copilot.internal.capiUrl"

def ignoredSettingsKey : String := "settingsSync.ignoredSettings"

def managedEntries : List String := [overrideKey, capiAliasKey]

/-- A root property of `settings.json`. -/
abbrev Property := String × Value

/-- What `settings.json` holds, up to comments and layout. -/
inductive SettingsText where
  | blank
  | invalid
  | notObject
  | object (properties : List Property)
  deriving DecidableEq

inductive SettingsConflict where
  | parse
  | notAnObject
  | ignoredNotArray
  | duplicateKey
  deriving DecidableEq

/-- What a removal restores. A `null` before the first apply is a value. -/
structure SettingsState where
  version : Nat
  created : Bool
  overrideBefore : Option Value
  addedIgnored : List String
  ignoredCreated : Bool
  deriving DecidableEq

def settingsStateVersion : Nat := 2

inductive Removal where
  | unchanged
  | write (text : SettingsText)
  | delete
  deriving DecidableEq

/-- The elements of the ignore list. -/
def ignoredElements (properties : List Property) : Option (List Value) :=
  match properties.lookup ignoredSettingsKey with
  | some (.array elements) => some elements
  | _ => none

/-- The properties of the root object, once its managed keys are single and its ignore list
is an array. -/
def parseObject : SettingsText → Except SettingsConflict (List Property)
  | .blank => .ok []
  | .invalid => .error .parse
  | .notObject => .error .notAnObject
  | .object properties =>
    if properties.countP (·.1 = overrideKey) > 1 ∨ properties.countP (·.1 = ignoredSettingsKey) > 1 then
      .error .duplicateKey
    else if (properties.lookup ignoredSettingsKey).isSome ∧ ignoredElements properties = none then
      .error .ignoredNotArray
    else .ok properties

/-- Sets the value of a single property in place. -/
def setProperty (key : String) (value : Value) (properties : List Property) : List Property :=
  properties.map fun property => if property.1 = key then (key, value) else property

def removeProperty (key : String) (properties : List Property) : List Property :=
  properties.filter fun property => decide (property.1 ≠ key)

section

variable (loopback : String → Bool)

/-- An agentdesktop loopback CAPI URL, given which texts are loopback socket addresses. -/
def isDaemonCapiUrl (value : String) : Bool :=
  match value.toList.dropPrefix? "http://".toList with
  | none => false
  | some rest =>
    let authority := rest.takeWhile (· ≠ '/')
    let path := rest.dropWhile (· ≠ '/')
    let localhost :=
      match authority.reverse.dropWhile (· ≠ ':') with
      | [] => false
      | _ :: host => sameName (String.ofList host.reverse) "localhost"
    (loopback (String.ofList authority) || localhost) &&
      match path.dropPrefix? "/vscode-copilot-capi".toList with
      | some ('/' :: _ :: _) => true
      | _ => false

/-- The entries that an edit has to add to the ignore list. -/
def appendedEntries (properties : List Property) : List String :=
  match ignoredElements properties with
  | none => managedEntries
  | some elements => managedEntries.filter fun entry => !elements.contains (.string entry)

/-- The properties with the override and both ignore entries. New ones go to the front. -/
def editedProperties (url : String) (properties : List Property) : List Property :=
  let existing := properties.lookup overrideKey
  let inserted := if existing.isSome then 0 else 1
  let edited :=
    if existing.isSome then setProperty overrideKey (.string url) properties
    else (overrideKey, .string url) :: properties
  match ignoredElements properties with
  | none => edited.insertIdx inserted (ignoredSettingsKey, .array (managedEntries.map .string))
  | some elements =>
    setProperty ignoredSettingsKey (.array (elements ++ (appendedEntries properties).map .string)) edited

/-- The ignore list holds nothing but the managed entries. -/
def onlyOurs (properties : List Property) : Bool :=
  match ignoredElements properties with
  | none => false
  | some elements => elements.all fun element => managedEntries.any fun entry => decide (element = .string entry)

def ownOverride (url : Option String) : Option Value → Bool
  | some (.string value) => decide (url = some value) || isDaemonCapiUrl loopback value
  | _ => false

def editSettings (text : Option SettingsText) (url : String) (state : Option SettingsState) :
    Except SettingsConflict (SettingsText × SettingsState) :=
  match parseObject (text.getD .blank) with
  | .error conflict => .error conflict
  | .ok properties =>
    let existing := properties.lookup overrideKey
    let ignoredCreatedNow := (ignoredElements properties).isNone
    let appended := appendedEntries properties
    let edited := editedProperties url properties
    match state with
    | some previous =>
      .ok (.object edited,
        { version := settingsStateVersion
          created := previous.created || text.isNone
          overrideBefore := previous.overrideBefore
          addedIgnored := previous.addedIgnored ++ appended.filter fun entry => !previous.addedIgnored.contains entry
          ignoredCreated := previous.ignoredCreated || ignoredCreatedNow })
    | none =>
      let ours := ownOverride loopback (some url) existing
      .ok (.object edited,
        { version := settingsStateVersion
          created := text.isNone
          overrideBefore := if ours then none else existing
          addedIgnored := if ours then managedEntries else appended
          ignoredCreated := ignoredCreatedNow || (ours && onlyOurs edited) })

/-- The properties with the override back to an earlier value. -/
def restoreOverride (restore : Option Value) (properties : List Property) : List Property :=
  match properties.lookup overrideKey, restore with
  | some _, some value => setProperty overrideKey value properties
  | some _, none => removeProperty overrideKey properties
  | none, some value => properties ++ [(overrideKey, value)]
  | none, none => properties

/-- The properties with the override back to an earlier value, and without the given entries. -/
def restoredProperties (restore : Option Value) (entries : List String) (dropEmptyArray : Bool)
    (properties : List Property) : List Property :=
  let restored := restoreOverride restore properties
  match ignoredElements restored with
  | none => restored
  | some elements =>
    let kept := elements.filter fun element => !entries.any fun entry => decide (element = .string entry)
    if dropEmptyArray && kept.isEmpty then removeProperty ignoredSettingsKey restored
    else setProperty ignoredSettingsKey (.array kept) restored

def removeSettings (text : SettingsText) (state : Option SettingsState) (ownUrl : Option String) :
    Except SettingsConflict Removal :=
  if text = .blank then .ok (if state.any (·.created) then .delete else .unchanged)
  else
    match parseObject text with
    | .error conflict => if state.isSome then .error conflict else .ok .unchanged
    | .ok properties =>
      match state with
      | some state =>
        let remaining := restoredProperties state.overrideBefore state.addedIgnored state.ignoredCreated properties
        if state.created && remaining.isEmpty then .ok .delete
        else if remaining = properties then .ok .unchanged
        else .ok (.write (.object remaining))
      | none =>
        if !ownOverride loopback ownUrl (properties.lookup overrideKey) then .ok .unchanged
        else
          let remaining := restoredProperties none managedEntries true properties
          if remaining = properties then .ok .unchanged else .ok (.write (.object remaining))

end

end AgentDesktop
