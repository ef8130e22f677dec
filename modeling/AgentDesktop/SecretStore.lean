import Mathlib.Logic.Basic

namespace AgentDesktop

structure Secret where
  service : String
  account : String
  deriving DecidableEq

/-- A sealed secret. Encryption is ideal: it opens just under its key and its additional data. -/
structure Sealed (Key : Type) where
  key : Key
  aad : String
  secret : String
  deriving DecidableEq

inductive StoredKey (Key : Type) where
  | missing
  | malformed
  | key (key : Key)

/-- The directory of the files, the digest that names them, and how keys are encoded. -/
structure Envelope (Key : Type) where
  directory : String
  digest : String → String
  encode : Key → String
  decode : String → Option Key
  decode_encode : ∀ key, decode (encode key) = some key

/-- The sealed files by path, the contents of `.store-id`, and the credential store. -/
structure SecretStore (Key : Type) where
  files : String → Option (Sealed Key)
  storeIdFile : Option String
  entries : String × String → Option String

/-- The steps of the calls that can fail. -/
inductive SecretOperation where
  | openLock
  | lock
  | readFile
  | readLegacy
  | readStoreId
  | generateId
  | writeStoreId
  | readKey
  | removeFile
  | generateKey
  | setKey
  | tryExists
  | encrypt
  | writeFile
  | deleteLegacy
  | deleteKey
  deriving DecidableEq

/-- A change of the credential store can be reported as failed though it is made. -/
inductive StepOutcome where
  | done
  | failed
  | doneButFailed
  deriving DecidableEq

def StepOutcome.works : StepOutcome → Bool
  | .done => true
  | _ => false

def StepOutcome.takesEffect : StepOutcome → Bool
  | .failed => false
  | _ => true

/-- What happens during a write: which steps fail, and what is generated. -/
structure SetEnv (Key : Type) where
  outcome : SecretOperation → StepOutcome := fun _ => .done
  storeId : String
  key : Key

def keyServiceSuffix : String := ".file-key"

/-- The entry that holds the key of a secret. -/
def keyEntry (storeId : String) (secret : Secret) : String × String :=
  (secret.service ++ keyServiceSuffix, storeId ++ "/" ++ secret.account)

/-- The entry of a secret that an earlier version stored directly. -/
def directEntry (secret : Secret) : String × String :=
  (secret.service, secret.account)

def aad (secret : Secret) : String :=
  "agentdesktop secret v1\x00" ++ secret.service ++ "\x00" ++ secret.account

def isStoreId (id : String) : Bool :=
  decide (id.toList.length = 32) && id.toList.all fun c => c.isDigit || ('a' ≤ c && c ≤ 'f') || ('A' ≤ c && c ≤ 'F')

section

variable {Key : Type}

namespace SecretStore

def setFile (path : String) (file : Option (Sealed Key)) (store : SecretStore Key) : SecretStore Key :=
  { store with files := fun other => if other = path then file else store.files other }

def setEntry (entry : String × String) (value : Option String) (store : SecretStore Key) : SecretStore Key :=
  { store with entries := fun other => if other = entry then value else store.entries other }

/-- An identity that is malformed is none. -/
def storeId (store : SecretStore Key) : Option String :=
  store.storeIdFile.filter isStoreId

end SecretStore

namespace Envelope

variable (envelope : Envelope Key)

def entryPath (secret : Secret) : String :=
  envelope.directory ++ "/" ++ envelope.digest (secret.service ++ "\x00" ++ secret.account)

def storeIdPath : String :=
  envelope.directory ++ "/.store-id"

def lockPath : String :=
  envelope.directory ++ "/.lock"

def readKey (store : SecretStore Key) (entry : String × String) : StoredKey Key :=
  match store.entries entry with
  | none => .missing
  | some encoded =>
    match envelope.decode encoded with
    | none => .malformed
    | some key => .key key

def sealSecret (key : Key) (secret : Secret) (value : String) : Sealed Key :=
  ⟨key, aad secret, value⟩

def openSealed [DecidableEq Key] (key : Key) (secret : Secret) (file : Sealed Key) : Except String String :=
  if file.key = key ∧ file.aad = aad secret then .ok file.secret else .error "stored secret does not match its key"

def lockStore (outcome : SecretOperation → StepOutcome) : Except String Unit :=
  if !(outcome .openLock).works then .error ("open secret lock " ++ envelope.lockPath)
  else if !(outcome .lock).works then .error ("lock " ++ envelope.lockPath)
  else .ok ()

def get [DecidableEq Key] (outcome : SecretOperation → StepOutcome) (secret : Secret) (store : SecretStore Key) :
    Except String (Option String) :=
  match envelope.lockStore outcome with
  | .error error => .error error
  | .ok _ =>
  if !(outcome .readFile).works then .error ("read secret from " ++ envelope.entryPath secret)
  else
    match store.files (envelope.entryPath secret) with
    | none =>
      if !(outcome .readLegacy).works then .error "read from operating system credential store"
      else .ok (store.entries (directEntry secret))
    | some file =>
      if !(outcome .readStoreId).works then .error ("read " ++ envelope.storeIdPath)
      else
        match store.storeId with
        | none => .ok none
        | some id =>
          if !(outcome .readKey).works then .error "read secret file key"
          else
            match envelope.readKey store (keyEntry id secret) with
            | .key key => (openSealed key secret file).map some
            | .missing => .ok none
            | .malformed => .error "the key of a stored secret is malformed"

def createStoreId (env : SetEnv Key) (store : SecretStore Key) : SecretStore Key × Except String String :=
  if !(env.outcome .readStoreId).works then (store, .error ("read " ++ envelope.storeIdPath))
  else
    match store.storeId with
    | some id => (store, .ok id)
    | none =>
      if !(env.outcome .generateId).works then (store, .error "generate secret store identity")
      else if !(env.outcome .writeStoreId).works then (store, .error ("store " ++ envelope.storeIdPath))
      else ({ store with storeIdFile := some env.storeId }, .ok env.storeId)

/-- Makes a key anew, once a file that it cannot open is removed. -/
def replaceKey (env : SetEnv Key) (secret : Secret) (id : String) (store : SecretStore Key) :
    SecretStore Key × Except String Key :=
  if !(env.outcome .removeFile).works then (store, .error ("remove secret " ++ envelope.entryPath secret))
  else
    let store := store.setFile (envelope.entryPath secret) none
    if !(env.outcome .generateKey).works then (store, .error "generate secret file key")
    else
      let stored := store.setEntry (keyEntry id secret) (some (envelope.encode env.key))
      match env.outcome .setKey with
      | .done => (stored, .ok env.key)
      | .failed => (store, .error "store secret file key")
      | .doneButFailed => (stored, .error "store secret file key")

/-- The key of a secret, which is made once and then used again. -/
def fileKey (env : SetEnv Key) (secret : Secret) (id : String) (store : SecretStore Key) :
    SecretStore Key × Except String Key :=
  if !(env.outcome .readKey).works then (store, .error "read secret file key")
  else
    match envelope.readKey store (keyEntry id secret) with
    | .key key => (store, .ok key)
    | .missing => envelope.replaceKey env secret id store
    | .malformed => envelope.replaceKey env secret id store

/-- Replaces the file, and after a first write removes what an earlier version stored. -/
def writeSecret (env : SetEnv Key) (secret : Secret) (value : String) (key : Key) (store : SecretStore Key) :
    SecretStore Key × Except String Unit :=
  let path := envelope.entryPath secret
  let firstWrite := (env.outcome .tryExists).works && (store.files path).isNone
  if !(env.outcome .encrypt).works then (store, .error "encrypt secret")
  else if !(env.outcome .writeFile).works then (store, .error ("store secret in " ++ path))
  else
    let store := store.setFile path (some (sealSecret key secret value))
    if firstWrite && (env.outcome .deleteLegacy).takesEffect then (store.setEntry (directEntry secret) none, .ok ())
    else (store, .ok ())

def set (env : SetEnv Key) (secret : Secret) (value : String) (store : SecretStore Key) :
    SecretStore Key × Except String Unit :=
  match envelope.lockStore env.outcome with
  | .error error => (store, .error error)
  | .ok _ =>
  match envelope.createStoreId env store with
  | (store, .error error) => (store, .error error)
  | (store, .ok id) =>
  match envelope.fileKey env secret id store with
  | (store, .error error) => (store, .error error)
  | (store, .ok key) => envelope.writeSecret env secret value key store

/-- The value of an earlier version goes first, and the key last. -/
def delete (outcome : SecretOperation → StepOutcome) (secret : Secret) (store : SecretStore Key) :
    SecretStore Key × Except String Unit :=
  match envelope.lockStore outcome with
  | .error error => (store, .error error)
  | .ok _ =>
  let store := if (outcome .deleteLegacy).takesEffect then store.setEntry (directEntry secret) none else store
  if !(outcome .deleteLegacy).works then (store, .error "delete secret from operating system credential store")
  else if !(outcome .removeFile).works then (store, .error ("remove secret " ++ envelope.entryPath secret))
  else
    let store := store.setFile (envelope.entryPath secret) none
    if !(outcome .readStoreId).works then (store, .error ("read " ++ envelope.storeIdPath))
    else
      match store.storeId with
      | none => (store, .ok ())
      | some id =>
        let store := if (outcome .deleteKey).takesEffect then store.setEntry (keyEntry id secret) none else store
        if (outcome .deleteKey).works then (store, .ok ()) else (store, .error "delete secret file key")

end Envelope

end

end AgentDesktop
