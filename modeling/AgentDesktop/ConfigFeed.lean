import AgentDesktop.SavedCurrent
import AgentDesktop.WatchChannel

namespace AgentDesktop

variable {Config : Type}

/-- The configuration of the devices: the last one that was valid, and why the file is not, if
it is not. -/
structure DaemonConfigStore where
  sender : Watch (Option DaemonConfig)
  reloadError : Option String := none

namespace DaemonConfigStore

def new (initial : Option DaemonConfig) : DaemonConfigStore where
  sender := ⟨initial, 0⟩

def current (store : DaemonConfigStore) : Option DaemonConfig :=
  store.sender.value

/-- Returns whether there is something new. -/
def publish (next : DaemonConfig) (store : DaemonConfigStore) : DaemonConfigStore × Bool :=
  let unchanged := store.current.any fun current =>
    decide (current.revision = next.revision) && decide (current.sha256 = next.sha256)
  if unchanged then ({ store with reloadError := none }, false)
  else ({ sender := store.sender.sendReplace (some next), reloadError := none }, true)

def recordError (error : String) (store : DaemonConfigStore) : DaemonConfigStore :=
  { store with reloadError := some error }

end DaemonConfigStore

/-- What `notify` saw of some paths. -/
inductive EventKind where
  | access (closedWrite : Bool)
  | create
  | modify (name : Bool)
  | remove
  | other
  deriving DecidableEq

structure WatchEvent where
  kind : EventKind
  paths : List Path

def directoryStructureChanged (event : WatchEvent) (parent : Path) : Bool :=
  (match event.kind with
    | .create | .remove | .modify true => true
    | _ => false) &&
  event.paths.any fun path => decide (path ≠ [] ∧ path.dropLast = parent)

def eventTriggersReload (event : WatchEvent) (path : Path) (previousTarget currentTarget : Option Path) : Bool :=
  (match event.kind with
    | .modify _ | .create | .remove | .access true => true
    | _ => false) &&
  event.paths.any fun eventPath =>
    decide (eventPath = path) || decide (previousTarget = some eventPath) || decide (currentTarget = some eventPath)

/-- `load`, of what reading the file gives. -/
def ConfigParser.load (parser : ConfigParser Config) (path : Path) (revision : UInt64) (read : Except String Bytes) :
    Except String DaemonConfig :=
  match read with
  | .error cause => .error ("read daemon configuration from " ++ displayPath path ++ ": " ++ cause)
  | .ok yaml =>
    match parser.utf8 yaml with
    | .error cause => .error ("daemon configuration is not UTF-8: " ++ cause)
    | .ok text =>
      match parser.parseDaemon text with
      | .error cause => .error ("validate daemon configuration: " ++ cause.text)
      | .ok _ => .ok ⟨revision, yaml, parser.digest yaml⟩

/-- The task that watches the file: where the file is, and what it was last resolved to. -/
structure ConfigWatch where
  path : Path
  revision : UInt64
  target : Option Path

namespace ConfigWatch

def relevant (watch : ConfigWatch) (batch : List WatchEvent) (nextTarget : Option Path) : Bool :=
  decide (watch.target ≠ nextTarget) ||
    batch.any (fun event => eventTriggersReload event watch.path watch.target nextTarget) ||
    batch.any fun event => directoryStructureChanged event watch.path.dropLast

def reload (parser : ConfigParser Config) (watch : ConfigWatch) (read : Except String Bytes)
    (store : DaemonConfigStore) : DaemonConfigStore :=
  match parser.load watch.path watch.revision read with
  | .ok config => (store.publish config).1
  | .error error => store.recordError error

/-- A batch of events, with what the path resolves to and what reading it gives. -/
def handle (parser : ConfigParser Config) (watch : ConfigWatch) (batch : Except String (List WatchEvent))
    (nextTarget : Option Path) (read : Except String Bytes) (store : DaemonConfigStore) :
    ConfigWatch × DaemonConfigStore :=
  match batch with
  | .error _ => (watch, store)
  | .ok batch =>
    ({ watch with target := nextTarget },
      if watch.relevant batch nextTarget then watch.reload parser read store else store)

end ConfigWatch

deriving instance DecidableEq for DaemonConfig

/-- Where `connect` of the controller, and then the task it spawns, is. -/
inductive FeedPhase where
  | reading
  | sending (config : DaemonConfig)
  | waiting
  deriving DecidableEq

/-- A stream to a device: its channel of eight messages, what is on its way, and what the device
received, which the controller does not know. -/
structure ConfigStream where
  seen : Nat
  phase : FeedPhase := .reading
  queue : List (Except String DaemonConfig) := []
  transit : List (Except String DaemonConfig) := []
  received : List DaemonConfig := []

namespace ConfigStream

def capacity : Nat := 8

def borrow (store : DaemonConfigStore) (stream : ConfigStream) : Option ConfigStream :=
  match stream.phase with
  | .reading => some { stream with phase := store.current.elim .waiting .sending }
  | _ => none

def send (stream : ConfigStream) : Option ConfigStream :=
  match stream.phase with
  | .sending config =>
    if stream.queue.length < capacity then
      some { stream with phase := .waiting, queue := stream.queue ++ [.ok config] }
    else none
  | _ => none

def changed (store : DaemonConfigStore) (stream : ConfigStream) : Option ConfigStream :=
  match stream.phase with
  | .waiting => (store.sender.changed stream.seen).map fun seen => { stream with seen, phase := .reading }
  | _ => none

/-- The task that validates the access token ends the stream. -/
def refuse (status : String) (stream : ConfigStream) : Option ConfigStream :=
  if stream.queue.length < capacity then some { stream with queue := stream.queue ++ [.error status] } else none

def forward (stream : ConfigStream) : Option ConfigStream :=
  match stream.queue with
  | [] => none
  | item :: rest => some { stream with queue := rest, transit := stream.transit ++ [item] }

end ConfigStream

structure FeedDevice (Config : Type) where
  daemon : Daemon Config
  stream : Option ConfigStream := none

namespace FeedDevice

def connect (store : DaemonConfigStore) (device : FeedDevice Config) : Option (FeedDevice Config) :=
  device.daemon.connect.map fun daemon => ⟨daemon, some { seen := store.sender.subscribe }⟩

def onStream (step : ConfigStream → Option ConfigStream) (device : FeedDevice Config) : Option (FeedDevice Config) :=
  (device.stream.bind step).map fun stream => { device with stream := some stream }

/-- The next message that arrives. A status in place of one ends the stream. -/
def receive (parser : ConfigParser Config) (device : FeedDevice Config) : Option (FeedDevice Config) :=
  match device.stream with
  | none => none
  | some stream =>
    match stream.transit with
    | [] => none
    | .ok config :: rest =>
      (device.daemon.receive parser config).map fun daemon =>
        ⟨daemon, some { stream with transit := rest, received := stream.received ++ [config] }⟩
    | .error _ :: _ => device.daemon.disconnect.map fun daemon => ⟨daemon, none⟩

/-- The other steps of the device. A stream that it leaves is gone. -/
def act (parser : ConfigParser Config) (device : FeedDevice Config) : DaemonAction → Option (FeedDevice Config)
  | .connect => none
  | .receive _ => none
  | .disconnect => device.daemon.disconnect.map fun daemon => ⟨daemon, none⟩
  | .logout => device.daemon.logout.map fun daemon => ⟨daemon, none⟩
  | action => (device.daemon.step parser action).map fun daemon => { device with daemon }

end FeedDevice

/-- The controller and its devices. `published` are the configurations that there were; nothing
keeps them. -/
structure ConfigFeed (Config : Type) where
  store : DaemonConfigStore
  watch : ConfigWatch
  devices : String → FeedDevice Config
  published : List (Option DaemonConfig)

inductive FeedAction where
  | batch (events : Except String (List WatchEvent)) (target : Option Path) (read : Except String Bytes)
  | connect (id : String)
  | borrow (id : String)
  | send (id : String)
  | changed (id : String)
  | refuse (id status : String)
  | forward (id : String)
  | receive (id : String)
  | daemon (id : String) (action : DaemonAction)

namespace ConfigFeed

/-- The controller as it starts, with the devices as they are. -/
def start (initial : Option DaemonConfig) (watch : ConfigWatch) (daemons : String → Daemon Config) :
    ConfigFeed Config where
  store := .new initial
  watch := watch
  devices := fun id => ⟨daemons id, none⟩
  published := [initial]

def handle (parser : ConfigParser Config) (events : Except String (List WatchEvent)) (target : Option Path)
    (read : Except String Bytes) (feed : ConfigFeed Config) : ConfigFeed Config :=
  let handled := feed.watch.handle parser events target read feed.store
  { feed with
    watch := handled.1
    store := handled.2
    published := if handled.2.sender.version = feed.store.sender.version then feed.published
      else feed.published ++ [handled.2.current] }

def onDevice (id : String) (step : FeedDevice Config → Option (FeedDevice Config)) (feed : ConfigFeed Config) :
    Option (ConfigFeed Config) :=
  (step (feed.devices id)).map fun device => { feed with devices := Function.update feed.devices id device }

def step (parser : ConfigParser Config) (feed : ConfigFeed Config) : FeedAction → Option (ConfigFeed Config)
  | .batch events target read => some (feed.handle parser events target read)
  | .connect id => feed.onDevice id (·.connect feed.store)
  | .borrow id => feed.onDevice id (·.onStream (·.borrow feed.store))
  | .send id => feed.onDevice id (·.onStream (·.send))
  | .changed id => feed.onDevice id (·.onStream (·.changed feed.store))
  | .refuse id status => feed.onDevice id (·.onStream (·.refuse status))
  | .forward id => feed.onDevice id (·.onStream (·.forward))
  | .receive id => feed.onDevice id (·.receive parser)
  | .daemon id action => feed.onDevice id (·.act parser action)

end ConfigFeed

end AgentDesktop
