import AgentDesktop.FeedRuns

namespace AgentDesktop

variable {Config : Type}

/-- The controller and its devices after any steps from where they started. -/
def ConfigFeed.Reached (parser : ConfigParser Config) (feed : ConfigFeed Config) : Prop :=
  ∃ (initial : Option DaemonConfig) (watch : ConfigWatch) (current : String → Option Config) (sequence : String → Nat)
      (saved : String → Option Bytes) (actions : List FeedAction),
    (∀ config ∈ initial, ∃ read, parser.load watch.path watch.revision read = .ok config) ∧
    execute (ConfigFeed.step parser) (fun _ _ => true) actions
      (.start initial watch fun id => Daemon.started (current id) (sequence id) (saved id)) = some feed

theorem ConfigFeed.Reached.holds {parser : ConfigParser Config} {feed : ConfigFeed Config} (h : feed.Reached parser) :
    feed.Holds parser := by
  obtain ⟨_, _, current, sequence, saved, _, hinitial, hrun⟩ := h
  exact (ConfigFeed.Holds.start current sequence saved hinitial).run hrun

section

variable (parser : ConfigParser Config) {feed : ConfigFeed Config} {id : String} {stream : ConfigStream}

/-- When there is nothing left to send to a device, it works with the configuration that the controller
has, and once it is done with it a restart does so too, or it is to be saved by the next apply that
succeeds. -/
theorem device_has_current_config (hreached : feed.Reached parser) (hstream : (feed.devices id).stream = some stream)
    (hrest : stream.AtRest feed.store.sender) {config : DaemonConfig} (hcurrent : feed.store.current = some config) :
    (∃ parsed, parser.parseYaml config.yaml = .ok parsed ∧
      (feed.devices id).daemon.current = some ⟨some config.revision, parsed⟩) ∧
    ((feed.devices id).daemon.handling = none → (feed.devices id).daemon.saved = some config.yaml ∨
      (feed.devices id).daemon.pendingPersist = some (config.revision, config.yaml)) := by
  have haccepted := hreached.holds.at_rest hstream hrest hcurrent
  have hsaves := (hreached.holds.devices id).saves
  refine ⟨hsaves.current config haccepted, fun hhandled => ?_⟩
  exact (hsaves.settled config haccepted hhandled).imp And.right And.left

/-- A device receives valid configurations only, in the order in which they were published. -/
theorem configs_received_in_order (hreached : feed.Reached parser)
    (hstream : (feed.devices id).stream = some stream) :
    (∃ position, Watch.Reads feed.published position (stream.received.map some)) ∧
    ∀ config ∈ stream.received, (∃ yaml, parser.load feed.watch.path feed.watch.revision (.ok yaml) = .ok config) ∧
      ∃ parsed, parser.parsePushedConfig config = .ok parsed := by
  obtain ⟨_, _, hfed⟩ := (hreached.holds.devices id).streaming stream hstream
  obtain ⟨position, hreads⟩ := hfed.received
  refine ⟨⟨position, hreads⟩, fun config hconfig => ?_⟩
  obtain ⟨read, hload⟩ := hreached.holds.loaded config (hreads.mem (List.mem_map_of_mem hconfig))
  obtain ⟨yaml, parsed, rfl, _, hparsed⟩ := ConfigParser.load_ok hload
  exact ⟨⟨yaml, hload⟩, parsed, hparsed⟩

end

/-- The file is replaced while a laptop connects, and what replaced it does not apply there. -/
def replacedConfig : List FeedAction :=
  [.connect "laptop", .borrow "laptop", .batch (.ok [⟨.create, [["etc", "agentdesktop.yaml"]]⟩]) none (.ok [2]),
    .send "laptop", .forward "laptop", .receive "laptop", .changed "laptop", .borrow "laptop", .send "laptop",
    .forward "laptop", .daemon "laptop" (.applyPushed appliedOk), .daemon "laptop" (.savePushed (.ok ())),
    .receive "laptop", .daemon "laptop" (.applyPushed applyFailed)]

def watchedConfig : ConfigWatch := ⟨["etc", "agentdesktop.yaml"], 7, none⟩

def connectingLaptop (count : Nat) : Option (ConfigFeed String) :=
  execute (ConfigFeed.step twoConfigs) (fun _ _ => true) (replacedConfig.take count)
    (.start (some ⟨7, [1], [1]⟩) watchedConfig fun _ => Daemon.started none 0 none)

theorem connectingLaptop_reached {count : Nat} {feed : ConfigFeed String} (h : connectingLaptop count = some feed) :
    feed.Reached twoConfigs := by
  refine ⟨some ⟨7, [1], [1]⟩, watchedConfig, fun _ => none, fun _ => 0, fun _ => none, _, fun config hconfig => ?_, h⟩
  cases hconfig
  exact ⟨.ok [1], rfl⟩

/-- The first configuration stays saved, and the one that did not apply is to be saved. -/
theorem device_has_replaced_config :
    ∃ feed ∈ connectingLaptop 14, (feed.devices "laptop").daemon.current = some ⟨some 7, "second"⟩ ∧
      (feed.devices "laptop").daemon.saved = some [1] ∧
      (feed.devices "laptop").daemon.pendingPersist = some (7, [2]) := by
  have hrested : ∃ feed ∈ connectingLaptop 14, feed.store.current = some ⟨7, [2], [2]⟩ ∧
      (feed.devices "laptop").daemon.handling = none ∧ (feed.devices "laptop").daemon.saved = some [1] ∧
      ∃ stream ∈ (feed.devices "laptop").stream, stream.AtRest feed.store.sender := by decide +kernel
  obtain ⟨feed, hrun, hcurrent, hhandled, hfirst, stream, hstream, hrest⟩ := hrested
  obtain ⟨⟨parsed, hparsed, hdevice⟩, hsaves⟩ := device_has_current_config twoConfigs (connectingLaptop_reached hrun)
    hstream hrest hcurrent
  cases hparsed
  refine ⟨feed, hrun, hdevice, hfirst, (hsaves hhandled).resolve_left fun hsecond => ?_⟩
  rw [hfirst] at hsecond
  exact absurd hsecond (by decide)

theorem replaced_configs_received_in_order :
    ∃ feed ∈ connectingLaptop 13, ∃ stream ∈ (feed.devices "laptop").stream,
      stream.received = [⟨7, [1], [1]⟩, ⟨7, [2], [2]⟩] ∧
      ∃ position, Watch.Reads feed.published position (stream.received.map some) := by
  have hreceived : ∃ feed ∈ connectingLaptop 13, ∃ stream ∈ (feed.devices "laptop").stream,
      stream.received = [⟨7, [1], [1]⟩, ⟨7, [2], [2]⟩] := by decide +kernel
  obtain ⟨feed, hrun, stream, hstream, hboth⟩ := hreceived
  exact ⟨feed, hrun, stream, hstream, hboth,
    (configs_received_in_order twoConfigs (connectingLaptop_reached hrun) hstream).1⟩

def FeedPhase.cost : FeedPhase → Nat
  | .reading => 6
  | .sending _ => 5
  | .waiting => 0

namespace ConfigStream

/-- No status ends the stream. -/
def Accepted (stream : ConfigStream) : Prop :=
  ∀ status, .error status ∉ stream.transit ++ stream.queue

/-- A bound of the steps until a stream is at rest. -/
def cost (version : Nat) (stream : ConfigStream) : Nat :=
  3 * stream.transit.length + 4 * stream.queue.length + stream.phase.cost +
    if stream.seen < version then 7 else 0

/-- The controller can go on, unless the stream is at rest or something is on its way. -/
theorem exists_move (store : DaemonConfigStore) {stream : ConfigStream} (haccepted : stream.Accepted)
    (htransit : stream.transit = []) (hmoving : ¬ stream.AtRest store.sender) :
    ∃ next, (stream.forward = some next ∨ stream.borrow store = some next ∨ stream.send = some next ∨
        stream.changed store = some next) ∧
      next.Accepted ∧ next.cost store.sender.version < stream.cost store.sender.version := by
  cases hqueue : stream.queue with
  | cons item rest =>
    refine ⟨{ stream with queue := rest, transit := stream.transit ++ [item] }, .inl ?_, ?_, ?_⟩
    · rw [forward, hqueue]
    · unfold Accepted at haccepted ⊢
      simpa [hqueue] using haccepted
    · simp only [cost, hqueue, List.length_append, List.length_cons, List.length_nil]
      omega
  | nil =>
    cases hphase : stream.phase with
    | reading =>
      refine ⟨{ stream with phase := store.current.elim .waiting .sending }, .inr (.inl ?_), haccepted, ?_⟩
      · rw [borrow, hphase]
      · cases store.current <;> simp [cost, hphase, FeedPhase.cost]
    | sending config =>
      refine ⟨{ stream with phase := .waiting, queue := [.ok config] }, .inr (.inr (.inl ?_)), ?_, ?_⟩
      · simp [send, hphase, hqueue, capacity]
      · simp [Accepted, htransit]
      · simp [cost, hphase, hqueue, FeedPhase.cost]
    | waiting =>
      cases hchanged : store.sender.changed stream.seen with
      | none => exact absurd ⟨hphase, hchanged, hqueue, htransit⟩ hmoving
      | some seen =>
        obtain ⟨hnew, rfl⟩ := Watch.changed_eq_some.mp hchanged
        refine ⟨{ stream with seen := store.sender.version, phase := .reading }, .inr (.inr (.inr ?_)), haccepted, ?_⟩
        · rw [changed, hphase]
          simp only [hchanged, Option.map_some]
        · simp [cost, hphase, hnew, FeedPhase.cost]

end ConfigStream

def Handling.cost : Option (Handling Config) → Nat
  | some (.applying _ _) => 2
  | some (.saving _ _ _) => 1
  | none => 0

namespace Daemon

variable (parser : ConfigParser Config) {s : Daemon Config}

/-- The handling of a push goes on, whatever its apply and its save give. -/
theorem exists_handled (outcome : ApplyOutcome) (saved : Except ErrorText Unit) (h : s.handling ≠ none) :
    ∃ action t, (action = .applyPushed outcome ∨ action = .savePushed saved) ∧ s.step parser action = some t ∧
      Handling.cost t.handling < Handling.cost s.handling := by
  cases hhandling : s.handling with
  | none => exact absurd hhandling h
  | some handling =>
    cases handling with
    | applying push config =>
      have happlied : ∃ t, s.applyPushed outcome = some t ∧ Handling.cost t.handling < 2 := by
        rw [applyPushed, hhandling]
        dsimp only
        cases outcome.result with
        | ok => exact ⟨_, rfl, Nat.lt_succ_self 1⟩
        | error error => exact ⟨_, rfl, Nat.zero_lt_succ 1⟩
      obtain ⟨t, hstep, hcost⟩ := happlied
      exact ⟨.applyPushed outcome, t, .inl rfl, hstep, hcost⟩
    | saving push config report =>
      have hsaved : ∃ t, s.savePushed saved = some t ∧ Handling.cost t.handling < 1 := by
        rw [savePushed, hhandling]
        cases saved with
        | ok => exact ⟨_, rfl, Nat.zero_lt_succ 0⟩
        | error error => exact ⟨_, rfl, Nat.zero_lt_succ 0⟩
      obtain ⟨t, hstep, hcost⟩ := hsaved
      exact ⟨.savePushed saved, t, .inr rfl, hstep, hcost⟩

theorem exists_received (hconnected : s.connected = true) (hidle : s.handling = none) (push : DaemonConfig) :
    ∃ t, s.receive parser push = some t ∧ t.connected = true ∧ Handling.cost t.handling ≤ 2 := by
  have hready : s.idle = true := idle_iff.mpr ⟨hconnected, hidle⟩
  rw [receive, if_pos hready]
  cases parser.parsePushedConfig push with
  | error error => exact ⟨_, rfl, hconnected, by simp [hidle, Handling.cost]⟩
  | ok config => exact ⟨_, rfl, hconnected, Nat.le_refl _⟩

end Daemon

namespace FeedDevice

def cost (version : Nat) (device : FeedDevice Config) : Nat :=
  Handling.cost device.daemon.handling + (device.stream.map (·.cost version)).getD 0

/-- The stream is at rest and what came on it is handled. -/
def Settled (sender : Watch (Option DaemonConfig)) (device : FeedDevice Config) : Prop :=
  device.daemon.handling = none ∧ ∃ stream ∈ device.stream, stream.AtRest sender

/-- A device with a stream that no status ends. -/
def Streaming (device : FeedDevice Config) : Prop :=
  device.daemon.connected = true ∧ ∃ stream ∈ device.stream, stream.Accepted

/-- A device that is not busy takes the configuration that came. -/
theorem exists_received (parser : ConfigParser Config) {device : FeedDevice Config} {stream : ConfigStream}
    {config : DaemonConfig} {rest : List (Except String DaemonConfig)} (hconnected : device.daemon.connected = true)
    (hidle : device.daemon.handling = none) (hstream : device.stream = some stream) (haccepted : stream.Accepted)
    (htransit : stream.transit = .ok config :: rest) (version : Nat) :
    ∃ next, device.receive parser = some next ∧ next.Streaming ∧ next.cost version < device.cost version := by
  obtain ⟨daemon, hreceive, hnext, hcost⟩ := Daemon.exists_received parser hconnected hidle config
  refine ⟨⟨daemon, some { stream with transit := rest, received := stream.received ++ [config] }⟩, ?_,
    ⟨hnext, _, rfl, fun status hmem => ?_⟩, ?_⟩
  · simp only [receive, hstream, htransit, hreceive, Option.map_some]
  · refine haccepted status ?_
    rw [htransit]
    exact List.mem_cons_of_mem _ hmem
  · simp only [cost, hstream, Option.map_some, Option.getD_some, ConfigStream.cost, htransit, List.length_cons]
    omega

end FeedDevice

/-- A step that the controller or the device takes for the stream of the device, where applies and saves
give what is given. -/
def FeedAction.Continues (id : String) (outcome : ApplyOutcome) (saved : Except ErrorText Unit) : FeedAction → Prop
  | .borrow other | .send other | .changed other | .forward other | .receive other => other = id
  | .daemon other (.applyPushed given) => other = id ∧ given = outcome
  | .daemon other (.savePushed given) => other = id ∧ given = saved
  | _ => False

namespace ConfigFeed

variable {parser : ConfigParser Config} {feed : ConfigFeed Config} {id : String}

/-- A step of the device brings it nearer to rest. -/
structure Nearer (id : String) (feed next : ConfigFeed Config) : Prop where
  store : next.store = feed.store
  streaming : (next.devices id).Streaming
  cost : (next.devices id).cost feed.store.sender.version < (feed.devices id).cost feed.store.sender.version

theorem Nearer.onDevice (step : FeedDevice Config → Option (FeedDevice Config)) {device : FeedDevice Config}
    (hstep : step (feed.devices id) = some device) (hstreaming : device.Streaming)
    (hcost : device.cost feed.store.sender.version < (feed.devices id).cost feed.store.sender.version) :
    ∃ next, feed.onDevice id step = some next ∧ Nearer id feed next := by
  refine ⟨{ feed with devices := Function.update feed.devices id device }, ?_, rfl, ?_, ?_⟩
  · rw [ConfigFeed.onDevice, hstep]
    rfl
  · simpa using hstreaming
  · simpa using hcost

/-- While a device is not settled, there is a step that brings it nearer, whatever its applies
and saves give. -/
theorem exists_nearer (outcome : ApplyOutcome) (saved : Except ErrorText Unit)
    (hstreaming : (feed.devices id).Streaming) (hunsettled : ¬ (feed.devices id).Settled feed.store.sender) :
    ∃ action next, action.Continues id outcome saved ∧ feed.step parser action = some next ∧ Nearer id feed next := by
  obtain ⟨hconnected, stream, hstream, haccepted⟩ := hstreaming
  have hbefore : (feed.devices id).stream = some stream := hstream
  cases hhandling : (feed.devices id).daemon.handling with
  | some handling =>
    have hbusy : (feed.devices id).daemon.handling ≠ none := by simp [hhandling]
    obtain ⟨action, daemon, hgiven, hdaemon, hcost⟩ := Daemon.exists_handled parser outcome saved hbusy
    have hkeeps : Daemon.keepsStream action = true := by rcases hgiven with rfl | rfl <;> rfl
    have hcontinues : (FeedAction.daemon id action).Continues id outcome saved := by
      rcases hgiven with rfl | rfl <;> exact ⟨rfl, rfl⟩
    have hkept := (Daemon.step_keepsStream hkeeps hdaemon).1.trans hconnected
    have hact : (feed.devices id).act parser action = some { feed.devices id with daemon } := by
      rw [FeedDevice.act_keepsStream hkeeps, hdaemon]
      rfl
    have hstreaming : FeedDevice.Streaming { feed.devices id with daemon } := ⟨hkept, stream, hstream, haccepted⟩
    obtain ⟨next, hnext, hnearer⟩ :=
      Nearer.onDevice (·.act parser action) hact hstreaming (Nat.add_lt_add_right hcost _)
    exact ⟨.daemon id action, next, hcontinues, hnext, hnearer⟩
  | none =>
    cases htransit : stream.transit with
    | cons item rest =>
      cases item with
      | error status => exact absurd (by simp [htransit]) (haccepted status)
      | ok config =>
        obtain ⟨device, hdevice, hstreaming, hless⟩ :=
          FeedDevice.exists_received parser hconnected hhandling hbefore haccepted htransit feed.store.sender.version
        obtain ⟨next, hnext, hnearer⟩ := Nearer.onDevice (·.receive parser) hdevice hstreaming hless
        exact ⟨.receive id, next, rfl, hnext, hnearer⟩
    | nil =>
      have hmoving : ¬ stream.AtRest feed.store.sender := fun hrest => hunsettled ⟨hhandling, stream, hstream, hrest⟩
      obtain ⟨moved, hmoves, hmoved, hcost⟩ := stream.exists_move feed.store haccepted htransit hmoving
      have hnearer : ∀ step : ConfigStream → Option ConfigStream, step stream = some moved →
          ∃ next, feed.onDevice id (·.onStream step) = some next ∧ Nearer id feed next := by
        intro step hstep
        have hdevice : (feed.devices id).onStream step = some { feed.devices id with stream := some moved } := by
          rw [FeedDevice.onStream, hbefore, Option.bind_some, hstep]
          rfl
        refine Nearer.onDevice (·.onStream step) hdevice ⟨hconnected, moved, rfl, hmoved⟩ ?_
        simpa [FeedDevice.cost, hbefore] using hcost
      rcases hmoves with hstep | hstep | hstep | hstep <;> obtain ⟨next, hnext, hnearer⟩ := hnearer _ hstep
      · exact ⟨.forward id, next, rfl, hnext, hnearer⟩
      · exact ⟨.borrow id, next, rfl, hnext, hnearer⟩
      · exact ⟨.send id, next, rfl, hnext, hnearer⟩
      · exact ⟨.changed id, next, rfl, hnext, hnearer⟩

end ConfigFeed

/-- Wherever the controller and the devices got to, the steps for the stream of a device lead to where it
works with the configuration that the controller has, whatever its applies and its saves give. -/
theorem device_gets_current_config (parser : ConfigParser Config) {feed : ConfigFeed Config} {id : String}
    {stream : ConfigStream} (hreached : feed.Reached parser) (hstream : (feed.devices id).stream = some stream)
    (haccepted : stream.Accepted) {config : DaemonConfig} (hcurrent : feed.store.current = some config)
    (outcome : ApplyOutcome) (result : Except ErrorText Unit) :
    ∃ more final parsed, (∀ action ∈ more, action.Continues id outcome result) ∧
      execute (ConfigFeed.step parser) (fun _ _ => true) more feed = some final ∧
      final.store = feed.store ∧ (final.devices id).Settled final.store.sender ∧
      parser.parseYaml config.yaml = .ok parsed ∧
      (final.devices id).daemon.current = some ⟨some config.revision, parsed⟩ := by
  obtain ⟨hconnected, _, _⟩ := (hreached.holds.devices id).streaming stream hstream
  have hmoves : ∀ state : ConfigFeed Config, state.Holds parser ∧ state.store = feed.store ∧
        (state.devices id).Streaming → ¬ (state.devices id).Settled state.store.sender →
      ∃ action next, action.Continues id outcome result ∧ true = true ∧ state.step parser action = some next ∧
        (next.Holds parser ∧ next.store = feed.store ∧ (next.devices id).Streaming) ∧
        (next.devices id).cost feed.store.sender.version < (state.devices id).cost feed.store.sender.version := by
    rintro state ⟨hstate, hstore, hstreaming⟩ hunsettled
    obtain ⟨action, next, hcontinues, hstep, hnearer⟩ :=
      ConfigFeed.exists_nearer outcome result hstreaming hunsettled
    exact ⟨action, next, hcontinues, rfl, hstep, ⟨hstate.step hstep, hnearer.store.trans hstore, hnearer.streaming⟩,
      hstore ▸ hnearer.cost⟩
  obtain ⟨more, final, hcontinues, hmore, ⟨hfinal, hstore, _⟩, hsettled⟩ := execute_reaches
    (fun state : ConfigFeed Config => (state.devices id).cost feed.store.sender.version) hmoves
    ⟨hreached.holds, rfl, hconnected, stream, hstream, haccepted⟩
  obtain ⟨rested, hrested, hrest⟩ := hsettled.2
  obtain ⟨parsed, hparsed, hdevice⟩ :=
    (hfinal.devices id).saves.current config (hfinal.at_rest hrested hrest (hstore ▸ hcurrent))
  exact ⟨more, final, parsed, hcontinues, hmore, hstore, hsettled, hparsed, hdevice⟩

/-- The laptop gets the replaced configuration although it is busy with the first one and no apply succeeds. -/
theorem laptop_gets_replaced_config :
    ∃ feed ∈ connectingLaptop 6, ∃ more final,
      (∀ action ∈ more, action.Continues "laptop" applyFailed (.ok ())) ∧
      execute (ConfigFeed.step twoConfigs) (fun _ _ => true) more feed = some final ∧
      (final.devices "laptop").daemon.current = some ⟨some 7, "second"⟩ := by
  have hstart : ∃ feed ∈ connectingLaptop 6, feed.store.current = some ⟨7, [2], [2]⟩ ∧
      ∃ stream ∈ (feed.devices "laptop").stream, stream.transit = [] ∧ stream.queue = [] := by decide +kernel
  obtain ⟨feed, hrun, hcurrent, stream, hstream, htransit, hqueue⟩ := hstart
  have haccepted : stream.Accepted := by simp [ConfigStream.Accepted, htransit, hqueue]
  obtain ⟨more, final, parsed, hcontinues, hmore, _, _, hparsed, hdevice⟩ := device_gets_current_config twoConfigs
    (connectingLaptop_reached hrun) hstream haccepted hcurrent applyFailed (.ok ())
  cases hparsed
  exact ⟨feed, hrun, more, final, hcontinues, hmore, hdevice⟩

end AgentDesktop
