import AgentDesktop.ConfigFeed

namespace AgentDesktop

variable {Config : Type} {parser : ConfigParser Config} {config : DaemonConfig}

theorem ConfigParser.load_ok {path : Path} {revision : UInt64} {read : Except String Bytes}
    (h : parser.load path revision read = .ok config) :
    ∃ yaml parsed, read = .ok yaml ∧ config = ⟨revision, yaml, parser.digest yaml⟩ ∧
      parser.parsePushedConfig config = .ok parsed := by
  cases read with
  | error cause => cases h
  | ok yaml =>
    unfold load at h
    dsimp only at h
    cases htext : parser.utf8 yaml with
    | error cause =>
      rw [htext] at h
      cases h
    | ok text =>
      rw [htext] at h
      dsimp only at h
      cases hparsed : parser.parseDaemon text with
      | error cause =>
        rw [hparsed] at h
        cases h
      | ok parsed =>
        rw [hparsed] at h
        cases h
        refine ⟨yaml, parsed, rfl, rfl, ?_⟩
        simp [parsePushedConfig, parseYaml, htext, hparsed]

namespace ConfigWatch

variable (parser : ConfigParser Config) (watch : ConfigWatch) (batch : Except String (List WatchEvent))
  (nextTarget : Option Path) (read : Except String Bytes) (store : DaemonConfigStore)

/-- A batch of events leaves what is published, or publishes a configuration that loads. -/
theorem handle_sender :
    (watch.handle parser batch nextTarget read store).2.sender = store.sender ∨
      ∃ config, parser.load watch.path watch.revision read = .ok config ∧
        (watch.handle parser batch nextTarget read store).2.sender = store.sender.sendReplace (some config) := by
  unfold handle
  cases batch with
  | error error => exact .inl rfl
  | ok batch =>
    dsimp only
    split
    next =>
      unfold reload
      cases hload : parser.load watch.path watch.revision read with
      | error error => exact .inl rfl
      | ok config =>
        dsimp only [DaemonConfigStore.publish]
        split
        · exact .inl rfl
        · exact .inr ⟨config, rfl, rfl⟩
    next => exact .inl rfl

theorem handle_file :
    (watch.handle parser batch nextTarget read store).1.path = watch.path ∧
      (watch.handle parser batch nextTarget read store).1.revision = watch.revision := by
  cases batch <;> exact ⟨rfl, rfl⟩

end ConfigWatch

namespace ConfigStream

variable {published : List (Option DaemonConfig)} {store : DaemonConfigStore} {stream next : ConfigStream}

/-- What was read and is not queued yet. -/
def pending (stream : ConfigStream) : List DaemonConfig :=
  match stream.phase with
  | .sending config => [config]
  | _ => []

/-- What was read for a stream, as far as the device gets it. -/
def configs (stream : ConfigStream) : List DaemonConfig :=
  stream.received ++ (stream.transit ++ stream.queue).filterMap Except.toOption ++ stream.pending

/-- There is nothing to send, and nothing on its way. -/
def AtRest (sender : Watch (Option DaemonConfig)) (stream : ConfigStream) : Prop :=
  stream.phase = .waiting ∧ sender.changed stream.seen = none ∧ stream.queue = [] ∧ stream.transit = []

instance (sender : Watch (Option DaemonConfig)) (stream : ConfigStream) : Decidable (stream.AtRest sender) :=
  inferInstanceAs (Decidable (_ ∧ _ ∧ _ ∧ _))

/-- The configurations of a stream are read one after another. Unless the next one is about to be
read, the last one read is not older than what the stream has seen. -/
def Fed (published : List (Option DaemonConfig)) (stream : ConfigStream) : Prop :=
  stream.seen < published.length ∧ ∃ position reads, Watch.Reads published position reads ∧
    stream.configs = reads.filterMap id ∧ (stream.phase = .reading ∨ (stream.seen ≤ position ∧ reads ≠ []))

theorem Fed.new {seen : Nat} (h : seen < published.length) : Fed published { seen } :=
  ⟨h, 0, [], .nil, rfl, .inl rfl⟩

theorem Fed.append (h : stream.Fed published) (more : List (Option DaemonConfig)) :
    stream.Fed (published ++ more) := by
  obtain ⟨hseen, position, reads, hreads, hrest⟩ := h
  refine ⟨?_, position, reads, hreads.append more, hrest⟩
  rw [List.length_append]
  omega

/-- Moves along the stream do not change what was read for it. -/
theorem Fed.moved (h : stream.Fed published) (hseen : next.seen = stream.seen)
    (hconfigs : next.configs = stream.configs) (hphase : stream.phase ≠ .reading ∨ next.phase = stream.phase) :
    next.Fed published := by
  obtain ⟨hlt, position, reads, hreads, heq, hlast⟩ := h
  refine ⟨hseen ▸ hlt, position, reads, hreads, hconfigs.trans heq, ?_⟩
  rcases hlast with hreading | hlast
  · rcases hphase with hphase | hphase
    · exact absurd hreading hphase
    · exact .inl (hphase.trans hreading)
  · exact .inr (hseen ▸ hlast)

theorem Fed.borrow (h : stream.Fed published) (held : store.sender.Held published)
    (hstep : stream.borrow store = some next) : next.received = stream.received ∧ next.Fed published := by
  obtain ⟨hlt, position, reads, hreads, heq, _⟩ := h
  unfold ConfigStream.borrow at hstep
  split at hstep
  next hphase =>
    cases hstep
    have hseen : stream.seen ≤ store.sender.version := by
      rw [held.length] at hlt
      omega
    refine ⟨rfl, hlt, _, reads ++ [store.sender.value], hreads.borrow held, ?_, .inr ⟨hseen, by simp⟩⟩
    unfold configs pending at heq ⊢
    rw [hphase, List.append_nil] at heq
    have hread : (reads ++ [store.sender.value]).filterMap id =
        reads.filterMap id ++ [store.sender.value].filterMap id := List.filterMap_append
    rw [hread, ← heq]
    unfold DaemonConfigStore.current
    cases store.sender.value <;> rfl
  next => cases hstep

theorem Fed.send (h : stream.Fed published) (hstep : stream.send = some next) :
    next.received = stream.received ∧ next.Fed published := by
  unfold ConfigStream.send at hstep
  split at hstep
  next config hphase =>
    split at hstep
    next =>
      cases hstep
      refine ⟨rfl, h.moved rfl ?_ (.inl (by simp [hphase]))⟩
      simp [configs, pending, hphase, Except.toOption]
    next => cases hstep
  next => cases hstep

theorem Fed.changed (h : stream.Fed published) (held : store.sender.Held published)
    (hstep : stream.changed store = some next) : next.received = stream.received ∧ next.Fed published := by
  obtain ⟨_, position, reads, hreads, heq, _⟩ := h
  unfold ConfigStream.changed at hstep
  split at hstep
  next hphase =>
    obtain ⟨seen, hseen, rfl⟩ := Option.map_eq_some_iff.mp hstep
    obtain ⟨_, rfl⟩ := Watch.changed_eq_some.mp hseen
    refine ⟨rfl, ?_, position, reads, hreads, ?_, .inl rfl⟩
    · rw [held.length]
      exact Nat.lt_succ_self _
    · rw [← heq]
      simp [configs, pending, hphase]
  next => cases hstep

theorem Fed.refuse (h : stream.Fed published) {status : String} (hstep : stream.refuse status = some next) :
    next.received = stream.received ∧ next.Fed published := by
  unfold ConfigStream.refuse at hstep
  split at hstep
  next =>
    cases hstep
    refine ⟨rfl, h.moved rfl ?_ (.inr rfl)⟩
    simp [configs, pending, Except.toOption]
  next => cases hstep

theorem Fed.forward (h : stream.Fed published) (hstep : stream.forward = some next) :
    next.received = stream.received ∧ next.Fed published := by
  unfold ConfigStream.forward at hstep
  split at hstep
  next => cases hstep
  next item rest hqueue =>
    cases hstep
    refine ⟨rfl, h.moved rfl ?_ (.inr rfl)⟩
    simp [configs, pending, hqueue]

theorem Fed.receive (h : stream.Fed published) {rest : List (Except String DaemonConfig)}
    (htransit : stream.transit = .ok config :: rest) :
    ConfigStream.Fed published { stream with transit := rest, received := stream.received ++ [config] } := by
  refine h.moved rfl ?_ (.inr rfl)
  simp [configs, pending, htransit, Except.toOption]

/-- A stream at rest sent the current configuration last. -/
theorem Fed.last_eq (h : stream.Fed published) (held : store.sender.Held published) (hrest : stream.AtRest store.sender)
    (hcurrent : store.current = some config) :
    stream.received.getLast? = some config := by
  obtain ⟨_, position, reads, hreads, heq, hlast⟩ := h
  obtain ⟨hphase, hseen, hqueue, htransit⟩ := hrest
  have hconfigs : stream.received = reads.filterMap id := by
    rw [← heq]
    simp [configs, pending, hphase, hqueue, htransit]
  rcases hlast with hreading | ⟨hle, hne⟩
  · rw [hphase] at hreading
    cases hreading
  · have hvalue := hreads.last_eq held ((Watch.changed_eq_none.mp hseen).trans hle) hne
    obtain ⟨earlier, rfl⟩ := List.getLast?_eq_some_iff.mp hvalue
    rw [hconfigs, List.filterMap_append]
    have hone : [store.sender.value].filterMap id = [config] := by
      unfold DaemonConfigStore.current at hcurrent
      rw [hcurrent]
      rfl
    rw [hone, List.getLast?_concat]

/-- What the device received was published in that order. -/
theorem Fed.received (h : stream.Fed published) :
    ∃ position, Watch.Reads published position (stream.received.map some) := by
  obtain ⟨_, position, reads, hreads, heq, _⟩ := h
  have hconfigs : ∀ reads : List (Option DaemonConfig), ((reads.filterMap id).map some).Sublist reads := by
    intro reads
    induction reads with
    | nil => exact List.Sublist.refl _
    | cons value rest ih =>
      cases value with
      | none => exact ih.cons _
      | some config => exact ih.cons_cons _
  have hreceived : stream.received.Sublist stream.configs := by
    rw [configs, List.append_assoc]
    exact List.sublist_append_left _ _
  obtain ⟨earlier, _, hearlier⟩ := hreads.sublist ((heq ▸ hreceived.map some).trans (hconfigs reads))
  exact ⟨earlier, hearlier⟩

end ConfigStream

namespace Daemon

variable {s t : Daemon Config}

/-- Steps that neither begin nor end a stream, nor receive on it. -/
def keepsStream : DaemonAction → Bool
  | .connect | .disconnect | .logout | .receive _ => false
  | _ => true

theorem step_keepsStream {action : DaemonAction} (hkeeps : keepsStream action = true)
    (hstep : s.step parser action = some t) : t.connected = s.connected ∧ t.accepted = s.accepted := by
  cases action with
  | connect => cases hkeeps
  | disconnect => cases hkeeps
  | logout => cases hkeeps
  | receive push => cases hkeeps
  | applyPushed outcome =>
    obtain ⟨push, config, _, ⟨_, rfl⟩ | ⟨error, rfl⟩⟩ := applyPushed_spec hstep <;> exact ⟨rfl, rfl⟩
  | savePushed result =>
    obtain ⟨push, config, report, _, rfl | ⟨error, rfl⟩⟩ := savePushed_spec hstep <;> exact ⟨rfl, rfl⟩
  | reapply outcome =>
    obtain ⟨current, _, rfl⟩ := reapply_spec hstep
    exact ⟨rfl, rfl⟩
  | publish index =>
    obtain ⟨reapplies, published, unseen, rfl, _⟩ := publish_spec hstep
    exact ⟨rfl, rfl⟩
  | consume saveResult =>
    have hreported : ∀ (s : Daemon Config) tick, (s.reportTick tick).connected = s.connected ∧
        (s.reportTick tick).accepted = s.accepted := by
      intro s tick
      rcases reportTick_spec s tick with heq | ⟨status, heq⟩ <;> rw [heq] <;> exact ⟨rfl, rfl⟩
    obtain ⟨reapply, _, _, _, rfl⟩ := consume_spec hstep
    rcases handleTick_spec { s with unseen := false } reapply.status saveResult with
      ⟨reported, heq⟩ | ⟨revision, yaml, _, heq⟩ <;> rw [heq] <;> exact hreported _ _

end Daemon

namespace FeedDevice

variable {published : List (Option DaemonConfig)} {store : DaemonConfigStore} {device next : FeedDevice Config}

/-- A device has its last push from its stream, which is fed from what was published. -/
structure Holds (parser : ConfigParser Config) (published : List (Option DaemonConfig)) (device : FeedDevice Config) :
    Prop where
  saves : device.daemon.SavesCurrent parser
  streaming : ∀ stream ∈ device.stream, device.daemon.connected = true ∧
    device.daemon.accepted = stream.received.getLast? ∧ stream.Fed published
  closed : device.stream = none → device.daemon.accepted = none

theorem Holds.append (h : device.Holds parser published) (more : List (Option DaemonConfig)) :
    device.Holds parser (published ++ more) := by
  refine ⟨h.saves, fun stream hstream => ?_, h.closed⟩
  obtain ⟨hconnected, haccepted, hfed⟩ := h.streaming stream hstream
  exact ⟨hconnected, haccepted, hfed.append more⟩

theorem Holds.connect (h : device.Holds parser published) (held : store.sender.Held published)
    (hstep : device.connect store = some next) : next.Holds parser published := by
  obtain ⟨daemon, hconnect, rfl⟩ := Option.map_eq_some_iff.mp hstep
  have hconnectStep : device.daemon.step parser .connect = some daemon := hconnect
  have hsaves := h.saves.step rfl hconnectStep
  have hnone : device.stream = none := by
    refine Option.eq_none_iff_forall_not_mem.mpr fun stream hstream => ?_
    have hconnected := (h.streaming stream hstream).1
    simp [Daemon.connect, hconnected] at hconnect
  refine ⟨hsaves, fun stream hstream => ?_, fun hclosed => by cases hclosed⟩
  cases hstream
  rw [Daemon.connect_spec hconnect]
  refine ⟨rfl, h.closed hnone, ConfigStream.Fed.new ?_⟩
  rw [held.length]
  exact Nat.lt_succ_self _

theorem Holds.onStream (h : device.Holds parser published) {step : ConfigStream → Option ConfigStream}
    (hkeeps : ∀ stream moved, stream.Fed published → step stream = some moved →
      moved.received = stream.received ∧ moved.Fed published)
    (hstep : device.onStream step = some next) : next.Holds parser published := by
  obtain ⟨moved, hbind, rfl⟩ := Option.map_eq_some_iff.mp hstep
  obtain ⟨stream, hstream, hmoved⟩ := Option.bind_eq_some_iff.mp hbind
  obtain ⟨hconnected, haccepted, hfed⟩ := h.streaming stream hstream
  obtain ⟨hreceived, hmovedFed⟩ := hkeeps stream moved hfed hmoved
  refine ⟨h.saves, fun other hother => ?_, fun hclosed => by cases hclosed⟩
  cases hother
  exact ⟨hconnected, haccepted.trans (congrArg List.getLast? hreceived.symm), hmovedFed⟩

variable {action : DaemonAction}

/-- The end of a stream, by a disconnect or a logout. -/
theorem Holds.left (h : device.Holds parser published) {daemon : Daemon Config}
    (hallowed : device.daemon.keepsPending parser action = true)
    (hstep : device.daemon.step parser action = some daemon) (haccepted : daemon.accepted = none) :
    FeedDevice.Holds parser published ⟨daemon, none⟩ :=
  ⟨h.saves.step hallowed hstep, fun _ hstream => (by cases hstream), fun _ => haccepted⟩

theorem Holds.disconnect (h : device.Holds parser published)
    (hstep : (device.daemon.disconnect.map fun daemon => (⟨daemon, none⟩ : FeedDevice Config)) = some next) :
    next.Holds parser published := by
  obtain ⟨daemon, hleave, rfl⟩ := Option.map_eq_some_iff.mp hstep
  have hleaveStep : device.daemon.step parser .disconnect = some daemon := hleave
  refine h.left rfl hleaveStep ?_
  rw [(Daemon.disconnect_spec hleave).2]
  rfl

/-- All that arrives is accepted, as it was published. -/
theorem Holds.receive (h : device.Holds parser published)
    (hvalid : ∀ config, some config ∈ published → ∃ parsed, parser.parsePushedConfig config = .ok parsed)
    (hstep : device.receive parser = some next) : next.Holds parser published := by
  unfold FeedDevice.receive at hstep
  cases hstream : device.stream with
  | none =>
    rw [hstream] at hstep
    cases hstep
  | some stream =>
    rw [hstream] at hstep
    dsimp only at hstep
    obtain ⟨hconnected, haccepted, hfed⟩ := h.streaming stream hstream
    cases htransit : stream.transit with
    | nil =>
      rw [htransit] at hstep
      cases hstep
    | cons item rest =>
      rw [htransit] at hstep
      cases item with
      | error status => exact h.disconnect hstep
      | ok config =>
        obtain ⟨daemon, hreceive, rfl⟩ := Option.map_eq_some_iff.mp hstep
        have hreceived := hfed.receive htransit
        obtain ⟨position, hreads⟩ := hreceived.received
        obtain ⟨parsed, hparsed⟩ := hvalid config (hreads.mem (by simp))
        have hallowed : device.daemon.keepsPending parser (.receive config) = true := by
          simp [Daemon.keepsPending, hparsed]
        refine ⟨h.saves.receive hallowed hreceive, fun other hother => ?_, fun hclosed => by cases hclosed⟩
        cases hother
        obtain ⟨_, ⟨error, hrefused, _⟩ | ⟨other, _, rfl⟩⟩ := Daemon.receive_spec hreceive
        · rw [hparsed] at hrefused
          cases hrefused
        · exact ⟨hconnected, List.getLast?_concat.symm, hreceived⟩

theorem act_keepsStream (hkeeps : Daemon.keepsStream action = true) :
    device.act parser action = (device.daemon.step parser action).map fun daemon => { device with daemon } := by
  cases action <;> first | rfl | cases hkeeps

theorem Holds.keepsStream (h : device.Holds parser published) (hkeeps : Daemon.keepsStream action = true)
    (hstep : device.act parser action = some next) :
    next.Holds parser published := by
  rw [act_keepsStream hkeeps] at hstep
  obtain ⟨daemon, hdaemon, rfl⟩ := Option.map_eq_some_iff.mp hstep
  obtain ⟨hconnected, haccepted⟩ := Daemon.step_keepsStream hkeeps hdaemon
  have hallowed : device.daemon.keepsPending parser action = true := by
    cases action <;> first | rfl | cases hkeeps
  refine ⟨h.saves.step hallowed hdaemon, fun stream hstream => ?_, fun hclosed => ?_⟩
  · rw [hconnected, haccepted]
    exact h.streaming stream hstream
  · rw [haccepted]
    exact h.closed hclosed

theorem Holds.act (h : device.Holds parser published) (hstep : device.act parser action = some next) :
    next.Holds parser published := by
  cases action with
  | connect => cases hstep
  | receive push => cases hstep
  | disconnect => exact h.disconnect hstep
  | logout =>
    obtain ⟨daemon, hleave, rfl⟩ := Option.map_eq_some_iff.mp hstep
    have hleaveStep : device.daemon.step parser .logout = some daemon := hleave
    refine h.left rfl hleaveStep ?_
    rw [(Daemon.logout_spec hleave).2]
    rfl
  | applyPushed outcome => exact h.keepsStream rfl hstep
  | savePushed result => exact h.keepsStream rfl hstep
  | reapply outcome => exact h.keepsStream rfl hstep
  | publish index => exact h.keepsStream rfl hstep
  | consume saveResult => exact h.keepsStream rfl hstep

end FeedDevice

namespace ConfigFeed

variable {feed next : ConfigFeed Config}

/-- What holds of the controller and its devices after any steps. -/
structure Holds (parser : ConfigParser Config) (feed : ConfigFeed Config) : Prop where
  held : feed.store.sender.Held feed.published
  loaded : ∀ config, some config ∈ feed.published →
    ∃ read, parser.load feed.watch.path feed.watch.revision read = .ok config
  devices : ∀ id, (feed.devices id).Holds parser feed.published

theorem Holds.valid (h : feed.Holds parser) (hmem : some config ∈ feed.published) :
    ∃ parsed, parser.parsePushedConfig config = .ok parsed := by
  obtain ⟨read, hload⟩ := h.loaded config hmem
  obtain ⟨_, parsed, _, _, hparsed⟩ := ConfigParser.load_ok hload
  exact ⟨parsed, hparsed⟩

theorem Holds.start {initial : Option DaemonConfig} {watch : ConfigWatch} (current : String → Option Config)
    (sequence : String → Nat) (saved : String → Option Bytes)
    (hinitial : ∀ config ∈ initial, ∃ read, parser.load watch.path watch.revision read = .ok config) :
    (ConfigFeed.start initial watch fun id => Daemon.started (current id) (sequence id) (saved id)).Holds parser := by
  refine ⟨Watch.Held.new initial, fun config hmem => hinitial config (List.mem_singleton.mp hmem).symm, fun id => ?_⟩
  have hsaves : (Daemon.started (current id) (sequence id) (saved id)).SavesCurrent parser :=
    ⟨fun _ h => (by cases h), fun _ h => (by cases h), fun _ h => (by cases h)⟩
  exact ⟨hsaves, fun _ h => (by cases h), fun _ => rfl⟩

theorem Holds.onDevice (h : feed.Holds parser) {id : String} {step : FeedDevice Config → Option (FeedDevice Config)}
    (hkeeps : ∀ device moved, device.Holds parser feed.published → step device = some moved →
      moved.Holds parser feed.published)
    (hstep : feed.onDevice id step = some next) : next.Holds parser := by
  obtain ⟨moved, hmoved, rfl⟩ := Option.map_eq_some_iff.mp hstep
  refine ⟨h.held, h.loaded, fun other => ?_⟩
  by_cases hid : other = id
  · subst hid
    simpa using hkeeps _ moved (h.devices other) hmoved
  · simpa [hid] using h.devices other

theorem Holds.handle (h : feed.Holds parser) (events : Except String (List WatchEvent)) (target : Option Path)
    (read : Except String Bytes) : (feed.handle parser events target read).Holds parser := by
  have hfile := ConfigWatch.handle_file parser feed.watch events target read feed.store
  have hsender := ConfigWatch.handle_sender parser feed.watch events target read feed.store
  dsimp only [ConfigFeed.handle]
  generalize feed.watch.handle parser events target read feed.store = handled at hfile hsender ⊢
  have hloaded : ∀ config, some config ∈ feed.published →
      ∃ read, parser.load handled.1.path handled.1.revision read = .ok config := by
    rw [hfile.1, hfile.2]
    exact h.loaded
  rcases hsender with hsame | ⟨config, hload, hnew⟩
  · rw [if_pos (congrArg Watch.version hsame)]
    exact ⟨hsame ▸ h.held, hloaded, h.devices⟩
  · have hversion : ¬ handled.2.sender.version = feed.store.sender.version := by
      rw [hnew]
      exact Nat.succ_ne_self _
    have hcurrent : handled.2.current = some config := by
      rw [DaemonConfigStore.current, hnew]
      rfl
    rw [if_neg hversion, hcurrent]
    refine ⟨hnew ▸ h.held.sendReplace _, fun other hmem => ?_, fun id => (h.devices id).append _⟩
    rcases List.mem_append.mp hmem with hmem | hmem
    · exact hloaded other hmem
    · cases List.mem_singleton.mp hmem
      rw [hfile.1, hfile.2]
      exact ⟨read, hload⟩

theorem Holds.step (h : feed.Holds parser) {action : FeedAction} (hstep : feed.step parser action = some next) :
    next.Holds parser := by
  have hstream : ∀ {id : String} {step : ConfigStream → Option ConfigStream},
      (∀ stream moved, stream.Fed feed.published → step stream = some moved →
        moved.received = stream.received ∧ moved.Fed feed.published) →
      feed.onDevice id (·.onStream step) = some next → next.Holds parser := fun hkeeps =>
    h.onDevice fun _ _ hdevice => hdevice.onStream hkeeps
  cases action with
  | batch events target read =>
    cases hstep
    exact h.handle events target read
  | connect id => exact h.onDevice (fun _ _ hdevice => hdevice.connect h.held) hstep
  | borrow id => exact hstream (fun _ _ hfed => hfed.borrow h.held) hstep
  | send id => exact hstream (fun _ _ hfed => hfed.send) hstep
  | changed id => exact hstream (fun _ _ hfed => hfed.changed h.held) hstep
  | refuse id status => exact hstream (fun _ _ hfed => hfed.refuse) hstep
  | forward id => exact hstream (fun _ _ hfed => hfed.forward) hstep
  | receive id => exact h.onDevice (fun _ _ hdevice => hdevice.receive fun _ => h.valid) hstep
  | daemon id action => exact h.onDevice (fun _ _ hdevice => hdevice.act) hstep

theorem Holds.run (h : feed.Holds parser) {actions : List FeedAction}
    (hrun : execute (ConfigFeed.step parser) (fun _ _ => true) actions feed = some next) : next.Holds parser :=
  execute_invariant (fun _ _ _ hholds _ hstep => hholds.step hstep) h hrun

/-- A device whose stream is at rest has the current configuration. -/
theorem Holds.at_rest (h : feed.Holds parser) {id : String} {stream : ConfigStream}
    (hstream : (feed.devices id).stream = some stream) (hrest : stream.AtRest feed.store.sender)
    (hcurrent : feed.store.current = some config) : (feed.devices id).daemon.accepted = some config := by
  obtain ⟨_, haccepted, hfed⟩ := (h.devices id).streaming stream hstream
  exact haccepted.trans (hfed.last_eq h.held hrest hcurrent)

end ConfigFeed

end AgentDesktop
