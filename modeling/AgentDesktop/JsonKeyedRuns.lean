import AgentDesktop.JsonKeyedState
import AgentDesktop.JsonRemergeRuns

namespace AgentDesktop

/-- What a run of merges and edits comes down to for the keyed arrays: the file
as the user last left it, the merges that count from there (the last one before
the edit and those since), and all merges. -/
structure KeyedHistory where
  left : Stored
  recent : List Json := []
  merges : List Json := []

variable {β : Type}

def KeyedHistory.step (codec : Codec β) (format : JsonFormat) (history : KeyedHistory) : FileEvent β → KeyedHistory
  | .merge managed => { history with recent := history.recent ++ [managed], merges := history.merges ++ [managed] }
  | .edit entry => { history with left := stored codec format entry, recent := history.recent.getLast?.toList }

def keyedHistory (codec : Codec β) (format : JsonFormat) (start : Stored) (events : List (FileEvent β)) :
    KeyedHistory :=
  events.foldl (KeyedHistory.step codec format) ⟨start, [], []⟩

/-- Every merge is of a managed document with keys, and the user leaves the keyed
arrays as arrays or not at all. -/
def FileEvent.Keyed (codec : Codec β) (options : MergeOptions) (array : Bool) : FileEvent β → Prop
  | .merge managed => ManagedKeys options.keyedArrays array managed.value
  | .edit entry => (stored codec options.format entry).Keyable options.keyedArrays array

/-- The states of a run, by its history. -/
structure KeyedRun (options : MergeOptions) (array : Bool) (history : KeyedHistory) (s : DocState) : Prop where
  state : KeyedState options.keyedArrays array history.recent.getLast? s
  kept : ∀ keyed ∈ options.keyedArrays, (s.file.elementsOf keyed).filter (options.free keyed history.recent) =
    (history.left.elementsOf keyed).filter (options.free keyed history.recent)
  settled : ∀ keyed ∈ options.keyedArrays, ∀ element ∈ s.file.elementsOf keyed,
    options.free keyed history.recent.getLast?.toList element = true → options.free keyed history.recent element = true
  recent : ∀ managed ∈ history.recent, managed ∈ history.merges
  last : history.merges.getLast? = history.recent.getLast?

variable {options : MergeOptions} {array : Bool} {history : KeyedHistory} {s : DocState} {keyed : KeyedArray}

theorem MergeOptions.free_mono {options : MergeOptions} {some all : List Json} (h : ∀ managed ∈ some, managed ∈ all)
    {element : Value} (free : options.free keyed all element = true) :
    options.free keyed some element = true :=
  MergeOptions.free_iff.mpr fun managed hm => MergeOptions.free_iff.mp free managed (h managed hm)

/-- Filtering by fewer documents first changes nothing. -/
theorem filter_free_of_subset {some all : List Json} (h : ∀ managed ∈ some, managed ∈ all) (elements : List Value) :
    (elements.filter (options.free keyed some)).filter (options.free keyed all) =
      elements.filter (options.free keyed all) := by
  rw [List.filter_filter]
  refine List.filter_congr fun element _ => ?_
  cases hall : options.free keyed all element with
  | false => rfl
  | true => rw [MergeOptions.free_mono h hall, Bool.true_and]

variable {managed : Json}

theorem free_of_managed (keys : ManagedKeys options.keyedArrays array managed.value) (hk : keyed ∈ options.keyedArrays)
    {documents : List Json} (hm : managed ∈ documents) :
    (elementsOf keyed managed.value).filter (options.free keyed documents) = [] := by
  refine List.filter_eq_nil_iff.mpr fun element he hfree => ?_
  have howned := keys.owned hk he
  rw [MergeOptions.free_iff.mp hfree managed hm] at howned
  cases howned

theorem mem_of_mem_getLast? {documents : List Json} (h : managed ∈ documents.getLast?.toList) :
    managed ∈ documents :=
  List.mem_of_getLast? (Option.mem_toList.mp h)

/-- The elements a merge leaves. -/
structure MergedElements (options : MergeOptions) (history : KeyedHistory) (managed : Json) (keyed : KeyedArray)
    (elements : List Value) : Prop where
  managedOnce : elements.filter (ownedBy options.keyedArrays keyed managed.value) = elementsOf keyed managed.value
  previousGone : ∀ previous ∈ history.merges.getLast?, ∀ element ∈ elements,
    ownedBy options.keyedArrays keyed previous.value element = true →
      ownedBy options.keyedArrays keyed managed.value element = true
  userKept : elements.filter (options.free keyed (history.merges ++ [managed])) =
    (history.left.elementsOf keyed).filter (options.free keyed (history.merges ++ [managed]))

namespace KeyedRun

theorem start (file : s.file.Keyable options.keyedArrays array) (fresh : s.sidecar = .ok none) :
    KeyedRun options array ⟨s.file, [], []⟩ s :=
  ⟨⟨file, none, fresh, .fresh⟩, fun _ _ => rfl, fun _ _ _ _ h => h, fun _ h => h, rfl⟩

theorem merge (h : KeyedRun options array history s) (spares : options.sparesKeyed = true)
    (keys : ManagedKeys options.keyedArrays array managed.value) :
    KeyedRun options array { history with recent := history.recent ++ [managed], merges := history.merges ++ [managed] }
      (s.merge options false managed) := by
  obtain ⟨hstate, helements⟩ := h.state.merge spares keys
  have hsub : ∀ other ∈ history.recent.getLast?.toList ++ [managed], other ∈ history.recent ++ [managed] := by
    intro other ho
    rcases List.mem_append.mp ho with ho | ho
    · exact List.mem_append_left _ (mem_of_mem_getLast? ho)
    · exact List.mem_append_right _ ho
  refine ⟨by simpa using hstate, fun keyed hk => ?_, fun keyed hk element he hfree => ?_, ?_, by simp⟩
  · have hrecent : ∀ other ∈ history.recent, other ∈ history.recent ++ [managed] :=
      fun other ho => List.mem_append_left _ ho
    rw [helements keyed hk, List.filter_append, free_of_managed keys hk (by simp), List.append_nil,
      filter_free_of_subset hsub, ← filter_free_of_subset hrecent (s.file.elementsOf keyed), h.kept keyed hk,
      filter_free_of_subset hrecent]
  · rw [helements keyed hk] at he
    rcases List.mem_append.mp he with hold | hmanaged
    · obtain ⟨hmem, hboth⟩ := List.mem_filter.mp hold
      rw [MergeOptions.free_append, Bool.and_eq_true] at hboth ⊢
      exact ⟨h.settled keyed hk element hmem hboth.1, hboth.2⟩
    · have howned := keys.owned hk hmanaged
      rw [MergeOptions.free_iff.mp hfree managed (by simp)] at howned
      cases howned
  · intro other ho
    rcases List.mem_append.mp ho with ho | ho
    · exact List.mem_append_left _ (h.recent other ho)
    · exact List.mem_append_right _ ho

theorem edit (h : KeyedRun options array history s) {left : Stored} (file : left.Keyable options.keyedArrays array) :
    KeyedRun options array { history with left, recent := history.recent.getLast?.toList } ⟨left, s.sidecar⟩ := by
  have hlast : history.recent.getLast?.toList.getLast? = history.recent.getLast? := by
    cases history.recent.getLast? <;> rfl
  refine ⟨⟨file, by rw [hlast]; exact h.state.sidecar⟩, fun _ _ => rfl, ?_, ?_, by rw [h.last, hlast]⟩
  · intro keyed _ element _ hfree
    rwa [hlast] at hfree
  · exact fun managed hm => h.recent managed (mem_of_mem_getLast? hm)

/-- The elements after a merge that follows the run. -/
theorem merged_elements (h : KeyedRun options array history s) (spares : options.sparesKeyed = true)
    (keys : ManagedKeys options.keyedArrays array managed.value) (hk : keyed ∈ options.keyedArrays) :
    MergedElements options history managed keyed ((s.merge options false managed).file.elementsOf keyed) := by
  have hall := (h.merge spares keys).kept keyed hk
  have helements := (h.state.merge spares keys).2 keyed hk
  have hold : ∀ element ∈ (s.file.elementsOf keyed).filter
      (options.free keyed (history.recent.getLast?.toList ++ [managed])),
      ∀ other ∈ history.recent.getLast?.toList ++ [managed],
        ownedBy options.keyedArrays keyed other.value element = false :=
    fun element he => MergeOptions.free_iff.mp (List.mem_filter.mp he).2
  constructor
  · have hnone : ((s.file.elementsOf keyed).filter
        (options.free keyed (history.recent.getLast?.toList ++ [managed]))).filter
          (ownedBy options.keyedArrays keyed managed.value) = [] :=
      List.filter_eq_nil_iff.mpr fun element he => by simp [hold element he managed (by simp)]
    rw [helements, List.filter_append, hnone, List.nil_append]
    exact List.filter_eq_self.mpr fun element he => keys.owned hk he
  · intro previous hprevious element he howned
    rw [helements] at he
    rw [h.last] at hprevious
    rcases List.mem_append.mp he with he | he
    · rw [hold element he previous (List.mem_append_left _ (Option.mem_toList.mpr hprevious))] at howned
      cases howned
    · exact keys.owned hk he
  · have hsub : ∀ other ∈ history.recent ++ [managed], other ∈ history.merges ++ [managed] :=
      (h.merge spares keys).recent
    rw [← filter_free_of_subset hsub, hall, filter_free_of_subset hsub]

/-- The elements a removal after the run leaves. -/
theorem removed_elements (h : KeyedRun options array history s) (hk : keyed ∈ options.keyedArrays) :
    (s.remove options).file.elementsOf keyed =
      (history.left.elementsOf keyed).filter (options.free keyed history.recent) := by
  rw [h.state.remove hk, ← h.kept keyed hk]
  refine List.filter_congr fun element he => Bool.eq_iff_iff.mpr ⟨h.settled keyed hk element he, ?_⟩
  exact MergeOptions.free_mono fun managed => mem_of_mem_getLast?

end KeyedRun

variable [DecidableEq β]

theorem runEvents_keyed {codec : Codec β} {env : ApplyEnv β} {target : MergeTarget} {world : World β}
    (hne : target.statePath ≠ target.path) (reliable : Reliable env) (spares : target.options.sparesKeyed = true)
    {events : List (FileEvent β)} (keyed : ∀ event ∈ events, event.Keyed codec target.options array)
    (h : KeyedRun target.options array history (target.view codec world.files)) :
    KeyedRun target.options array (events.foldl (KeyedHistory.step codec target.options.format) history)
      (target.view codec (runEvents codec env target events world).files) := by
  unfold runEvents
  induction events generalizing world history with
  | nil => exact h
  | cons event rest ih =>
    refine ih (fun other ho => keyed other (List.mem_cons_of_mem _ ho)) ?_
    have hevent := keyed event (by simp)
    cases event with
    | merge managed =>
      rw [FileEvent.step, mergeInto_view codec false managed world hne (Or.inl reliable)]
      exact h.merge spares hevent
    | edit entry =>
      rw [FileEvent.edit_view hne]
      exact h.edit hevent

/-- Keyed arrays over whole runs of merges and edits. -/
theorem keyed_arrays_over_runs (codec : Codec β) (env : ApplyEnv β) (reliable : Reliable env) (path : Path)
    (description displayName : String) (options : MergeOptions) (spares : options.sparesKeyed = true) (array : Bool)
    (world : World β) (user : (stored codec options.format (world.files path)).Keyable options.keyedArrays array)
    (fresh : world.files (statePath path) = .absent) (events : List (FileEvent β))
    (keyedEvents : ∀ event ∈ events, event.Keyed codec options array) :
    let target := userTarget path description displayName options
    let history := keyedHistory codec options.format (stored codec options.format (world.files path)) events
    let now := runEvents codec env target events world
    let elements := fun (keyed : KeyedArray) (world : World β) =>
      (stored codec options.format (world.files path)).elementsOf keyed
    ∀ keyed ∈ options.keyedArrays,
      (∀ managed : Json, ManagedKeys options.keyedArrays array managed.value →
        MergedElements options history managed keyed
          (elements keyed (mergeInto codec env target false managed now).1)) ∧
      elements keyed (removeFrom codec env target now).1 =
        (history.left.elementsOf keyed).filter (options.free keyed history.recent) := by
  intro target history now elements keyed hk
  have hne : target.statePath ≠ target.path := statePath_ne path
  have hside : (target.view codec world.files).sidecar = .ok none :=
    congrArg DocState.sidecar (userTarget_view_fresh codec description displayName options fresh)
  have hstart : KeyedRun target.options array ⟨stored codec options.format (world.files path), [], []⟩
      (target.view codec world.files) := KeyedRun.start user hside
  have hrun : KeyedRun target.options array history (target.view codec now.files) :=
    runEvents_keyed hne reliable spares keyedEvents hstart
  constructor
  · intro managed keys
    have hmerged := congrArg DocState.file (mergeInto_view codec false managed now hne (Or.inl reliable))
    have helements := hrun.merged_elements spares keys hk
    rw [← hmerged] at helements
    exact helements
  · exact (congrArg (Stored.elementsOf keyed) (removeFrom_file hne reliable now)).trans (hrun.removed_elements hk)

/-- Providers by name. -/
def namedProviders : KeyedArray := ⟨"providers", ["name"]⟩

def provider (name : String) : Value := .object [("name", .string name)]

def providerDocument (name : String) : Json := ⟨.object [("providers", .array [provider name])], rfl⟩

theorem providerDocument_managed (name : String) :
    ManagedKeys [namedProviders] false (providerDocument name).value := by
  refine ⟨⟨rfl, ?_⟩, ?_, ?_⟩
  · intro keyed hk
    rw [List.mem_singleton.mp hk]
    rfl
  · intro keyed hk element he
    rw [List.mem_singleton.mp hk] at he ⊢
    rw [show element = provider name from List.mem_singleton.mp he]
    rfl
  · intro keyed hk
    rw [List.mem_singleton.mp hk]
    exact List.nodup_singleton [name]

/-- A provider the user adds themselves after the merge that managed it and one
that no longer does. -/
def readdedProvider : List (FileEvent Contents) :=
  [.merge (providerDocument "a"), .merge (providerDocument "b"), .edit (.file (.json (providerDocument "a")) 0o644)]

theorem readdedProvider_keyed (options : MergeOptions) (h : options.keyedArrays = [namedProviders]) :
    ∀ event ∈ readdedProvider, event.Keyed contentsCodec options false := by
  have hstored : ∀ format, stored contentsCodec format (.file (.json (providerDocument "a")) 0o644) =
      .document (providerDocument "a") := by
    intro format
    cases format <;> rfl
  intro event he
  simp only [readdedProvider, List.mem_cons, List.not_mem_nil, or_false] at he
  rcases he with rfl | rfl | rfl
  · rw [FileEvent.Keyed, h]
    exact providerDocument_managed "a"
  · rw [FileEvent.Keyed, h]
    exact providerDocument_managed "b"
  · rw [FileEvent.Keyed, hstored, h]
    exact (providerDocument_managed "a").toKeyable

theorem keyed_arrays_readded_provider :
    let target := userTarget ["settings.json"] "settings" "Test" { keyedArrays := [namedProviders] }
    (stored contentsCodec .json ((removeFrom contentsCodec {} target
      (runEvents contentsCodec {} target readdedProvider darkSettings)).1.files ["settings.json"])).elementsOf
        namedProviders = [provider "a"] :=
  (keyed_arrays_over_runs contentsCodec {} reliable_default ["settings.json"] "settings"
    "Test" { keyedArrays := [namedProviders] } rfl false darkSettings
    ⟨rfl, fun keyed hk => by rw [List.mem_singleton.mp hk]; rfl⟩ rfl readdedProvider
    (readdedProvider_keyed _ rfl) namedProviders (by simp)).2

/-- Removal leaves an element whose key was managed earlier in the run, and a
keyed array that is replaced as a whole loses the user's elements. -/
theorem readded_provider_left_replaced_provider_lost :
    let options : MergeOptions := { keyedArrays := [namedProviders] }
    let target := userTarget ["settings.json"] "settings" "Test" options
    let history := keyedHistory contentsCodec .json (stored contentsCodec .json (darkSettings.files ["settings.json"]))
      readdedProvider
    let replacing := userTarget ["settings.json"] "settings" "Test" { options with replacePaths := ["/providers"] }
    let replaced := runEvents contentsCodec {} replacing
      [.edit (.file (.json (providerDocument "a")) 0o644), .merge (providerDocument "b")] darkSettings
    ((∀ event ∈ readdedProvider, event.Keyed contentsCodec options false) ∧
      (history.left.elementsOf namedProviders).filter (options.free namedProviders history.merges) = [] ∧
      (stored contentsCodec .json ((removeFrom contentsCodec {} target
        (runEvents contentsCodec {} target readdedProvider darkSettings)).1.files ["settings.json"])).elementsOf
          namedProviders = [provider "a"]) ∧
    (stored contentsCodec .json (replaced.files ["settings.json"])).elementsOf namedProviders = [provider "b"] :=
  ⟨⟨readdedProvider_keyed _ rfl, rfl, rfl⟩, by decide +kernel⟩

end AgentDesktop
