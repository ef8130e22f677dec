import AgentDesktop.JsonRemerge

namespace AgentDesktop

variable {β : Type} [DecidableEq β]

section

variable {codec : Codec β} {env : ApplyEnv β} {target : MergeTarget} {world : World β} {managedDocuments : List Json}
  {original : Stored}

theorem mergeAll_unedited (hne : target.statePath ≠ target.path) (unkeyed : target.options.keyedArrays = [])
    (reliable : Reliable env) (user : original.isUserFile = true)
    (h : Unedited target.options original (target.view codec world.files))
    (objects : ∀ managed ∈ managedDocuments, managed.value.isObject = true) :
    Unedited target.options original (target.view codec (mergeAll codec env target managedDocuments world).files) := by
  unfold mergeAll runEvents
  induction managedDocuments generalizing world with
  | nil => exact h
  | cons managed rest ih =>
    have object := objects managed (by simp)
    refine ih ?_ fun other ho => objects other (List.mem_cons_of_mem _ ho)
    rw [FileEvent.step, mergeInto_view codec false managed world hne (Or.inl reliable),
      h.merge_eq unkeyed user object]
    exact .merged managed object

theorem Unedited.mergeable {s : DocState} {options : MergeOptions} (h : Unedited options original s)
    (user : original.isUserFile = true) {managed : Json} (object : managed.value.isObject = true) :
    s.Mergeable managed := by
  cases h with
  | fresh => exact ⟨⟨none, rfl⟩, _, Stored.existing_object object user⟩
  | merged previous hprevious =>
    refine ⟨⟨_, rfl⟩, _, Stored.existing_object object ?_⟩
    exact Json.merge_isObject options original.base hprevious

/-- The last merge of an unedited run, repeated, plans nothing for the file. -/
theorem last_merge_in_place (hne : target.statePath ≠ target.path) (unkeyed : target.options.keyedArrays = [])
    (reliable : Reliable env) (user : original.isUserFile = true)
    (h : Unedited target.options original (target.view codec world.files)) {last : Json}
    (object : last.value.isObject = true) :
    ∃ plan, planMergeWith codec env.host (mergeInto codec env target false last world).1.files target last false {} =
        .ok plan ∧ ∀ change ∈ plan.operations, change.path ≠ target.path := by
  obtain ⟨state, hstate, hcontents, hmode⟩ :=
    mergeInto_contents codec false last world hne reliable (h.mergeable user object)
  have hview : target.view codec (mergeInto codec env target false last world).1.files =
      settledState target.options (decide (original = .absent)) original.base last := by
    rw [mergeInto_view codec false last world hne (Or.inl reliable), h.merge_eq unkeyed user object]
  have hagain : Unedited target.options original
      (target.view codec (mergeInto codec env target false last world).1.files) := hview ▸ .merged last object
  refine planMergeWith_in_place hne (hagain.mergeable user object) ?_ hcontents hmode
  rw [hagain.merge_eq unkeyed user object, ← h.merge_eq unkeyed user object, hstate]

theorem removeFrom_file (hne : target.statePath ≠ target.path) (reliable : Reliable env) (world : World β) :
    stored codec target.options.format ((removeFrom codec env target world).1.files target.path) =
      ((target.view codec world.files).remove target.options).file :=
  congrArg DocState.file (removeFrom_view codec world hne reliable)

theorem removeFrom_no_sidecar (hne : target.statePath ≠ target.path) (reliable : Reliable env)
    (h : ((target.view codec world.files).remove target.options).sidecar = .ok none) :
    (removeFrom codec env target world).1.files target.statePath = .absent := by
  rw [← removeFrom_view codec world hne reliable] at h
  exact absent_of_sidecar h

theorem Edited.removals_agree (hne : target.statePath ≠ target.path) (unkeyed : target.options.keyedArrays = [])
    (reliable : Reliable env) (h : Edited target.options (target.view codec world.files)) {state : MergeState}
    (recorded : (target.view codec world.files).sidecar = .ok (some state))
    (kept : "" ∉ target.options.replacePaths ∨ ∃ document, (target.view codec world.files).file = .document document)
    (objects : ∀ managed ∈ managedDocuments, managed.value.isObject = true) :
    (stored codec target.options.format ((removeFrom codec env target
        (mergeAll codec env target managedDocuments world)).1.files target.path)).asDocument =
      (stored codec target.options.format ((removeFrom codec env target world).1.files target.path)).asDocument ∧
    (removeFrom codec env target (mergeAll codec env target managedDocuments world)).1.files target.statePath =
      .absent ∧
    (removeFrom codec env target world).1.files target.statePath = .absent := by
  obtain ⟨hsame, hgone⟩ := h.remove_after_mergeAll unkeyed recorded kept objects
  rw [← mergeAll_view hne reliable managedDocuments] at hsame hgone
  refine ⟨?_, removeFrom_no_sidecar hne reliable hgone, removeFrom_no_sidecar hne reliable (h.remove_sidecar recorded)⟩
  rw [removeFrom_file hne reliable, removeFrom_file hne reliable]
  exact hsame

theorem Unedited.last_merge (hne : target.statePath ≠ target.path) (unkeyed : target.options.keyedArrays = [])
    (reliable : Reliable env) (user : original.isUserFile = true)
    (h : Unedited target.options original (target.view codec world.files)) {last : Json}
    (objects : ∀ managed ∈ managedDocuments ++ [last], managed.value.isObject = true) :
    (stored codec target.options.format ((removeFrom codec env target
        (mergeAll codec env target (managedDocuments ++ [last]) world)).1.files target.path)).asDocument =
      original.asDocument ∧
    (removeFrom codec env target (mergeAll codec env target (managedDocuments ++ [last]) world)).1.files
      target.statePath = .absent ∧
    stored codec target.options.format
        ((mergeAll codec env target (managedDocuments ++ [last]) world).files target.path) =
      .document (Json.merge target.options original.base last) ∧
    ∃ plan, planMergeWith codec env.host (mergeAll codec env target (managedDocuments ++ [last]) world).files target
        last false {} = .ok plan ∧ ∀ change ∈ plan.operations, change.path ≠ target.path := by
  have object := objects last (by simp)
  have hbefore : Unedited target.options original
      (target.view codec (mergeAll codec env target managedDocuments world).files) :=
    mergeAll_unedited hne unkeyed reliable user h fun managed hm => objects managed (List.mem_append_left _ hm)
  have hstep : mergeAll codec env target (managedDocuments ++ [last]) world =
      (mergeInto codec env target false last (mergeAll codec env target managedDocuments world)).1 := by
    simp [mergeAll, runEvents, FileEvent.step]
  have hview : target.view codec (mergeAll codec env target (managedDocuments ++ [last]) world).files =
      settledState target.options (decide (original = .absent)) original.base last := by
    rw [hstep, mergeInto_view codec false last _ hne (Or.inl reliable), hbefore.merge_eq unkeyed user object]
  have hmerged : Unedited target.options original
      (target.view codec (mergeAll codec env target (managedDocuments ++ [last]) world).files) :=
    hview ▸ .merged last object
  obtain ⟨hfile, hside, _⟩ := hmerged.remove_file unkeyed user
  refine ⟨?_, removeFrom_no_sidecar hne reliable hside, congrArg DocState.file hview, ?_⟩
  · rw [removeFrom_file hne reliable]
    exact hfile
  · rw [hstep]
    exact last_merge_in_place hne unkeyed reliable user hbefore object

end

/-- Merging again is invisible to removal. With a whole document replaced, this
is so as long as the file holds a document. -/
theorem remerging_invisible_to_removal (codec : Codec β) (env : ApplyEnv β) (reliable : Reliable env) (path : Path)
    (description displayName : String) (options : MergeOptions) (unkeyed : options.keyedArrays = [])
    (world : World β) (user : (stored codec options.format (world.files path)).isUserFile = true)
    (fresh : world.files (statePath path) = .absent) :
    let target := userTarget path description displayName options
    let fileOf := fun world : World β => (stored codec options.format (world.files path)).asDocument
    let removed := fun world : World β => (removeFrom codec env target world).1
    (∀ events, (∀ event ∈ events, event.ordinary codec options.format = true) →
      ∀ state, sidecar codec ((runEvents codec env target events world).files (statePath path)) = .ok (some state) →
      ("" ∉ options.replacePaths ∨ ∃ document, stored codec options.format
        ((runEvents codec env target events world).files path) = .document document) →
      ∀ managedDocuments : List Json, (∀ managed ∈ managedDocuments, managed.value.isObject = true) →
        let now := runEvents codec env target events world
        let later := mergeAll codec env target managedDocuments now
        fileOf (removed later) = fileOf (removed now) ∧
          (removed later).files (statePath path) = .absent ∧ (removed now).files (statePath path) = .absent) ∧
    ∀ (managedDocuments : List Json) (last : Json),
      (∀ managed ∈ managedDocuments ++ [last], managed.value.isObject = true) →
        let merged := mergeAll codec env target (managedDocuments ++ [last]) world
        fileOf (removed merged) = fileOf world ∧ (removed merged).files (statePath path) = .absent ∧
          stored codec options.format (merged.files path) =
            .document (Json.merge options (stored codec options.format (world.files path)).base last) ∧
          ∃ plan, planMergeWith codec env.host merged.files target last false {} = .ok plan ∧
            ∀ change ∈ plan.operations, change.path ≠ path := by
  intro target fileOf removed
  have hne : target.statePath ≠ target.path := statePath_ne path
  have hview : target.view codec world.files = ⟨stored codec options.format (world.files path), .ok none⟩ :=
    userTarget_view_fresh codec description displayName options fresh
  constructor
  · intro events ordinary state recorded kept managedDocuments objects
    have hstart : Edited target.options (target.view codec world.files) := by
      rw [hview]
      exact ⟨user, ⟨none, rfl⟩, by simp⟩
    have hnow := runEvents_edited hne unkeyed reliable ordinary hstart
    exact hnow.removals_agree hne unkeyed reliable recorded kept objects
  · intro managedDocuments last objects
    have hstart : Unedited target.options (stored codec options.format (world.files path))
        (target.view codec world.files) := hview ▸ .fresh
    exact hstart.last_merge hne unkeyed reliable user objects

/-- The user has set another theme and switched the proxy off. -/
def proxyOffSettings : Json := ⟨.object [("proxy", .bool false), ("theme", .string "light")], by decide⟩

/-- Merging twice leaves the theme of the user to the removal, and merging once more what the user
has edited since. -/
theorem remerging_invisible_dark_settings :
    let target := userTarget ["settings.json"] "settings" "Test" {}
    let fileOf := fun world : World Contents => (stored contentsCodec .json (world.files ["settings.json"])).asDocument
    let removed := fun world : World Contents => (removeFrom contentsCodec {} target world).1
    let edited := runEvents contentsCodec {} target
      [.merge managedProxy, .edit (.file (.json proxyOffSettings) 0o644)] darkSettings
    fileOf (removed (mergeAll contentsCodec {} target [managedProxy, managedProxy] darkSettings)) =
        .document ⟨.object [("theme", .string "dark")], rfl⟩ ∧
      fileOf (removed (mergeAll contentsCodec {} target [managedProxy] edited)) = .document proxyOffSettings := by
  obtain ⟨hedited, hunedited⟩ := remerging_invisible_to_removal contentsCodec {} reliable_default
    ["settings.json"] "settings" "Test" {} rfl darkSettings rfl rfl
  refine ⟨(hunedited [managedProxy] managedProxy (by simp [managedProxy, Value.isObject])).1, ?_⟩
  exact (hedited [.merge managedProxy, .edit (.file (.json proxyOffSettings) 0o644)]
    (by decide) _ rfl (.inl (by decide)) [managedProxy]
    (by simp [managedProxy, Value.isObject])).1.trans rfl

/-- With the whole document replaced, a merge brings a deleted file back. -/
theorem remerging_restores_deleted_file :
    let target := userTarget ["settings.json"] "settings" "Test" { replacePaths := [""] }
    let now := runEvents contentsCodec {} target [.merge managedProxy, .edit .absent] darkSettings
    let later := mergeAll contentsCodec {} target [managedProxy] now
    (∃ state, sidecar contentsCodec (now.files (statePath ["settings.json"])) = .ok (some state)) ∧
      stored contentsCodec .json ((removeFrom contentsCodec {} target now).1.files ["settings.json"]) = .absent ∧
      stored contentsCodec .json ((removeFrom contentsCodec {} target later).1.files ["settings.json"]) =
        .document ⟨.object [("theme", .string "dark")], rfl⟩ :=
  ⟨⟨_, rfl⟩, rfl, rfl⟩

end AgentDesktop
