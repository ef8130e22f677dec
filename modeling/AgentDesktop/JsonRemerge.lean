import AgentDesktop.JsonInterrupted
import AgentDesktop.JsonMergeKeys

namespace AgentDesktop

variable {β : Type} [DecidableEq β]

/-- What happens to a user file: a merge, or an edit by the user, who may also
delete the file. -/
inductive FileEvent (β : Type) where
  | merge (managed : Json)
  | edit (entry : Entry β)

def FileEvent.step (codec : Codec β) (env : ApplyEnv β) (target : MergeTarget) (world : World β) :
    FileEvent β → World β
  | .merge managed => (mergeInto codec env target false managed world).1
  | .edit entry => { world with files := FileSystem.set world.files target.path entry }

def runEvents (codec : Codec β) (env : ApplyEnv β) (target : MergeTarget) (events : List (FileEvent β))
    (world : World β) : World β :=
  events.foldl (FileEvent.step codec env target) world

def mergeAll (codec : Codec β) (env : ApplyEnv β) (target : MergeTarget) (managedDocuments : List Json)
    (world : World β) : World β :=
  runEvents codec env target (managedDocuments.map .merge) world

/-- Objects are merged, and the user leaves an object, a blank file or none. -/
def FileEvent.ordinary (codec : Codec β) (format : JsonFormat) : FileEvent β → Bool
  | .merge managed => managed.value.isObject
  | .edit entry => (stored codec format entry).isUserFile

/-- The states of a run of merges and edits. A recorded merge was one of objects. -/
structure Edited (options : MergeOptions) (s : DocState) : Prop where
  file : s.file.isUserFile = true
  sidecar : ∃ previous, s.sidecar = .ok previous
  recorded : ∀ state, s.sidecar = .ok (some state) → state.before.value.isObject = true ∧
    state.after.value.isObject = true ∧ ("" ∉ options.replacePaths → KeepsKeys state.before.value state.after.value)

theorem rollback_isObject {current before after : Json} (hc : current.value.isObject = true)
    (hb : before.value.isObject = true) : (current.rollback before after).value.isObject = true := by
  change (rollbackOverlay current.value before.value after.value).isObject = true
  rw [rollbackOverlay_eq]
  split
  next => exact hb
  next =>
    split
    next => exact hc
    next =>
      cases hv : current.value with
      | object fields =>
        rw [rollbackPresent]
        split <;> rfl
      | _ => rw [hv] at hc; cases hc

theorem Stored.base_isObject {file : Stored} (h : file.isUserFile = true) : file.base.value.isObject = true := by
  cases file with
  | document found => exact h
  | _ => rfl

theorem Edited.settled {options : MergeOptions} {created : Bool} {before managed : Json}
    (hb : before.value.isObject = true) (object : managed.value.isObject = true) :
    Edited options (settledState options created before managed) := by
  refine ⟨Json.merge_isObject options before object, ⟨_, rfl⟩, ?_⟩
  intro state hs
  cases hs
  exact ⟨hb, Json.merge_isObject options before object, fun h => Json.merge_keepsKeys h hb object⟩

theorem Edited.remove_sidecar {options : MergeOptions} {s : DocState} (h : Edited options s) {state : MergeState}
    (recorded : s.sidecar = .ok (some state)) : (s.remove options).sidecar = .ok none := by
  have hafter := (h.recorded state recorded).2.1
  obtain ⟨file, side⟩ := s
  cases recorded
  cases file with
  | absent => rfl
  | blank => rfl
  | document found => simp [DocState.remove, sameShape_of_objects h.file hafter]
  | unusable => cases h.file

section

variable {options : MergeOptions} (unkeyed : options.keyedArrays = []) {s : DocState} {managed : Json}

include unkeyed

/-- A merge of objects settles the file. -/
theorem Edited.merge_eq (h : Edited options s) (object : managed.value.isObject = true) :
    ∃ created before, before.value.isObject = true ∧
      s.merge options false managed = settledState options created before managed ∧
      ∀ state, s.sidecar = .ok (some state) →
        created = (decide (s.file = .absent) || state.created) ∧
          before = s.file.base.rollback state.before state.after := by
  obtain ⟨previous, hside⟩ := h.sidecar
  have hbase := Stored.base_isObject h.file
  cases previous with
  | none =>
    refine ⟨decide (s.file = .absent), s.file.base, hbase, ?_, by simp [hside]⟩
    simp [DocState.merge, hside, Stored.existing_object object h.file, Json.user_fresh unkeyed, settledState]
  | some state =>
    refine ⟨decide (s.file = .absent) || state.created, s.file.base.rollback state.before state.after,
      rollback_isObject hbase (h.recorded state hside).1, ?_, ?_⟩
    · simp only [DocState.merge, hside, Stored.existing_object object h.file, Json.user_previous unkeyed]
      rfl
    · intro other ho
      cases Option.some.inj (Except.ok.inj (hside.symm.trans ho))
      exact ⟨rfl, rfl⟩

/-- Removing now and removing after one more merge leave the same document. -/
theorem Edited.remove_after_merge (h : Edited options s) (object : managed.value.isObject = true)
    {state : MergeState} (recorded : s.sidecar = .ok (some state))
    (kept : "" ∉ options.replacePaths ∨ ∃ document, s.file = .document document) :
    ((s.merge options false managed).remove options).file.asDocument = (s.remove options).file.asDocument := by
  obtain ⟨created, before, hbefore, hmerge, hstate⟩ := h.merge_eq unkeyed object
  obtain ⟨hcreated, hb⟩ := hstate state recorded
  obtain ⟨hrecbefore, hrecafter, hkeys⟩ := h.recorded state recorded
  rw [hmerge, settledState_remove unkeyed]
  have hempty : (∀ document, s.file ≠ .document document) →
      Json.emptyObject.rollback state.before state.after = Json.emptyObject := by
    intro hno
    refine rollback_emptyObject hrecbefore hrecafter (hkeys ?_)
    exact kept.resolve_right fun ⟨document, hd⟩ => hno document hd
  obtain ⟨file, side⟩ := s
  cases recorded
  cases file with
  | absent =>
    rw [hcreated, hb.trans (hempty (by simp))]
    rfl
  | blank =>
    rw [hcreated, hb.trans (hempty (by simp))]
    cases hc : state.created <;> simp [DocState.remove, hc, Json.emptyObject, Json.isEmpty, Stored.asDocument]
  | document found =>
    have hshape : sameShape found.value state.after.value = true := sameShape_of_objects h.file hrecafter
    rw [hcreated, hb]
    simp [DocState.remove, hshape, Json.removed_eq unkeyed, Stored.base]
  | unusable => cases h.file

/-- Any number of merges settles the file once. -/
theorem Edited.remove_after_mergeAll (h : Edited options s) {state : MergeState}
    (recorded : s.sidecar = .ok (some state))
    (kept : "" ∉ options.replacePaths ∨ ∃ document, s.file = .document document)
    {managedDocuments : List Json} (objects : ∀ managed ∈ managedDocuments, managed.value.isObject = true) :
    ((managedDocuments.foldl (fun s managed => DocState.merge options false managed s) s).remove
        options).file.asDocument = (s.remove options).file.asDocument ∧
      ((managedDocuments.foldl (fun s managed => DocState.merge options false managed s) s).remove
        options).sidecar = .ok none := by
  cases managedDocuments with
  | nil => exact ⟨rfl, h.remove_sidecar recorded⟩
  | cons managed rest =>
    have object := objects managed (by simp)
    obtain ⟨created, before, _, hmerge, _⟩ := h.merge_eq unkeyed object
    obtain ⟨last, _, hlast⟩ := settledState_mergeAll unkeyed created before object
      fun other ho => objects other (List.mem_cons_of_mem _ ho)
    have hfirst := h.remove_after_merge unkeyed object recorded kept
    rw [hmerge, settledState_remove unkeyed] at hfirst
    rw [List.foldl_cons, hmerge, hlast, settledState_remove unkeyed]
    exact ⟨hfirst, rfl⟩

end

section

variable {codec : Codec β} {env : ApplyEnv β} {target : MergeTarget} {world : World β}

theorem FileEvent.edit_view (hne : target.statePath ≠ target.path) (entry : Entry β) :
    target.view codec (FileEvent.step codec env target world (.edit entry)).files =
      ⟨stored codec target.options.format entry, (target.view codec world.files).sidecar⟩ := by
  simp [MergeTarget.view, FileEvent.step, FileSystem.set, hne]

theorem runEvents_edited (hne : target.statePath ≠ target.path) (unkeyed : target.options.keyedArrays = [])
    (reliable : Reliable env) {events : List (FileEvent β)}
    (ordinary : ∀ event ∈ events, event.ordinary codec target.options.format = true)
    (h : Edited target.options (target.view codec world.files)) :
    Edited target.options (target.view codec (runEvents codec env target events world).files) := by
  unfold runEvents
  induction events generalizing world with
  | nil => exact h
  | cons event rest ih =>
    refine ih (fun other ho => ordinary other (List.mem_cons_of_mem _ ho)) ?_
    have hevent := ordinary event (by simp)
    cases event with
    | merge managed =>
      obtain ⟨created, before, hbefore, hmerge, _⟩ := h.merge_eq unkeyed hevent
      rw [FileEvent.step, mergeInto_view codec false managed world hne (Or.inl reliable), hmerge]
      exact .settled hbefore hevent
    | edit entry =>
      rw [FileEvent.edit_view hne]
      exact ⟨hevent, h.sidecar, h.recorded⟩

theorem mergeAll_view (hne : target.statePath ≠ target.path) (reliable : Reliable env)
    (managedDocuments : List Json) :
    target.view codec (mergeAll codec env target managedDocuments world).files =
      managedDocuments.foldl (fun s managed => DocState.merge target.options false managed s)
        (target.view codec world.files) := by
  unfold mergeAll runEvents
  induction managedDocuments generalizing world with
  | nil => rfl
  | cons managed rest ih =>
    simp only [List.map_cons, List.foldl_cons]
    rw [ih, FileEvent.step, mergeInto_view codec false managed world hne (Or.inl reliable)]

end

end AgentDesktop
