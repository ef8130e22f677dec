import AgentDesktop.JsonPlanSpec

namespace AgentDesktop

/-- A user file and its sidecar, up to formatting. -/
structure DocState where
  file : Stored
  sidecar : Except Unit (Option MergeState)

/-- The document a merge starts from. -/
def Stored.existing (managed : Json) : Stored → Option Json
  | .absent => some managed.emptyRoot
  | .blank => some managed.emptyRoot
  | .document found => if sameShape found.value managed.value then some found else none
  | .unusable => none

/-- A merge on documents. -/
def DocState.merge (options : MergeOptions) (legacyOwned : Bool) (managed : Json) (s : DocState) : DocState :=
  match s.sidecar, s.file.existing managed with
  | .ok previous, some combined =>
    let created := decide (s.file = .absent) || (previous.map MergeState.created).getD legacyOwned
    let before := Json.user options previous legacyOwned managed combined
    let after := Json.merge options before managed
    ⟨.document after, .ok (some ⟨created, before, after⟩)⟩
  | _, _ => s

/-- The sidecar can be read, and the file holds a document of the managed one's shape. -/
def DocState.Mergeable (managed : Json) (s : DocState) : Prop :=
  (∃ previous, s.sidecar = .ok previous) ∧ ∃ combined, s.file.existing managed = some combined

theorem DocState.merge_of_not_mergeable {options : MergeOptions} {legacyOwned : Bool} {managed : Json}
    {s : DocState} (h : ¬ s.Mergeable managed) : s.merge options legacyOwned managed = s := by
  unfold DocState.merge
  split
  next previous combined hside hfile => exact absurd ⟨⟨previous, hside⟩, combined, hfile⟩ h
  next => rfl

/-- A removal on documents. -/
def DocState.remove (options : MergeOptions) (s : DocState) : DocState :=
  match s.sidecar with
  | .ok (some state) =>
    match s.file with
    | .absent => ⟨.absent, .ok none⟩
    | .blank => ⟨if state.created then .absent else .blank, .ok none⟩
    | .document document =>
      if sameShape document.value state.after.value then
        let settings := Json.removed options state.before state.after document
        ⟨if state.created && settings.isEmpty then .absent else .document settings, .ok none⟩
      else s
    | .unusable => s
  | _ => s

variable {β : Type}

/-- The user file and the sidecar of a target in a file system. -/
def MergeTarget.view (codec : Codec β) (target : MergeTarget) (files : FileSystem β) : DocState :=
  ⟨stored codec target.options.format (files target.path), AgentDesktop.sidecar codec (files target.statePath)⟩

variable {files : FileSystem β}

theorem userTarget_view_fresh (codec : Codec β) {path : Path} (description displayName : String)
    (options : MergeOptions) (fresh : files (statePath path) = .absent) :
    (userTarget path description displayName options).view codec files =
      ⟨stored codec options.format (files path), .ok none⟩ := by
  change DocState.mk _ (AgentDesktop.sidecar codec (files (statePath path))) = _
  rw [fresh]
  rfl

theorem stored_print (codec : Codec β) (format : JsonFormat) (document : Json) (mode : UInt32) :
    stored codec format (.file (codec.print document) mode) = .document document := by
  simp [stored, codec.print_not_blank, codec.parse_print]

theorem sidecar_print (codec : Codec β) (state : MergeState) (mode : UInt32) :
    sidecar codec (.file (codec.print (stateJson state)) mode) = .ok (some state) := by
  simp [sidecar, codec.parse_print, parseState_stateJson]

variable {codec : Codec β} {entry : Entry β}

/-- Whether a file is there, and its contents, decide what it holds. -/
theorem stored_of_contents {format : JsonFormat} {contents : β} (h : entry.contents = some contents) :
    stored codec format entry = stored codec format (.file contents 0) := by
  cases entry with
  | file c mode => cases h; rfl
  | absent => cases h
  | unreadable => cases h

theorem sidecar_of_contents {contents : β} (h : entry.contents = some contents) :
    sidecar codec entry = sidecar codec (.file contents 0) := by
  cases entry with
  | file c mode => cases h; rfl
  | absent => cases h
  | unreadable => cases h

theorem absent_of_sidecar (h : sidecar codec entry = .ok none) :
    entry = .absent := by
  unfold sidecar at h
  split at h
  next => rfl
  next => cases h
  next => split at h <;> cases h

/-- A readable file as the planner sees it. -/
theorem existingDocument_eq (codec : Codec β) (format : JsonFormat) (managed : Json) {path : Path} {existing : Option β}
    (h : readOptional files path = .ok existing) :
    existingDocument codec format managed existing = (stored codec format (files path)).existing managed ∧
      (existing = none ↔ stored codec format (files path) = .absent) := by
  unfold readOptional at h
  split at h
  next hf =>
    cases h
    simp [hf, stored, existingDocument, Stored.existing]
  next contents mode hf =>
    cases h
    simp only [hf, stored, existingDocument]
    split
    next => simp [Stored.existing]
    next =>
      cases codec.parse format contents with
      | some document => simp [Stored.existing]
      | none => simp [Stored.existing]
  next => cases h

theorem stored_document {format : JsonFormat} {document : Json} (h : stored codec format entry = .document document) :
    ∃ contents mode, entry = .file contents mode ∧ codec.parse format contents = some document := by
  unfold stored at h
  split at h
  next => cases h
  next => cases h
  next contents mode =>
    split at h
    next => cases h
    next =>
      split at h
      next found hparse =>
        cases h
        exact ⟨contents, mode, rfl, hparse⟩
      next => cases h

theorem stored_unreadable {format : JsonFormat} {path : Path} (h : readOptional files path = .error ()) :
    stored codec format (files path) = .unusable := by
  unfold readOptional at h
  split at h
  next => cases h
  next => cases h
  next hf => simp [hf, stored]

/-- What file operations on the user's file make of it. -/
inductive FileOutcome (codec : Codec β) (target : MergeTarget) (files : FileSystem β) :
    List (FileChange β) → Stored → Prop where
  | kept : FileOutcome codec target files [] (stored codec target.options.format (files target.path))
  | deleted : FileOutcome codec target files [⟨target.path, none, 0⟩] .absent
  | written (document : Json) (mode : UInt32) :
      FileOutcome codec target files [⟨target.path, some (codec.print document), mode⟩] (.document document)

variable {operations : List (FileChange β)}

theorem FileOutcome.paths {target : MergeTarget} {file : Stored} (h : FileOutcome codec target files operations file) :
    ∀ change ∈ operations, change.path = target.path := by
  cases h <;> simp

/-- A file that ends as a document is written, not removed. -/
theorem FileOutcome.writes_document {target : MergeTarget} {document : Json}
    (h : FileOutcome codec target files operations (.document document)) {change : FileChange β}
    (hc : change ∈ operations) : change.contents = some (codec.print document) := by
  generalize hd : Stored.document document = file at h
  cases h with
  | kept => simp at hc
  | deleted => cases hd
  | written other mode =>
    cases hd
    rw [List.mem_singleton.mp hc]

theorem FileOutcome.distinct {target : MergeTarget} {file : Stored} {side : FileChange β}
    (h : FileOutcome codec target files operations file) (hne : side.path ≠ target.path) :
    ((operations ++ [side]).map FileChange.path).Nodup := by
  cases h <;> simp [Ne.symm hne]

end AgentDesktop
