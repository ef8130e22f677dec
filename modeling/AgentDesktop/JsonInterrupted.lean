import AgentDesktop.JsonUnedited

namespace AgentDesktop

/-- File contents as what they parse to. -/
inductive Contents where
  | blank
  | json (document : Json)
  | commented (document : Json)
  | other
  deriving DecidableEq

def contentsCodec : Codec Contents where
  blank contents := decide (contents = .blank)
  parse format contents :=
    match format, contents with
    | _, .json document => some document
    | .jsonc, .commented document => some document
    | _, _ => none
  print := .json
  parse_print format _ := by cases format <;> rfl
  print_not_blank _ := rfl

variable {β : Type} [DecidableEq β]

/-- A managed document to merge, and what happens while the merge is applied. -/
structure Attempt (β : Type) where
  managed : Json
  env : ApplyEnv β

def Attempt.apply (codec : Codec β) (target : MergeTarget) (world : World β) (attempt : Attempt β) :
    World β × Except String Unit :=
  mergeInto codec attempt.env target false attempt.managed world

def attemptAll (codec : Codec β) (target : MergeTarget) (attempts : List (Attempt β)) (world : World β) : World β :=
  attempts.foldl (fun world attempt => (attempt.apply codec target world).1) world

/-- The apply does not stop at its second operation, unless the user's file has
the contents the merge writes to it. -/
def Attempt.Uncut (codec : Codec β) (target : MergeTarget) (world : World β) (attempt : Attempt β) : Prop :=
  (∀ change files, attempt.env.operationFails 1 change files = none) ∨
    ∃ state, (target.view codec world.files).merge target.options false attempt.managed =
        ⟨.document state.after, .ok (some state)⟩ ∧
      (world.files target.path).contents = some (codec.print state.after)

/-- No merge of the run stops between the write of the user's file and that of the sidecar. -/
def Uncut (codec : Codec β) (target : MergeTarget) : World β → List (Attempt β) → Prop
  | _, [] => True
  | world, attempt :: rest =>
    attempt.Uncut codec target world ∧ Uncut codec target (attempt.apply codec target world).1 rest

variable {target : MergeTarget} {world : World β} {codec : Codec β}

/-- A stop after the write of the user's file is one at the second operation. -/
theorem FileOutcome.stopped_at {env : ApplyEnv β} {operations : List (FileChange β)} {file : Stored}
    {side : FileChange β} {plan : ReconcilePlan β} (h : FileOutcome codec target world.files operations file)
    (hne : side.path ≠ target.path) (hplans : Plans world.files (operations ++ [side]) false plan)
    {error : String × ApplyStop} (hstop : (applyTracked env plan world).2 = .error error) :
    (applyTracked env plan world).1.files target.path = world.files target.path ∨
      ∃ change files text, env.operationFails 1 change files = some text := by
  have applied := hplans.applied env (h.distinct hne)
  have hbefore := hplans.stopped_before_last (h.distinct hne) hstop
  have hlength : operations.length ≤ 1 := by cases h <;> simp
  by_cases hnone : (progress plan (applyTracked env plan world).2).1 = 0
  · exact Or.inl (applied.frame target.path fun k change _ hlt => by omega)
  · obtain ⟨text, stopped⟩ := error
    have hone : (progress plan (applyTracked env plan world).2).1 = 1 := by omega
    rw [hstop] at hone
    cases stopped with
    | operation index =>
      obtain rfl : index = 1 := hone
      obtain ⟨change, files, hfail⟩ := applyTracked_operation_fails hstop
      exact Or.inr ⟨change, files, text, hfail⟩
    | registry index path =>
      obtain ⟨keyPlan, hk, _⟩ := applied.keyStop text index path hstop
      simp [hplans.registry] at hk
    | conflict => simp [progress] at hone
    | observed path => simp [progress] at hone
    | privateDir path => simp [progress] at hone

/-- Such a merge completes or leaves the contents of the user's file as they were. -/
theorem Attempt.Uncut.complete_or_same {attempt : Attempt β} (h : attempt.Uncut codec target world)
    (hne : target.statePath ≠ target.path) :
    (attempt.apply codec target world).2 = .ok () ∨
      ((attempt.apply codec target world).1.files target.path).contents = (world.files target.path).contents := by
  unfold Attempt.apply
  rcases planMergeWith_spec codec attempt.env.host world.files target attempt.managed false with
    ⟨error, hplan, _⟩ | ⟨plan, hplan, hplans, _⟩ | ⟨plan, existing, state, hplan, hread, hplans, hmerge⟩
  · exact Or.inr (by rw [mergeInto, hplan])
  · refine Or.inr ?_
    rw [mergeInto, hplan]
    simp only [hplans.apply_without_operations]
  · obtain ⟨operations, hops, houtcome⟩ := mergeOperations_outcome attempt.env.host hread state
    rw [hops] at hplans
    simp only [mergeInto, hplan]
    cases hresult : (applyTracked attempt.env plan world).2 with
    | ok =>
      rw [apply_eq world hresult]
      exact Or.inl rfl
    | error failure =>
      rw [apply_eq world hresult]
      refine Or.inr ?_
      rcases h with hwhole | ⟨other, hother, hcontents⟩
      · rcases houtcome.stopped_at hne hplans hresult with hsame | ⟨change, files, text, hfail⟩
        · rw [hsame]
        · rw [hwhole] at hfail
          cases hfail
      · rcases (houtcome.stopped hne hplans hresult).2 with hsame | ⟨change, hc, heffect⟩
        · rw [hsame]
        · have hstate : other = state := by simpa using congrArg DocState.sidecar (hother.symm.trans hmerge)
          subst hstate
          have hplanned : change.contents = some (codec.print other.after) := houtcome.writes_document hc
          rw [← houtcome.paths change hc, heffect.contents, hplanned, houtcome.paths change hc, hcontents]

/-- One merge of such a run keeps the original document recoverable. -/
theorem attempt_unedited {original : Stored} {attempt : Attempt β} (hne : target.statePath ≠ target.path)
    (unkeyed : target.options.keyedArrays = []) (user : original.isUserFile = true)
    (object : attempt.managed.value.isObject = true)
    (h : Unedited target.options original (target.view codec world.files)) (uncut : attempt.Uncut codec target world) :
    Unedited target.options original (target.view codec (attempt.apply codec target world).1.files) := by
  have completed : (attempt.apply codec target world).2 = .ok () →
      Unedited target.options original (target.view codec (attempt.apply codec target world).1.files) := by
    intro hok
    rw [Attempt.apply, mergeInto_view codec false attempt.managed world hne (Or.inr hok),
      h.merge_eq unkeyed user object]
    exact .merged attempt.managed object
  rcases uncut.complete_or_same hne with hok | hsame
  · exact completed hok
  · cases hresult : (attempt.apply codec target world).2 with
    | ok => exact completed hresult
    | error error =>
      rw [Attempt.apply, mergeInto_stopped_view codec false attempt.managed world hne hresult hsame]
      exact h

theorem attemptAll_unedited {original : Stored} {attempts : List (Attempt β)} (hne : target.statePath ≠ target.path)
    (unkeyed : target.options.keyedArrays = []) (user : original.isUserFile = true)
    (objects : ∀ attempt ∈ attempts, attempt.managed.value.isObject = true)
    (h : Unedited target.options original (target.view codec world.files)) (uncut : Uncut codec target world attempts) :
    Unedited target.options original (target.view codec (attemptAll codec target attempts world).files) := by
  induction attempts generalizing world with
  | nil => exact h
  | cons attempt rest ih =>
    exact ih (fun other ho => objects other (List.mem_cons_of_mem _ ho))
      (attempt_unedited hne unkeyed user (objects attempt (by simp)) h uncut.1) uncut.2

/-- As long as no merge stops between its two writes, the removal at the end
restores the user's file. -/
theorem removal_restores_after_uncut_merges (codec : Codec β) (path : Path) (description displayName : String)
    (world : World β) (attempts : List (Attempt β)) (env : ApplyEnv β) (reliable : Reliable env)
    (user : stored codec .json (world.files path) = .absent ∨
      ∃ document, stored codec .json (world.files path) = .document document ∧ document.value.isObject = true)
    (fresh : world.files (statePath path) = .absent)
    (objects : ∀ attempt ∈ attempts, attempt.managed.value.isObject = true)
    (uncut : Uncut codec (userTarget path description displayName {}) world attempts) :
    stored codec .json ((removeFrom codec env (userTarget path description displayName {})
        (attemptAll codec (userTarget path description displayName {}) attempts world)).1.files path) =
      stored codec .json (world.files path) := by
  let target := userTarget path description displayName {}
  have hne : target.statePath ≠ target.path := statePath_ne path
  have hview : target.view codec world.files = ⟨stored codec .json (world.files path), .ok none⟩ :=
    userTarget_view_fresh codec description displayName {} fresh
  have hfile : (stored codec .json (world.files path)).isUserFile = true := by
    rcases user with h | ⟨document, h, object⟩
    · rw [h]; rfl
    · rw [h]; exact object
  have hblank : stored codec .json (world.files path) ≠ .blank := by
    rcases user with h | ⟨document, h, _⟩ <;> simp [h]
  have hrun := attemptAll_unedited hne rfl hfile objects (hview ▸ .fresh) uncut
  have hremove := removeFrom_view codec (attemptAll codec target attempts world) hne reliable
  have hrestored := (hrun.remove_file rfl hfile).2.2 hblank
  exact (congrArg DocState.file hremove).trans hrestored

/-- A settings file with one value of the user's. -/
def darkSettings : World Contents where
  files path :=
    if path = ["settings.json"] then .file (.json ⟨.object [("theme", .string "dark")], rfl⟩) 0o644 else .absent
  registry _ := .empty

def managedProxy : Json := ⟨.object [("proxy", .bool true)], rfl⟩

/-- The operation at `index` fails. -/
def failsAt (index : Nat) : ApplyEnv Contents where
  operationFails k _ _ := if k = index then some "interrupted" else none

theorem removal_restores_after_failed_first_write :
    stored contentsCodec .json ((removeFrom contentsCodec {} (userTarget ["settings.json"] "settings" "Test" {})
        (attemptAll contentsCodec (userTarget ["settings.json"] "settings" "Test" {})
          [⟨managedProxy, failsAt 0⟩, ⟨managedProxy, {}⟩] darkSettings)).1.files ["settings.json"]) =
      .document ⟨.object [("theme", .string "dark")], rfl⟩ :=
  removal_restores_after_uncut_merges contentsCodec ["settings.json"] "settings" "Test" darkSettings
    [⟨managedProxy, failsAt 0⟩, ⟨managedProxy, {}⟩] {} reliable_default
    (Or.inr ⟨_, rfl, rfl⟩) rfl (by simp [managedProxy, Value.isObject])
    ⟨Or.inl fun _ _ => rfl, Or.inl fun _ _ => rfl, trivial⟩

/-- A first merge that stops after the write of the file and before that of the
sidecar: the next merge takes the managed value for the user's own. -/
theorem removal_keeps_interrupted_merge :
    stored contentsCodec .json ((removeFrom contentsCodec {} (userTarget ["settings.json"] "settings" "Test" {})
        (attemptAll contentsCodec (userTarget ["settings.json"] "settings" "Test" {})
          [⟨managedProxy, failsAt 1⟩, ⟨managedProxy, {}⟩] darkSettings)).1.files ["settings.json"]) =
      .document ⟨.object [("proxy", .bool true), ("theme", .string "dark")], rfl⟩ := by
  rfl

end AgentDesktop
