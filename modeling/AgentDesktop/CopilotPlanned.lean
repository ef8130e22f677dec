import AgentDesktop.CopilotPlan
import AgentDesktop.JsonApplied
import AgentDesktop.JsonUnedited

namespace AgentDesktop

variable {β : Type}

section

variable {codec : Codec β} {files : FileSystem β} {path : Path} {document : Json}

theorem readOptional_document (h : stored codec .json (files path) = .document document) :
    ∃ contents, readOptional files path = .ok (some contents) ∧ codec.parse .json contents = some document := by
  obtain ⟨contents, mode, hfile, hparse⟩ := stored_document h
  exact ⟨contents, by simp [readOptional, hfile], hparse⟩

variable {operations : List (FileChange β)} {conflict : Bool} {plan : ReconcilePlan β}

theorem Plans.readObject (h : Plans files operations conflict plan)
    (hstored : stored codec .json (files path) = .document document) (object : document.value.isObject = true) :
    ∃ next, readObject codec files path plan = .ok (next, some document) ∧ Plans files operations conflict next := by
  obtain ⟨contents, hread, hparse⟩ := readOptional_document hstored
  obtain ⟨next, hnext, hplans⟩ := h.read_ok hread
  refine ⟨next, ?_, hplans⟩
  simp [AgentDesktop.readObject, hnext, hparse, object]

/-- Without a sidecar the entries of the file decide. -/
theorem Plans.foreignManagedEntry (h : Plans files operations conflict plan)
    (hstored : stored codec .json (files path) = .document document) (object : document.value.isObject = true)
    (fresh : files (statePath path) = .absent) (managed : Json) :
    ∃ next, foreignManagedEntry codec files path managed plan =
      .ok (next, foreignEntry managed.value document.value) ∧ Plans files operations conflict next := by
  have hside : sidecar codec (files (statePath path)) = .ok none := by
    rw [fresh]
    rfl
  obtain ⟨read, hread, hplans⟩ := h.readState_ok copilotName hside
  obtain ⟨next, hnext, hdone⟩ := hplans.readObject hstored object
  exact ⟨next, by simp only [AgentDesktop.foreignManagedEntry, hread, hnext], hdone⟩

end

variable [DecidableEq β]

/-- A plan for `providers.json` applied. -/
def applyProviders (codec : Codec β) (env : ApplyEnv β) (path : Path) (proxy : Option (SocketAddr × String))
    (configured : Option (CopilotConfig × Option ProxyUnavailable)) (world : World β) :
    World β × Except String Unit :=
  match planProviders codec world.files path env.host proxy configured {} with
  | .error error => (world, .error error)
  | .ok plan => plan.apply env world

section

variable (codec : Codec β) {env : ApplyEnv β} (reliable : Reliable env) {path : Path} {world : World β}
  {document : Json} (hstored : stored codec .json (world.files path) = .document document)
  (object : document.value.isObject = true)

omit [DecidableEq β] in
include hstored in
theorem providersTarget_view_fresh (fresh : world.files (statePath path) = .absent) :
    (providersTarget path).view codec world.files = ⟨.document document, .ok none⟩ := by
  rw [providersTarget, userTarget_view_fresh codec "providers" copilotName providersOptions fresh]
  exact congrArg (DocState.mk · _) hstored

include reliable hstored object

/-- Without a sidecar and without an entry of the user's under a managed key, the document is merged. -/
theorem applyProviders_view (fresh : world.files (statePath path) = .absent) (config : CopilotConfig)
    (gateway : ProxyUnavailable) (listen : SocketAddr) (pairing : String)
    (hforeign : foreignEntry (managedDocument config listen pairing).value document.value = none) :
    (providersTarget path).view codec (applyProviders codec env path (some (listen, pairing))
        (some (config, some gateway)) world).1.files =
      ((providersTarget path).view codec world.files).merge providersOptions false
        (managedDocument config listen pairing) := by
  obtain ⟨next, hnext, hplans⟩ := (Plans.start world.files).foreignManagedEntry hstored object fresh
    (managedDocument config listen pairing)
  rw [hforeign] at hnext
  have hview := providersTarget_view_fresh codec hstored fresh
  have hmergeable : ((providersTarget path).view codec world.files).Mergeable
      (managedDocument config listen pairing) := by
    rw [hview]
    exact ⟨⟨none, rfl⟩, _, Stored.existing_object rfl object⟩
  rcases planMergeWith_after hplans codec env.host (providersTarget path) (managedDocument config listen pairing) false
    with ⟨error, _, hno⟩ | ⟨plan, _, _, hno⟩ | ⟨plan, existing, state, hplan, hread, hdone, hmerge⟩
  · exact absurd hmergeable hno
  · exact absurd hmergeable hno
  · have happlied := (hdone.merge_applied codec world (statePath_ne path) hread (hdone.completes reliable)).1
    simp only [applyProviders, planProviders, hnext, hplan]
    exact happlied.trans hmerge.symm

omit hstored object reliable in
/-- With a sidecar the last merge is taken out. -/
theorem applyProviders_recorded {state : MergeState}
    (recorded : sidecar codec (world.files (statePath path)) = .ok (some state))
    (proxy : Option (SocketAddr × String)) :
    (applyProviders codec env path proxy none world).1 = (removeFrom codec env (providersTarget path) world).1 := by
  rcases planRemoveWith_spec codec env.host world.files (providersTarget path) with
    ⟨error, hplan, _⟩ | ⟨plan, found, hplan, _, hfound⟩
  · simp only [applyProviders, planProviders, planProvidersRemoval, removeFrom, hplan]
  · have htrue : found = true := hfound.mpr ⟨state, recorded⟩
    subst htrue
    simp only [applyProviders, planProviders, planProvidersRemoval, removeFrom, hplan]

/-- Without a sidecar the entries of daemons are taken out by their names. -/
theorem applyProviders_orphaned (fresh : world.files (statePath path) = .absent)
    (proxy : Option (SocketAddr × String)) (hnames : orphanedNames (proxy.map Prod.snd) document.value ≠ []) :
    stored codec .json ((applyProviders codec env path proxy none world).1.files path) =
      .document (withoutProviders (orphanedNames (proxy.map Prod.snd) document.value) document) := by
  have hside : sidecar codec (world.files (statePath path)) = .ok none := by
    rw [fresh]
    rfl
  obtain ⟨contents, hread, hparse⟩ := readOptional_document hstored
  obtain ⟨first, hfirst, hbegun⟩ := (Plans.start world.files).readState_ok copilotName hside
  obtain ⟨second, hsecond, hobject⟩ := hbegun.readObject hstored object
  obtain ⟨third, hthird, hplans⟩ := hobject.read_ok hread
  have hremove : planRemoveWith codec env.host world.files (providersTarget path) {} = .ok (first, false) := by
    have hstate : readState codec world.files (providersTarget path).statePath (providersTarget path).displayName {} =
        .ok (first, none) := hfirst
    rw [planRemoveWith, hstate]
  have hempty : (orphanedNames (proxy.map Prod.snd) document.value).isEmpty = false := by simpa using hnames
  generalize hleft : withoutProviders (orphanedNames (proxy.map Prod.snd) document.value) document = left
  by_cases hsame : contents = codec.print left
  · have hplan : planProviders codec world.files path env.host proxy none {} = .ok third := by
      simp [planProviders, planProvidersRemoval, hremove, planRemoveOrphaned, hsecond, hempty, hthird, hleft, hsame]
    rw [applyProviders, hplan]
    dsimp only
    rw [hplans.apply_without_operations, stored_of_contents (readOptional_contents hread), hsame, stored_print]
  · have hrecorded := hplans.recordDiff copilotName "providers" .update path none none
    obtain ⟨plan, hwrite, hdone⟩ := hrecorded.writeFile_ok hread (codec.print left)
      ((currentMode env.host world.files path).getD 0o600)
    have hplan : planProviders codec world.files path env.host proxy none {} = .ok plan := by
      simp [planProviders, planProvidersRemoval, hremove, planRemoveOrphaned, hsecond, hempty, hthird, hleft, hsame,
        hwrite]
    have hok := Plans.completes hdone reliable
    have hmem : ⟨path, some (codec.print left), (currentMode env.host world.files path).getD 0o600⟩ ∈
        plan.operations := by
      simp [hdone.operations]
    have hcontents := (Plans.applied hdone env (by simp)).planned hok hmem
    rw [applyProviders, hplan]
    dsimp only
    rw [apply_eq world hok, stored_of_contents hcontents.1, stored_print]

end

end AgentDesktop
