import AgentDesktop.OwnedFiles
import AgentDesktop.Transitions

namespace AgentDesktop

inductive OwnedRequest (β : Type) where
  | write (contents : β) (permissions : UInt32) (description : String)
  | remove (description : String)

section

variable {β : Type} [DecidableEq β] (marker : β) (path : Path)

def OwnedRequest.plan (host : Host) (files : FileSystem β) : OwnedRequest β → Except String (ReconcilePlan β)
  | .write contents permissions description =>
    writeOwned files marker host path (ownerPath path) contents permissions description {}
  | .remove description => removeOwned files marker path (ownerPath path) description {}

/-- Plans a request against the files as they are and applies the plan, as far as the apply gets. -/
def ownedStep (world : World β) (step : OwnedRequest β × ApplyEnv β) : Option (World β) :=
  match step.1.plan marker path step.2.host world.files with
  | .error _ => some world
  | .ok plan => some (applyTracked step.2 plan world).1

/-- A request is planned without a conflict. -/
def conflictFree (world : World β) (step : OwnedRequest β × ApplyEnv β) : Bool :=
  match step.1.plan marker path step.2.host world.files with
  | .error _ => false
  | .ok plan => !plan.hasConflicts

/-- The contents of a file that has no marker. -/
def strayContents (files : FileSystem β) : Option β :=
  match files (ownerPath path) with
  | .absent => (files path).contents
  | _ => none

/-- What is written is what a file without a marker holds. -/
def recognized (world : World β) (step : OwnedRequest β × ApplyEnv β) : Bool :=
  match step.1, strayContents path world.files with
  | .write contents _ _, some stray => decide (stray = contents)
  | _, _ => true

/-- The file can be read, and its marker is there or not. -/
structure OwnedPair (files : FileSystem β) : Prop where
  readable : ∃ existing, readOptional files path = .ok existing
  marker : readOptional files (ownerPath path) = .ok none ∨ readOptional files (ownerPath path) = .ok (some marker)

variable {marker path} {files : FileSystem β} {existing mark : Option β}

omit [DecidableEq β] in
theorem strayContents_eq (hpath : readOptional files path = .ok existing)
    (howner : readOptional files (ownerPath path) = .ok mark) :
    strayContents path files = if mark = none then existing else none := by
  unfold readOptional at howner
  unfold strayContents
  split at howner
  next hentry =>
    cases howner
    rw [hentry]
    exact readOptional_contents hpath
  next hentry =>
    cases howner
    rw [hentry]
    rfl
  next => cases howner

omit [DecidableEq β] in
theorem OwnedPair.reads (h : OwnedPair marker path files) :
    ∃ existing mark, readOptional files path = .ok existing ∧ readOptional files (ownerPath path) = .ok mark ∧
      (mark = none ∨ mark = some marker) := by
  obtain ⟨⟨existing, hpath⟩, howner | howner⟩ := h
  · exact ⟨existing, none, hpath, howner, Or.inl rfl⟩
  · exact ⟨existing, some marker, hpath, howner, Or.inr rfl⟩

omit [DecidableEq β] in
theorem OwnedPair.strayContents_eq_none (h : OwnedPair marker path files) :
    strayContents path files = none ↔
      readOptional files (ownerPath path) = .ok (some marker) ∨ files path = .absent := by
  obtain ⟨existing, mark, hpath, howner, hmark⟩ := h.reads
  have habsent : existing = none ↔ files path = .absent := by
    refine ⟨fun hnone => absent_of_read (hnone ▸ hpath), fun hentry => ?_⟩
    rw [readOptional, hentry] at hpath
    cases hpath
    rfl
  rw [strayContents_eq hpath howner, howner, ← habsent]
  rcases hmark with rfl | rfl <;> simp

/-- What a request plans for the file and its marker, and that it conflicts just with a file
variable {world : World β}

that has no marker. -/
theorem OwnedPair.planned (h : OwnedPair marker path world.files) (step : OwnedRequest β × ApplyEnv β) :
    ∃ plan operations, step.1.plan marker path step.2.host world.files = .ok plan ∧
      Plans world.files operations (!recognized path world step) plan ∧
      (operations.map FileChange.path).Nodup ∧
      ∀ change ∈ operations, change.path = ownerPath path → change.contents = none ∨ change.contents = some marker := by
  obtain ⟨existing, mark, hpath, howner, hmark⟩ := h.reads
  have hstray := strayContents_eq hpath howner
  have hne := ownerPath_ne path
  obtain ⟨request, env⟩ := step
  cases request with
  | remove description =>
    obtain ⟨plan, operations, hplan, hplans, hcases⟩ := removeOwned_plans hpath howner marker description
    refine ⟨plan, operations, hplan, hplans, ?_⟩
    rcases hcases with ⟨_, rfl⟩ | ⟨_, rfl⟩
    · simp
    · cases existing <;> simp [Ne.symm hne]
  | write contents permissions description =>
    obtain ⟨plan, operations, conflict, hplan, hplans, hcases⟩ :=
      writeOwned_plans hpath howner marker env.host contents permissions description
    have hconflict : conflict = !recognized path world (.write contents permissions description, env) := by
      unfold recognized
      rw [hstray]
      cases hcases with
      | both h =>
        rcases h with rfl | rfl | rfl
        · rfl
        · rcases hmark with rfl | rfl <;> rfl
        · rcases hmark with rfl | rfl <;> simp
      | claimed h =>
        subst h
        rcases hmark with rfl | rfl <;> simp
      | settled hmark h =>
        subst hmark
        rfl
      | conflict hunmarked hcurrent hdiffers =>
        subst hcurrent
        simp [hmark.resolve_right hunmarked, hdiffers]
    refine ⟨plan, operations, hplan, hconflict ▸ hplans, ?_⟩
    cases hcases with
    | both => simp [Ne.symm hne]
    | claimed => simp
    | settled => simp
    | conflict => simp

theorem OwnedPair.step {world next : World β} (h : OwnedPair marker path world.files)
    {step : OwnedRequest β × ApplyEnv β} (hstep : ownedStep marker path world step = some next) :
    OwnedPair marker path next.files := by
  obtain ⟨plan, operations, hplan, hplans, hdistinct, howned⟩ := h.planned step
  unfold ownedStep at hstep
  rw [hplan] at hstep
  cases hstep
  have hread := hplans.applied_read hdistinct step.2
  constructor
  · rcases hread path with hsame | ⟨change, _, _, hchange⟩
    · obtain ⟨existing, hpath⟩ := h.readable
      exact ⟨existing, hsame.trans hpath⟩
    · exact ⟨_, hchange⟩
  · rcases hread (ownerPath path) with hsame | ⟨change, hmem, howner, hchange⟩
    · rw [hsame]
      exact h.marker
    · rw [hchange]
      exact (howned change hmem howner).imp (congrArg Except.ok) (congrArg Except.ok)

theorem OwnedPair.conflictFree_eq (h : OwnedPair marker path world.files) (step : OwnedRequest β × ApplyEnv β) :
    conflictFree marker path world step = recognized path world step := by
  obtain ⟨plan, operations, hplan, hplans, _⟩ := h.planned step
  unfold conflictFree
  rw [hplan]
  dsimp only
  rw [hplans.conflict, Bool.not_not]

/-- A complete removal leaves neither the file nor its marker. -/
def RemovalClears (marker : β) (path : Path) (world : World β) (description : String) : Prop :=
  ∃ plan, removeOwned world.files marker path (ownerPath path) description {} = .ok plan ∧
    plan.hasConflicts = false ∧ ∀ env applied, applyTracked env plan world = (applied, .ok ()) →
      applied.files path = .absent ∧ applied.files (ownerPath path) = .absent

/-- A removal plans nothing without a marker. With one it takes the file first. -/
theorem OwnedPair.removes (h : OwnedPair marker path world.files) (description : String) :
    ∃ plan, removeOwned world.files marker path (ownerPath path) description {} = .ok plan ∧
      plan.hasConflicts = false ∧
      (readOptional world.files (ownerPath path) = .ok none ∧ Plans world.files [] false plan ∨
        readOptional world.files (ownerPath path) = .ok (some marker) ∧ ∀ env,
          (readOptional (applyTracked env plan world).1.files (ownerPath path) = .ok (some marker) ∨
            (applyTracked env plan world).1.files path = .absent) ∧
          ((applyTracked env plan world).2 = .ok () → (applyTracked env plan world).1.files path = .absent ∧
            (applyTracked env plan world).1.files (ownerPath path) = .absent)) := by
  obtain ⟨existing, mark, hpath, howner, hmark⟩ := h.reads
  obtain ⟨plan, operations, hplan, hplans, hcases⟩ := removeOwned_plans hpath howner marker description
  refine ⟨plan, hplan, hplans.conflict, ?_⟩
  rcases hcases with ⟨hunmarked, rfl⟩ | ⟨rfl, rfl⟩
  · exact Or.inl ⟨hmark.resolve_right hunmarked ▸ howner, hplans⟩
  · refine Or.inr ⟨howner, fun env => ?_⟩
    have hremoved : Carried env.host world.files (applyTracked env plan world).1.files path
        (existing.toList.map fun _ => ⟨path, none, 0⟩) → (applyTracked env plan world).1.files path = .absent := by
      intro hcarried
      cases existing with
      | none => exact (hcarried.kept rfl).trans (absent_of_read hpath)
      | some current => exact hcarried.effect ⟨path, none, 0⟩ (by simp)
    obtain ⟨hstopped, hdone⟩ := hplans.applied_files (by simp) (by simp) (Ne.symm (ownerPath_ne path))
      (by cases existing <;> simp) (by simp) env
    constructor
    · rcases hstopped with ⟨_, hsame⟩ | ⟨_, hsame⟩ | ⟨hcarried, _⟩
      · exact Or.inl ((readOptional_congr hsame).trans howner)
      · exact Or.inl ((readOptional_congr hsame).trans howner)
      · exact Or.inr (hremoved hcarried)
    · intro hok
      obtain ⟨hcarried, hunmarked⟩ := hdone hok
      exact ⟨hremoved hcarried, hunmarked.effect ⟨ownerPath path, none, 0⟩ (by simp)⟩

theorem OwnedPair.removal (h : OwnedPair marker path world.files) (description : String) :
    RemovalClears marker path world description ↔ strayContents path world.files = none := by
  obtain ⟨plan, hplan, hfree, hcases⟩ := h.removes description
  have hclears : RemovalClears marker path world description ↔ ∀ env applied,
      applyTracked env plan world = (applied, .ok ()) →
        applied.files path = .absent ∧ applied.files (ownerPath path) = .absent := by
    constructor
    · rintro ⟨other, hother, _, hclears⟩
      cases hplan.symm.trans hother
      exact hclears
    · exact fun hclears => ⟨plan, hplan, hfree, hclears⟩
  rw [hclears, h.strayContents_eq_none]
  rcases hcases with ⟨howner, hplans⟩ | ⟨howner, hremoves⟩
  · have hsame : ∀ env, (applyTracked env plan world).1.files = world.files := fun _ => hplans.apply_without_operations
    rw [howner]
    constructor
    · intro hclears
      refine Or.inr ?_
      rw [← hsame {}]
      exact (hclears {} _ (Prod.ext rfl (hplans.completes reliable_default))).1
    · rintro (hmarked | habsent) env applied happlied
      · cases hmarked
      · obtain rfl := congrArg Prod.fst happlied
        rw [hsame env]
        exact ⟨habsent, absent_of_read howner⟩
  · refine iff_of_true (fun env applied happlied => ?_) (Or.inl howner)
    obtain rfl := congrArg Prod.fst happlied
    exact (hremoves env).2 (congrArg Prod.snd happlied)

theorem OwnedPair.removed_clean (h : OwnedPair marker path world.files) {description : String} {env : ApplyEnv β}
    {next : World β} (hclean : strayContents path world.files = none)
    (hstep : ownedStep marker path world (.remove description, env) = some next) :
    strayContents path next.files = none := by
  obtain ⟨plan, hplan, _, hcases⟩ := h.removes description
  have hnext := (h.step hstep).strayContents_eq_none
  simp only [ownedStep, OwnedRequest.plan, hplan] at hstep
  cases hstep
  rcases hcases with ⟨_, hplans⟩ | ⟨_, hremoves⟩
  · have hsame : (applyTracked env plan world).1.files = world.files := hplans.apply_without_operations
    rw [hsame]
    exact hclean
  · exact hnext.mpr (hremoves env).1

/-- A marker that is there stays when the file is written. -/
theorem OwnedPair.written_marked (h : OwnedPair marker path world.files) {contents : β} {permissions : UInt32}
    {description : String} {env : ApplyEnv β} {next : World β}
    (howner : readOptional world.files (ownerPath path) = .ok (some marker))
    (hstep : ownedStep marker path world (.write contents permissions description, env) = some next) :
    readOptional next.files (ownerPath path) = .ok (some marker) := by
  obtain ⟨existing, hpath⟩ := h.readable
  obtain ⟨plan, operations, conflict, hplan, hplans, hcases⟩ :=
    writeOwned_plans hpath howner marker env.host contents permissions description
  simp only [ownedStep, OwnedRequest.plan, hplan] at hstep
  cases hstep
  have hmarks : (operations.map FileChange.path).Nodup ∧
      ∀ change ∈ operations, change.path = ownerPath path → change.contents = some marker := by
    cases hcases <;> simp [Ne.symm (ownerPath_ne path)]
  rcases hplans.applied_read hmarks.1 env (ownerPath path) with hsame | ⟨change, hmem, hchange, hread⟩
  · exact hsame.trans howner
  · rw [hread, hmarks.2 change hmem hchange]

variable (marker path) in
/-- A write that finds no marker and stops after the first of its two operations. -/
def StopsBeforeMarker (world : World β) (step : OwnedRequest β × ApplyEnv β) : Prop :=
  ∃ contents permissions description plan error, step.1 = .write contents permissions description ∧
    world.files (ownerPath path) = .absent ∧ step.1.plan marker path step.2.host world.files = .ok plan ∧
    plan.operations = [⟨path, some contents, permissions⟩, ⟨ownerPath path, some marker, 0o644⟩] ∧
    (applyTracked step.2 plan world).2 = .error (error, .operation 1)

/-- A first write leaves a file without a marker just if it got as far as the file. -/
theorem created_stray_iff {plan : ReconcilePlan β} {contents : β} {permissions : UInt32} {env : ApplyEnv β}
    (hpath : world.files path = .absent) (hmarker : world.files (ownerPath path) = .absent)
    (hplans : Plans world.files
      [⟨path, some contents, permissions⟩, ⟨ownerPath path, some marker, 0o644⟩] false plan) :
    strayContents path (applyTracked env plan world).1.files ≠ none ↔
      (progress plan (applyTracked env plan world).2).1 = 1 := by
  have hne := ownerPath_ne path
  have happlied := hplans.applied env (by simp [Ne.symm hne])
  have hfile : plan.operations[0]? = some ⟨path, some contents, permissions⟩ := by rw [hplans.operations]; rfl
  have hmark : plan.operations[1]? = some ⟨ownerPath path, some marker, 0o644⟩ := by rw [hplans.operations]; rfl
  rcases Nat.lt_trichotomy (progress plan (applyTracked env plan world).2).1 1 with hnone | hone | hboth
  · have hsame : ∀ other, (applyTracked env plan world).1.files other = world.files other :=
      fun other => happlied.frame other fun k change _ hlt => absurd hlt (by omega)
    refine iff_of_false (not_not.mpr ?_) (by omega)
    rw [strayContents, hsame, hsame, hmarker, hpath]
    rfl
  · have hunmarked : (applyTracked env plan world).1.files (ownerPath path) = .absent := by
      rw [← hmarker]
      refine happlied.frame _ fun k change hk hlt => ?_
      obtain rfl : k = 0 := by omega
      cases hfile.symm.trans hk
      exact hne
    have hwritten := (happlied.effect 0 _ hfile (by omega)).contents
    refine iff_of_true ?_ hone
    rw [strayContents, hunmarked]
    simp [hwritten]
  · have hwritten := readOptional_of_inEffect (happlied.effect 0 _ hfile (by omega))
    have hmarked := readOptional_of_inEffect (happlied.effect 1 _ hmark hboth)
    refine iff_of_false (not_not.mpr ?_) (by omega)
    rw [strayContents_eq hwritten hmarked]
    rfl

/-- Of two operations the first alone took effect just if the apply stopped at the second. -/
theorem Plans.progress_eq_one {plan : ReconcilePlan β} {first second : FileChange β} {env : ApplyEnv β}
    (hplans : Plans world.files [first, second] false plan) (distinct : first.path ≠ second.path) :
    (progress plan (applyTracked env plan world).2).1 = 1 ↔
      ∃ error, (applyTracked env plan world).2 = .error (error, .operation 1) := by
  have happlied := hplans.applied env (by simp [distinct])
  cases hresult : (applyTracked env plan world).2 with
  | ok => simp [progress, hplans.operations]
  | error failure =>
    obtain ⟨error, stop⟩ := failure
    cases stop with
    | registry index key =>
      obtain ⟨keyPlan, hkey, _⟩ := happlied.keyStop error index key hresult
      simp [hplans.registry] at hkey
    | operation index => simp [progress]
    | conflict => simp [progress]
    | observed other => simp [progress]
    | privateDir dir => simp [progress]

/-- A file without a marker comes about just by a write that stops before the marker. -/
theorem OwnedPair.stray_iff {world next : World β} (h : OwnedPair marker path world.files)
    (hclean : strayContents path world.files = none) {step : OwnedRequest β × ApplyEnv β}
    (hstep : ownedStep marker path world step = some next) :
    strayContents path next.files ≠ none ↔ StopsBeforeMarker marker path world step := by
  obtain ⟨request, env⟩ := step
  cases request with
  | remove description =>
    refine iff_of_false (not_not.mpr (h.removed_clean hclean hstep)) ?_
    rintro ⟨_, _, _, _, _, hwrite, _⟩
    cases hwrite
  | write contents permissions description =>
    rcases h.marker with hunmarked | howner
    · have habsent := (h.strayContents_eq_none.mp hclean).resolve_left (by simp [hunmarked])
      have hnone : readOptional world.files path = .ok none := by simp [readOptional, habsent]
      obtain ⟨plan, operations, conflict, hplan, hplans, hcases⟩ :=
        writeOwned_plans hnone hunmarked marker env.host contents permissions description
      simp only [ownedStep, OwnedRequest.plan, hplan] at hstep
      cases hstep
      cases hcases with
      | claimed hsame => cases hsame
      | settled _ hsame => cases hsame
      | conflict _ hsame _ => cases hsame
      | both =>
        rw [created_stray_iff habsent (absent_of_read hunmarked) hplans, hplans.progress_eq_one
          (Ne.symm (ownerPath_ne path))]
        constructor
        · rintro ⟨error, hstop⟩
          exact ⟨contents, permissions, description, plan, error, rfl, absent_of_read hunmarked, hplan,
            hplans.operations, hstop⟩
        · rintro ⟨_, _, _, other, error, _, _, hother, _, hstop⟩
          cases hplan.symm.trans hother
          exact ⟨error, hstop⟩
    · have hkept := h.written_marked howner hstep
      refine iff_of_false (not_not.mpr ((h.step hstep).strayContents_eq_none.mpr (Or.inl hkept))) ?_
      rintro ⟨_, _, _, _, _, _, hunmarked, _⟩
      simp [readOptional, hunmarked] at howner

/-- A run records no conflict and a removal after it leaves nothing, just if what is written
over a file without a marker is what it holds, and no such file is there at the end. Such a file
comes about just by a write that stops before the marker, so without one ownership survives. -/
theorem ownership_survives_iff (hfile : world.files path = .absent) (hmarker : world.files (ownerPath path) = .absent)
    (steps : List (OwnedRequest β × ApplyEnv β)) (final : World β) (description : String) :
    ((execute (ownedStep marker path) (conflictFree marker path) steps world = some final ∧
        RemovalClears marker path final description) ↔
      execute (ownedStep marker path) (recognized path) steps world = some final ∧
        strayContents path final.files = none) ∧
    (execute (ownedStep marker path) (fun _ _ => true) steps world = some final →
      (strayContents path final.files = none → ∀ step next, ownedStep marker path final step = some next →
        (strayContents path next.files ≠ none ↔ StopsBeforeMarker marker path final step)) ∧
      (EachStep (ownedStep marker path) (fun world step _ => ¬ StopsBeforeMarker marker path world step) steps world →
        execute (ownedStep marker path) (conflictFree marker path) steps world = some final ∧
          RemovalClears marker path final description)) := by
  have hstart : OwnedPair marker path world.files := by
    refine ⟨⟨none, ?_⟩, Or.inl ?_⟩
    · simp [readOptional, hfile]
    · simp [readOptional, hmarker]
  have hsame : execute (ownedStep marker path) (conflictFree marker path) steps world =
      execute (ownedStep marker path) (recognized path) steps world :=
    execute_congr (fun world step next (hpair : OwnedPair marker path world.files) hstep => hpair.step hstep)
      (fun world step hpair => hpair.conflictFree_eq step) hstart
  have hpair : ∀ {allowed}, execute (ownedStep marker path) allowed steps world = some final →
      OwnedPair marker path final.files :=
    execute_invariant (fun world step next (hpair : OwnedPair marker path world.files) _ hstep => hpair.step hstep)
      hstart
  have hsurvives : (execute (ownedStep marker path) (conflictFree marker path) steps world = some final ∧
        RemovalClears marker path final description) ↔
      execute (ownedStep marker path) (recognized path) steps world = some final ∧
        strayContents path final.files = none := by
    rw [hsame]
    exact and_congr_right fun hrun => (hpair hrun).removal description
  refine ⟨hsurvives, fun hrun => ⟨fun hclean step next hstep => (hpair hrun).stray_iff hclean hstep, fun hsteps => ?_⟩⟩
  have hkeeps : ∀ (world : World β) step next,
      OwnedPair marker path world.files ∧ strayContents path world.files = none →
      ¬ StopsBeforeMarker marker path world step → ownedStep marker path world step = some next →
      recognized path world step = true ∧ OwnedPair marker path next.files ∧ strayContents path next.files = none := by
    rintro world step next ⟨hpair, hclean⟩ hgood hstep
    refine ⟨?_, hpair.step hstep, not_not.mp (mt (hpair.stray_iff hclean hstep).mp hgood)⟩
    rw [recognized, hclean]
    cases step.1 <;> rfl
  obtain ⟨hrecognized, _, hclean⟩ := hsteps.keepsTo hkeeps
    ⟨hstart, hstart.strayContents_eq_none.mpr (Or.inr hfile)⟩ hrun
  exact hsurvives.mpr ⟨hrecognized, hclean⟩

end

section

def helperPath : Path := ["usr", "helper"]

def noFiles : World String := ⟨fun _ => .absent, fun _ => .empty, []⟩

def writeHelper (contents : String) : OwnedRequest String :=
  .write contents 0o755 "credential helper"

/-- The disk is full at the second file. -/
def diskFull : ApplyEnv String where
  operationFails index _ _ := if index = 1 then some "no space left on device" else none

/-- A write that stops before the marker is repeated, and then another one replaces it. -/
theorem ownership_survives_repeated_write : ∃ final,
    execute (ownedStep "Agentdesktop\n" helperPath) (conflictFree "Agentdesktop\n" helperPath)
        [(writeHelper "first", diskFull), (writeHelper "first", {}), (writeHelper "second", diskFull)] noFiles =
      some final ∧ RemovalClears "Agentdesktop\n" helperPath final "credential helper" ∧
    StopsBeforeMarker "Agentdesktop\n" helperPath noFiles (writeHelper "first", diskFull) := by
  have hrun : execute (ownedStep "Agentdesktop\n" helperPath) (recognized helperPath)
      [(writeHelper "first", diskFull), (writeHelper "first", {}), (writeHelper "second", diskFull)] noFiles =
        some _ := rfl
  obtain ⟨hfree, hclears⟩ := (ownership_survives_iff rfl rfl _ _ _).1.mpr ⟨hrun, by decide +kernel⟩
  have hcause : _ ↔ StopsBeforeMarker "Agentdesktop\n" helperPath noFiles (writeHelper "first", diskFull) :=
    ((ownership_survives_iff rfl rfl [] noFiles "credential helper").2 rfl).1 rfl _ _ rfl
  exact ⟨_, hfree, hclears, hcause.mp (by decide +kernel)⟩

/-- A write stops before the marker. Another one then conflicts with the file, and a removal
leaves it. -/
theorem ownership_lost_before_marker : ∃ final,
    execute (ownedStep "Agentdesktop\n" helperPath) (fun _ _ => true) [(writeHelper "first", diskFull)] noFiles =
        some final ∧
      conflictFree "Agentdesktop\n" helperPath final (writeHelper "second", {}) = false ∧
      ¬ RemovalClears "Agentdesktop\n" helperPath final "credential helper" := by
  have hrun : execute (ownedStep "Agentdesktop\n" helperPath) (fun _ _ => true) [(writeHelper "first", diskFull)]
      noFiles = some _ := rfl
  refine ⟨_, hrun, by decide +kernel, fun hclears => ?_⟩
  have hstray := (OwnedPair.removal ⟨⟨some "first", rfl⟩, Or.inl rfl⟩ _).mp hclears
  exact absurd hstray (by decide +kernel)

end

end AgentDesktop
