import AgentDesktop.PlanApply

namespace AgentDesktop

variable {β : Type}

theorem FileSystem.set_self (files : FileSystem β) (path : Path) (entry : Entry β) :
    FileSystem.set files path entry path = entry := by
  simp [FileSystem.set]

theorem FileSystem.set_ne (files : FileSystem β) {path other : Path} (entry : Entry β) (h : other ≠ path) :
    FileSystem.set files path entry other = files other := by
  simp [FileSystem.set, h]

theorem perform_ne (host : Host) (change : FileChange β) (files : FileSystem β) {path : Path}
    (h : path ≠ change.path) : change.perform host files path = files path :=
  FileSystem.set_ne files _ h

/-- The file is as planned: removed, or with the planned contents at a mode
within the planned one. -/
def FileChange.InEffect (host : Host) (files : FileSystem β) (change : FileChange β) : Prop :=
  match change.contents with
  | some contents => (files change.path).contents = some contents ∧
      grantsBeyond host files change.path change.permissions = false
  | none => files change.path = .absent

variable {change : FileChange β}

theorem FileChange.InEffect.contents {host : Host} {files : FileSystem β} (h : change.InEffect host files) :
    (files change.path).contents = change.contents := by
  unfold FileChange.InEffect at h
  split at h
  next hc => rw [h.1, hc]
  next hc => rw [h, hc]; rfl

theorem FileChange.InEffect.congr {host : Host} {files other : FileSystem β} (h : change.InEffect host files)
    (same : other change.path = files change.path) :
    change.InEffect host other := by
  unfold FileChange.InEffect grantsBeyond at h ⊢
  rwa [same]

/-- Performing an operation puts it into effect, whatever the umask. -/
theorem perform_inEffect (host : Host) (change : FileChange β) (files : FileSystem β) :
    change.InEffect host (change.perform host files) := by
  unfold FileChange.InEffect grantsBeyond
  rw [FileChange.perform, FileSystem.set_self]
  cases hc : change.contents with
  | none => rfl
  | some contents =>
    have hbits : change.permissions &&& ~~~host.umask &&& ~~~change.permissions = 0 := by
      rw [UInt32.and_assoc, UInt32.and_comm (~~~host.umask), ← UInt32.and_assoc, UInt32.and_not_self]
      simp
    simp [hbits, Entry.contents]

variable [DecidableEq β] {observed : BTreeMap Path (Option β)}

theorem alreadyInPlace_congr {host : Host} {files other : FileSystem β} (h : files change.path = other change.path) :
    alreadyInPlace host files observed change = alreadyInPlace host other observed change := by
  simp only [alreadyInPlace, grantsBeyond, h]

theorem alreadyInPlace_spec {host : Host} {files : FileSystem β}
    (h : alreadyInPlace host files observed change = true) :
    ∃ contents, change.contents = some contents ∧ observed.get? change.path = some (some contents) ∧
      grantsBeyond host files change.path change.permissions = false := by
  unfold alreadyInPlace at h
  split at h
  next => cases h
  next contents hc =>
    simp only [Bool.and_eq_true, decide_eq_true_eq, Bool.not_eq_true'] at h
    exact ⟨contents, hc, h.1.1, h.2⟩

/-- How far the file operations got: the index of the one that failed, or past
the last one. -/
def reachedIndex (total : Nat) (stop : Option (Nat × String)) : Nat :=
  match stop with
  | none => total
  | some (index, _) => index

/-- What the loop over the file operations does, in terms of the world before it. -/
structure OperationsRun (env : ApplyEnv β) (observed : BTreeMap Path (Option β)) (start : Nat)
    (operations : List (FileChange β)) (world : World β) (result : World β × Option (Nat × String)) : Prop where
  registry : result.1.registry = world.registry
  lower : start ≤ reachedIndex (start + operations.length) result.2
  upper : reachedIndex (start + operations.length) result.2 ≤ start + operations.length
  stopped : ∀ index error, result.2 = some (index, error) →
    ∃ k change, operations[k]? = some change ∧ index = start + k
  effect : ∀ k change, operations[k]? = some change →
    start + k < reachedIndex (start + operations.length) result.2 →
    change.InEffect env.host result.1.files
  frame : ∀ path, (∀ k change, operations[k]? = some change →
      start + k < reachedIndex (start + operations.length) result.2 → path ≠ change.path) →
    result.1.files path = world.files path
  log : ∀ event, event ∈ result.1.log ↔ event ∈ world.log ∨
    ∃ k change, operations[k]? = some change ∧
      start + k < reachedIndex (start + operations.length) result.2 ∧
      event = .operation (start + k) ∧ alreadyInPlace env.host world.files observed change = false

/-- A first operation that takes effect, before a run of the others. -/
theorem OperationsRun.cons {env : ApplyEnv β} {start : Nat} {rest : List (FileChange β)} {world next : World β}
    {result : World β × Option (Nat × String)} (run : OperationsRun env observed (start + 1) rest next result)
    (fresh : ∀ other ∈ rest, other.path ≠ change.path) (registry : next.registry = world.registry)
    (inEffect : change.InEffect env.host next.files)
    (files : ∀ path, path ≠ change.path → next.files path = world.files path)
    (log : ∀ event, event ∈ next.log ↔ event ∈ world.log ∨
      (event = .operation start ∧ alreadyInPlace env.host world.files observed change = false)) :
    OperationsRun env observed start (change :: rest) world result := by
  have total : start + (change :: rest).length = start + 1 + rest.length := by
    simp only [List.length_cons]; omega
  have kept : result.1.files change.path = next.files change.path :=
    run.frame _ fun k other hk _ => Ne.symm (fresh other (List.mem_of_getElem? hk))
  have hlower := run.lower
  constructor
  · exact run.registry.trans registry
  · rw [total]; omega
  · rw [total]; exact run.upper
  · intro index error h
    obtain ⟨k, other, hk, hi⟩ := run.stopped index error h
    exact ⟨k + 1, other, by simpa using hk, by omega⟩
  · intro k other hk hlt
    rw [total] at hlt
    cases k with
    | zero =>
      cases Option.some.inj hk
      exact inEffect.congr kept
    | succ k => exact run.effect k other (by simpa using hk) (by omega)
  · intro path hpath
    have hne : path ≠ change.path := hpath 0 change rfl (by rw [total]; omega)
    rw [← files path hne]
    refine run.frame path fun k other hk hlt => ?_
    exact hpath (k + 1) other (by simpa using hk) (by rw [total]; omega)
  · intro event
    rw [run.log, log, total]
    constructor
    · rintro ((h | ⟨h, hp⟩) | ⟨k, other, hk, hlt, h, hp⟩)
      · exact Or.inl h
      · exact Or.inr ⟨0, change, rfl, by omega, h, hp⟩
      · have hsame := files other.path (fresh other (List.mem_of_getElem? hk))
        refine Or.inr ⟨k + 1, other, by simpa using hk, by omega, by rw [h]; congr 1; omega, ?_⟩
        rw [← hp]
        exact alreadyInPlace_congr hsame.symm
    · rintro (h | ⟨k, other, hk, hlt, h, hp⟩)
      · exact Or.inl (Or.inl h)
      · cases k with
        | zero =>
          cases Option.some.inj hk
          exact Or.inl (Or.inr ⟨h, hp⟩)
        | succ k =>
          have hk' : rest[k]? = some other := by simpa using hk
          have hsame := files other.path (fresh other (List.mem_of_getElem? hk'))
          refine Or.inr ⟨k, other, hk', by omega, by rw [h]; congr 1; omega, ?_⟩
          rw [← hp]
          exact alreadyInPlace_congr hsame

theorem runOperations_run (env : ApplyEnv β) (observed : BTreeMap Path (Option β)) (start : Nat)
    {operations : List (FileChange β)} {world : World β}
    (distinct : (operations.map FileChange.path).Nodup)
    (seen : ∀ change ∈ operations, ∀ contents, observed.get? change.path = some contents →
      (world.files change.path).contents = contents) :
    OperationsRun env observed start operations world (runOperations env observed start operations world) := by
  induction operations generalizing start world with
  | nil =>
    constructor <;> simp [runOperations, reachedIndex]
  | cons change rest ih =>
    have hd := List.nodup_cons.mp distinct
    have fresh : ∀ other ∈ rest, other.path ≠ change.path :=
      fun other ho heq => hd.1 (heq ▸ List.mem_map_of_mem ho)
    rw [runOperations]
    split
    next hplace =>
      obtain ⟨contents, hc, hobs, hmode⟩ := alreadyInPlace_spec hplace
      have run := ih (start + 1) hd.2 fun other ho => seen other (List.mem_cons_of_mem _ ho)
      refine run.cons fresh rfl ?_ (fun _ _ => rfl) ?_
      · rw [FileChange.InEffect, hc]
        exact ⟨seen change (by simp) _ hobs, hmode⟩
      · intro event
        simp [hplace]
    next hplace =>
      split
      next cause hfail =>
        refine ⟨rfl, le_refl _, by simp [reachedIndex], ?_, ?_, fun _ _ => rfl, ?_⟩
        · intro index error h
          exact ⟨0, change, rfl, by simp_all⟩
        · intro k other _ hlt
          simp [reachedIndex] at hlt
        · simp [reachedIndex]
      next hfail =>
        have hfiles : ∀ path, path ≠ change.path → change.perform env.host world.files path = world.files path :=
          fun path hne => perform_ne env.host change world.files hne
        let next : World β :=
          { world with files := change.perform env.host world.files, log := world.log ++ [.operation start] }
        have hseen : ∀ other ∈ rest, ∀ contents, observed.get? other.path = some contents →
            (next.files other.path).contents = contents := by
          intro other ho contents hc
          have hsame := hfiles other.path (fresh other ho)
          exact (congrArg Entry.contents hsame).trans (seen other (List.mem_cons_of_mem _ ho) contents hc)
        have run := ih (start + 1) hd.2 hseen
        refine run.cons fresh rfl (perform_inEffect env.host change world.files) hfiles ?_
        intro event
        simp [next, hplace]

end AgentDesktop
