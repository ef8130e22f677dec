import AgentDesktop.JsonApplied

namespace AgentDesktop

/-- The path of the marker that says whose a file is. -/
def ownerPath (path : Path) : Path :=
  match path.getLast? with
  | none => [".managed.owner"]
  | some ".." => path ++ [".managed.owner"]
  | some name => path.dropLast ++ ["." ++ name ++ ".owner"]

theorem ownerPath_ne (path : Path) : ownerPath path ≠ path := by
  unfold ownerPath
  split
  next h => simp_all
  next => simp
  next name hne h => exact renamed_ne h

section

variable {β : Type} [DecidableEq β] (files : FileSystem β) (marker : β)

def isOwned (owner : Path) (plan : ReconcilePlan β) : Except String (ReconcilePlan β × Bool) :=
  match plan.read files owner with
  | .ok (plan, contents) => .ok (plan, decide (contents = some marker))
  | .error _ => .error ("read " ++ displayPath owner)

/-- Plans a file with the given contents and its marker. A file that is not ours is a
conflict unless it holds those contents. -/
def writeOwned (host : Host) (path owner : Path) (contents : β) (permissions : UInt32) (description : String)
    (plan : ReconcilePlan β) : Except String (ReconcilePlan β) :=
  match isOwned files marker owner plan with
  | .error error => .error error
  | .ok (plan, owned) =>
  match plan.read files path with
  | .error _ => .error ("read " ++ displayPath path)
  | .ok (plan, existing) =>
  let record action (plan : ReconcilePlan β) :=
    plan.recordDiff "Claude Desktop" description action path existing (some contents)
  let mark action (plan : ReconcilePlan β) := (plan.writeFile files owner marker 0o644).map (record action)
  let write action := (plan.writeFile files path contents permissions).bind (mark action)
  match existing with
  | some current =>
    if current = contents ∧ grantsBeyond host files path permissions = false then
      if owned then .ok (record .unchanged plan) else mark .unchanged plan
    else if owned ∨ current = contents then write .update
    else .ok (record .conflict plan)
  | none => write .create

/-- Plans the removal of a file that is ours, and of its marker. -/
def removeOwned (path owner : Path) (description : String) (plan : ReconcilePlan β) :
    Except String (ReconcilePlan β) :=
  match isOwned files marker owner plan with
  | .error error => .error error
  | .ok (plan, false) => .ok (plan.record files "Claude Desktop" description .unchanged path)
  | .ok (plan, true) =>
  let unmark (plan : ReconcilePlan β) :=
    match plan.removeFile files owner with
    | .ok (plan, _) => .ok plan
    | .error _ => .error ("remove " ++ displayPath owner)
  match plan.read files path with
  | .error _ => .error ("inspect " ++ displayPath path)
  | .ok (plan, none) => unmark (plan.record files "Claude Desktop" description .unchanged path)
  | .ok (plan, some _) =>
    match plan.removeFile files path with
    | .error _ => .error ("remove " ++ displayPath path)
    | .ok (plan, _) => unmark (plan.record files "Claude Desktop" description .remove path)

variable {files marker} {path owner : Path} {existing mark : Option β}

theorem Plans.isOwned_ok {operations : List (FileChange β)} {conflict : Bool} {plan : ReconcilePlan β}
    (h : Plans files operations conflict plan) (howner : readOptional files owner = .ok mark) (marker : β) :
    ∃ next, isOwned files marker owner plan = .ok (next, decide (mark = some marker)) ∧
      Plans files operations conflict next := by
  obtain ⟨next, hread, hplans⟩ := h.read_ok howner
  refine ⟨next, ?_, hplans⟩
  rw [isOwned, hread]

/-- What writing a file plans: both files, just the marker, nothing, or a conflict. -/
inductive WritePlanned (marker : β) (path owner : Path) (contents : β) (permissions : UInt32)
    (existing mark : Option β) : List (FileChange β) → Bool → Prop where
  | both (h : mark = some marker ∨ existing = none ∨ existing = some contents) :
    WritePlanned marker path owner contents permissions existing mark
      [⟨path, some contents, permissions⟩, ⟨owner, some marker, 0o644⟩] false
  | claimed (h : existing = some contents) :
    WritePlanned marker path owner contents permissions existing mark [⟨owner, some marker, 0o644⟩] false
  | settled (hmark : mark = some marker) (h : existing = some contents) :
    WritePlanned marker path owner contents permissions existing mark [] false
  | conflict (hmark : mark ≠ some marker) {current : β} (hcurrent : existing = some current)
      (hdiffers : current ≠ contents) :
    WritePlanned marker path owner contents permissions existing mark [] true

theorem writeOwned_plans (hpath : readOptional files path = .ok existing)
    (howner : readOptional files owner = .ok mark) (marker : β) (host : Host) (contents : β) (permissions : UInt32)
    (description : String) :
    ∃ plan operations conflict,
      writeOwned files marker host path owner contents permissions description {} = .ok plan ∧
      Plans files operations conflict plan ∧
      WritePlanned marker path owner contents permissions existing mark operations conflict := by
  obtain ⟨asked, hasked, hplans⟩ := (Plans.start files).isOwned_ok howner marker
  obtain ⟨plan, hread, hplans⟩ := hplans.read_ok hpath
  have hwrite : ∀ action, action ≠ .conflict → ∃ written,
      ((plan.writeFile files path contents permissions).bind fun plan =>
        (plan.writeFile files owner marker 0o644).map fun plan =>
          plan.recordDiff "Claude Desktop" description action path existing (some contents)) = .ok written ∧
      Plans files [⟨path, some contents, permissions⟩, ⟨owner, some marker, 0o644⟩] false written := by
    intro action haction
    obtain ⟨first, hfirst, hplans⟩ := hplans.writeFile_ok hpath contents permissions
    obtain ⟨second, hsecond, hplans⟩ := hplans.writeFile_ok howner marker 0o644
    refine ⟨second.recordDiff "Claude Desktop" description action path existing (some contents), ?_, ?_⟩
    · rw [hfirst]
      simp only [Except.bind, hsecond, Except.map]
    · simpa [haction] using hplans.recordDiff "Claude Desktop" description action path existing (some contents)
  unfold writeOwned
  rw [hasked]
  dsimp only
  rw [hread]
  dsimp only
  cases existing with
  | none =>
    obtain ⟨written, hwritten, hplans⟩ := hwrite .create (by simp)
    exact ⟨written, _, _, hwritten, hplans, .both (by simp)⟩
  | some current =>
    dsimp only
    by_cases hinplace : current = contents ∧ grantsBeyond host files path permissions = false
    · rw [if_pos hinplace]
      obtain ⟨rfl, _⟩ := hinplace
      by_cases hmark : mark = some marker
      · rw [if_pos (by simp [hmark])]
        exact ⟨_, _, _, rfl, hplans.recordDiff _ _ .unchanged _ _ _, .settled hmark rfl⟩
      · rw [if_neg (by simp [hmark])]
        obtain ⟨marked, hmarked, hplans⟩ := hplans.writeFile_ok howner marker 0o644
        rw [hmarked]
        exact ⟨_, _, _, rfl, hplans.recordDiff _ _ .unchanged _ _ _, .claimed rfl⟩
    · rw [if_neg hinplace]
      by_cases hours : mark = some marker ∨ current = contents
      · rw [if_pos (by simpa using hours)]
        obtain ⟨written, hwritten, hplans⟩ := hwrite .update (by simp)
        refine ⟨written, _, _, hwritten, hplans, .both ?_⟩
        exact hours.imp_right fun hsame => Or.inr (congrArg some hsame)
      · rw [if_neg (by simpa using hours)]
        obtain ⟨hmark, hdiffers⟩ := not_or.mp hours
        exact ⟨_, _, _, rfl, hplans.recordDiff _ _ .conflict _ _ _, .conflict hmark rfl hdiffers⟩

/-- What removing a file plans: nothing if it is not ours, or the removal of what is there, the marker last. -/
theorem removeOwned_plans (hpath : readOptional files path = .ok existing)
    (howner : readOptional files owner = .ok mark) (marker : β) (description : String) :
    ∃ plan operations, removeOwned files marker path owner description {} = .ok plan ∧
      Plans files operations false plan ∧
      (mark ≠ some marker ∧ operations = [] ∨
        mark = some marker ∧ operations = existing.toList.map (fun _ => ⟨path, none, 0⟩) ++ [⟨owner, none, 0⟩]) := by
  obtain ⟨asked, hasked, hplans⟩ := (Plans.start files).isOwned_ok howner marker
  unfold removeOwned
  rw [hasked]
  by_cases hmark : mark = some marker
  · rw [decide_eq_true hmark]
    dsimp only
    obtain ⟨plan, hread, hplans⟩ := hplans.read_ok hpath
    rw [hread]
    subst hmark
    cases existing with
    | none =>
      obtain ⟨removed, hremoved, hplans⟩ := (hplans.record_plain "Claude Desktop" description
        (by simp : Action.unchanged ≠ .conflict) path).removeFile_ok howner
      refine ⟨removed, _, ?_, hplans, Or.inr ⟨rfl, rfl⟩⟩
      simp only [hremoved]
    | some current =>
      obtain ⟨removed, hremoved, hplans⟩ := hplans.removeFile_ok hpath
      obtain ⟨unmarked, hunmarked, hplans⟩ := (hplans.record_plain "Claude Desktop" description
        (by simp : Action.remove ≠ .conflict) path).removeFile_ok howner
      refine ⟨unmarked, _, ?_, hplans, Or.inr ⟨rfl, rfl⟩⟩
      simp only [hremoved, hunmarked]
  · rw [decide_eq_false hmark]
    exact ⟨_, _, rfl, hplans.record_plain _ _ (by simp) _, Or.inl ⟨hmark, rfl⟩⟩

end

end AgentDesktop
