import AgentDesktop.ListAt
import AgentDesktop.LogoutFinal

namespace AgentDesktop

deriving instance DecidableEq for OAuthCredentials

def RefreshPc.holdsMutex : RefreshPc → Bool
  | .checking => false
  | .waiting => false
  | .loading => true
  | .calling => true
  | .saving => true

/-- The credentials of a refresh that was answered and is still to be saved. -/
def IdentityRequest.unsaved (request : IdentityRequest) : List OAuthCredentials :=
  match request.pc with
  | .saving => [request.identity.oauth]
  | _ => []

def IdentityRequest.holdsMutex (request : IdentityRequest) : Bool :=
  request.pc.holdsMutex

/-- The credentials the token endpoint answers a refresh with. -/
def IdentityRequest.answered (request : IdentityRequest) : RefreshInput → List OAuthCredentials
  | .respond (.ok response) now => [(request.identity.applyRefreshedTokens response now).oauth]
  | _ => []

/-- The credentials a refresh saves. -/
def IdentityRequest.saved (request : IdentityRequest) : RefreshInput → List OAuthCredentials
  | .save true => [request.identity.oauth]
  | _ => []

/-- What is left of a refresh after a step. -/
def RefreshProgress.remaining : RefreshProgress → List IdentityRequest
  | .running pc identity => [⟨pc, identity⟩]
  | .finished _ => []
  | .failed _ => []

/-- What one step of a refresh does to the mutex, to the stored identity and to
the credentials it carries. -/
structure RefreshStep (cell : IdentityCell) (request : IdentityRequest) (input : RefreshInput) (next : IdentityCell)
    (progress : RefreshProgress) : Prop where
  mutex : (request.holdsMutex = true → cell.locked = true) →
    progress.remaining.countP IdentityRequest.holdsMutex + cell.locked.toNat =
      [request].countP IdentityRequest.holdsMutex + next.locked.toNat
  carried : request.unsaved ++ request.answered input =
    request.saved input ++ progress.remaining.flatMap IdentityRequest.unsaved
  outside : request.holdsMutex = false → request.answered input = [] ∧ request.saved input = []
  stored : (request.saved input = [] ∧ next.store = cell.store) ∨
    (request.saved input = [request.identity.oauth] ∧ next.store = some request.identity)
  finished : ∀ identity, progress = .finished identity →
    next.store.map Identity.oauth = some identity.oauth ∨
      ∃ now, input = .clock now ∧ request.pc = .checking ∧ identity = request.identity ∧
        identity.needsRefresh now = false
  failed : ∀ failure, progress = .failed failure → failure = .other ∨ ∃ now, input = .respond (.error failure) now

theorem refreshStep_spec {cell next : IdentityCell} {request : IdentityRequest} {input : RefreshInput}
    {progress : RefreshProgress} (h : refreshStep cell request.identity request.pc input = some (next, progress))
    (saves : input ≠ .save false) : RefreshStep cell request input next progress := by
  obtain ⟨pc, identity⟩ := request
  cases pc <;> cases input <;> try cases h
  case checking.clock now =>
    simp only [refreshStep] at h
    split at h
    next =>
      cases h
      exact ⟨fun _ => rfl, rfl, fun _ => ⟨rfl, rfl⟩, .inl ⟨rfl, rfl⟩, (by rintro _ ⟨⟩), (by rintro _ ⟨⟩)⟩
    next hfresh =>
      cases h
      refine ⟨fun _ => rfl, rfl, fun _ => ⟨rfl, rfl⟩, .inl ⟨rfl, rfl⟩, fun other ho => .inr ⟨now, rfl, rfl, ?_, ?_⟩,
        (by rintro _ ⟨⟩)⟩
      · exact (RefreshProgress.finished.inj ho).symm
      · cases ho
        exact Bool.eq_false_iff.mpr hfresh
  case waiting.lock =>
    simp only [refreshStep] at h
    split at h
    next => cases h
    next hfree =>
      cases h
      refine ⟨fun _ => ?_, rfl, fun _ => ⟨rfl, rfl⟩, .inl ⟨rfl, rfl⟩, (by rintro _ ⟨⟩), (by rintro _ ⟨⟩)⟩
      rw [Bool.eq_false_iff.mpr hfree]
      rfl
  case loading.load fault now =>
    simp only [refreshStep] at h
    split at h
    next =>
      cases h
      exact ⟨fun _ => rfl, rfl, (by rintro ⟨⟩), .inl ⟨rfl, rfl⟩, (by rintro _ ⟨⟩), (by rintro _ ⟨⟩)⟩
    next =>
      cases h
      refine ⟨fun held => ?_, rfl, (by rintro ⟨⟩), .inl ⟨rfl, rfl⟩, (by rintro _ ⟨⟩), fun _ hf => .inl ?_⟩
      · rw [held rfl]
        rfl
      · exact (RefreshProgress.failed.inj hf).symm
    next =>
      split at h
      next stored hstored =>
        split at h
        next =>
          cases h
          exact ⟨fun _ => rfl, rfl, (by rintro ⟨⟩), .inl ⟨rfl, rfl⟩, (by rintro _ ⟨⟩), (by rintro _ ⟨⟩)⟩
        next =>
          cases h
          refine ⟨fun held => ?_, rfl, (by rintro ⟨⟩), .inl ⟨rfl, rfl⟩, fun other ho => .inl ?_, (by rintro _ ⟨⟩)⟩
          · rw [held rfl]
            rfl
          · cases ho
            rw [IdentityCell.unlock, hstored]
            rfl
      next =>
        cases h
        exact ⟨fun _ => rfl, rfl, (by rintro ⟨⟩), .inl ⟨rfl, rfl⟩, (by rintro _ ⟨⟩), (by rintro _ ⟨⟩)⟩
  case calling.respond response now =>
    simp only [refreshStep] at h
    split at h
    next =>
      cases h
      refine ⟨fun held => ?_, rfl, (by rintro ⟨⟩), .inl ⟨rfl, rfl⟩, (by rintro _ ⟨⟩), fun _ hf => .inr ⟨now, ?_⟩⟩
      · rw [held rfl]
        rfl
      · rw [RefreshProgress.failed.inj hf]
    next =>
      cases h
      exact ⟨fun _ => rfl, rfl, (by rintro ⟨⟩), .inl ⟨rfl, rfl⟩, (by rintro _ ⟨⟩), (by rintro _ ⟨⟩)⟩
  case saving.save ok =>
    cases ok with
    | false => exact absurd rfl saves
    | true =>
      cases h
      refine ⟨fun held => ?_, rfl, (by rintro ⟨⟩), .inr ⟨rfl, rfl⟩, fun other ho => .inl ?_, (by rintro _ ⟨⟩)⟩
      · rw [held rfl]
        rfl
      · cases ho
        rfl

/-- The requests after a step of one of them. -/
def RefreshProgress.replace (progress : RefreshProgress) (requests : List IdentityRequest) (index : Nat) :
    List IdentityRequest :=
  match progress with
  | .running pc identity => requests.set index ⟨pc, identity⟩
  | _ => requests.eraseIdx index

theorem replace_split {requests : List IdentityRequest} {index : Nat} {request : IdentityRequest}
    (h : requests[index]? = some request) (progress : RefreshProgress) :
    ∃ before after, requests = before ++ request :: after ∧
      progress.replace requests index = before ++ (progress.remaining ++ after) := by
  refine ⟨requests.take index, requests.drop (index + 1), split_at h, ?_⟩
  cases progress with
  | running pc identity => exact set_at h _
  | finished identity => exact List.eraseIdx_eq_take_drop_succ requests index
  | failed failure => exact List.eraseIdx_eq_take_drop_succ requests index

theorem Sessions.requestStep_spec {s t : Sessions} {index : Nat} {input : RefreshInput}
    (h : s.requestStep index input = some t) :
    ∃ request cell progress, s.requests[index]? = some request ∧
      refreshStep s.cell request.identity request.pc input = some (cell, progress) ∧
      t = { s with cell, requests := progress.replace s.requests index } := by
  unfold Sessions.requestStep at h
  split at h
  next => cases h
  next request hget =>
    split at h
    next => cases h
    next cell pc identity hrefresh => exact ⟨request, cell, _, hget, hrefresh, (Option.some.inj h).symm⟩
    next cell identity hrefresh => exact ⟨request, cell, _, hget, hrefresh, (Option.some.inj h).symm⟩
    next cell failure hrefresh => exact ⟨request, cell, _, hget, hrefresh, (Option.some.inj h).symm⟩

end AgentDesktop
