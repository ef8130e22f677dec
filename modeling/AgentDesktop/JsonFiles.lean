import AgentDesktop.JsonMergeDocument
import AgentDesktop.ReconcilePlan

namespace AgentDesktop

/-- How documents are stored in files: which contents are blank, what a file
parses to, and the contents a document is written as. A document is read back as
it was written, its doubles to the last bit. -/
structure Codec (β : Type) where
  blank : β → Bool
  parse : JsonFormat → β → Option Json
  print : Json → β
  parse_print : ∀ format document, parse format (print document) = some document
  print_not_blank : ∀ document, blank (print document) = false

/-- What the path of a user file holds, up to formatting. -/
inductive Stored where
  | absent
  | blank
  | document (document : Json)
  | unusable
  deriving DecidableEq

/-- The path of the sidecar next to a user file. -/
def statePath (path : Path) : Path :=
  match path.getLast? with
  | none => [".settings.json.agentdesktop"]
  | some ".." => path ++ [".settings.json.agentdesktop"]
  | some name => path.dropLast ++ ["." ++ name ++ ".agentdesktop"]

/-- A file named after another one is another file. -/
theorem renamed_ne {path : Path} {name suffix : String} (h : path.getLast? = some name) :
    path.dropLast ++ ["." ++ name ++ suffix] ≠ path := by
  intro heq
  have hlast := congrArg List.getLast? heq
  rw [List.getLast?_append, h] at hlast
  have hname : "." ++ name ++ suffix = name := by simpa using hlast
  have hlength := congrArg String.length hname
  simp only [String.length_append] at hlength
  have hdot : ".".length = 1 := rfl
  omega

theorem statePath_ne (path : Path) : statePath path ≠ path := by
  unfold statePath
  split
  next h => simp_all
  next => simp
  next name hne h => exact renamed_ne h

/-- The merge state as the document the sidecar holds. -/
def stateJson (state : MergeState) : Json where
  value := .object [("after", state.after.value), ("before", state.before.value), ("created", .bool state.created)]
  valid := by
    refine valid_object.mpr ⟨?_, ?_⟩
    · simp only [SortedMap.Sorted, List.pairwise_cons, List.mem_cons, List.not_mem_nil, or_false, forall_eq_or_imp,
        forall_eq, List.Pairwise.nil, and_true, false_implies, implies_true]
      decide
    · simp [state.after.valid, state.before.valid, Value.valid]

/-- The state a sidecar document stands for: a struct by field names, or the
fields in order. -/
def parseState (document : Json) : Option MergeState :=
  match h : document.value with
  | .object fields =>
    match hc : List.lookup "created" fields, hb : List.lookup "before" fields, ha : List.lookup "after" fields with
    | some (.bool created), some before, some after =>
      have valid := valid_object.mp (h ▸ document.valid)
      some ⟨created, ⟨before, valid.2 _ (SortedMap.lookup_mem hb)⟩, ⟨after, valid.2 _ (SortedMap.lookup_mem ha)⟩⟩
    | _, _, _ => none
  | .array [.bool created, before, after] =>
    have valid := valid_array.mp (h ▸ document.valid)
    some ⟨created, ⟨before, valid before (by simp)⟩, ⟨after, valid after (by simp)⟩⟩
  | _ => none

theorem parseState_stateJson (state : MergeState) : parseState (stateJson state) = some state := by
  rfl

section

variable {β : Type} (codec : Codec β)

/-- What a file holds, up to formatting. -/
def stored (format : JsonFormat) (entry : Entry β) : Stored :=
  match entry with
  | .absent => .absent
  | .unreadable => .unusable
  | .file contents _ =>
    if codec.blank contents then .blank
    else
      match codec.parse format contents with
      | some document => .document document
      | none => .unusable

/-- What a sidecar holds. -/
def sidecar (entry : Entry β) : Except Unit (Option MergeState) :=
  match entry with
  | .absent => .ok none
  | .unreadable => .error ()
  | .file contents _ =>
    match (codec.parse .json contents).bind parseState with
    | some state => .ok (some state)
    | none => .error ()

end

end AgentDesktop
