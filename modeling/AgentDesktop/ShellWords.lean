import Mathlib.Data.List.Basic

namespace AgentDesktop

/-- What a character of a shell command is: a quote that opens, a character that stands for
itself since it is quoted or follows a backslash, a blank between words, or any other one. -/
inductive ShellPart where
  | opened
  | literal (c : Char)
  | blank (c : Char)
  | plain (c : Char)
  deriving DecidableEq

def ShellPart.isBlank : ShellPart → Bool
  | .blank _ => true
  | _ => false

/-- What the part adds to its word. -/
def ShellPart.text : ShellPart → List Char
  | .opened => []
  | .literal c => [c]
  | .blank _ => []
  | .plain c => [c]

def isShellBlank (c : Char) : Bool :=
  c == ' ' || c == '\t'

/-- Reads a command from inside or from outside of single quotes. -/
def shellParts : Bool → List Char → Option (List ShellPart)
  | false, [] => some []
  | true, [] => none
  | true, c :: rest =>
    if c = '\x27' then shellParts false rest else (shellParts true rest).map (.literal c :: ·)
  | false, c :: rest =>
    if c = '\x27' then (shellParts true rest).map (.opened :: ·)
    else if c = '\\' then
      match rest with
      | [] => none
      | next :: after => (shellParts false after).map (.literal next :: ·)
    else if isShellBlank c then (shellParts false rest).map (.blank c :: ·)
    else (shellParts false rest).map (.plain c :: ·)

theorem shellParts_open (rest : List Char) :
    shellParts false ('\x27' :: rest) = (shellParts true rest).map (.opened :: ·) := by
  rw [shellParts.eq_def]
  rfl

theorem shellParts_escaped (c : Char) (rest : List Char) :
    shellParts false ('\\' :: c :: rest) = (shellParts false rest).map (.literal c :: ·) := rfl

theorem shellParts_blank (rest : List Char) :
    shellParts false (' ' :: rest) = (shellParts false rest).map (.blank ' ' :: ·) := by
  rw [shellParts.eq_def]
  rfl

/-- Parts that follow each other without a blank are one word. -/
def shellWords (parts : List ShellPart) : List String :=
  ((parts.splitOnP ShellPart.isBlank).filter (· ≠ [])).map fun word => String.ofList (word.flatMap ShellPart.text)

example : (shellParts false "a 'b c'\\ d''  ''".toList).map shellWords = some ["a", "b c d", ""] := by decide +kernel

section

variable {word rest : List ShellPart} (hword : ∀ part ∈ word, part.isBlank = false) (hne : word ≠ [])

include hword hne

theorem shellWords_single : shellWords word = [String.ofList (word.flatMap ShellPart.text)] := by
  have hsplit : word.splitOnP ShellPart.isBlank = [word] :=
    List.splitOnP_eq_singleton hword
  rw [shellWords, hsplit, List.filter_cons_of_pos (by simpa using hne)]
  rfl

theorem shellWords_cons (c : Char) :
    shellWords (word ++ .blank c :: rest) = String.ofList (word.flatMap ShellPart.text) :: shellWords rest := by
  have hsplit : (word ++ .blank c :: rest).splitOnP ShellPart.isBlank = word :: rest.splitOnP ShellPart.isBlank :=
    List.splitOnP_append_cons_of_forall_mem hword _ rfl _
  rw [shellWords, hsplit, List.filter_cons_of_pos (by simpa using hne), List.map_cons]
  rfl

end

end AgentDesktop
