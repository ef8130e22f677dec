import AgentDesktop.Base64Text
import AgentDesktop.ShellWords
import AgentDesktop.SocketAddress
import AgentDesktop.Utf16Text

namespace AgentDesktop

structure CommandSpec where
  program : String
  args : List String
  deriving DecidableEq

def CommandSpec.words (command : CommandSpec) : List String :=
  command.program :: command.args

def replaceChar (c : Char) (replacement : String) (value : String) : String :=
  String.ofList (value.toList.flatMap fun d => if d = c then replacement.toList else [d])

def shellQuote (value : String) : String :=
  "'" ++ replaceChar '\x27' "'\\''" value ++ "'"

def powershellQuote (value : String) : String :=
  "'" ++ replaceChar '\x27' "''" value ++ "'"

def renderPosixCommand (command : CommandSpec) : String :=
  joinWith " " (command.words.map shellQuote)

def renderWindowsCommand (command : CommandSpec) : String :=
  let script := joinWith " " (command.words.map powershellQuote)
  let encoded := (encodeUtf16 ("& " ++ script).toList).flatMap toLeBytes
  "powershell.exe -NoLogo -NoProfile -NonInteractive -EncodedCommand " ++ String.ofList (base64Encode encoded)

/-- The parts of a character of a quoted value. A quote is left, escaped and entered again. -/
def quotedChar (c : Char) : List ShellPart :=
  if c = '\x27' then [.literal c, .opened] else [.literal c]

/-- The parts that a shell reads of a quoted value. -/
def quotedParts (value : String) : List ShellPart :=
  .opened :: value.toList.flatMap quotedChar

theorem mem_quotedParts {value : String} {part : ShellPart} (h : part ∈ quotedParts value) :
    part = .opened ∨ ∃ c, part = .literal c := by
  rcases List.mem_cons.mp h with rfl | h
  · exact .inl rfl
  · obtain ⟨c, -, hpart⟩ := List.mem_flatMap.mp h
    by_cases hc : c = '\x27'
    · rw [quotedChar, if_pos hc] at hpart
      rcases List.mem_cons.mp hpart with rfl | hopened
      · exact .inr ⟨c, rfl⟩
      · exact .inl (List.mem_singleton.mp hopened)
    · rw [quotedChar, if_neg hc] at hpart
      exact .inr ⟨c, List.mem_singleton.mp hpart⟩

theorem quotedParts_text (value : String) :
    String.ofList ((quotedParts value).flatMap ShellPart.text) = value := by
  have hchar : ∀ c, (quotedChar c).flatMap ShellPart.text = [c] := by
    intro c
    rw [quotedChar]
    split <;> rfl
  have htext : (quotedParts value).flatMap ShellPart.text = value.toList := by
    rw [quotedParts, List.flatMap_cons, List.flatMap_assoc]
    simp [hchar, ShellPart.text]
  rw [htext, String.ofList_toList]

/-- Inside of quotes, a value with its quotes replaced is read up to the quote that ends it. -/
theorem shellParts_replaced (value rest : List Char) :
    shellParts true ((value.flatMap fun d => if d = '\x27' then "'\\''".toList else [d]) ++ '\x27' :: rest) =
      (shellParts false rest).map (value.flatMap quotedChar ++ ·) := by
  induction value with
  | nil => simp [shellParts]
  | cons c value ih =>
    rw [List.flatMap_cons, List.append_assoc, List.flatMap_cons]
    by_cases hc : c = '\x27'
    · subst hc
      rw [if_pos rfl, quotedChar, if_pos rfl]
      have hleft : ∀ inside : List Char, shellParts true ("'\\''".toList ++ inside) =
          (shellParts true inside).map fun parts => .literal '\x27' :: .opened :: parts := by
        intro inside
        change shellParts false ('\\' :: '\x27' :: '\x27' :: inside) = _
        rw [shellParts_escaped, shellParts_open, Option.map_map]
        rfl
      rw [hleft, ih, Option.map_map]
      rfl
    · rw [if_neg hc, List.singleton_append, shellParts, if_neg hc, ih, Option.map_map, quotedChar, if_neg hc]
      rfl

theorem shellParts_quoted (value : String) (rest : List Char) :
    shellParts false ((shellQuote value).toList ++ rest) = (shellParts false rest).map (quotedParts value ++ ·) := by
  have htext : (shellQuote value).toList ++ rest = '\x27' ::
      ((value.toList.flatMap fun d => if d = '\x27' then "'\\''".toList else [d]) ++ '\x27' :: rest) := by
    simp [shellQuote, replaceChar]
  rw [htext, shellParts_open, shellParts_replaced, Option.map_map]
  rfl

/-- Quoted values with a blank between them are read as words of their own. -/
theorem shellParts_joined (values : List String) (hne : values ≠ []) :
    ∃ parts, shellParts false (joinWith " " (values.map shellQuote)).toList = some parts ∧
      shellWords parts = values ∧ ∀ c, ShellPart.plain c ∉ parts := by
  induction values with
  | nil => exact absurd rfl hne
  | cons value values ih =>
    have hword : ∀ part ∈ quotedParts value, part.isBlank = false := by
      intro part hpart
      rcases mem_quotedParts hpart with rfl | ⟨c, rfl⟩ <;> rfl
    have hplain : ∀ c, ShellPart.plain c ∉ quotedParts value := by
      intro c hpart
      rcases mem_quotedParts hpart with h | ⟨d, h⟩ <;> cases h
    cases values with
    | nil =>
      have hparts := shellParts_quoted value []
      rw [List.append_nil] at hparts
      refine ⟨quotedParts value, hparts.trans (by simp [shellParts]), ?_, hplain⟩
      rw [shellWords_single hword (List.cons_ne_nil _ _), quotedParts_text]
    | cons next values =>
      obtain ⟨parts, hparts, hwords, hrest⟩ := ih (List.cons_ne_nil _ _)
      refine ⟨quotedParts value ++ .blank ' ' :: parts, ?_, ?_, ?_⟩
      · have htext : (joinWith " " ((value :: next :: values).map shellQuote)).toList =
            (shellQuote value).toList ++ ' ' :: (joinWith " " ((next :: values).map shellQuote)).toList := by
          simp [joinWith]
        rw [htext, shellParts_quoted, shellParts_blank, hparts]
        rfl
      · rw [shellWords_cons hword (List.cons_ne_nil _ _), quotedParts_text, hwords]
      · intro c hmem
        rcases List.mem_append.mp hmem with h | h
        · exact hplain c h
        · rcases List.mem_cons.mp h with h | h
          · cases h
          · exact hrest c h

/-- A shell reads a rendered command back as its words, with every character of theirs quoted. -/
theorem posix_command_read_back (command : CommandSpec) :
    ∃ parts, shellParts false (renderPosixCommand command).toList = some parts ∧
      shellWords parts = command.program :: command.args ∧ ∀ c, ShellPart.plain c ∉ parts :=
  shellParts_joined command.words (List.cons_ne_nil _ _)

end AgentDesktop
