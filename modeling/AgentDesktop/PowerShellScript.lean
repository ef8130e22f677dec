import Mathlib.Algebra.GroupWithZero.Nat
import Mathlib.Data.List.Basic

namespace AgentDesktop

inductive PowerShellToken where
  | callOperator
  | literal (text : String)
  | other (c : Char)
  deriving DecidableEq

def isTypographicQuote (c : Char) : Bool :=
  c == '\u2018' || c == '\u2019' || c == '\u201A' || c == '\u201B'

/-- The characters that PowerShell takes for a single quote. -/
def isSingleQuote (c : Char) : Bool :=
  c == '\x27' || isTypographicQuote c

def isScriptBlank (c : Char) : Bool :=
  c == ' ' || c == '\t'

/-- Reads a script from between its tokens, or from inside a string of which some text is read.
Two single quotes in a row stand for the second of them. -/
def lexScript : Option (List Char) → List Char → Option (List PowerShellToken)
  | none, [] => some []
  | none, c :: rest =>
    if isSingleQuote c then lexScript (some []) rest
    else if isScriptBlank c then lexScript none rest
    else if c = '&' then (lexScript none rest).map (.callOperator :: ·)
    else (lexScript none rest).map (.other c :: ·)
  | some _, [] => none
  | some text, [c] => if isSingleQuote c then some [.literal (String.ofList text)] else none
  | some text, c :: next :: rest =>
    if isSingleQuote c then
      if isSingleQuote next then lexScript (some (text ++ [next])) rest
      else (lexScript none (next :: rest)).map (.literal (String.ofList text) :: ·)
    else lexScript (some (text ++ [c])) (next :: rest)

example : lexScript none "& 'it''s' 'b'".toList = some [.callOperator, .literal "it's", .literal "b"] := by
  decide +kernel

theorem lexScript_call (rest : List Char) :
    lexScript none ('&' :: rest) = (lexScript none rest).map (.callOperator :: ·) := by
  rw [lexScript]
  rfl

theorem lexScript_blank (rest : List Char) : lexScript none (' ' :: rest) = lexScript none rest := by
  rw [lexScript]
  rfl

theorem lexScript_open {c : Char} (hc : isSingleQuote c = true) (rest : List Char) :
    lexScript none (c :: rest) = lexScript (some []) rest := by
  rw [lexScript, if_pos hc]

section

variable {c next : Char} {rest : List Char} (text : List Char)

theorem lexScript_char (hc : isSingleQuote c = false) :
    lexScript (some text) (c :: rest) = lexScript (some (text ++ [c])) rest := by
  cases rest with
  | nil => simp [lexScript, hc]
  | cons next rest => simp [lexScript, hc]

theorem lexScript_doubled (hc : isSingleQuote c = true) (hnext : isSingleQuote next = true) :
    lexScript (some text) (c :: next :: rest) = lexScript (some (text ++ [next])) rest := by
  simp [lexScript, hc, hnext]

theorem lexScript_closed (hc : isSingleQuote c = true) (hrest : ∀ next ∈ rest.head?, isSingleQuote next = false) :
    lexScript (some text) (c :: rest) = (lexScript none rest).map (.literal (String.ofList text) :: ·) := by
  cases rest with
  | nil => simp [lexScript, hc]
  | cons next rest =>
    have hnext : isSingleQuote next = false := hrest next rfl
    simp [lexScript, hc, hnext]

end

theorem countP_isSingleQuote (text : List Char) :
    text.countP isSingleQuote = text.countP (· == '\x27') + text.countP isTypographicQuote := by
  induction text with
  | nil => rfl
  | cons c text ih =>
    rw [List.countP_cons, List.countP_cons, List.countP_cons, ih, isSingleQuote]
    by_cases hc : c = '\x27'
    · have hplain : isTypographicQuote c = false := by
        rw [hc]
        rfl
      rw [beq_iff_eq.mpr hc, hplain, Bool.true_or, if_pos rfl, if_neg Bool.false_ne_true]
      omega
    · rw [beq_eq_false_iff_ne.mpr hc, Bool.false_or, if_neg Bool.false_ne_true]
      omega

/-- The characters that a string takes in a script, and a blank before it. -/
def PowerShellToken.span : PowerShellToken → Nat
  | .callOperator => 0
  | .literal text => text.toList.length + text.toList.countP isSingleQuote + 3
  | .other _ => 0

def tokensSpan (tokens : List PowerShellToken) : Nat :=
  (tokens.map PowerShellToken.span).sum

theorem tokensSpan_nil : tokensSpan [] = 0 := rfl

theorem tokensSpan_cons (token : PowerShellToken) (tokens : List PowerShellToken) :
    tokensSpan (token :: tokens) = token.span + tokensSpan tokens := by
  rw [tokensSpan, List.map_cons, List.sum_cons]
  rfl

/-- The characters that are left for strings. The first of them needs no blank before it, and where
a string is open its opening quote is read. -/
def scriptRoom : Option (List Char) → List Char → Nat
  | none, script => script.length + if script.head?.any isSingleQuote then 1 else 0
  | some text, script => text.length + text.countP isSingleQuote + script.length + 2

theorem scriptRoom_le (script : List Char) : scriptRoom none script ≤ script.length + 1 := by
  rw [scriptRoom]
  split <;> omega

theorem scriptRoom_cons {c : Char} (hc : isSingleQuote c = false) (rest : List Char) :
    scriptRoom none (c :: rest) = rest.length + 1 := by
  simp [scriptRoom, hc]

theorem scriptRoom_text (text script : List Char) (c : Char) :
    scriptRoom (some (text ++ [c])) script = scriptRoom (some text) script + 1 + if isSingleQuote c then 1 else 0 := by
  simp only [scriptRoom, List.length_append, List.length_singleton, List.countP_append, List.countP_singleton]
  omega

/-- What is read of a script has room in it. -/
theorem lexScript_span {mode : Option (List Char)} {script : List Char} {tokens : List PowerShellToken}
    (h : lexScript mode script = some tokens) : tokensSpan tokens ≤ scriptRoom mode script := by
  fun_induction lexScript mode script generalizing tokens with
  | case1 =>
    cases h
    exact Nat.zero_le _
  | case2 c rest hc ih =>
    have hspan := ih h
    simp only [scriptRoom, List.length_nil, List.countP_nil] at hspan
    simp only [scriptRoom, List.length_cons, List.head?_cons, Option.any_some, hc, if_true]
    omega
  | case3 c rest hc hblank ih =>
    have hspan := ih h
    have hroom := scriptRoom_le rest
    rw [scriptRoom_cons (by simpa using hc)]
    omega
  | case4 rest hc hblank ih =>
    obtain ⟨after, hafter, rfl⟩ := Option.map_eq_some_iff.mp h
    have hspan := ih hafter
    have hroom := scriptRoom_le rest
    rw [scriptRoom_cons (by simpa using hc), tokensSpan_cons, PowerShellToken.span]
    omega
  | case5 c rest hc hblank hcall ih =>
    obtain ⟨after, hafter, rfl⟩ := Option.map_eq_some_iff.mp h
    have hspan := ih hafter
    have hroom := scriptRoom_le rest
    rw [scriptRoom_cons (by simpa using hc), tokensSpan_cons, PowerShellToken.span]
    omega
  | case6 text => cases h
  | case7 text c hc =>
    cases h
    simp only [tokensSpan_cons, tokensSpan_nil, PowerShellToken.span, String.toList_ofList, scriptRoom,
      List.length_singleton]
    omega
  | case8 text c hc => cases h
  | case9 text c next rest hc hnext ih =>
    have hspan := ih h
    rw [scriptRoom_text, hnext, if_pos rfl] at hspan
    simp only [scriptRoom, List.length_cons] at hspan ⊢
    omega
  | case10 text c next rest hc hnext ih =>
    obtain ⟨after, hafter, rfl⟩ := Option.map_eq_some_iff.mp h
    have hspan := ih hafter
    rw [scriptRoom_cons (by simpa using hnext)] at hspan
    simp only [tokensSpan_cons, PowerShellToken.span, String.toList_ofList, scriptRoom, List.length_cons]
    omega
  | case11 text c next rest hc ih =>
    have hspan := ih h
    rw [scriptRoom_text, if_neg hc] at hspan
    simp only [scriptRoom, List.length_cons] at hspan ⊢
    omega

end AgentDesktop
