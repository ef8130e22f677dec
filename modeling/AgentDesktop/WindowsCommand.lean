import AgentDesktop.CommandRender
import AgentDesktop.PowerShellScript
import Mathlib.Algebra.Order.BigOperators.Group.List

namespace AgentDesktop

/-- The word after `-EncodedCommand`. -/
def encodedArgument : List (List Char) → Option (List Char)
  | name :: argument :: rest =>
    if name = "-EncodedCommand".toList then some argument else encodedArgument (argument :: rest)
  | _ => none

/-- What PowerShell runs of a command line: the script of its encoded command. -/
def readEncodedCommand (text : String) : Option (List PowerShellToken) := do
  let argument ← encodedArgument (text.toList.splitOn ' ')
  let bytes ← base64Decode argument
  let units ← fromLeBytes bytes
  let script ← decodeUtf16 units
  lexScript none script

def powershellScript (values : List String) : List Char :=
  (joinWith " " (values.map powershellQuote)).toList

def doubleQuotes (text : List Char) : List Char :=
  text.flatMap fun d => if d = '\x27' then ['\x27', '\x27'] else [d]

theorem powershellQuote_toList (value : String) :
    (powershellQuote value).toList = '\x27' :: (doubleQuotes value.toList ++ ['\x27']) := by
  simp [powershellQuote, replaceChar, doubleQuotes]

theorem powershellScript_single (value : String) :
    powershellScript [value] = '\x27' :: (doubleQuotes value.toList ++ ['\x27']) :=
  powershellQuote_toList value

theorem powershellScript_cons (value next : String) (values : List String) :
    powershellScript (value :: next :: values) =
      '\x27' :: (doubleQuotes value.toList ++ '\x27' :: ' ' :: powershellScript (next :: values)) := by
  simp [powershellScript, joinWith, powershellQuote_toList]

theorem encodedArgument_last {argument : List Char} (h : ' ' ∉ argument) :
    encodedArgument
        (("powershell.exe -NoLogo -NoProfile -NonInteractive -EncodedCommand".toList ++ ' ' :: argument).splitOn ' ') =
      some argument := by
  have hlast : argument.splitOn ' ' = [argument] :=
    List.splitOn_eq_singleton h
  rw [List.splitOn_append_cons_self, hlast]
  rfl

theorem readEncodedCommand_encoded (script : List Char) :
    readEncodedCommand ("powershell.exe -NoLogo -NoProfile -NonInteractive -EncodedCommand " ++
      String.ofList (base64Encode ((encodeUtf16 script).flatMap toLeBytes))) = lexScript none script := by
  have hargument := encodedArgument_last (blank_notMem_base64Encode ((encodeUtf16 script).flatMap toLeBytes))
  have htext : ("powershell.exe -NoLogo -NoProfile -NonInteractive -EncodedCommand " ++
      String.ofList (base64Encode ((encodeUtf16 script).flatMap toLeBytes))).toList =
        "powershell.exe -NoLogo -NoProfile -NonInteractive -EncodedCommand".toList ++
          ' ' :: base64Encode ((encodeUtf16 script).flatMap toLeBytes) := by
    simp
  rw [readEncodedCommand, htext, hargument]
  simp only [Option.bind_eq_bind, Option.bind_some, base64Decode_encode, fromLeBytes_toLeBytes, decodeUtf16_encode]

theorem readEncodedCommand_rendered (command : CommandSpec) :
    readEncodedCommand (renderWindowsCommand command) =
      (lexScript none (powershellScript command.words)).map (.callOperator :: ·) := by
  have hscript : ("& " ++ joinWith " " (command.words.map powershellQuote)).toList =
      '&' :: ' ' :: powershellScript command.words := by
    simp [powershellScript]
  unfold renderWindowsCommand
  dsimp only
  rw [hscript, readEncodedCommand_encoded, lexScript_call, lexScript_blank]

theorem lexScript_quoted {value : List Char} (h : ∀ c ∈ value, isTypographicQuote c = false) (text : List Char)
    {rest : List Char} (hrest : ∀ next ∈ rest.head?, isSingleQuote next = false) :
    lexScript (some text) (doubleQuotes value ++ '\x27' :: rest) =
      (lexScript none rest).map (.literal (String.ofList (text ++ value)) :: ·) := by
  induction value generalizing text with
  | nil => rw [doubleQuotes, List.flatMap_nil, List.nil_append, lexScript_closed _ rfl hrest, List.append_nil]
  | cons c value ih =>
    have hread := ih (fun d hd => h d (List.mem_cons_of_mem _ hd)) (text ++ [c])
    rw [List.append_assoc, List.singleton_append] at hread
    rw [doubleQuotes, List.flatMap_cons, List.append_assoc, ← hread]
    by_cases hc : c = '\x27'
    · subst hc
      exact lexScript_doubled text rfl rfl
    · have hquote : isSingleQuote c = false := by
        simp [isSingleQuote, hc, h c List.mem_cons_self]
      rw [if_neg hc]
      exact lexScript_char text hquote

/-- Without a typographic quote each value is read as the text of one string. -/
theorem lexScript_joined {values : List String}
    (h : ∀ value ∈ values, ∀ c ∈ value.toList, isTypographicQuote c = false) :
    lexScript none (powershellScript values) = some (values.map .literal) := by
  induction values with
  | nil => rfl
  | cons value values ih =>
    have hvalue := h value List.mem_cons_self
    have hread := ih fun other hother => h other (List.mem_cons_of_mem _ hother)
    cases values with
    | nil =>
      rw [powershellScript_single, lexScript_open rfl, lexScript_quoted hvalue [] (by simp)]
      simp [lexScript]
    | cons next values =>
      have hnext : ∀ c ∈ (' ' :: powershellScript (next :: values)).head?, isSingleQuote c = false := by
        intro c hc
        cases hc
        rfl
      rw [powershellScript_cons, lexScript_open rfl, lexScript_quoted hvalue [] hnext, lexScript_blank, hread]
      simp

theorem doubleQuotes_length (text : List Char) :
    (doubleQuotes text).length = text.length + text.countP (· == '\x27') := by
  induction text with
  | nil => rfl
  | cons c text ih =>
    rw [doubleQuotes, List.flatMap_cons, List.length_append, ← doubleQuotes, ih, List.length_cons, List.countP_cons]
    by_cases hc : c = '\x27'
    · rw [if_pos hc, if_pos (beq_iff_eq.mpr hc), List.length_cons, List.length_singleton]
      omega
    · rw [if_neg hc, if_neg (mt beq_iff_eq.mp hc), List.length_singleton]
      omega

theorem powershellQuote_length (value : String) :
    (powershellQuote value).toList.length = value.toList.length + value.toList.countP (· == '\x27') + 2 := by
  rw [powershellQuote_toList, List.length_cons, List.length_append, doubleQuotes_length, List.length_singleton]

theorem powershellScript_length {values : List String} (hne : values ≠ []) :
    (powershellScript values).length + 1 = (values.map fun value => (powershellQuote value).toList.length + 1).sum := by
  induction values with
  | nil => exact absurd rfl hne
  | cons value values ih =>
    cases values with
    | nil => simp [powershellScript, joinWith]
    | cons next values =>
      have hrest := ih (List.cons_ne_nil _ _)
      have hfirst : (powershellScript (value :: next :: values)).length =
          (powershellQuote value).toList.length + 1 + (powershellScript (next :: values)).length := by
        simp [powershellScript, joinWith]
        omega
      rw [List.map_cons, List.sum_cons, ← hrest, hfirst]
      omega

/-- A string takes the characters of its value and each single quote in it once more, while only
the ASCII ones are doubled. -/
theorem no_typographicQuote_of_lexScript {values : List String} (hne : values ≠ [])
    (h : lexScript none (powershellScript values) = some (values.map .literal)) :
    ∀ value ∈ values, ∀ c ∈ value.toList, isTypographicQuote c = false := by
  have hspan : (values.map fun value => (PowerShellToken.literal value).span).sum ≤
      (values.map fun value => (powershellQuote value).toList.length + 1).sum := by
    have hread := lexScript_span h
    have hroom := scriptRoom_le (powershellScript values)
    rw [powershellScript_length hne] at hroom
    rw [tokensSpan, List.map_map] at hread
    exact hread.trans hroom
  have heach : ∀ value : String, (PowerShellToken.literal value).span =
      (powershellQuote value).toList.length + 1 + value.toList.countP isTypographicQuote := by
    intro value
    rw [PowerShellToken.span, countP_isSingleQuote, powershellQuote_length]
    omega
  intro value hvalue c hc
  by_contra hquote
  have hpos : 0 < value.toList.countP isTypographicQuote :=
    List.countP_pos_iff.mpr ⟨c, hc, by simpa using hquote⟩
  have hlt := List.sum_lt_sum (fun value => (powershellQuote value).toList.length + 1)
    (fun value => (PowerShellToken.literal value).span)
    (fun other _ => by rw [heach]; omega) ⟨value, hvalue, by rw [heach]; omega⟩
  omega

/-- PowerShell reads a rendered command back as a call of its words exactly when none of them has
a typographic quote. -/
theorem powershell_command_read_back_iff (command : CommandSpec) :
    readEncodedCommand (renderWindowsCommand command) =
        some (.callOperator :: .literal command.program :: command.args.map .literal) ↔
      ∀ word ∈ command.program :: command.args, ∀ c ∈ word.toList, isTypographicQuote c = false := by
  rw [readEncodedCommand_rendered]
  constructor
  · intro h
    obtain ⟨tokens, htokens, heq⟩ := Option.map_eq_some_iff.mp h
    rw [(List.cons.inj heq).2] at htokens
    exact no_typographicQuote_of_lexScript (List.cons_ne_nil _ _) htokens
  · intro h
    have hread : lexScript none (powershellScript command.words) = some (command.words.map .literal) :=
      lexScript_joined h
    rw [hread]
    rfl

/-- The quote in the folder's name ends the string, and the last quote of the script opens one that
nothing ends. -/
theorem typographic_quote_path_unread :
    readEncodedCommand (renderWindowsCommand ⟨"C:\\l\u2019agent\\agentdesktop.exe", ["token"]⟩) = none := by
  rw [readEncodedCommand_rendered]
  decide +kernel

end AgentDesktop
