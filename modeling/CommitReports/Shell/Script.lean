/-!
# Shell scripts

The part of the shell's language that mail commands are written in: simple
commands with redirections, pipelines, lists, and the two kinds of groups. A
script is first cut into tokens and then read by precedence: `|` binds closer
than `&&` and `||`, and these closer than `;`.
-/

namespace CommitReports.Shell

/-! ## The parts of a script -/

/-- A part of a word. -/
inductive WordPart where
  | text (chars : List Char)
  /-- Quotes with nothing between them, which make an empty word a word. -/
  | nothing
  /-- The number of the shell's process. -/
  | processId
  /-- The status of the last command. -/
  | lastStatus
  | parameter (name : List Char)
  deriving DecidableEq, Repr

/-- A word before its parameters are replaced. -/
abbrev Word := List WordPart

/-- Where a redirection leads. -/
inductive RedirectKind where
  | input
  | output
  | append
  | duplicate
  deriving DecidableEq, Repr

/-- A redirection of one of a command's streams. -/
structure Redirect where
  stream : Nat
  kind : RedirectKind
  target : Word
  deriving DecidableEq, Repr

/-- A command, or several. -/
inductive Script where
  | nothing
  | simple (words : List Word) (redirects : List Redirect)
  | pipe (first second : Script)
  | negation (body : Script)
  | both (first second : Script)
  | either (first second : Script)
  | sequence (first second : Script)
  | group (body : Script) (redirects : List Redirect)
  | subshell (body : Script) (redirects : List Redirect)
  deriving Repr

/-- A token of a script. -/
inductive Token where
  | word (word : Word)
  | redirect (stream : Nat) (kind : RedirectKind)
  | operator (text : String)
  deriving DecidableEq, Repr

/-! ## Reading words -/

/-- Whether a character may stand in the name of a parameter. -/
def isNameChar (c : Char) : Bool := c.isAlphanum || c == '_'

/-- Whether a character ends a word that is not quoted. -/
def endsWord (c : Char) : Bool :=
  c == ' ' || c == '\t' || c == '\n' || c == ';' || c == '&' || c == '|' || c == '<' ||
    c == '>' || c == '(' || c == ')'

/-- What a dollar sign stands for, by what follows it; none if it stands for itself. -/
def parameterAt (cs : List Char) : Option (WordPart × Nat) :=
  match cs with
  | '$' :: _ => some (.processId, 1)
  | '?' :: _ => some (.lastStatus, 1)
  | '\x7b' :: rest =>
    let name := rest.takeWhile isNameChar
    if (rest.drop name.length).head? = some '\x7d' ∧ name ≠ [] then
      some (.parameter name, name.length + 2)
    else none
  | _ =>
    let name := cs.takeWhile isNameChar
    if name = [] then none else some (.parameter name, name.length)

/-- Reads one word: its parts so far, and whether a double quote is open. A quote that is not closed
makes the script unreadable. -/
def readWord (inQuotes : Bool) (parts : Word) : List Char → Option (Word × List Char)
  | [] => if inQuotes then none else some (parts, [])
  | c :: rest =>
    if c = '"' then readWord (!inQuotes) (parts ++ [.nothing]) rest
    else if c = '\\' then
      match rest with
      | [] => readWord inQuotes (parts ++ [.text ['\\']]) []
      | d :: rest =>
        if d = '\n' then readWord inQuotes parts rest
        else if inQuotes && !(d == '$' || d == '"' || d == '\\' || d == '\x60') then
          readWord inQuotes (parts ++ [.text ['\\', d]]) rest
        else readWord inQuotes (parts ++ [.text [d]]) rest
    else if c = '$' then
      match parameterAt rest with
      | some (part, count) => readWord inQuotes (parts ++ [part]) (rest.drop count)
      | none => readWord inQuotes (parts ++ [.text ['$']]) rest
    else if inQuotes then readWord inQuotes (parts ++ [.text [c]]) rest
    else if c = '\x27' then
      let inner := rest.takeWhile (· != '\x27')
      match rest.drop inner.length with
      | _ :: _ =>
        readWord inQuotes (parts ++ [if inner = [] then .nothing else .text inner])
          (rest.drop (inner.length + 1))
      | [] => none
    else if endsWord c then some (parts, c :: rest)
    else readWord inQuotes (parts ++ [.text [c]]) rest
  termination_by cs => cs.length
  decreasing_by all_goals simp [List.length_drop]; try omega

/-- Cuts a script into tokens; at most `fuel` of them. -/
def tokens : (fuel : Nat) → List Char → Option (List Token)
  | 0, _ => none
  | _, [] => some []
  | fuel + 1, c :: rest =>
    let operator (text : String) (rest : List Char) : Option (List Token) :=
      (tokens fuel rest).map (.operator text :: ·)
    let redirection (stream : Nat) (kind : RedirectKind) (rest : List Char) :=
      (tokens fuel rest).map (.redirect stream kind :: ·)
    match c, rest with
    | ' ', _ => tokens fuel rest
    | '\t', _ => tokens fuel rest
    | '#', _ => tokens fuel (rest.dropWhile (· != '\n'))
    | '\n', _ => operator ";" rest
    | ';', _ => operator ";" rest
    | '&', '&' :: rest => operator "&&" rest
    | '|', '|' :: rest => operator "||" rest
    | '|', _ => operator "|" rest
    | '(', _ => operator "(" rest
    | ')', _ => operator ")" rest
    | '<', _ => redirection 0 .input rest
    | '>', '>' :: rest => redirection 1 .append rest
    | '>', '&' :: rest => redirection 1 .duplicate rest
    | '>', _ => redirection 1 .output rest
    | '2', '>' :: '>' :: rest => redirection 2 .append rest
    | '2', '>' :: '&' :: rest => redirection 2 .duplicate rest
    | '2', '>' :: rest => redirection 2 .output rest
    | '1', '>' :: '>' :: rest => redirection 1 .append rest
    | '1', '>' :: '&' :: rest => redirection 1 .duplicate rest
    | '1', '>' :: rest => redirection 1 .output rest
    | '0', '<' :: rest => redirection 0 .input rest
    | '&', _ => none
    | _, _ => do
      let (word, rest) ← readWord false [] (c :: rest)
      let more ← tokens fuel rest
      return .word word :: more

/-! ## Reading commands -/

/-- The token of a word that has a meaning of its own where a command starts. -/
def reserved (text : String) : Token := .word (text.toList.map fun c => .text [c])

/-- Reads the words and redirections of a command. -/
def readWords : List Token → Option (List Word × List Redirect × List Token)
  | .word word :: rest => do
    let (words, redirects, rest) ← readWords rest
    return (word :: words, redirects, rest)
  | .redirect stream kind :: .word target :: rest => do
    let (words, redirects, rest) ← readWords rest
    return (words, { stream, kind, target } :: redirects, rest)
  | .redirect .. :: _ => none
  | rest => some ([], [], rest)

/-- Skips the separators at the front. -/
def skipSeparators : List Token → List Token
  | .operator ";" :: rest => skipSeparators rest
  | rest => rest

mutual

/-- Reads a list of commands. -/
def readList : (fuel : Nat) → List Token → Option (Script × List Token)
  | 0, _ => none
  | fuel + 1, tokens => do
    let (first, rest) ← readConditional fuel tokens
    match rest with
    | .operator ";" :: rest =>
      match skipSeparators rest with
      | [] => return (first, [])
      | .operator ")" :: rest => return (first, .operator ")" :: rest)
      | rest =>
        if rest.head? = some (reserved "\x7d") then return (first, rest)
        let (second, rest) ← readList fuel rest
        return (.sequence first second, rest)
    | rest => return (first, rest)

/-- Reads pipelines that depend on each other's status, from left to right. -/
def readConditional : (fuel : Nat) → List Token → Option (Script × List Token)
  | 0, _ => none
  | fuel + 1, tokens => do
    let (first, rest) ← readPipeline fuel tokens
    readConditionalRest fuel first rest

/-- Reads on after a first pipeline. -/
def readConditionalRest : (fuel : Nat) → Script → List Token → Option (Script × List Token)
  | 0, _, _ => none
  | fuel + 1, first, .operator "&&" :: rest => do
    let (second, rest) ← readPipeline fuel (skipSeparators rest)
    readConditionalRest fuel (.both first second) rest
  | fuel + 1, first, .operator "||" :: rest => do
    let (second, rest) ← readPipeline fuel (skipSeparators rest)
    readConditionalRest fuel (.either first second) rest
  | _, first, rest => some (first, rest)

/-- Reads a pipeline. -/
def readPipeline : (fuel : Nat) → List Token → Option (Script × List Token)
  | 0, _ => none
  | fuel + 1, tokens => do
    match tokens with
    | token :: rest =>
      if token = reserved "!" then
        let (body, rest) ← readPipeline fuel rest
        return (.negation body, rest)
      let (first, rest) ← readCommand fuel tokens
      match rest with
      | .operator "|" :: rest =>
        let (second, rest) ← readPipeline fuel (skipSeparators rest)
        return (.pipe first second, rest)
      | rest => return (first, rest)
    | [] => none

/-- Reads a single command or a group. -/
def readCommand : (fuel : Nat) → List Token → Option (Script × List Token)
  | 0, _ => none
  | fuel + 1, .operator "(" :: rest => do
    let (body, rest) ← readList fuel (skipSeparators rest)
    match rest with
    | .operator ")" :: rest =>
      let ([], redirects, rest) ← readWords rest | none
      return (.subshell body redirects, rest)
    | _ => none
  | fuel + 1, tokens =>
    if tokens.head? = some (reserved "\x7b") then do
      let (body, rest) ← readList fuel (skipSeparators tokens.tail)
      if rest.head? = some (reserved "\x7d") then
        let ([], redirects, rest) ← readWords rest.tail | none
        return (.group body redirects, rest)
      none
    else do
      let (words, redirects, rest) ← readWords tokens
      if words.isEmpty && redirects.isEmpty then none
      return (.simple words redirects, rest)

end

/-- The script that a text holds; none if the text is no script. -/
def Script.parse? (text : String) : Option Script := do
  let tokens ← tokens (text.length + 1) text.toList
  match skipSeparators tokens with
  | [] => return .nothing
  | tokens =>
    let (script, []) ← readList (6 * (tokens.length + 1)) tokens | none
    return script

end CommitReports.Shell
