/-
  A POSIX shell, as far as it reads and expands one command line.

  A line is a pipeline of simple commands.  It is read character by character (`step`) with a stack
  of what is open: a script, a double-quoted text, a `$`.  Reading is a fold, so a line can be
  followed part by part (`feed_append`), and a plain word is what it looks like (`feed_word`).

  Expansion (`expandScript`) turns every command into its argument vector: parameters, command
  substitution, and the splitting of what is not quoted.  What the commands of a substitution print
  is left open (`Environment.output`).

  Outside of this fragment, reading a line gives `none`: backslashes, single quotes, backquotes,
  lists, redirections and patterns are not read; a command is not a reserved word or an assignment.
-/
import Mathlib.Data.List.Basic
import Mathlib.Data.Nat.Notation

namespace Shell

/-! ## Syntax -/

/-- A piece of a word. -/
inductive Piece
  | literal (c : Char)
  /-- `$0`, `$1`, … -/
  | parameter (index : ℕ)
  /-- `$( … )`, around a pipeline -/
  | substitution (script : List (List (List Piece)))
  /-- `" … "` -/
  | quoted (pieces : List Piece)

abbrev Word := List Piece

/-- A command and its operands. -/
abbrev Command := List Word

/-- A pipeline. -/
abbrev Script := List Command

def isBlank (c : Char) : Bool := c = ' ' || c = '\t'

/-- The characters that are not read as themselves. -/
def SPECIAL : List Char :=
  [' ', '\t', '\n', '|', '&', ';', '<', '>', '(', ')', '$', '\x60', '\\', '"', '\'', '*', '?', '[', ']',
    '#', '~', '!', '\x7b', '\x7d']

def isPlain (c : Char) : Bool := !SPECIAL.contains c

/-- A word that needs no quotes. -/
def PlainWord (word : List Char) : Prop := word ≠ [] ∧ ∀ c ∈ word, isPlain c = true

instance (word : List Char) : Decidable (PlainWord word) :=
  decidable_of_iff (word ≠ [] ∧ word.all isPlain = true) <| by
    rw [PlainWord, List.all_eq_true]

/-! ## Reading -/

/-- A script that is being read. -/
structure Reading where
  /-- the commands read -/
  commands : Script := []
  /-- the words read of the next command -/
  words : Command := []
  /-- the word that has begun -/
  word : Option Word := none

namespace Reading

def endWord (r : Reading) : Reading :=
  { r with words := r.words ++ r.word.toList, word := none }

/-- The end of a command, which has to have a word. -/
def endCommand (r : Reading) : Option Reading :=
  if r.endWord.words = [] then none
  else some { commands := r.commands ++ [r.endWord.words] }

end Reading

instance (words : Command) : Decidable (words = []) :=
  match words with
  | [] => isTrue rfl
  | _ :: _ => isFalse (fun h => by cases h)

/-- What is open, the innermost first. -/
inductive Frame
  | script (reading : Reading)
  | quotes (pieces : List Piece)
  | dollar

/-- Another piece of the word, or of the quoted text, that is open. -/
def add (p : Piece) : List Frame → Option (List Frame)
  | .script r :: rest => some (.script { r with word := some (r.word.getD [] ++ [p]) } :: rest)
  | .quotes pieces :: rest => some (.quotes (pieces ++ [p]) :: rest)
  | _ => none

def step : List Frame → Char → Option (List Frame)
  | .script r :: rest, c =>
    if isBlank c then some (.script r.endWord :: rest)
    else if c = '|' then r.endCommand.map (Frame.script · :: rest)
    else if c = ')' then r.endCommand.bind fun r => add (.substitution r.commands) rest
    else if c = '"' then some (.quotes [] :: .script r :: rest)
    else if c = '$' then some (.dollar :: .script r :: rest)
    else if isPlain c then add (.literal c) (.script r :: rest)
    else none
  | .quotes pieces :: rest, c =>
    if c = '"' then add (.quoted pieces) rest
    else if c = '$' then some (.dollar :: .quotes pieces :: rest)
    else if c = '\\' ∨ c = '\x60' then none
    else add (.literal c) (.quotes pieces :: rest)
  | .dollar :: rest, c =>
    if c = '(' then some (.script {} :: rest)
    else if '0' ≤ c ∧ c ≤ '9' then add (.parameter (c.toNat - 48)) rest
    else none
  | [], _ => none

def feed (frames : List Frame) (text : List Char) : Option (List Frame) := text.foldlM step frames

/-- The pipeline of a line. -/
def parse (line : List Char) : Option Script :=
  match feed [.script {}] line with
  | some [.script r] => r.endCommand.map (·.commands)
  | _ => none

theorem feed_append (frames : List Frame) (front back : List Char) :
    feed frames (front ++ back) = (feed frames front).bind fun frames => feed frames back :=
  List.foldlM_append

theorem feed_cons (frames : List Frame) (c : Char) (text : List Char) :
    feed frames (c :: text) = (step frames c).bind fun frames => feed frames text :=
  List.foldlM_cons

/-- What has been read goes on being read. -/
theorem feed_trans {frames mid : List Frame} {front : List Char} (h : feed frames front = some mid)
    (back : List Char) : feed frames (front ++ back) = feed mid back := by
  rw [feed_append, h, Option.bind_some]

/-- A plain character is read as itself. -/
theorem step_plain {c : Char} (hc : isPlain c = true) (r : Reading) (rest : List Frame) :
    step (.script r :: rest) c =
      some (.script { r with word := some (r.word.getD [] ++ [.literal c]) } :: rest) := by
  have hne : ∀ x ∈ SPECIAL, c ≠ x := by
    intro x hx hcx
    subst hcx
    have hcontains : SPECIAL.contains c = true := List.contains_iff_mem.2 hx
    rw [isPlain, hcontains] at hc
    cases hc
  have hblank : isBlank c = false := by
    rw [isBlank, decide_eq_false (hne ' ' (by decide)), decide_eq_false (hne '\t' (by decide))]
    rfl
  rw [step, hblank, if_neg Bool.false_ne_true, if_neg (hne '|' (by decide)),
    if_neg (hne ')' (by decide)), if_neg (hne '"' (by decide)), if_neg (hne '$' (by decide)), if_pos hc]
  rfl

/-- Plain characters go on with the word that has begun. -/
theorem feed_begun {text : List Char} (htext : ∀ c ∈ text, isPlain c = true) (r : Reading)
    (begun : Word) (rest : List Frame) :
    feed (.script { r with word := some begun } :: rest) text =
      some (.script { r with word := some (begun ++ text.map Piece.literal) } :: rest) := by
  induction text generalizing begun with
  | nil =>
    rw [List.map_nil, List.append_nil]
    rfl
  | cons c text ih =>
    have hc := htext c List.mem_cons_self
    have hrest := ih (fun x hx => htext x (List.mem_cons_of_mem c hx)) (begun ++ [.literal c])
    rw [feed_cons, step_plain hc, Option.bind_some, Option.getD_some, hrest, List.map_cons,
      List.append_assoc, List.singleton_append]

/-- A plain word is what it looks like. -/
theorem feed_word {word : List Char} (hword : PlainWord word) (r : Reading) (rest : List Frame) :
    feed (.script { r with word := none } :: rest) word =
      some (.script { r with word := some (word.map Piece.literal) } :: rest) := by
  obtain ⟨hne, hplain⟩ := hword
  cases word with
  | nil => exact absurd rfl hne
  | cons c text =>
    have hc := hplain c List.mem_cons_self
    have hbegun := feed_begun (fun x hx => hplain x (List.mem_cons_of_mem c hx)) r [.literal c] rest
    rw [feed_cons, step_plain hc, Option.bind_some, Option.getD_none, List.nil_append, hbegun,
      List.singleton_append, List.map_cons]

/-- The words of a line, each with a blank after it. -/
def spaced (words : List (List Char)) : List Char := words.flatMap fun word => word ++ [' ']

/-- Plain words are read one by one. -/
theorem feed_spaced {words : List (List Char)} (hwords : ∀ word ∈ words, PlainWord word)
    (commands : Script) (front : Command) (rest : List Frame) :
    feed (.script ⟨commands, front, none⟩ :: rest) (spaced words) =
      some (.script ⟨commands, front ++ words.map (·.map Piece.literal), none⟩ :: rest) := by
  induction words generalizing front with
  | nil =>
    rw [List.map_nil, List.append_nil]
    rfl
  | cons word words ih =>
    have hword := feed_word (hwords word List.mem_cons_self) ⟨commands, front, none⟩ rest
    have hblank : feed (.script ⟨commands, front, some (word.map Piece.literal)⟩ :: rest) [' '] =
        some (.script ⟨commands, front ++ [word.map Piece.literal], none⟩ :: rest) := rfl
    have hrest := ih (fun x hx => hwords x (List.mem_cons_of_mem word hx))
      (front ++ [word.map Piece.literal])
    show feed _ ((word ++ [' ']) ++ spaced words) = _
    rw [feed_append, feed_append, hword, Option.bind_some, hblank, Option.bind_some, hrest,
      List.map_cons, List.append_assoc, List.singleton_append]

/-- A pipe ends a command. -/
theorem feed_pipe {words : Command} (hwords : words ≠ []) (commands : Script) (rest : List Frame) :
    feed (.script ⟨commands, words, none⟩ :: rest) ['|'] =
      some (.script ⟨commands ++ [words], [], none⟩ :: rest) := by
  have hend : Reading.endWord ⟨commands, words, none⟩ = ⟨commands, words, none⟩ :=
    congrArg (fun words => (⟨commands, words, none⟩ : Reading)) (List.append_nil words)
  have hcommand : Reading.endCommand ⟨commands, words, none⟩ =
      some { commands := commands ++ [words] } := by
    rw [Reading.endCommand, hend, if_neg hwords]
  show ((Reading.endCommand ⟨commands, words, none⟩).map (Frame.script · :: rest)).bind _ = _
  rw [hcommand]
  rfl

/-! ## Expansion -/

/-- Where a shell runs. -/
structure Environment where
  /-- `$0`, `$1`, … -/
  parameters : List (List Char)
  /-- what a pipeline prints, given the argument vectors of its commands -/
  output : List (List (List Char)) → List Char

/-- Split what an expansion gave at its blanks: the fields it ends, and the one it leaves open. -/
def splitFields : List Char → Option (List Char) → List (List Char) × Option (List Char)
  | [], open_ => ([], open_)
  | c :: text, open_ =>
    if isBlank c || c = '\n' then
      (open_.toList ++ (splitFields text none).1, (splitFields text none).2)
    else splitFields text (some (open_.getD [] ++ [c]))

/-- A substitution loses the line breaks at its end. -/
def dropLastNewlines (text : List Char) : List Char := (text.reverse.dropWhile (· = '\n')).reverse

/-- Is the value of the piece split? -/
def Piece.splits : Piece → Bool
  | .literal _ | .quoted _ => false
  | .parameter _ | .substitution _ => true

section Expand

variable (env : Environment)

mutual

/-- What a piece stands for. -/
def pieceValue : Piece → List Char
  | .literal c => [c]
  | .parameter index => env.parameters.getD index []
  | .substitution script => dropLastNewlines (env.output (expandScript script))
  | .quoted pieces => value pieces

def value : List Piece → List Char
  | [] => []
  | p :: pieces => pieceValue p ++ value pieces

/-- The fields of a word, after the field that is open. -/
def fields : List Piece → Option (List Char) → List (List Char)
  | [], open_ => open_.toList
  | p :: pieces, open_ =>
    if p.splits then
      (splitFields (pieceValue p) open_).1 ++ fields pieces (splitFields (pieceValue p) open_).2
    else fields pieces (some (open_.getD [] ++ pieceValue p))

/-- The argument vector of a command. -/
def expandCommand : List (List Piece) → List (List Char)
  | [] => []
  | word :: words => fields word none ++ expandCommand words

/-- The argument vectors of a pipeline. -/
def expandScript : List (List (List Piece)) → List (List (List Char))
  | [] => []
  | command :: script => expandCommand command :: expandScript script

end

/-- What the shell executes for a line. -/
def executes (line : List Char) : Option (List (List (List Char))) := (parse line).map (expandScript env)

theorem expandScript_append (front back : Script) :
    expandScript env (front ++ back) = expandScript env front ++ expandScript env back := by
  induction front with
  | nil => rfl
  | cons command front ih => rw [List.cons_append, expandScript, ih, expandScript, List.cons_append]

theorem expandCommand_append (front back : Command) :
    expandCommand env (front ++ back) = expandCommand env front ++ expandCommand env back := by
  induction front with
  | nil => rfl
  | cons word front ih => rw [List.cons_append, expandCommand, ih, expandCommand, List.append_assoc]

theorem fields_literals (text before : List Char) :
    fields env (text.map Piece.literal) (some before) = [before ++ text] := by
  induction text generalizing before with
  | nil =>
    rw [List.append_nil]
    rfl
  | cons c text ih =>
    rw [List.map_cons, fields, Piece.splits, if_neg Bool.false_ne_true, pieceValue, Option.getD_some, ih,
      List.append_assoc, List.singleton_append]

/-- A plain word is one field. -/
theorem fields_word {word : List Char} (hword : word ≠ []) :
    fields env (word.map Piece.literal) none = [word] := by
  cases word with
  | nil => exact absurd rfl hword
  | cons c text =>
    rw [List.map_cons, fields, Piece.splits, if_neg Bool.false_ne_true, pieceValue, Option.getD_none,
      List.nil_append, fields_literals, List.singleton_append]

/-- Plain words are the argument vector. -/
theorem expandCommand_words {words : List (List Char)} (hwords : ∀ word ∈ words, PlainWord word) :
    expandCommand env (words.map (·.map Piece.literal)) = words := by
  induction words with
  | nil => rfl
  | cons word words ih =>
    have hword := fields_word env (hwords word List.mem_cons_self).1
    rw [List.map_cons, expandCommand, hword, ih fun x hx => hwords x (List.mem_cons_of_mem word hx),
      List.singleton_append]

/-- The end of a line. -/
theorem executes_of_feed {line : List Char} {commands : Script} {words : Command} {last : Option Word}
    (h : feed [.script {}] line = some [.script ⟨commands, words, last⟩])
    (hwords : words ++ last.toList ≠ []) :
    executes env line =
      some (expandScript env commands ++ [expandCommand env (words ++ last.toList)]) := by
  have hend : Reading.endCommand ⟨commands, words, last⟩ =
      some { commands := commands ++ [words ++ last.toList] } := if_neg hwords
  rw [executes, parse, h]
  show (Option.map _ (Reading.endCommand ⟨commands, words, last⟩)).map _ = _
  rw [hend]
  show some (expandScript env (commands ++ [words ++ last.toList])) = _
  rw [expandScript_append]
  rfl

/-- A line that ends with a plain text, which may be empty, after a blank. -/
theorem executes_append {line text : List Char} {commands : Script} {words : Command}
    (h : feed [.script {}] line = some [.script ⟨commands, words, none⟩]) (hwords : words ≠ [])
    (htext : ∀ c ∈ text, isPlain c = true) :
    executes env (line ++ text) = some (expandScript env commands ++
      [expandCommand env words ++ if text = [] then [] else [text]]) := by
  by_cases hempty : text = []
  · subst hempty
    rw [List.append_nil, executes_of_feed env h (List.append_ne_nil_of_left_ne_nil hwords _),
      if_pos rfl]
    show some (_ ++ [expandCommand env (words ++ [])]) = _
    rw [List.append_nil, List.append_nil]
  · have hfeed := (feed_trans h text).trans (feed_word ⟨hempty, htext⟩ ⟨commands, words, none⟩ [])
    rw [executes_of_feed env hfeed (List.append_ne_nil_of_left_ne_nil hwords _), if_neg hempty]
    show some (_ ++ [expandCommand env (words ++ [text.map Piece.literal])]) = _
    rw [expandCommand_append, expandCommand, fields_word env hempty]
    rfl

end Expand

end Shell
