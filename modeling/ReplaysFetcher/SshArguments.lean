/-
  The argument vector over SSH.

  `execFile("ssh", [host, "sh", "-c", script, name, encodedUrl])` hands `ssh` a vector, but what goes
  over the wire is one line: the trailing arguments joined by spaces (`joinArguments`).  The login
  shell of the host reads that line before `sh` sees anything of it, and nothing in it is quoted for
  that second reading.

  Followed through the line (`executes_text`, `executes_bytes`): `-c` gets the first word of the
  download command for a script, the words after it become parameters, the login shell itself
  expands `"$(printf %s "$1" | base64 -d)"` with its own empty `$1`, and in the byte client the pipe
  leaves `sh` and cuts the line in two.  So the vector never arrives (`ssh_arguments_never_arrive`).
  The script is not to blame: run with the right parameters it does what it is for
  (`executes_textScript`).
-/
import ReplaysFetcher.Transport
import ReplaysFetcher.Data.Shell

namespace ReplaysFetcher

open Shell

/-! ## The remote side -/

/-- A host with a login shell. -/
structure RemoteHost where
  /-- `$0` of the login shell -/
  shellName : List Char
  /-- what a pipeline prints there -/
  output : List (List (List Char)) → List Char

/-- What OpenSSH makes of its trailing arguments. -/
def joinArguments (arguments : List String) : List Char :=
  [' '].intercalate (arguments.map String.toList)

/-- The login shell has no parameters. -/
def RemoteHost.environment (host : RemoteHost) : Environment where
  parameters := [host.shellName]
  output := host.output

/-- What the login shell executes for the trailing arguments of `ssh`. -/
def RemoteHost.executes (host : RemoteHost) (arguments : List String) :
    Option (List (List (List Char))) :=
  Shell.executes host.environment (joinArguments arguments)

/-- The login shell executes a command with exactly the argument vector that was passed. -/
def ArgumentsArrive (host : RemoteHost) (arguments : List String) : Prop :=
  ∃ commands, host.executes arguments = some commands ∧ arguments.map String.toList ∈ commands

/-- A command made of plain words. -/
structure PlainCommand (command : String) (words : List (List Char)) : Prop where
  some_word : words ≠ []
  plain : ∀ word ∈ words, PlainWord word
  joined : command.toList = [' '].intercalate words

/-! ## The parts of a line -/

/-- Words with a blank after each are the joined words, and one more. -/
theorem intercalate_append_blank {words : List (List Char)} (hne : words ≠ []) :
    [' '].intercalate words ++ [' '] = spaced words := by
  induction words with
  | nil => exact absurd rfl hne
  | cons word words ih =>
    cases words with
    | nil =>
      rw [List.intercalate_singleton]
      exact (List.append_nil _).symm
    | cons next words =>
      have hrest := ih (List.cons_ne_nil next words)
      rw [List.intercalate_cons_cons, List.append_assoc, hrest]
      rfl

/-- The words `sh` and `-c`. -/
def SH : List (List Char) := [['s', 'h'], ['-', 'c']]

/-- What the text script ends with. -/
def DECODED_URL : List Char := "-- \"$(printf %s \"$1\" | base64 -d)\"".toList

/-- What the byte script ends with. -/
def ENCODED_BYTES : List Char := DECODED_URL ++ " | base64".toList

/-- A script, the download command first. -/
structure IsScript (script : String) (words : List (List Char)) (tail : List Char) : Prop where
  some_word : words ≠ []
  plain : ∀ word ∈ words, PlainWord word
  eq : script.toList = spaced words ++ tail

/-- The text read's script has the shape, with a plain command. -/
theorem isScript_text {config : SourceConfig} {words : List (List Char)}
    (h : PlainCommand config.sourceSshCommand words) :
    IsScript (sshTextScript config) words DECODED_URL := by
  refine ⟨h.some_word, h.plain, ?_⟩
  rw [← intercalate_append_blank h.some_word, ← h.joined, List.append_assoc]
  exact String.toList_append

/-- So has the byte read's. -/
theorem isScript_bytes {config : SourceConfig} {words : List (List Char)}
    (h : PlainCommand config.sourceSshCommand words) :
    IsScript (sshByteScript config) words ENCODED_BYTES := by
  refine ⟨h.some_word, h.plain, ?_⟩
  rw [← intercalate_append_blank h.some_word, ← h.joined, List.append_assoc]
  exact String.toList_append

section Line

variable {script name encoded : String} {words : List (List Char)} {tail : List Char}

/-- The line, taken apart at its blanks. -/
theorem joinArguments_eq (h : IsScript script words tail) :
    joinArguments ["sh", "-c", script, name, encoded] =
      (spaced (SH ++ words) ++ (tail ++ [' ']) ++ spaced [name.toList]) ++ encoded.toList := by
  have hsplit : spaced (SH ++ words) = spaced SH ++ spaced words := List.flatMap_append
  have hname : spaced [name.toList] = name.toList ++ [' '] := List.append_nil _
  rw [hsplit, hname]
  show [' '].intercalate ["sh".toList, "-c".toList, script.toList, name.toList, encoded.toList] = _
  rw [List.intercalate_cons_cons, List.intercalate_cons_cons, List.intercalate_cons_cons,
    List.intercalate_cons_cons, List.intercalate_singleton, h.eq]
  simp only [List.append_assoc]
  rfl

/-- The script's own words are plain. -/
theorem plain_sh_words (h : IsScript script words tail) : ∀ word ∈ SH ++ words, PlainWord word := by
  intro word hword
  rcases List.mem_append.1 hword with hsh | hplain
  · rcases List.mem_pair.1 hsh with rfl | rfl
    · decide
    · decide
  · exact h.plain word hplain

end Line

/-! ## What is executed -/

/-- A word that stands for itself. -/
def wordOf (text : String) : Word := text.toList.map Piece.literal

/-- `"$(printf %s "$1" | base64 -d)"`, as it is read. -/
def decodedUrl : Word :=
  [.quoted [.substitution
    [[wordOf "printf", wordOf "%s", [.quoted [.parameter 1]]], [wordOf "base64", wordOf "-d"]]]]

/-- The last word of the script substitutes a command. -/
theorem feed_decodedUrl (commands : Shell.Script) (front : Command) :
    feed [.script ⟨commands, front, none⟩] DECODED_URL =
      some [.script ⟨commands, front ++ [wordOf "--"], some decodedUrl⟩] := rfl

/-- What `$(printf %s text | base64 -d)` gives on the host. -/
def RemoteHost.decoded (host : RemoteHost) (text : List Char) : List Char :=
  dropLastNewlines
    (host.output [["printf".toList, "%s".toList, text], ["base64".toList, "-d".toList]])

/-- That word is what the decoder prints, less the newlines at its end. -/
theorem expand_decodedUrl (env : Environment) :
    expandCommand env [wordOf "--", decodedUrl] = ["--".toList, dropLastNewlines (env.output
      [["printf".toList, "%s".toList, env.parameters.getD 1 []], ["base64".toList, "-d".toList]])] := by
  have hparameter : fields env [.quoted [.parameter 1]] none = [env.parameters.getD 1 []] :=
    congrArg (fun text => [text]) (List.append_nil _)
  have hprintf : expandCommand env [wordOf "printf", wordOf "%s", [.quoted [.parameter 1]]] =
      ["printf".toList, "%s".toList, env.parameters.getD 1 []] := by
    show "printf".toList :: "%s".toList :: (fields env [.quoted [.parameter 1]] none ++ []) = _
    rw [hparameter]
    rfl
  have hscript : expandScript env
      [[wordOf "printf", wordOf "%s", [.quoted [.parameter 1]]], [wordOf "base64", wordOf "-d"]] =
      [["printf".toList, "%s".toList, env.parameters.getD 1 []], ["base64".toList, "-d".toList]] := by
    show [expandCommand env _, _] = _
    rw [hprintf]
    rfl
  show ["--".toList, dropLastNewlines (env.output (expandScript env _)) ++ []] = _
  rw [hscript, List.append_nil]

/-- The letters of base64 are plain. -/
theorem plain_letter : ∀ n < 64, isPlain (Base64.letter n) = true := by decide

section Executed

variable {config : SourceConfig} {words : List (List Char)} {Text : Type} (pf : Platform Text)
  (host : RemoteHost) (url : Url)

/-- So is an encoded URL, padding included. -/
theorem plain_encodedUrl : ∀ c ∈ (encodedUrl pf url).toList, isPlain c = true := by
  intro c hc
  rw [encodedUrl, String.toList_ofList] at hc
  rcases Base64.mem_encode hc with ⟨n, hn, rfl⟩ | rfl
  · exact plain_letter n hn
  · decide

/-- The encoded URL as a word: an empty one would be lost. -/
def encodedWords : List (List Char) :=
  if (encodedUrl pf url).toList = [] then [] else [(encodedUrl pf url).toList]

/-- What the login shell executes for the text client. -/
theorem executes_text (h : PlainCommand config.sourceSshCommand words) :
    host.executes (sshTextArguments pf config url) =
      some [SH ++ words ++ ["--".toList, host.decoded [], "replays-fetcher-source".toList] ++
        encodedWords pf url] := by
  have hscript := isScript_text h
  let front : Command := (SH ++ words).map (·.map Piece.literal)
  have hname : ∀ word ∈ ["replays-fetcher-source".toList], PlainWord word :=
    List.forall_mem_singleton.2 (by decide)
  have hwords : feed [.script {}] (spaced (SH ++ words)) = some [.script ⟨[], front, none⟩] :=
    feed_spaced (plain_sh_words hscript) [] [] []
  have hurl : feed [.script ⟨[], front, none⟩] (DECODED_URL ++ [' ']) =
      some [.script ⟨[], front ++ [wordOf "--"] ++ [decodedUrl], none⟩] :=
    feed_trans (feed_decodedUrl [] front) [' ']
  have hfeed := (feed_trans ((feed_trans hwords _).trans hurl) (spaced _)).trans
    (feed_spaced hname [] (front ++ [wordOf "--"] ++ [decodedUrl]) [])
  rw [RemoteHost.executes, sshTextArguments, joinArguments_eq hscript,
    executes_append _ hfeed (List.append_ne_nil_of_right_ne_nil _ (List.cons_ne_nil _ _))
      (plain_encodedUrl pf url), expandCommand_append, expandCommand_words _ hname,
    List.append_assoc front, expandCommand_append, expandCommand_words _ (plain_sh_words hscript)]
  show some [SH ++ words ++ expandCommand host.environment [wordOf "--", decodedUrl] ++ _ ++ _] = _
  rw [expand_decodedUrl, List.append_assoc (SH ++ words)]
  rfl

/-- What the login shell executes for the byte client: the pipe is the line's. -/
theorem executes_bytes (h : PlainCommand config.sourceSshCommand words) :
    host.executes (sshByteArguments pf config url) =
      some [SH ++ words ++ ["--".toList, host.decoded []],
        ["base64".toList, "replays-fetcher-byte-source".toList] ++ encodedWords pf url] := by
  have hscript := isScript_bytes h
  let front : Command := (SH ++ words).map (·.map Piece.literal)
  let download : Command := front ++ [wordOf "--"] ++ [decodedUrl]
  have hdownload : download ≠ [] := List.append_ne_nil_of_right_ne_nil _ (List.cons_ne_nil _ _)
  have hname : ∀ word ∈ ["replays-fetcher-byte-source".toList], PlainWord word :=
    List.forall_mem_singleton.2 (by decide)
  have hwords : feed [.script {}] (spaced (SH ++ words)) = some [.script ⟨[], front, none⟩] :=
    feed_spaced (plain_sh_words hscript) [] [] []
  have hurl : feed [.script ⟨[], front, none⟩] (DECODED_URL ++ [' ']) =
      some [.script ⟨[], download, none⟩] := feed_trans (feed_decodedUrl [] front) [' ']
  have hpipe : feed [.script ⟨[], front, none⟩] (DECODED_URL ++ [' '] ++ ['|']) =
      some [.script ⟨[download], [], none⟩] := (feed_trans hurl ['|']).trans (feed_pipe hdownload [] [])
  have htail : feed [.script ⟨[], front, none⟩] (ENCODED_BYTES ++ [' ']) =
      some [.script ⟨[download], [wordOf "base64"], none⟩] := feed_trans hpipe " base64 ".toList
  have hfeed := (feed_trans ((feed_trans hwords _).trans htail) (spaced _)).trans
    (feed_spaced hname [download] [wordOf "base64"] [])
  rw [RemoteHost.executes, sshByteArguments, joinArguments_eq hscript,
    executes_append _ hfeed (List.cons_ne_nil _ _) (plain_encodedUrl pf url), expandCommand_append,
    expandCommand_words _ hname]
  show some [expandCommand host.environment download, _] = _
  rw [show download = front ++ ([wordOf "--"] ++ [decodedUrl]) from List.append_assoc _ _ _,
    expandCommand_append, expandCommand_words _ (plain_sh_words hscript)]
  show some [SH ++ words ++ expandCommand host.environment [wordOf "--", decodedUrl], _] = _
  rw [expand_decodedUrl]
  rfl

/-- The script of the text client, were it to reach a shell that has the encoded URL for `$1`. -/
theorem executes_textScript (h : PlainCommand config.sourceSshCommand words) (name encoded : List Char) :
    Shell.executes { parameters := [name, encoded], output := host.output }
        (sshTextScript config).toList =
      some [words ++ ["--".toList, host.decoded encoded]] := by
  have hscript := isScript_text h
  have hwords := feed_spaced hscript.plain [] [] []
  have hfeed := (feed_trans hwords DECODED_URL).trans (feed_decodedUrl [] _)
  rw [hscript.eq, executes_of_feed _ hfeed (List.append_ne_nil_of_right_ne_nil _ (List.cons_ne_nil _ _)),
    List.append_assoc, List.nil_append, expandCommand_append, expandCommand_words _ hscript.plain]
  show some [words ++ expandCommand _ [wordOf "--", decodedUrl]] = _
  rw [expand_decodedUrl]
  rfl

/-- And that of the byte client. -/
theorem executes_byteScript (h : PlainCommand config.sourceSshCommand words) (name encoded : List Char) :
    Shell.executes { parameters := [name, encoded], output := host.output }
        (sshByteScript config).toList =
      some [words ++ ["--".toList, host.decoded encoded], ["base64".toList]] := by
  have hscript := isScript_bytes h
  let front : Command := words.map (·.map Piece.literal)
  have hdownload : front ++ [wordOf "--"] ++ [decodedUrl] ≠ [] :=
    List.append_ne_nil_of_right_ne_nil _ (List.cons_ne_nil _ _)
  have hwords : feed [.script {}] (spaced words) = some [.script ⟨[], front, none⟩] :=
    feed_spaced hscript.plain [] [] []
  have hurl := feed_trans (feed_trans hwords DECODED_URL |>.trans (feed_decodedUrl [] front)) [' ']
  have hpipe := (feed_trans hurl ['|']).trans (feed_pipe hdownload [] [])
  have hfeed : feed [.script {}] (spaced words ++ ENCODED_BYTES) =
      some [.script ⟨[front ++ [wordOf "--"] ++ [decodedUrl]], [], some (wordOf "base64")⟩] := by
    have hbase64 := feed_trans hpipe " base64".toList
    rw [List.append_assoc, List.append_assoc, List.append_assoc] at hbase64
    exact hbase64
  rw [hscript.eq, executes_of_feed _ hfeed (List.cons_ne_nil _ _)]
  show some [expandCommand _ (front ++ [wordOf "--"] ++ [decodedUrl]), _] = _
  rw [List.append_assoc, expandCommand_append, expandCommand_words _ hscript.plain]
  show some [words ++ expandCommand _ [wordOf "--", decodedUrl], _] = _
  rw [expand_decodedUrl]
  rfl

/-! ## The vector -/

variable {host} in

/-- If the shell executes other commands, the arguments have not arrived. -/
theorem not_arrive_of_executes {arguments : List String} {commands : List (List (List Char))}
    (h : host.executes arguments = some commands) (hlost : arguments.map String.toList ∉ commands) :
    ¬ ArgumentsArrive host arguments := by
  rintro ⟨commands', hexecutes, hvector⟩
  rw [h] at hexecutes
  obtain rfl := Option.some.inj hexecutes
  exact hlost hvector

/-- A script is not a plain word: it has a blank. -/
theorem script_not_mem {script : String} {tail : List Char} (h : IsScript script words tail) :
    script.toList ∉ words := by
  intro hword
  obtain ⟨word, more, hwords⟩ := List.exists_cons_of_ne_nil h.some_word
  have hblank : ' ' ∈ script.toList := by
    rw [h.eq, hwords]
    exact List.mem_append_left _ (List.mem_append_left _ (List.mem_append_right _
      (List.mem_singleton_self ' ')))
  exact absurd ((h.plain _ hword).2 ' ' hblank) (by decide)

/-- So `sh` is executed with other arguments. -/
theorem script_lost {script : String} {tail : List Char} (h : IsScript script words tail)
    (rest more : List (List Char)) :
    "sh".toList :: "-c".toList :: script.toList :: rest ≠ SH ++ words ++ more := by
  intro heq
  obtain ⟨word, others, hwords⟩ := List.exists_cons_of_ne_nil h.some_word
  have hfirst : script.toList = word := by
    have hthird := congrArg (fun vector => (vector.drop 2).head?) heq
    rw [hwords] at hthird
    exact Option.some.inj hthird
  have hmem : script.toList ∈ words := by
    rw [hfirst, hwords]
    exact List.mem_cons_self
  exact script_not_mem h hmem

/-- **The vector never arrives**, whatever the URL, the download command and the host. -/
theorem ssh_arguments_never_arrive (h : PlainCommand config.sourceSshCommand words) :
    ¬ ArgumentsArrive host (sshTextArguments pf config url) ∧
      ¬ ArgumentsArrive host (sshByteArguments pf config url) := by
  constructor
  · refine not_arrive_of_executes (executes_text pf host url h) fun hvector => ?_
    have heq := List.mem_singleton.1 hvector
    rw [List.append_assoc] at heq
    exact script_lost (isScript_text h) _ _ heq
  · refine not_arrive_of_executes (executes_bytes pf host url h) fun hvector => ?_
    rcases List.mem_cons.1 hvector with heq | hvector
    · exact script_lost (isScript_bytes h) _ _ heq
    · -- the other command is `base64`
      have heq := List.mem_singleton.1 hvector
      have hcommand : "sh".toList = "base64".toList := (List.cons.inj heq).1
      exact absurd hcommand (by decide)

end Executed

/-- The default command. -/
theorem plain_defaultCommand : PlainCommand "curl -fsSL --max-time 30"
    ["curl".toList, "-fsSL".toList, "--max-time".toList, "30".toList] := by
  exact ⟨List.cons_ne_nil _ _, by decide, by decide⟩

/-- A source that is read over SSH. -/
def toySshConfig : SourceConfig :=
  { sourceSshCommand := "curl -fsSL --max-time 30", sourceSshHost := some "host" }

/-- A host where nothing is printed. -/
def toyHost : RemoteHost := { shellName := ['s', 'h'], output := fun _ => [] }

/-- Its URL. -/
def toySshUrl : Url := { protocol := "https:", host := "a", pathname := "" }

/-- With `curl` as the command, neither read arrives. -/
theorem ssh_arguments_never_arrive_curl :
    ¬ ArgumentsArrive toyHost (sshTextArguments toyPlatform toySshConfig toySshUrl) ∧
      ¬ ArgumentsArrive toyHost (sshByteArguments toyPlatform toySshConfig toySshUrl) :=
  ssh_arguments_never_arrive toyPlatform toyHost toySshUrl plain_defaultCommand

/-- With the default command, the script of `sh` is `curl`, and what was meant to be its script are
    its parameters; in the byte client `base64` gets the encoded URL for a file. -/
theorem ssh_arguments_split :
    ¬ ArgumentsArrive toyHost (sshTextArguments toyPlatform toySshConfig toySshUrl) ∧
      ¬ ArgumentsArrive toyHost (sshByteArguments toyPlatform toySshConfig toySshUrl) := by
  have htext : toyHost.executes (sshTextArguments toyPlatform toySshConfig toySshUrl) =
      some [["sh", "-c", "curl", "-fsSL", "--max-time", "30", "--", "", "replays-fetcher-source",
        "Ly9h"].map String.toList] := by decide +kernel
  have hbytes : toyHost.executes (sshByteArguments toyPlatform toySshConfig toySshUrl) =
      some [["sh", "-c", "curl", "-fsSL", "--max-time", "30", "--", ""].map String.toList,
        ["base64", "replays-fetcher-byte-source", "Ly9h"].map String.toList] := by decide +kernel
  exact ⟨not_arrive_of_executes htext (by decide +kernel),
    not_arrive_of_executes hbytes (by decide +kernel)⟩

end ReplaysFetcher
