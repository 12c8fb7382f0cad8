/-
  Parsing URLs of the schemes `http` and `https`, as the URL Standard has it.

  1. **The parser** (`read`).  A text is cleaned, its scheme taken off, and the rest is an authority,
     a path with its dot segments resolved, a query and a fragment; without a scheme it is relative
     to a base.  Other schemes are not read here (`Outcome.foreign`).  How a host is read is a
     parameter (`Hosts`), with what the standard promises of a host.
  2. **What is parsed is well formed** (`read_wellFormed`): each part is encoded as its place needs.
  3. **Round trip** (`read_serialize`).  The text of a well-formed URL is read as that URL.

  The crux of the last is that every separator is outside of the characters that the parts before it
  keep, so that the text falls apart where it was put together.
-/
import ReplaysFetcher.Data.PercentCode
import ReplaysFetcher.Data.Decimal
import Mathlib.Data.List.DropRight
import Mathlib.Data.List.TakeWhile

namespace HttpUrl

open PercentCode

/-! ## Percent-encode sets -/

/-- The C0 control percent-encode set, with what is beyond ASCII. -/
def isC0Control (c : Char) : Bool := c.toNat ≤ 0x1f || 0x7e < c.toNat

/-- The fragment percent-encode set. -/
def fragmentChars (c : Char) : Bool := isC0Control c || c ∈ [' ', '"', '<', '>', '`']

/-- The query percent-encode set. -/
def queryChars (c : Char) : Bool := isC0Control c || c ∈ [' ', '"', '#', '<', '>']

/-- The query percent-encode set of the special schemes, which has the apostrophe too. -/
def specialQueryChars (c : Char) : Bool := queryChars c || c = '\''

/-- The path percent-encode set. -/
def pathChars (c : Char) : Bool := queryChars c || c ∈ ['?', '^', '`', '\x7b', '\x7d']

/-- The userinfo percent-encode set. -/
def userinfoChars (c : Char) : Bool :=
  pathChars c || c ∈ ['/', ':', ';', '=', '@', '[', '\\', ']', '|']

/-- What is not a control, a space or above is printable. -/
theorem printable_of {c : Char} (h : isC0Control c = false) (hspace : c ≠ ' ') :
    0x20 < c.toNat ∧ c.toNat < 0x7f := by
  unfold isC0Control at h
  simp only [Bool.or_eq_false_iff, decide_eq_false_iff_not, not_le, not_lt] at h
  have hne : c.toNat ≠ 0x20 := fun heq => hspace (Char.toNat_inj.1 heq)
  omega

/-- The query set has the space, so what it leaves is printable. -/
theorem printable_of_queryChars {c : Char} (h : queryChars c = false) :
    0x20 < c.toNat ∧ c.toNat < 0x7f := by
  unfold queryChars at h
  rw [Bool.or_eq_false_iff] at h
  refine printable_of h.1 ?_
  rintro rfl
  exact absurd h.2 (by decide)

/-- The escapes of a fragment. -/
def fragmentSet : PercentSet where
  escapes := fragmentChars
  printable c h := by
    unfold fragmentChars at h
    rw [Bool.or_eq_false_iff] at h
    refine printable_of h.1 ?_
    rintro rfl
    exact absurd h.2 (by decide)
  keeps := by decide

/-- The escapes of a query; both schemes here are special ones. -/
def querySet : PercentSet where
  escapes := specialQueryChars
  printable c h := by
    unfold specialQueryChars at h
    rw [Bool.or_eq_false_iff] at h
    exact printable_of_queryChars h.1
  keeps := by decide

/-- The escapes of a path segment. -/
def pathSet : PercentSet where
  escapes := pathChars
  printable c h := by
    unfold pathChars at h
    rw [Bool.or_eq_false_iff] at h
    exact printable_of_queryChars h.1
  keeps := by decide

/-- The escapes of a user name and of a password. -/
def userinfoSet : PercentSet where
  escapes := userinfoChars
  printable c h := by
    unfold userinfoChars at h
    rw [Bool.or_eq_false_iff] at h
    exact pathSet.printable c h.1
  keeps := by decide

/-! ## Schemes -/

/-- The schemes that are read here. -/
inductive Scheme
  | http
  | https
  deriving DecidableEq, Repr

/-- A scheme without its colon. -/
def Scheme.text : Scheme → List Char
  | .http => "http".toList
  | .https => "https".toList

/-- The port that the text of a URL leaves out. -/
def Scheme.defaultPort : Scheme → ℕ
  | .http => 80
  | .https => 443

/-- The scheme of a name that is already in small letters. -/
def Scheme.ofText (text : List Char) : Option Scheme :=
  if text = Scheme.http.text then some .http
  else if text = Scheme.https.text then some .https
  else none

/-- What a scheme is written with, after its first letter. -/
def isSchemeChar (c : Char) : Bool := c.isAlphanum || c ∈ ['+', '-', '.']

/-- The scheme, in small letters, and what follows its colon. -/
def schemeOf (text : List Char) : Option (List Char × List Char) :=
  match text.dropWhile isSchemeChar with
  | ':' :: rest =>
    if text.head?.any Char.isAlpha then some ((text.takeWhile isSchemeChar).map Char.toLower, rest)
    else none
  | _ => none

/-! ## Hosts -/

/-- The host as it is read and kept.  It is in ASCII, has no separator of a URL, and is read as
    itself; a colon is only in an address in brackets. -/
structure Hosts where
  parse : List Char → Option (List Char)
  parse_host : ∀ text host, parse text = some host → parse host = some host
  printable : ∀ text host, parse text = some host →
    ∀ c ∈ host, 0x20 < c.toNat ∧ c.toNat < 0x7f ∧ c ∉ ['/', '\\', '?', '#', '@', '%']
  ne_nil : ∀ text host, parse text = some host → host ≠ []
  brackets : ∀ text host, parse text = some host →
    (∀ c ∈ host, c ∉ [':', '[', ']']) ∨
    ∃ inner, host = '[' :: (inner ++ [']']) ∧ ∀ c ∈ inner, c ∉ ['[', ']']

/-! ## URLs -/

/-- A URL record: its user information, query and fragment stand encoded. -/
structure Parts where
  scheme : Scheme
  username : List Char
  password : List Char
  host : List Char
  port : Option ℕ
  path : List (List Char)
  query : Option (List Char)
  fragment : Option (List Char)
  deriving DecidableEq, Repr

/-- Special schemes take a backslash for a slash. -/
def isSlash (c : Char) : Bool := c = '/' || c = '\\'

/-! ## Paths -/

/-- A segment that stands for its own directory. -/
def isSingleDot (segment : List Char) : Bool :=
  segment.map Char.toLower ∈ [".".toList, "%2e".toList]

/-- A segment that stands for the directory above. -/
def isDoubleDot (segment : List Char) : Bool :=
  segment.map Char.toLower ∈ ["..".toList, ".%2e".toList, "%2e.".toList, "%2e%2e".toList]

/-- The segments of a path, read after those of `path`.  A dot segment at the end leaves a slash. -/
def walk (path : List (List Char)) : List (List Char) → List (List Char)
  | [] => path
  | [segment] =>
    if isDoubleDot segment then path.dropLast ++ [[]]
    else if isSingleDot segment then path ++ [[]]
    else path ++ [segment]
  | segment :: rest =>
    if isDoubleDot segment then walk path.dropLast rest
    else if isSingleDot segment then walk path rest
    else walk (path ++ [segment]) rest

/-- A path as a URL writes it: a slash before each segment. -/
def pathText (path : List (List Char)) : List Char := path.flatMap fun segment => '/' :: segment

/-! ## After the authority -/

/-- What ends a path: the mark of a query or of a fragment. -/
def isPathEnd (c : Char) : Bool := c = '?' || c = '#'

/-- The query of what comes after a path, up to the fragment. -/
def readQuery : List Char → Option (List Char)
  | '?' :: rest => some (encode querySet.escapes (rest.takeWhile fun c => c ≠ '#'))
  | _ => none

/-- All that comes after the first `#`. -/
def readFragment (text : List Char) : Option (List Char) :=
  match text.dropWhile fun c => c ≠ '#' with
  | '#' :: rest => some (encode fragmentSet.escapes rest)
  | _ => none

/-- A path, continued from `path`, and what comes after it. -/
def readPath (base : Parts) (path : List (List Char)) (text : List Char) : Parts :=
  let segments := (text.takeWhile fun c => !isPathEnd c).splitOnP isSlash
  let rest := text.dropWhile fun c => !isPathEnd c
  { base with
    path := walk path (segments.map (encode pathSet.escapes))
    query := readQuery rest
    fragment := readFragment rest }

/-! ## Authorities -/

/-- What comes before and after the last `mark`. -/
def splitLast (mark : Char) : List Char → Option (List Char × List Char)
  | [] => none
  | c :: rest =>
    match splitLast mark rest with
    | some (before, after) => some (c :: before, after)
    | none => if c = mark then some ([], rest) else none

/-- The host, and what follows its colon; a colon in brackets is the host's. -/
def splitPort (inside : Bool) : List Char → List Char × Option (List Char)
  | [] => ([], none)
  | c :: rest =>
    if c = ':' && !inside then ([], some rest)
    else
      let (host, port) := splitPort (if c = '[' then true else if c = ']' then false else inside) rest
      (c :: host, port)

/-- A port is a decimal up to 65535; the default one is not kept. -/
def parsePort (scheme : Scheme) (digits : List Char) : Option (Option ℕ) :=
  if digits.all Char.isDigit then
    if digits = [] then some none
    else if 65535 < Decimal.value digits then none
    else if Decimal.value digits = scheme.defaultPort then some none
    else some (some (Decimal.value digits))
  else none

/-- The user information, the host and the port; the path is still empty. -/
def parseAuthority (hosts : Hosts) (scheme : Scheme) (text : List Char) : Option Parts :=
  let (credentials, server) := (splitLast '@' text).getD ([], text)
  let (host, port) := splitPort false server
  if host = [] then none
  else do
    let host ← hosts.parse host
    let port ← parsePort scheme (port.getD [])
    return {
      scheme := scheme
      username := encode userinfoSet.escapes (credentials.takeWhile fun c => c ≠ ':')
      password := encode userinfoSet.escapes (credentials.dropWhile fun c => c ≠ ':').tail
      host := host, port := port, path := [], query := none, fragment := none }

/-- What ends an authority. -/
def isAuthorityEnd (c : Char) : Bool := isSlash c || isPathEnd c

/-- The slash that opens a path is not part of its first segment. -/
def dropSlash : List Char → List Char
  | [] => []
  | c :: rest => if isSlash c then rest else c :: rest

/-- From the slashes after the scheme on; any number of them is skipped. -/
def readAuthority (hosts : Hosts) (scheme : Scheme) (text : List Char) : Option Parts :=
  let text := text.dropWhile isSlash
  (parseAuthority hosts scheme (text.takeWhile fun c => !isAuthorityEnd c)).map fun base =>
    readPath base [] (dropSlash (text.dropWhile fun c => !isAuthorityEnd c))

/-! ## The parser -/

/-- What `new URL` makes of a text. -/
inductive Outcome
  | failure
  /-- a URL of another scheme, or none -/
  | foreign
  | url (parts : Parts)
  deriving DecidableEq, Repr

/-- A reading of one of the two schemes, or none. -/
def Outcome.ofOption (parts : Option Parts) : Outcome := parts.elim .failure .url

/-- A text without a scheme, or with the base's own and no slashes, goes on from the base. -/
def readRelative (hosts : Hosts) (base : Parts) (text : List Char) : Outcome :=
  match text with
  | [] => .url { base with fragment := none }
  | c :: rest =>
    if isSlash c then
      if rest.head?.any isSlash then .ofOption (readAuthority hosts base.scheme rest)
      else .url (readPath base [] rest)
    else if c = '?' then
      .url { base with query := readQuery (c :: rest), fragment := readFragment (c :: rest) }
    else if c = '#' then .url { base with fragment := readFragment (c :: rest) }
    else .url (readPath base base.path.dropLast (c :: rest))

/-- What is cut off at the ends of the text. -/
def isTrimmed (c : Char) : Bool := c.toNat ≤ 0x20

/-- What is removed anywhere in the text. -/
def isRemoved (c : Char) : Bool := c ∈ ['\t', '\n', '\r']

/-- Controls and spaces at the ends, and tabs and line ends anywhere, are not part of a URL. -/
def clean (text : List Char) : List Char :=
  ((text.dropWhile isTrimmed).rdropWhile isTrimmed).filter fun c => !isRemoved c

/-- `new URL(text, base)` -/
def read (hosts : Hosts) (base : Option Parts) (text : List Char) : Outcome :=
  match schemeOf (clean text) with
  | some (scheme, rest) =>
    match Scheme.ofText scheme with
    | none => .foreign
    | some scheme =>
      match base with
      | none => .ofOption (readAuthority hosts scheme rest)
      | some base =>
        if base.scheme = scheme ∧ ¬ "//".toList <+: rest then readRelative hosts base rest
        else .ofOption (readAuthority hosts scheme rest)
  | none =>
    match base with
    | none => .failure
    | some base => readRelative hosts base (clean text)

/-! ## Texts of URLs -/

/-- The user information with its `@`; without a password there is no colon. -/
def credentialsText (parts : Parts) : List Char :=
  if parts.username = [] ∧ parts.password = [] then []
  else parts.username ++ ((if parts.password = [] then [] else ':' :: parts.password) ++ ['@'])

/-- The port with its colon, if one is kept. -/
def portText : Option ℕ → List Char
  | none => []
  | some port => ':' :: Nat.toDigits 10 port

/-- `url.host`: the host with its port. -/
def hostText (parts : Parts) : List Char := parts.host ++ portText parts.port

/-- `url.search`. -/
def queryText : Option (List Char) → List Char
  | none => []
  | some query => '?' :: query

/-- `url.hash`. -/
def fragmentText : Option (List Char) → List Char
  | none => []
  | some fragment => '#' :: fragment

/-- `url.href`. -/
def serialize (parts : Parts) : List Char :=
  parts.scheme.text ++ "://".toList ++ (credentialsText parts ++ (hostText parts ++
    (pathText parts.path ++ (queryText parts.query ++ fragmentText parts.fragment))))

/-! ## Well-formed URLs -/

/-- A segment as a parsed path has it. -/
structure IsSegment (segment : List Char) : Prop where
  encoded : pathSet.Encoded segment
  no_slash : ∀ c ∈ segment, isSlash c = false
  not_single : isSingleDot segment = false
  not_double : isDoubleDot segment = false

/-- The part before the path is as it is read. -/
structure Parts.ServerFormed (hosts : Hosts) (parts : Parts) : Prop where
  username : userinfoSet.Encoded parts.username
  password : userinfoSet.Encoded parts.password
  host : hosts.parse parts.host = some parts.host
  port : ∀ port, parts.port = some port → port ≤ 65535 ∧ port ≠ parts.scheme.defaultPort

/-- Each part is as it is read. -/
structure Parts.WellFormed (hosts : Hosts) (parts : Parts) : Prop
    extends parts.ServerFormed hosts where
  path_ne_nil : parts.path ≠ []
  path : ∀ segment ∈ parts.path, IsSegment segment
  query : ∀ query, parts.query = some query → querySet.Encoded query
  fragment : ∀ fragment, parts.fragment = some fragment → fragmentSet.Encoded fragment

variable {hosts : Hosts} {parts base : Parts} {path : List (List Char)} {text rest : List Char}

/-- The empty segment, as a trailing slash leaves it, is one. -/
theorem isSegment_nil : IsSegment [] := ⟨by simp [PercentSet.Encoded], by simp, rfl, rfl⟩

/-- Each way through `walk` leaves a segment, so a path is never empty. -/
theorem walk_ne_nil {segments : List (List Char)} (h : segments ≠ []) : walk path segments ≠ [] := by
  induction segments generalizing path with
  | nil => exact absurd rfl h
  | cons segment rest ih =>
    cases rest with
    | nil =>
      unfold walk
      split
      · simp
      · split <;> simp
    | cons next rest =>
      unfold walk
      split
      · -- a double dot: one segment less to go on from
        exact ih (List.cons_ne_nil _ _)
      · split <;> exact ih (List.cons_ne_nil _ _)

/-- Dot segments are resolved, so what is left are segments. -/
theorem walk_isSegment {segments : List (List Char)} (hpath : ∀ s ∈ path, IsSegment s)
    (h : ∀ s ∈ segments, pathSet.Encoded s ∧ ∀ c ∈ s, isSlash c = false) :
    ∀ s ∈ walk path segments, IsSegment s := by
  have hdrop : ∀ {path : List (List Char)}, (∀ s ∈ path, IsSegment s) →
      ∀ s ∈ path.dropLast, IsSegment s :=
    fun hpath s hs => hpath s (List.dropLast_subset _ hs)
  have hpush : ∀ {path : List (List Char)} {segment : List Char}, (∀ s ∈ path, IsSegment s) →
      IsSegment segment → ∀ s ∈ path ++ [segment], IsSegment s := by
    intro path segment hpath hsegment s hs
    rcases List.mem_append.1 hs with hs | hs
    · exact hpath s hs
    · rw [List.mem_singleton.1 hs]
      exact hsegment
  induction segments generalizing path with
  | nil => exact hpath
  | cons segment rest ih =>
    obtain ⟨hsegment, hrest⟩ := List.forall_mem_cons.1 h
    have hkept : ¬ isDoubleDot segment = true → ¬ isSingleDot segment = true → IsSegment segment :=
      fun hdouble hsingle => ⟨hsegment.1, hsegment.2, Bool.not_eq_true _ ▸ hsingle,
        Bool.not_eq_true _ ▸ hdouble⟩
    cases rest with
    | nil =>
      unfold walk
      split
      · -- a double dot at the end leaves a slash
        exact hpush (hdrop hpath) isSegment_nil
      · split
        · -- so does a single one
          exact hpush hpath isSegment_nil
        · rename_i hdouble hsingle
          exact hpush hpath (hkept hdouble hsingle)
    | cons next rest =>
      unfold walk
      split
      · -- a double dot takes the last segment away
        exact ih (hdrop hpath) hrest
      · split
        · exact ih hpath hrest
        · rename_i hdouble hsingle
          exact ih (hpush hpath (hkept hdouble hsingle)) hrest

/-- Where there are no dot segments, nothing is resolved. -/
theorem walk_of_isSegment {segments : List (List Char)} (h : ∀ s ∈ segments, IsSegment s) :
    walk path segments = path ++ segments := by
  induction segments generalizing path with
  | nil => exact (List.append_nil _).symm
  | cons segment rest ih =>
    obtain ⟨hsegment, hrest⟩ := List.forall_mem_cons.1 h
    cases rest with
    | nil => simp [walk, hsegment.not_double, hsegment.not_single]
    | cons next rest =>
      have hstep : walk path (segment :: next :: rest) = walk (path ++ [segment]) (next :: rest) := by
        simp [walk, hsegment.not_double, hsegment.not_single]
      rw [hstep, ih hrest, List.append_assoc]
      rfl

/-! ## What is parsed is well formed -/

/-- No piece of a split text has what it was split on. -/
theorem mem_of_mem_splitOnP {p : Char → Bool} {segment : List Char}
    (h : segment ∈ text.splitOnP p) : ∀ c ∈ segment, p c = false := by
  induction text generalizing segment with
  | nil =>
    rw [List.splitOnP_nil, List.mem_singleton] at h
    simp [h]
  | cons x xs ih =>
    rw [List.splitOnP_cons_eq_if_modifyHead] at h
    split at h
    · -- at a mark a new, empty piece starts
      rcases List.mem_cons.1 h with rfl | h
      · simp
      · exact ih h
    · -- else the character joins the first piece
      rename_i hx
      obtain ⟨first, others, hsplit⟩ := List.exists_cons_of_ne_nil (List.splitOnP_ne_nil p xs)
      rw [hsplit] at h ih
      rcases List.mem_cons.1 h with rfl | h
      · rintro c hc
        rcases List.mem_cons.1 hc with rfl | hc
        · simpa using hx
        · exact ih List.mem_cons_self c hc
      · exact ih (List.mem_cons_of_mem _ h)

/-- Encoding puts no slash into a segment. -/
theorem encode_no_slash {segment : List Char} (h : ∀ c ∈ segment, isSlash c = false) :
    ∀ c ∈ encode pathSet.escapes segment, isSlash c = false := by
  have hescapes : ∀ c ∈ escapeChars, isSlash c = false := by decide
  intro c hc
  rcases mem_encode hc with hescape | ⟨hmem, _⟩
  · exact hescapes c hescape
  · exact h c hmem

/-- A query is read encoded. -/
theorem readQuery_encoded {query : List Char} (h : readQuery text = some query) :
    querySet.Encoded query := by
  unfold readQuery at h
  split at h
  · cases h
    exact PercentSet.encoded_encode _
  · cases h

/-- A fragment is read encoded. -/
theorem readFragment_encoded {fragment : List Char} (h : readFragment text = some fragment) :
    fragmentSet.Encoded fragment := by
  unfold readFragment at h
  split at h
  · cases h
    exact PercentSet.encoded_encode _
  · cases h

/-- A path read after a well-formed server gives a well-formed URL. -/
theorem readPath_wellFormed (hbase : base.ServerFormed hosts)
    (hpath : ∀ s ∈ path, IsSegment s) : (readPath base path text).WellFormed hosts := by
  refine { username := hbase.username, password := hbase.password, host := hbase.host
           port := hbase.port, path_ne_nil := ?_, path := ?_
           query := fun _ h => readQuery_encoded h
           fragment := fun _ h => readFragment_encoded h }
  · exact walk_ne_nil (by simp [List.splitOnP_ne_nil])
  · refine walk_isSegment hpath fun s hs => ?_
    obtain ⟨segment, hsegment, rfl⟩ := List.mem_map.1 hs
    exact ⟨PercentSet.encoded_encode _, encode_no_slash (mem_of_mem_splitOnP hsegment)⟩

/-- A port that is kept is in range and not the default one. -/
theorem parsePort_bounds {scheme : Scheme} {digits : List Char} {port : ℕ}
    (h : parsePort scheme digits = some (some port)) :
    port ≤ 65535 ∧ port ≠ scheme.defaultPort := by
  unfold parsePort at h
  split at h
  · split at h
    · cases h
    · split at h
      · cases h
      · split at h
        · cases h
        · -- the only branch that keeps a port
          rename_i hbound hdefault
          cases h
          exact ⟨Nat.le_of_not_lt hbound, hdefault⟩
  · cases h

/-- What an authority is read as is formed as a server is. -/
theorem parseAuthority_formed {scheme : Scheme} (h : parseAuthority hosts scheme text = some parts) :
    parts.ServerFormed hosts := by
  unfold parseAuthority at h
  simp only at h
  split at h
  · cases h
  · obtain ⟨host, hhost, h⟩ := Option.bind_eq_some_iff.1 h
    obtain ⟨port, hport, h⟩ := Option.bind_eq_some_iff.1 h
    cases h
    refine ⟨PercentSet.encoded_encode _, PercentSet.encoded_encode _,
      hosts.parse_host _ _ hhost, ?_⟩
    rintro port rfl
    exact parsePort_bounds hport

/-- Reading an authority keeps the scheme. -/
theorem parseAuthority_scheme {scheme : Scheme}
    (h : parseAuthority hosts scheme text = some parts) : parts.scheme = scheme := by
  unfold parseAuthority at h
  simp only at h
  split at h
  · cases h
  · obtain ⟨host, _, h⟩ := Option.bind_eq_some_iff.1 h
    obtain ⟨port, _, h⟩ := Option.bind_eq_some_iff.1 h
    cases h
    rfl

/-- A URL read from its authority on is well formed. -/
theorem readAuthority_wellFormed {scheme : Scheme}
    (h : readAuthority hosts scheme text = some parts) : parts.WellFormed hosts := by
  obtain ⟨base, hbase, rfl⟩ := Option.map_eq_some_iff.1 h
  exact readPath_wellFormed (parseAuthority_formed hbase) (by simp)

/-- A URL comes out only where parts were found. -/
theorem ofOption_eq_url {found : Option Parts} :
    Outcome.ofOption found = .url parts ↔ found = some parts := by
  cases found with
  | none => exact iff_of_false Outcome.noConfusion (by simp)
  | some parts' =>
    show Outcome.url parts' = _ ↔ _
    rw [Outcome.url.injEq, Option.some.injEq]

/-- Each way to go on from a well-formed base is well formed. -/
theorem readRelative_wellFormed (hbase : base.WellFormed hosts)
    (h : readRelative hosts base text = .url parts) : parts.WellFormed hosts := by
  have hdrop : ∀ s ∈ base.path.dropLast, IsSegment s :=
    fun s hs => hbase.path s (List.dropLast_subset _ hs)
  unfold readRelative at h
  split at h
  · -- an empty text is the base without its fragment
    cases h
    exact { hbase with fragment := by simp }
  · split at h
    · split at h
      · -- two slashes: only the scheme is the base's
        exact readAuthority_wellFormed (ofOption_eq_url.1 h)
      · cases h
        exact readPath_wellFormed hbase.toServerFormed (by simp)
    · split at h
      · cases h
        exact { hbase with query := fun _ h => readQuery_encoded h
                           fragment := fun _ h => readFragment_encoded h }
      · split at h
        · -- only the fragment is new
          cases h
          exact { hbase with fragment := fun _ h => readFragment_encoded h }
        · cases h
          exact readPath_wellFormed hbase.toServerFormed hdrop

/-- **What is parsed is well formed**, if the base is. -/
theorem read_wellFormed {base : Option Parts} (hbase : ∀ b, base = some b → b.WellFormed hosts)
    (h : read hosts base text = .url parts) : parts.WellFormed hosts := by
  unfold read at h
  split at h
  · split at h
    · cases h
    · split at h
      · -- an absolute text does not look at the base
        exact readAuthority_wellFormed (ofOption_eq_url.1 h)
      · split at h
        · exact readRelative_wellFormed (hbase _ rfl) h
        · exact readAuthority_wellFormed (ofOption_eq_url.1 h)
  · split at h
    · cases h
    · exact readRelative_wellFormed (hbase _ rfl) h

/-! ## Taking a text apart -/

section Apart

variable {p : Char → Bool} {front : List Char}

/-- The part that a test keeps is taken, if what follows stops it. -/
theorem takeWhile_stop (h : ∀ c ∈ front, p c = true) (hrest : ∀ c ∈ rest.head?, p c = false) :
    (front ++ rest).takeWhile p = front := by
  have hnone : rest.takeWhile p = [] := by
    cases rest with
    | nil => rfl
    | cons c rest => simp [hrest c rfl]
  rw [List.takeWhile_append_of_pos h, hnone, List.append_nil]

/-- The part that a test keeps is dropped, if what follows stops it. -/
theorem dropWhile_stop (h : ∀ c ∈ front, p c = true) (hrest : ∀ c ∈ rest.head?, p c = false) :
    (front ++ rest).dropWhile p = rest := by
  rw [List.dropWhile_append_of_pos h]
  cases rest with
  | nil => rfl
  | cons c rest => simp [hrest c rfl]

/-- A text without slashes is what comes before the first one. -/
theorem takeWhile_slash (h : '/' ∉ front) (hrest : ∀ c ∈ rest.head?, c = '/') :
    (front ++ rest).takeWhile (fun c => decide (c ≠ '/')) = front := by
  refine takeWhile_stop (fun c hc => decide_eq_true fun heq => h (heq ▸ hc)) fun c hc => ?_
  rw [hrest c hc]
  rfl

/-- A printable text has nothing to clean. -/
theorem clean_of_printable (h : ∀ c ∈ text, 0x20 < c.toNat) : clean text = text := by
  have htrim : ∀ c ∈ text, isTrimmed c = false := by
    intro c hc
    have hlt := h c hc
    exact decide_eq_false (by omega)
  have hleft : text.dropWhile isTrimmed = text := by
    cases text with
    | nil => rfl
    | cons c rest => simp [htrim c List.mem_cons_self]
  have hright : text.rdropWhile isTrimmed = text := by
    rw [List.rdropWhile_eq_self_iff]
    intro hne
    rw [htrim _ (List.getLast_mem hne)]
    decide
  unfold clean
  rw [hleft, hright, List.filter_eq_self]
  intro c hc
  have hlt := h c hc
  have hkept : isRemoved c = false := by
    unfold isRemoved
    refine decide_eq_false fun hmem => ?_
    have hall : ∀ d ∈ ['\t', '\n', '\r'], d.toNat ≤ 0x20 := by decide
    have := hall c hmem
    omega
  rw [hkept]
  rfl

/-- The scheme of a written URL is read off it. -/
theorem schemeOf_text (scheme : Scheme) (rest : List Char) :
    schemeOf (scheme.text ++ "://".toList ++ rest) = some (scheme.text, "//".toList ++ rest) := by
  cases scheme <;> rfl

/-- A scheme is found by its own text. -/
theorem ofText_text (scheme : Scheme) : Scheme.ofText scheme.text = some scheme := by
  cases scheme <;> rfl

/-- A text with a scheme and two slashes is never relative. -/
theorem read_absolute (base : Option Parts) (scheme : Scheme)
    (h : ∀ c ∈ scheme.text ++ "://".toList ++ rest, 0x20 < c.toNat) :
    read hosts base (scheme.text ++ "://".toList ++ rest) =
      .ofOption (readAuthority hosts scheme ("//".toList ++ rest)) := by
  have hslashes : "//".toList <+: "//".toList ++ rest := List.prefix_append _ _
  unfold read
  rw [clean_of_printable h, schemeOf_text]
  simp only [ofText_text]
  cases base with
  | none => rfl
  | some base => exact if_neg fun hboth => hboth.2 hslashes

/-- The authority is what is between the slashes before it and the next separator. -/
theorem readAuthority_eq (scheme : Scheme) {slashes authority : List Char}
    (hslashes : ∀ c ∈ slashes, isSlash c = true) (hne : authority ≠ [])
    (hauthority : ∀ c ∈ authority, isAuthorityEnd c = false)
    (hrest : ∀ c ∈ rest.head?, isAuthorityEnd c = true) :
    readAuthority hosts scheme (slashes ++ (authority ++ rest)) =
      (parseAuthority hosts scheme authority).map fun base => readPath base [] (dropSlash rest) := by
  have hfirst : ∀ c ∈ (authority ++ rest).head?, isSlash c = false := by
    cases authority with
    | nil => exact absurd rfl hne
    | cons c authority =>
      intro d hd
      obtain rfl : c = d := Option.some.inj hd
      have hend := hauthority c List.mem_cons_self
      unfold isAuthorityEnd at hend
      exact (Bool.or_eq_false_iff.1 hend).1
  have hkept : ∀ c ∈ authority, (!isAuthorityEnd c) = true := by
    intro c hc
    rw [hauthority c hc]
    rfl
  have hstop : ∀ c ∈ rest.head?, (!isAuthorityEnd c) = false := by
    intro c hc
    rw [hrest c hc]
    rfl
  unfold readAuthority
  rw [dropWhile_stop hslashes hfirst]
  simp only
  rw [takeWhile_stop hkept hstop, dropWhile_stop hkept hstop]

/-- A path without a query or a fragment after it. -/
theorem readPath_plain (h : ∀ c ∈ text, isPathEnd c = false) :
    readPath base path text =
      { base with path := walk path ((text.splitOnP isSlash).map (encode pathSet.escapes))
                  query := none, fragment := none } := by
  have hkept : ∀ c ∈ text, (!isPathEnd c) = true := by
    intro c hc
    rw [h c hc]
    rfl
  have htake : text.takeWhile (fun c => !isPathEnd c) = text := by
    rw [List.takeWhile_eq_self_iff]
    exact hkept
  have hdrop : text.dropWhile (fun c => !isPathEnd c) = [] := List.dropWhile_eq_nil_iff.2 hkept
  unfold readPath
  rw [htake, hdrop]
  rfl

end Apart

/-- What has no mark stays with the first piece. -/
theorem splitOnP_append_block {p : Char → Bool} {block : List Char}
    (h : ∀ c ∈ block, p c = false) :
    (block ++ rest).splitOnP p = (rest.splitOnP p).modifyHead (block ++ ·) := by
  obtain ⟨first, others, hsplit⟩ := List.exists_cons_of_ne_nil (List.splitOnP_ne_nil p rest)
  induction block with
  | nil => rw [List.nil_append, hsplit]; rfl
  | cons c block ih =>
    obtain ⟨hc, hblock⟩ := List.forall_mem_cons.1 h
    rw [List.cons_append, List.splitOnP_cons_eq_if_modifyHead, hc, ih hblock, hsplit]
    rfl

/-- What has no mark, at the end, stays with the last piece. -/
theorem splitOnP_append_last (p : Char → Bool) {block : List Char}
    (h : ∀ c ∈ block, p c = false) (text : List Char) :
    ∃ front last, (text ++ block).splitOnP p = front ++ [last ++ block] := by
  induction text with
  | nil => exact ⟨[], [], List.splitOnP_eq_singleton h⟩
  | cons c text ih =>
    obtain ⟨front, last, hsplit⟩ := ih
    rw [List.cons_append, List.splitOnP_cons_eq_if_modifyHead, hsplit]
    split
    · -- a mark adds a piece at the front
      exact ⟨[] :: front, last, rfl⟩
    · -- another character joins the first piece, which may be the last one
      cases front with
      | nil => exact ⟨[], c :: last, rfl⟩
      | cons first front => exact ⟨(c :: first) :: front, last, rfl⟩

/-- The first piece, and what is split further. -/
theorem exists_of_splitOnP {p : Char → Bool} {first : List Char} {pieces : List (List Char)}
    (h : text.splitOnP p = first :: pieces) (hpieces : pieces ≠ []) :
    ∃ mark rest, text = first ++ mark :: rest ∧ p mark = true ∧ rest.splitOnP p = pieces := by
  induction text generalizing first with
  | nil =>
    rw [List.splitOnP_nil] at h
    cases h
    exact absurd rfl hpieces
  | cons c text ih =>
    rw [List.splitOnP_cons_eq_if_modifyHead] at h
    split at h
    · rename_i hc
      cases h
      exact ⟨c, text, rfl, hc, rfl⟩
    · obtain ⟨front, others, hsplit⟩ := List.exists_cons_of_ne_nil (List.splitOnP_ne_nil p text)
      rw [hsplit] at h ih
      cases h
      obtain ⟨mark, rest, rfl, hmark, hrest⟩ := ih rfl
      exact ⟨mark, rest, rfl, hmark, hrest⟩

/-- Without a query and a fragment, the pieces between slashes are the authority and the path. -/
theorem readAuthority_pieces (scheme : Scheme) {slashes authority : List Char}
    {pieces : List (List Char)} (hslashes : ∀ c ∈ slashes, isSlash c = true)
    (htext : text.splitOnP isSlash = authority :: pieces) (hpieces : pieces ≠ [])
    (hne : authority ≠ []) (hend : ∀ c ∈ text, isPathEnd c = false) :
    readAuthority hosts scheme (slashes ++ text) =
      (parseAuthority hosts scheme authority).map fun base =>
        { base with path := walk [] (pieces.map (encode pathSet.escapes))
                    query := none, fragment := none } := by
  have hno : ∀ c ∈ authority, isSlash c = false :=
    mem_of_mem_splitOnP (htext ▸ List.mem_cons_self)
  obtain ⟨mark, rest, rfl, hmark, hrest⟩ := exists_of_splitOnP htext hpieces
  rw [List.forall_mem_append, List.forall_mem_cons] at hend
  obtain ⟨hauthority, _, hpath⟩ := hend
  have hkept : ∀ c ∈ authority, isAuthorityEnd c = false := by
    intro c hc
    unfold isAuthorityEnd
    rw [hno c hc, hauthority c hc]
    rfl
  have hstop : ∀ c ∈ (mark :: rest).head?, isAuthorityEnd c = true := by
    intro c hc
    obtain rfl : mark = c := Option.some.inj hc
    unfold isAuthorityEnd
    rw [hmark]
    rfl
  have hdrop : dropSlash (mark :: rest) = rest := if_pos hmark
  rw [readAuthority_eq scheme hslashes hne hkept hstop, hdrop, ← hrest]
  refine congrArg (fun f => (parseAuthority hosts scheme authority).map f) ?_
  funext base
  exact readPath_plain hpath

/-- A last segment that is no dot segment stays the last. -/
theorem walk_append_last (path segments : List (List Char)) {last : List Char}
    (hsingle : isSingleDot last = false) (hdouble : isDoubleDot last = false) :
    ∃ front, walk path (segments ++ [last]) = front ++ [last] := by
  induction segments generalizing path with
  | nil => exact ⟨path, by simp [walk, hsingle, hdouble]⟩
  | cons segment rest ih =>
    obtain ⟨next, others, hnext⟩ : ∃ next others, rest ++ [last] = next :: others :=
      List.exists_cons_of_ne_nil (by simp)
    rw [hnext] at ih
    show ∃ front, walk path (segment :: (rest ++ [last])) = _
    rw [hnext]
    unfold walk
    split
    · exact ih _
    · split <;> exact ih _

/-- A path lies under its first segment when there is another one. -/
theorem under_pathText_iff {segment : List Char} (hsegment : '/' ∉ segment)
    (h : ∀ s ∈ path, '/' ∉ s) :
    '/' :: (segment ++ ['/']) <+: pathText path ↔ ∃ next more, path = segment :: next :: more := by
  constructor
  · rintro ⟨back, hback⟩
    cases path with
    | nil => cases hback
    | cons first others =>
      have hfirst : '/' ∉ first := h first List.mem_cons_self
      have hbody : segment ++ ['/'] ++ back = first ++ pathText others :=
        (List.cons_eq_cons.1 hback).2
      rw [List.append_assoc] at hbody
      have hstop : ∀ c ∈ (pathText others).head?, c = '/' := by
        cases others with
        | nil => simp [pathText]
        | cons next more =>
          intro c hc
          exact (Option.some.inj hc).symm
      -- what comes before the first slash is the same on both sides
      have hfront := congrArg (List.takeWhile fun c => decide (c ≠ '/')) hbody
      rw [takeWhile_slash hsegment (by simp), takeWhile_slash hfirst hstop] at hfront
      subst hfront
      cases others with
      | nil => exact absurd (List.append_cancel_left hbody) (List.cons_ne_nil _ _)
      | cons next more => exact ⟨next, more, rfl⟩
  · rintro ⟨next, more, rfl⟩
    refine ⟨next ++ pathText more, ?_⟩
    show '/' :: (segment ++ ['/']) ++ (next ++ pathText more) =
      '/' :: (segment ++ '/' :: (next ++ pathText more))
    simp

/-! ## Authorities, read back -/

/-- Without a mark there is nothing to split. -/
theorem splitLast_none {mark : Char} (h : mark ∉ text) : splitLast mark text = none := by
  induction text with
  | nil => rfl
  | cons c rest ih =>
    rw [List.mem_cons, not_or] at h
    unfold splitLast
    rw [ih h.2]
    exact if_neg (Ne.symm h.1)

/-- The last mark is the one after which there is none. -/
theorem splitLast_append {mark : Char} (before : List Char) (h : mark ∉ text) :
    splitLast mark (before ++ mark :: text) = some (before, text) := by
  induction before with
  | nil =>
    show splitLast mark (mark :: text) = _
    unfold splitLast
    -- no later mark, so this one is the last
    rw [splitLast_none h]
    exact if_pos rfl
  | cons c before ih =>
    show splitLast mark (c :: (before ++ mark :: text)) = _
    unfold splitLast
    rw [ih]

/-- In brackets, a colon does not start a port. -/
theorem splitPort_inside {inner : List Char} (h : ∀ c ∈ inner, c ∉ ['[', ']']) :
    splitPort true (inner ++ ']' :: rest) =
      (inner ++ ']' :: (splitPort false rest).1, (splitPort false rest).2) := by
  induction inner with
  | nil => rfl
  | cons c inner ih =>
    obtain ⟨hc, hrest⟩ := List.forall_mem_cons.1 h
    simp only [List.mem_cons, List.not_mem_nil, or_false, not_or] at hc
    have hstep : splitPort true (c :: (inner ++ ']' :: rest)) =
        (c :: (splitPort true (inner ++ ']' :: rest)).1,
          (splitPort true (inner ++ ']' :: rest)).2) := by
      conv_lhs => unfold splitPort
      simp [hc.1, hc.2]
    rw [List.cons_append, hstep, ih hrest]
    rfl

/-- A part without colons and brackets stays with the host. -/
theorem splitPort_plain {plain : List Char} (h : ∀ c ∈ plain, c ∉ [':', '[', ']']) :
    splitPort false (plain ++ rest) =
      (plain ++ (splitPort false rest).1, (splitPort false rest).2) := by
  induction plain with
  | nil => rfl
  | cons c plain ih =>
    obtain ⟨hc, hrest⟩ := List.forall_mem_cons.1 h
    simp only [List.mem_cons, List.not_mem_nil, or_false, not_or] at hc
    have hstep : splitPort false (c :: (plain ++ rest)) =
        (c :: (splitPort false (plain ++ rest)).1, (splitPort false (plain ++ rest)).2) := by
      conv_lhs => unfold splitPort
      simp [hc.1, hc.2.1, hc.2.2]
    rw [List.cons_append, hstep, ih hrest]
    rfl

/-- A host stays in one piece. -/
theorem splitPort_host {host : List Char} (h : hosts.parse text = some host) :
    splitPort false (host ++ rest) = (host ++ (splitPort false rest).1, (splitPort false rest).2) := by
  rcases hosts.brackets _ _ h with hplain | ⟨inner, rfl, hinner⟩
  · -- a name
    exact splitPort_plain hplain
  · -- an address in brackets
    have hopen : splitPort false ('[' :: (inner ++ ']' :: rest)) =
        ('[' :: (splitPort true (inner ++ ']' :: rest)).1,
          (splitPort true (inner ++ ']' :: rest)).2) := by
      conv_lhs => unfold splitPort
      rfl
    have hassoc : '[' :: (inner ++ [']']) ++ rest = '[' :: (inner ++ ']' :: rest) := by simp
    rw [hassoc, hopen, splitPort_inside hinner]
    simp

/-- A port that is kept is read back from its text, and adds nothing to the host. -/
theorem parsePort_portText {scheme : Scheme} {port : Option ℕ}
    (h : ∀ n, port = some n → n ≤ 65535 ∧ n ≠ scheme.defaultPort) :
    parsePort scheme ((splitPort false (portText port)).2.getD []) = some port ∧
      (splitPort false (portText port)).1 = [] := by
  cases port with
  | none => exact ⟨rfl, rfl⟩
  | some n =>
    obtain ⟨hbound, hdefault⟩ := h n rfl
    have hdigits : (Nat.toDigits 10 n).all Char.isDigit = true :=
      List.all_eq_true.2 fun c hc => Nat.isDigit_of_mem_toDigits (by decide) (by decide) hc
    have hvalue : Decimal.value (Nat.toDigits 10 n) = n := Nat.ofDigitChars_ten_toDigits
    have hne : Nat.toDigits 10 n ≠ [] := Nat.toDigits_ne_nil
    refine ⟨?_, rfl⟩
    show parsePort scheme (Nat.toDigits 10 n) = _
    unfold parsePort
    rw [if_pos hdigits, if_neg hne, hvalue, if_neg (Nat.not_lt.2 hbound), if_neg hdefault]

/-- What an encoded user information does not have. -/
theorem userinfo_mem {c : Char} (h : userinfoSet.Encoded text) (hc : c ∈ text) :
    c ∉ ['/', '\\', '?', '#', '@', ':'] := h.not_mem hc (by decide)

/-- A host with its port has no separator of a URL. -/
theorem hostText_mem {c : Char} (h : parts.ServerFormed hosts) (hc : c ∈ hostText parts) :
    0x20 < c.toNat ∧ c ∉ ['/', '\\', '?', '#', '@', '%'] := by
  rcases List.mem_append.1 hc with hhost | hport
  · -- of the host
    obtain ⟨hlow, _, hnot⟩ := hosts.printable _ _ h.host c hhost
    exact ⟨hlow, hnot⟩
  · -- of the port: a colon and digits
    cases hparts : parts.port with
    | none =>
      rw [hparts] at hport
      exact absurd hport List.not_mem_nil
    | some n =>
      rw [hparts] at hport
      rcases List.mem_cons.1 hport with rfl | hdigit
      · decide
      · have hisDigit := Nat.isDigit_of_mem_toDigits (by decide) (by decide) hdigit
        obtain ⟨hlow, hhigh⟩ := Decimal.toNat_of_isDigit hisDigit
        refine ⟨by omega, fun hmem => ?_⟩
        have hall : ∀ d ∈ ['/', '\\', '?', '#', '@', '%'], d.toNat < 48 ∨ 57 < d.toNat := by decide
        have := hall c hmem
        omega

/-- A host is never empty, so neither is it with its port. -/
theorem hostText_ne_nil (h : parts.ServerFormed hosts) : hostText parts ≠ [] :=
  fun hnil => hosts.ne_nil _ _ h.host (List.append_eq_nil_iff.1 hnil).1

/-- The part of a URL before its path. -/
def Parts.server (parts : Parts) : Parts :=
  { parts with path := [], query := none, fragment := none }

/-- The host and the port are read back, after any credentials. -/
theorem parseAuthority_host (h : parts.ServerFormed hosts) {credentials : List Char}
    (hsplit : (splitLast '@' text).getD ([], text) = (credentials, hostText parts)) :
    parseAuthority hosts parts.scheme text =
      some { parts.server with
        username := encode userinfoSet.escapes (credentials.takeWhile fun c => c ≠ ':')
        password := encode userinfoSet.escapes (credentials.dropWhile fun c => c ≠ ':').tail } := by
  obtain ⟨hport, hnone⟩ := parsePort_portText h.port
  have hhost : splitPort false (hostText parts) =
      (parts.host, (splitPort false (portText parts.port)).2) := by
    unfold hostText
    rw [splitPort_host h.host, hnone, List.append_nil]
  have hne := hosts.ne_nil _ _ h.host
  unfold parseAuthority
  rw [hsplit]
  simp only [hhost, hne, if_false, h.host, hport]
  rfl

/-- **The authority is read back.** -/
theorem parseAuthority_text (h : parts.ServerFormed hosts) :
    parseAuthority hosts parts.scheme (credentialsText parts ++ hostText parts) =
      some parts.server := by
  have hat : '@' ∉ hostText parts := fun hmem => (hostText_mem h hmem).2 (by decide)
  unfold credentialsText
  split
  · -- no credentials
    rename_i hnone
    rw [List.nil_append, parseAuthority_host h (by rw [splitLast_none hat]; rfl)]
    show some { parts.server with username := [], password := [] } = _
    unfold Parts.server
    rw [hnone.1, hnone.2]
  · -- the name ends at the first colon, and has none itself
    have hcolon : ∀ c ∈ parts.username, decide (c ≠ ':') = true := by
      intro c hc
      refine decide_eq_true fun heq => userinfo_mem h.username hc ?_
      rw [heq]
      decide
    have htext : parts.username ++ ((if parts.password = [] then [] else ':' :: parts.password) ++
        ['@']) ++ hostText parts = parts.username ++
          (if parts.password = [] then [] else ':' :: parts.password) ++ '@' :: hostText parts := by
      simp
    have hstop : ∀ c ∈ (if parts.password = [] then [] else ':' :: parts.password).head?,
        decide (c ≠ ':') = false := by
      split
      · simp
      · rintro c hc
        cases hc
        rfl
    rw [htext, parseAuthority_host h (by rw [splitLast_append _ hat]; rfl),
      takeWhile_stop hcolon hstop, dropWhile_stop hcolon hstop, h.username.encode_eq]
    have hpassword : (if parts.password = [] then [] else ':' :: parts.password).tail =
        parts.password := by
      split
      · rename_i hnil
        exact hnil.symm
      · rfl
    rw [hpassword, h.password.encode_eq]
    rfl

/-! ## The round trip -/

/-- A path falls apart at its slashes. -/
theorem splitOnP_pathText {segment : List Char} (hsegment : ∀ c ∈ segment, isSlash c = false)
    (h : ∀ s ∈ path, ∀ c ∈ s, isSlash c = false) :
    (segment ++ pathText path).splitOnP isSlash = segment :: path := by
  induction path generalizing segment with
  | nil =>
    show (segment ++ []).splitOnP isSlash = _
    rw [List.append_nil, List.splitOnP_eq_singleton hsegment]
  | cons next path ih =>
    obtain ⟨hnext, hpath⟩ := List.forall_mem_cons.1 h
    show (segment ++ '/' :: (next ++ pathText path)).splitOnP isSlash = _
    rw [List.splitOnP_append_cons_of_forall_mem hsegment '/' rfl, ih hnext hpath]

/-- The segments can be read off the text of a path. -/
theorem pathText_injective {path path' : List (List Char)} (hne : path ≠ []) (hne' : path' ≠ [])
    (h : ∀ s ∈ path, ∀ c ∈ s, isSlash c = false) (h' : ∀ s ∈ path', ∀ c ∈ s, isSlash c = false)
    (heq : pathText path = pathText path') : path = path' := by
  obtain ⟨segment, others, rfl⟩ := List.exists_cons_of_ne_nil hne
  obtain ⟨segment', others', rfl⟩ := List.exists_cons_of_ne_nil hne'
  obtain ⟨hsegment, hothers⟩ := List.forall_mem_cons.1 h
  obtain ⟨hsegment', hothers'⟩ := List.forall_mem_cons.1 h'
  have hbody : segment ++ pathText others = segment' ++ pathText others' :=
    (List.cons_eq_cons.1 heq).2
  rw [← splitOnP_pathText hsegment hothers, ← splitOnP_pathText hsegment' hothers', hbody]

/-- A path has no mark that ends it. -/
theorem pathText_mem {c : Char} (h : ∀ s ∈ path, pathSet.Encoded s) (hc : c ∈ pathText path) :
    0x20 < c.toNat ∧ isPathEnd c = false := by
  obtain ⟨segment, hsegment, hmem⟩ := List.mem_flatMap.1 hc
  rcases List.mem_cons.1 hmem with rfl | hmem
  · decide
  · have hnot : c ∉ ['?', '#'] := (h segment hsegment).not_mem hmem (by decide)
    rw [List.mem_pair, not_or] at hnot
    refine ⟨((h segment hsegment).printable c hmem).1, ?_⟩
    unfold isPathEnd
    rw [decide_eq_false hnot.1, decide_eq_false hnot.2]
    rfl

/-- A query has no fragment's mark. -/
theorem queryText_no_hash {query : Option (List Char)}
    (h : ∀ text, query = some text → querySet.Encoded text) :
    ∀ c ∈ queryText query, decide (c ≠ '#') = true := by
  intro c hc
  cases query with
  | none => exact absurd hc List.not_mem_nil
  | some text =>
    rcases List.mem_cons.1 hc with rfl | hc
    · rfl
    · have hnot : c ∉ ['#'] := (h text rfl).not_mem hc (by decide)
      rw [List.mem_singleton] at hnot
      exact decide_eq_true hnot

/-- A fragment starts with its mark. -/
theorem fragmentText_head {fragment : Option (List Char)} :
    ∀ c ∈ (fragmentText fragment).head?, c = '#' := by
  cases fragment with
  | none => simp [fragmentText]
  | some text =>
    intro c hc
    exact (Option.some.inj hc).symm

/-- The query is read back. -/
theorem readQuery_text {query fragment : Option (List Char)}
    (h : ∀ text, query = some text → querySet.Encoded text) :
    readQuery (queryText query ++ fragmentText fragment) = query := by
  cases query with
  | none =>
    cases fragment with
    | none => rfl
    | some text => rfl
  | some text =>
    have hkept : ∀ c ∈ text, decide (c ≠ '#') = true :=
      fun c hc => queryText_no_hash h c (List.mem_cons_of_mem _ hc)
    have hstop : ∀ c ∈ (fragmentText fragment).head?, decide (c ≠ '#') = false := by
      intro c hc
      rw [fragmentText_head c hc]
      rfl
    show some (encode querySet.escapes ((text ++ fragmentText fragment).takeWhile _)) = _
    rw [takeWhile_stop hkept hstop, (h text rfl).encode_eq]

/-- The fragment is read back, past the query. -/
theorem readFragment_text {query fragment : Option (List Char)}
    (hquery : ∀ text, query = some text → querySet.Encoded text)
    (h : ∀ text, fragment = some text → fragmentSet.Encoded text) :
    readFragment (queryText query ++ fragmentText fragment) = fragment := by
  have hstop : ∀ c ∈ (fragmentText fragment).head?, decide (c ≠ '#') = false := by
    intro c hc
    rw [fragmentText_head c hc]
    rfl
  unfold readFragment
  rw [dropWhile_stop (queryText_no_hash hquery) hstop]
  cases fragment with
  | none => rfl
  | some text =>
    show some (encode fragmentSet.escapes text) = _
    rw [(h text rfl).encode_eq]

/-- What follows a path ends it. -/
theorem after_path_head {query fragment : Option (List Char)} :
    ∀ c ∈ (queryText query ++ fragmentText fragment).head?, isPathEnd c = true := by
  intro c hc
  cases query with
  | none =>
    rw [fragmentText_head c hc]
    rfl
  | some text =>
    obtain rfl : '?' = c := Option.some.inj hc
    rfl

/-- **What follows the authority is read back.** -/
theorem readPath_text (h : parts.WellFormed hosts) :
    readPath parts.server [] (dropSlash (pathText parts.path ++
      (queryText parts.query ++ fragmentText parts.fragment))) = parts := by
  obtain ⟨segment, path, hpath⟩ := List.exists_cons_of_ne_nil h.path_ne_nil
  have hsegments : ∀ s ∈ segment :: path, IsSegment s := fun s hs => h.path s (hpath ▸ hs)
  obtain ⟨hsegment, hrest⟩ := List.forall_mem_cons.1 hsegments
  have hkept : ∀ c ∈ segment ++ pathText path, (!isPathEnd c) = true := by
    intro c hc
    have hmem : c ∈ pathText (segment :: path) := List.mem_cons_of_mem _ hc
    rw [(pathText_mem (fun s hs => (hsegments s hs).encoded) hmem).2]
    rfl
  have hstop : ∀ c ∈ (queryText parts.query ++ fragmentText parts.fragment).head?,
      (!isPathEnd c) = false := by
    intro c hc
    rw [after_path_head c hc]
    rfl
  have hencode : (segment :: path).map (encode pathSet.escapes) = segment :: path := by
    rw [List.map_congr_left fun s hs => (hsegments s hs).encoded.encode_eq, List.map_id']
  have htext : dropSlash (pathText parts.path ++
      (queryText parts.query ++ fragmentText parts.fragment)) =
      (segment ++ pathText path) ++ (queryText parts.query ++ fragmentText parts.fragment) := by
    rw [hpath]
    rfl
  unfold readPath
  rw [htext, takeWhile_stop hkept hstop, dropWhile_stop hkept hstop,
    splitOnP_pathText hsegment.no_slash fun s hs => (hrest s hs).no_slash]
  simp only
  rw [hencode, walk_of_isSegment hsegments, readQuery_text h.query, readFragment_text h.query h.fragment,
    List.nil_append, ← hpath]
  rfl

/-- The text of a well-formed URL is printable. -/
theorem serialize_printable (h : parts.WellFormed hosts) :
    ∀ c ∈ serialize parts, 0x20 < c.toNat := by
  have hscheme : ∀ scheme : Scheme, ∀ c ∈ scheme.text ++ "://".toList, 0x20 < c.toNat := by
    intro scheme
    cases scheme <;> decide
  have huser : ∀ c ∈ credentialsText parts, 0x20 < c.toNat := by
    intro c hc
    unfold credentialsText at hc
    split at hc
    · exact absurd hc List.not_mem_nil
    · rcases List.mem_append.1 hc with hc | hc
      · exact (h.username.printable c hc).1
      · rcases List.mem_append.1 hc with hc | hc
        · split at hc
          · exact absurd hc List.not_mem_nil
          · rcases List.mem_cons.1 hc with rfl | hc
            · decide
            · exact (h.password.printable c hc).1
        · rw [List.mem_singleton.1 hc]
          decide
  have hquery : ∀ c ∈ queryText parts.query, 0x20 < c.toNat := by
    intro c hc
    cases hparts : parts.query with
    | none =>
      rw [hparts] at hc
      exact absurd hc List.not_mem_nil
    | some text =>
      rw [hparts] at hc
      rcases List.mem_cons.1 hc with rfl | hc
      · decide
      · exact ((h.query text hparts).printable c hc).1
  have hfragment : ∀ c ∈ fragmentText parts.fragment, 0x20 < c.toNat := by
    intro c hc
    cases hparts : parts.fragment with
    | none =>
      rw [hparts] at hc
      exact absurd hc List.not_mem_nil
    | some text =>
      rw [hparts] at hc
      rcases List.mem_cons.1 hc with rfl | hc
      · decide
      · exact ((h.fragment text hparts).printable c hc).1
  intro c hc
  unfold serialize at hc
  simp only [List.mem_append] at hc
  rcases hc with hc | hc | hc | hc | hc | hc
  · exact hscheme _ c (List.mem_append.2 hc)
  · exact huser c hc
  · exact (hostText_mem h.toServerFormed hc).1
  · exact (pathText_mem (fun s hs => (h.path s hs).encoded) hc).1
  · exact hquery c hc
  · exact hfragment c hc

/-- User information has nothing that ends the authority. -/
theorem credentialsText_mem {c : Char} (h : parts.ServerFormed hosts)
    (hc : c ∈ credentialsText parts) : isAuthorityEnd c = false := by
  have hplain : c ∉ ['/', '\\', '?', '#', '@', ':'] → isAuthorityEnd c = false := by
    intro hnot
    simp only [List.mem_cons, List.not_mem_nil, or_false, not_or] at hnot
    unfold isAuthorityEnd isSlash isPathEnd
    simp [hnot]
  unfold credentialsText at hc
  split at hc
  · exact absurd hc List.not_mem_nil
  · rcases List.mem_append.1 hc with hc | hc
    · exact hplain (userinfo_mem h.username hc)
    · rcases List.mem_append.1 hc with hc | hc
      · split at hc
        · exact absurd hc List.not_mem_nil
        · rcases List.mem_cons.1 hc with rfl | hc
          · rfl
          · exact hplain (userinfo_mem h.password hc)
      · rw [List.mem_singleton.1 hc]
        rfl

/-- A host with its port has nothing that ends the authority. -/
theorem hostText_no_end {c : Char} (h : parts.ServerFormed hosts) (hc : c ∈ hostText parts) :
    isAuthorityEnd c = false := by
  have hnot := (hostText_mem h hc).2
  simp only [List.mem_cons, List.not_mem_nil, or_false, not_or] at hnot
  unfold isAuthorityEnd isSlash isPathEnd
  simp [hnot]

/-- **The round trip**: the text of a well-formed URL is read as that URL. -/
theorem read_serialize (base : Option Parts) (h : parts.WellFormed hosts) :
    read hosts base (serialize parts) = .url parts := by
  have hne : credentialsText parts ++ hostText parts ≠ [] :=
    fun hnil => hostText_ne_nil h.toServerFormed (List.append_eq_nil_iff.1 hnil).2
  have hend : ∀ c ∈ credentialsText parts ++ hostText parts, isAuthorityEnd c = false := by
    intro c hc
    rcases List.mem_append.1 hc with hc | hc
    · exact credentialsText_mem h.toServerFormed hc
    · exact hostText_no_end h.toServerFormed hc
  have hstop : ∀ c ∈ (pathText parts.path ++
      (queryText parts.query ++ fragmentText parts.fragment)).head?, isAuthorityEnd c = true := by
    obtain ⟨segment, path, hpath⟩ := List.exists_cons_of_ne_nil h.path_ne_nil
    rw [hpath]
    intro c hc
    obtain rfl : '/' = c := Option.some.inj hc
    rfl
  have htext : serialize parts = parts.scheme.text ++ "://".toList ++ ((credentialsText parts ++
      hostText parts) ++ (pathText parts.path ++
        (queryText parts.query ++ fragmentText parts.fragment))) := by
    unfold serialize
    rw [List.append_assoc (credentialsText parts)]
  have hprintable := serialize_printable h
  -- from the left: the scheme, the authority, the rest
  rw [htext] at hprintable ⊢
  rw [read_absolute base parts.scheme hprintable,
    readAuthority_eq parts.scheme (by decide) hne hend hstop,
    parseAuthority_text h.toServerFormed, Option.map_some, readPath_text h]
  rfl

end HttpUrl
