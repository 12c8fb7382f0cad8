/-
  Reading the source's pages (`src/discovery/html.ts`, and `toRawReplayUrl` and `parseSourceFixture`
  of `src/discovery/discover-candidate.ts`).

  A list page is read with regular expressions: the first table of class `common-table`, its rows,
  their cells, the link in the first cell.  A detail page is read for one filename.  Nothing in a
  page is an error: what is not found is `none`, and a page without the table has no rows.

  The patterns are those of the source, node by node.  They have the flags `i` and `u`, so a letter
  also matches the other characters that fold to it.  URLs are resolved by the platform.
-/
import ReplaysFetcher.Data.Regex
import ReplaysFetcher.Transport
import ReplaysFetcher.Untrusted

namespace ReplaysFetcher

open Effectful

/-! ## Patterns -/

/-- A regular expression of the source, over the characters of a text. -/
abbrev HtmlPattern : Type := Regex.Pattern Char String

/-- A match with its named groups. -/
abbrev HtmlMatch : Type := Regex.Match Char String

/-- Simple case folding, as far as it reaches ASCII: the long s and the Kelvin sign fold to letters
    that the patterns have. -/
def foldCase (c : Char) : Char :=
  if c = '\u017f' then 's' else if c = '\u212a' then 'k' else c.toLower

/-- `\w`, under the flags `i` and `u` -/
def isWordChar (c : Char) : Bool := (foldCase c).isAlphanum || c = '_'

/-- `.` -/
def isDot (c : Char) : Bool := c ∉ ['\n', '\r', '\u2028', '\u2029']

/-- `["']` -/
def isQuote (c : Char) : Bool := c ∈ ['"', '\'']

/-- `[^…]` -/
def noneOf (cs : List Char) (c : Char) : Bool := c ∉ cs

/-- `[\s\S]` -/
def isAny (_ : Char) : Bool := true

/-- The characters of a text, one after the other. -/
def lit (text : String) : HtmlPattern :=
  text.toList.map fun c => Regex.one (fun x => foldCase x = foldCase c) none

/-- `\b` -/
def wordBoundary : HtmlPattern := [.boundary isWordChar]

/-- `[^>]*` -/
def tagRest : HtmlPattern := [Regex.many (noneOf ['>']) none]

/-- `<name[^>]*>` -/
def openingTag (name : String) : HtmlPattern := lit ("<" ++ name) ++ tagRest ++ lit ">"

/-- `[\s\S]*?` -/
def filler (group : Option String) : HtmlPattern := [Regex.few isAny group]

/-- `\bname=(?<quote>["'])(?<group>.*?)\k<quote>` -/
def attributePattern (name group : String) : HtmlPattern :=
  wordBoundary ++ lit (name ++ "=") ++
    [Regex.one isQuote (some "quote"), Regex.few isDot (some group), .backref "quote"]

/-- A table of the class `common-table`, and its body. -/
def tablePattern : HtmlPattern :=
  lit "<table" ++ tagRest ++ lit "class=" ++
    [Regex.one isQuote none, Regex.many (noneOf ['"', '\'']) none] ++
    wordBoundary ++ lit "common-table" ++ wordBoundary ++
    [Regex.many (noneOf ['"', '\'']) none, Regex.one isQuote none] ++ tagRest ++ lit ">" ++
    filler none ++ openingTag "tbody" ++ filler (some "body") ++ lit "</tbody>" ++
    filler none ++ lit "</table>"

/-- A row of a table. -/
def rowPattern : HtmlPattern := openingTag "tr" ++ filler (some "row") ++ lit "</tr>"

/-- A cell of a row. -/
def cellPattern : HtmlPattern := openingTag "td" ++ filler (some "cell") ++ lit "</td>"

/-- A link with its address and its text. -/
def linkPattern : HtmlPattern :=
  lit "<a" ++ wordBoundary ++ tagRest ++ attributePattern "href" "href" ++ tagRest ++ lit ">" ++
    filler (some "text") ++ lit "</a>"

/-- What stands between `/replays/` and the next separator. -/
def replayIdPattern : HtmlPattern :=
  lit "/replays/" ++ [Regex.some1 (noneOf ['/', '?', '#']) (some "id")]

/-- Any tag. -/
def tagPattern : HtmlPattern := lit "<" ++ [Regex.some1 (noneOf ['>']) none] ++ lit ">"

/-- An input with its attributes. -/
def inputPattern : HtmlPattern :=
  lit "<input" ++ wordBoundary ++ [Regex.many (noneOf ['>']) (some "attributes")] ++ lit ">"

/-- The body of a page, when it has a `data-ocap`. -/
def bodyPattern : HtmlPattern :=
  lit "<body" ++ wordBoundary ++ tagRest ++ attributePattern "data-ocap" "filename" ++ tagRest ++
    lit ">"

/-- `dd.mm.yyyy hh:mm`, and nothing else. -/
def gameDatePattern : HtmlPattern :=
  [.start, Regex.exactly 2 Char.isDigit (some "day")] ++ lit "." ++
    [Regex.exactly 2 Char.isDigit (some "month")] ++ lit "." ++
    [Regex.exactly 4 Char.isDigit (some "year"), Regex.some1 isJsWhitespace none,
      Regex.exactly 2 Char.isDigit (some "hour")] ++ lit ":" ++
    [Regex.exactly 2 Char.isDigit (some "minute"), .stop]

/-- `pattern.exec(text)` -/
def execOn (pattern : HtmlPattern) (text : String) : Option HtmlMatch :=
  Regex.exec pattern none text.toList

/-- `text.matchAll(pattern)` -/
def allMatches (pattern : HtmlPattern) (text : String) : List HtmlMatch :=
  Regex.matchAll pattern text.toList

/-- `match.groups?.[group]` -/
def groupOf (found : HtmlMatch) (group : String) : Option String :=
  (found.group? group).map String.ofList

/-- A group that took no part in the match is empty. -/
def getMatchGroup (found : HtmlMatch) (group : String) : String := (groupOf found group).getD ""

/-! ## Texts -/

/-- `value.replaceAll(needle, replacement)` -/
def replaceAllText (needle replacement value : String) : String :=
  let pattern : HtmlPattern := needle.toList.map fun c => Regex.one (· = c) none
  String.ofList (Regex.replaceAll pattern replacement.toList value.toList)

/-- The ampersand is decoded first, so that `&amp;lt;` becomes `<`. -/
def decodeHtmlEntities (value : String) : String :=
  replaceAllText "&gt;" ">" (replaceAllText "&lt;" "<" (replaceAllText "&#39;" "'"
    (replaceAllText "&quot;" "\"" (replaceAllText "&amp;" "&" value))))

/-- Each tag becomes a blank. -/
def stripTags (html : String) : String :=
  decodeHtmlEntities (String.ofList (Regex.replaceAll tagPattern [' '] html.toList))

/-- The number that is nearest to an integer; of two that are, the one with the even significand. -/
def nearestNumber (value : ℕ) : ℕ :=
  -- the numbers next to it are this far apart
  let unit := 2 ^ (value.log2 - 52)
  let below := value / unit
  let rest := value % unit
  (if 2 * rest < unit ∨ 2 * rest = unit ∧ below % 2 = 0 then below else below + 1) * unit

example : nearestNumber (2 ^ 53 + 1) = 2 ^ 53 := by decide +kernel

/-- `Number.parseInt(text, 10)` of a trimmed text; `none` is `NaN`. -/
def parseInt (text : String) : Option ℤ :=
  let (sign, digits) : ℤ × List Char :=
    match text.toList with
    | '-' :: rest => (-1, rest)
    | '+' :: rest => (1, rest)
    | rest => (1, rest)
  (digitsValue (String.ofList (digits.takeWhile Char.isDigit))).map fun value =>
    sign * nearestNumber value

/-- The date of a list page, in the source's time zone, as a UTC text. -/
def parseGameDateToUtcIso (cell : String) : Option String := do
  let found ← execOn gameDatePattern (trimJs cell)
  let number (group : String) : ℤ := ((digitsValue (getMatchGroup found group)).getD 0 : ℕ)
  componentsToUtcIso
    { day := number "day", hour := number "hour", minute := number "minute"
      month := number "month", year := number "year" }

/-! ## URLs -/

/-- `url.origin`, of a URL with an authority; the others have an opaque origin, written `null`. -/
def Url.origin (url : Url) : String :=
  if url.protocol ∈ ["http:", "https:", "ftp:", "ws:", "wss:"] then url.protocol ++ "//" ++ url.host
  else "null"

/-- The platform's part in reading a page. -/
structure PageParser {Text : Type} (pf : Platform Text) where
  /-- `new URL(href, base)`; `none` when it throws -/
  resolve : String → Url → Option Url
  /-- `new URL(path, base)` of an absolute path, which does not throw -/
  resolvePath : String → Url → Url
  /-- `JSON.parse`, and the candidates of the value; `none` when it throws or lists no candidates -/
  parseFixture : String → Option SourceFixture
  /-- the text of a URL is the text of a URL -/
  parse_urlToString : ∀ href base url, resolve href base = some url →
    (pf.parseUrl (pf.urlToString url)).isSome = true

/-- The characters `encodeURIComponent` leaves alone. -/
def isUriUnreserved (c : Char) : Bool :=
  c.isAlphanum || c ∈ ['-', '_', '.', '!', '~', '*', '\'', '(', ')']

/-- One byte, as `encodeURIComponent` writes it. -/
def percentEncode (byte : UInt8) : List Char :=
  let digit (n : ℕ) : Char := Char.ofNat (if n < 10 then 48 + n else 55 + n)
  ['%', digit (byte.toNat / 16), digit (byte.toNat % 16)]

/-- The characters that are not left alone are written as their UTF-8 bytes. -/
def encodeURIComponent (text : String) : String :=
  String.ofList (text.toList.flatMap fun c =>
    if isUriUnreserved c then [c]
    else (String.singleton c).toUTF8.toList.flatMap percentEncode)

section Pages

variable {Text : Type} {pf : Platform Text} (parser : PageParser pf)

/-- The URL of a replay's data; encoded slashes of its text become slashes again. -/
def toRawReplayUrl (filename : String) (detailUrl : Url) : String :=
  let rawFilename :=
    if ".json".toList.isSuffixOf filename.toList then filename else filename ++ ".json"
  replaceAllText "%2F" "/"
    (pf.urlToString (parser.resolvePath ("/data/" ++ encodeURIComponent rawFilename) detailUrl))

/-- A link counts if it stays on the source's origin and under `/replays/`. -/
def hrefToUrl (href : Option String) (sourceUrl : Url) : Option String :=
  match href with
  | none => none
  | some href =>
    match parser.resolve href sourceUrl with
    | none => none
    | some resolved =>
      if resolved.origin ≠ sourceUrl.origin ||
          !"/replays/".toList.isPrefixOf resolved.pathname.toList then none
      else some (pf.urlToString resolved)

/-! ## List pages -/

/-- A text, unless it is empty. -/
def nonEmptyText (text : String) : Option String := if text = "" then none else some text

/-- The texts between the tags of the cells. -/
def rowCells (rowHtml : String) : List String :=
  (allMatches cellPattern rowHtml).map fun found => getMatchGroup found "cell"

/-- The link in a row's first cell. -/
def rowLink (rowHtml : String) : Option HtmlMatch :=
  execOn linkPattern ((rowCells rowHtml)[0]?.getD "")

/-- The text of its address. -/
def rowHref (rowHtml : String) : Option String :=
  ((rowLink rowHtml).bind fun found => groupOf found "href").map trimJs

/-- The id in a replay's URL. -/
def urlReplayId (url : String) : Option String :=
  (execOn replayIdPattern url).bind fun found => groupOf found "id"

/-- A row of the listing: its cells by position, and the link of the first one. -/
def parseReplayRow (rowHtml : String) (page : ℕ) (sourceUrl : Url) : ReplayRow :=
  let cells := rowCells rowHtml
  let url := hrefToUrl parser (rowHref rowHtml) sourceUrl
  { metadata :=
      { discoveredAt := parseGameDateToUtcIso (trimJs (stripTags (cells[3]?.getD "")))
        missionText := nonEmptyText
          (trimJs (stripTags (((rowLink rowHtml).bind fun found => groupOf found "text").getD "")))
        serverId := parseInt (trimJs (stripTags (cells[2]?.getD "")))
        world := nonEmptyText (trimJs (stripTags (cells[1]?.getD ""))) }
    page := page
    source :=
      { externalId := urlReplayId (url.getD "")
        url := url } }

/-- The body of the listing table. -/
def tableBody? (html : String) : Option String :=
  (execOn tablePattern html).bind fun found => groupOf found "body"

/-- The rows of the listing table; a page without one has none. -/
def extractReplayRows (html : String) (page : ℕ) (sourceUrl : Url) : List ReplayRow :=
  match tableBody? html with
  | none => []
  | some tableBody => (allMatches rowPattern tableBody).map fun found =>
    parseReplayRow parser (getMatchGroup found "row") page sourceUrl

/-! ## Detail pages -/

/-- The value of the first input with this id, which may have none. -/
def findInputValueById (html id : String) : Option String :=
  let attributes := (allMatches inputPattern html).map fun found => getMatchGroup found "attributes"
  (attributes.find? fun text =>
    ((execOn (attributePattern "id" "id") text).bind fun found =>
      groupOf found "id") = some id).bind
    fun text => (execOn (attributePattern "value" "value") text).bind fun found =>
      groupOf found "value"

/-- The filename of a detail page: its input `filename`, or else the `data-ocap` of its body. -/
def extractFilenameFromDetailHtml (html : String) : Option String :=
  match ((findInputValueById html "filename").map trimJs).bind nonEmptyText with
  | some filename => some (decodeHtmlEntities filename)
  | none =>
    (((execOn bodyPattern html).bind fun found => groupOf found "filename").map trimJs
      |>.bind nonEmptyText).map decodeHtmlEntities

/-- What a link is resolved to can be parsed again. -/
theorem parse_url_of_hrefToUrl {href : Option String} {sourceUrl : Url} {url : String}
    (h : hrefToUrl parser href sourceUrl = some url) : (pf.parseUrl url).isSome = true := by
  unfold hrefToUrl at h
  split at h
  · cases h
  · split at h
    · cases h
    · rename_i resolved hresolved
      split at h
      · cases h
      · cases h
        exact parser.parse_urlToString _ _ _ hresolved

/-- What discovery asks of this module. -/
def PageParser.reader : SourceReader pf where
  extractReplayRows := extractReplayRows parser
  extractFilenameFromDetailHtml := extractFilenameFromDetailHtml
  toRawReplayUrl := toRawReplayUrl parser
  parse_rowUrl html page pageUrl row hrow url hurl := by
    unfold extractReplayRows at hrow
    split at hrow
    · exact absurd hrow List.not_mem_nil
    · obtain ⟨found, _, rfl⟩ := List.mem_map.1 hrow
      exact parse_url_of_hrefToUrl parser hurl
  parseSourceFixture text := if Untrusted.looksLikeJson text then parser.parseFixture text else none

end Pages

end ReplaysFetcher
