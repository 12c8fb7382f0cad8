/-
  The URLs of a platform that reads them as the URL Standard has it.

  A platform is such when `new URL` and `toString` are `HttpUrl`'s on the schemes `http` and `https`
  (`PageParser.Standard`); of other schemes it only says that they are others.  Then an http(s) URL
  has well-formed parts (`exists_parts`), and its text is parsed as itself
  (`Standard.parse_urlToString`).  `standardPlatform` is one to compute with, with simple hosts.
-/
import ReplaysFetcher.Html
import ReplaysFetcher.Data.HttpUrl

namespace ReplaysFetcher

open HttpUrl (Parts Hosts Outcome Scheme)

/-! ## URLs and their parts -/

/-- The `URL` object of parts: its fields are their texts, with the marks that belong to them. -/
def urlOf (parts : Parts) : Url where
  protocol := String.ofList (parts.scheme.text ++ [':'])
  username := String.ofList parts.username
  password := String.ofList parts.password
  host := String.ofList (HttpUrl.hostText parts)
  pathname := String.ofList (HttpUrl.pathText parts.path)
  search := String.ofList (HttpUrl.queryText parts.query)
  hash := String.ofList (HttpUrl.fragmentText parts.fragment)

/-- Parts have one of the two schemes. -/
theorem urlOf_isHttp (parts : Parts) : (urlOf parts).IsHttp := by
  cases h : parts.scheme with
  | http =>
    refine Or.inl ?_
    show String.ofList (parts.scheme.text ++ [':']) = _
    rw [h]
    rfl
  | https =>
    refine Or.inr ?_
    show String.ofList (parts.scheme.text ++ [':']) = _
    rw [h]
    rfl

/-- The origin of an http(s) URL is its scheme and its host. -/
theorem origin_of_isHttp {url : Url} (h : url.IsHttp) :
    url.origin = url.protocol ++ "//" ++ url.host := by
  unfold Url.origin
  rw [if_pos]
  rcases h with h | h <;> simp [h]

/-- Who has the origin of an http(s) URL is one. -/
theorem isHttp_of_origin {url other : Url} (hother : other.IsHttp) (h : url.origin = other.origin) :
    url.IsHttp := by
  rw [origin_of_isHttp hother] at h
  unfold Url.origin at h
  have hlist := congrArg String.toList h
  split at hlist
  · rename_i hspecial
    simp only [List.mem_cons, List.not_mem_nil, or_false] at hspecial
    rcases hspecial with hp | hp | hp | hp | hp
    · exact Or.inl hp
    · exact Or.inr hp
    all_goals
      rcases hother with ho | ho <;> rw [hp, ho] at hlist <;> simp at hlist
  · rcases hother with ho | ho <;> rw [ho] at hlist <;> simp at hlist

/-! ## Platforms that follow the standard -/

/-- What the standard makes of a text is what was found. -/
def Agrees : Outcome → Option Url → Prop
  | .failure, found => found = none
  | .foreign, found => ∀ url, found = some url → ¬ url.IsHttp
  | .url parts, found => found = some (urlOf parts)

variable {Text : Type} {pf : Platform Text} {parser : PageParser pf} {hosts : Hosts}

/-- The platform's `URL` is the standard's on http(s), with and without a base. -/
structure PageParser.Standard (parser : PageParser pf) (hosts : Hosts) : Prop where
  parse : ∀ text, Agrees (HttpUrl.read hosts none text.toList) (pf.parseUrl text)
  resolve : ∀ href base, base.WellFormed hosts →
    Agrees (HttpUrl.read hosts (some base) href.toList) (parser.resolve href (urlOf base))
  resolvePath : ∀ path base parts, base.WellFormed hosts →
    HttpUrl.read hosts (some base) path.toList = .url parts →
    parser.resolvePath path (urlOf base) = urlOf parts
  urlToString : ∀ parts, parts.WellFormed hosts →
    pf.urlToString (urlOf parts) = String.ofList (HttpUrl.serialize parts)

/-- An http(s) URL that was found is of parts. -/
theorem Agrees.exists_parts {outcome : Outcome} {url : Url} (h : Agrees outcome (some url))
    (hhttp : url.IsHttp) : ∃ parts, outcome = .url parts ∧ url = urlOf parts := by
  cases outcome with
  | failure => cases h
  | foreign => exact absurd hhttp (h url rfl)
  | url parts => exact ⟨parts, rfl, Option.some.inj h⟩

/-- An http(s) URL has well-formed parts. -/
theorem PageParser.Standard.exists_parts (std : parser.Standard hosts) {text : String} {url : Url}
    (h : pf.parseUrl text = some url) (hhttp : url.IsHttp) :
    ∃ parts : Parts, parts.WellFormed hosts ∧ url = urlOf parts := by
  have hagrees := std.parse text
  rw [h] at hagrees
  obtain ⟨parts, hread, rfl⟩ := hagrees.exists_parts hhttp
  exact ⟨parts, HttpUrl.read_wellFormed (fun _ hnone => absurd hnone (by simp)) hread, rfl⟩

/-- So has one that was resolved against a well-formed base. -/
theorem PageParser.Standard.exists_parts_of_resolve (std : parser.Standard hosts) {base : Parts}
    (hbase : base.WellFormed hosts) {href : String} {url : Url}
    (h : parser.resolve href (urlOf base) = some url) (hhttp : url.IsHttp) :
    ∃ parts : Parts, parts.WellFormed hosts ∧ url = urlOf parts := by
  have hagrees := std.resolve href base hbase
  rw [h] at hagrees
  obtain ⟨parts, hread, rfl⟩ := hagrees.exists_parts hhttp
  refine ⟨parts, HttpUrl.read_wellFormed (fun b hb => ?_) hread, rfl⟩
  obtain rfl := Option.some.inj hb
  exact hbase

/-- **The text of a URL is parsed as that URL.** -/
theorem PageParser.Standard.parse_urlToString (std : parser.Standard hosts) {parts : Parts}
    (h : parts.WellFormed hosts) : pf.parseUrl (pf.urlToString (urlOf parts)) = some (urlOf parts) := by
  have hagrees := std.parse (pf.urlToString (urlOf parts))
  rw [std.urlToString parts h, String.toList_ofList, HttpUrl.read_serialize none h] at hagrees
  rw [std.urlToString parts h]
  exact hagrees

/-- A text with a scheme and two slashes is parsed from its authority on. -/
theorem PageParser.Standard.parse_absolute (std : parser.Standard hosts) (scheme : Scheme)
    {text rest : List Char} (htext : text = scheme.text ++ "://".toList ++ rest)
    (hprintable : ∀ c ∈ text, 0x20 < c.toNat) : pf.parseUrl (String.ofList text) =
      (HttpUrl.readAuthority hosts scheme ("//".toList ++ rest)).map urlOf := by
  have hagrees := std.parse (String.ofList text)
  have hread : HttpUrl.read hosts none text =
      Outcome.ofOption (HttpUrl.readAuthority hosts scheme ("//".toList ++ rest)) := by
    rw [htext] at hprintable ⊢
    exact HttpUrl.read_absolute none scheme hprintable
  rw [String.toList_ofList, hread] at hagrees
  generalize HttpUrl.readAuthority hosts scheme ("//".toList ++ rest) = found at hagrees
  cases found with
  | none => exact hagrees
  | some parts => exact hagrees

/-! ## A platform to compute with -/

/-- What a simple host is written with. -/
def isNameChar (c : Char) : Bool := c.isAlphanum || c ∈ ['-', '.']

/-- A simple host is in ASCII. -/
theorem isNameChar_lt {c : Char} (h : isNameChar c = true) : c.toNat < 128 := by
  unfold isNameChar at h
  rw [Bool.or_eq_true, decide_eq_true_iff] at h
  rcases h with h | h
  · unfold Char.isAlphanum Char.isAlpha Char.isUpper Char.isLower Char.isDigit at h
    simp only [Bool.or_eq_true, Bool.and_eq_true, decide_eq_true_eq, UInt32.le_iff_toNat_le,
      ge_iff_le] at h
    have hval : c.toNat = c.val.toNat := rfl
    have hZ : 'Z'.val.toNat = 90 := rfl
    have hz : 'z'.val.toNat = 122 := rfl
    have h9 : '9'.val.toNat = 57 := rfl
    omega
  · rcases List.mem_pair.1 h with rfl | rfl <;> decide

/-- A lower-case letter of a name. -/
theorem isNameChar_toLower {c : Char} (h : isNameChar c = true) :
    isNameChar c.toLower = true ∧ c.toLower.toLower = c.toLower ∧
      (0x20 < c.toLower.toNat ∧ c.toLower.toNat < 0x7f) ∧
      c.toLower ∉ ['/', '\\', '?', '#', '@', '%', ':', '[', ']'] := by
  exact PercentCode.forall_ascii (P := fun c => isNameChar c = true →
    isNameChar c.toLower = true ∧ c.toLower.toLower = c.toLower ∧
      (0x20 < c.toLower.toNat ∧ c.toLower.toNat < 0x7f) ∧
      c.toLower ∉ ['/', '\\', '?', '#', '@', '%', ':', '[', ']']) (by decide) (isNameChar_lt h) h

/-- Hosts that are plain names. -/
def nameHosts : Hosts where
  parse text :=
    if text ≠ [] ∧ text.all isNameChar then some (text.map Char.toLower) else none
  parse_host text host h := by
    split at h
    · rename_i hname
      cases h
      have hall := List.all_eq_true.1 hname.2
      have hlower : (text.map Char.toLower).all isNameChar = true := by
        rw [List.all_map, List.all_eq_true]
        exact fun c hc => (isNameChar_toLower (hall c hc)).1
      rw [if_pos ⟨by simpa using hname.1, hlower⟩, List.map_map]
      refine congrArg some (List.map_congr_left fun c hc => ?_)
      exact (isNameChar_toLower (hall c hc)).2.1
    · cases h
  printable text host h c hc := by
    split at h
    · rename_i hname
      cases h
      obtain ⟨d, hd, rfl⟩ := List.mem_map.1 hc
      obtain ⟨_, _, ⟨hlow, hhigh⟩, hnot⟩ := isNameChar_toLower (List.all_eq_true.1 hname.2 d hd)
      exact ⟨hlow, hhigh, fun hmem => hnot (List.mem_append_left [':', '[', ']'] hmem)⟩
    · cases h
  ne_nil text host h := by
    split at h
    · rename_i hname
      cases h
      simpa using hname.1
    · cases h
  brackets text host h := by
    split at h
    · rename_i hname
      cases h
      refine Or.inl fun c hc hmem => ?_
      obtain ⟨d, hd, rfl⟩ := List.mem_map.1 hc
      obtain ⟨_, _, _, hnot⟩ := isNameChar_toLower (List.all_eq_true.1 hname.2 d hd)
      exact hnot (List.mem_append_right ['/', '\\', '?', '#', '@', '%'] hmem)
    · cases h

/-- The URL that was read, if it is an http(s) one. -/
def outcomeUrl : Outcome → Option Url
  | .url parts => some (urlOf parts)
  | _ => none

/-- The URL of an outcome agrees with it. -/
theorem agrees_outcomeUrl (outcome : Outcome) : Agrees outcome (outcomeUrl outcome) := by
  cases outcome with
  | failure => rfl
  | foreign => simp [Agrees, outcomeUrl]
  | url parts => rfl

/-- The user information of a URL, as it stands in its text. -/
def userinfoText (url : Url) : String :=
  if url.username = "" ∧ url.password = "" then ""
  else url.username ++ ((if url.password = "" then "" else ":" ++ url.password) ++ "@")

/-- `url.toString()`, from the parts. -/
def textOfUrl (url : Url) : String :=
  url.protocol ++ ("//" ++ (userinfoText url ++ (url.host ++ (url.pathname ++
    (url.search ++ url.hash)))))

/-- A text is empty when it has no characters. -/
theorem ofList_eq_empty_iff {text : List Char} : String.ofList text = "" ↔ text = [] := by
  rw [← String.toList_inj, String.toList_ofList]
  rfl

/-- The user information of a `URL` is its parts' credentials. -/
theorem userinfoText_urlOf (parts : Parts) :
    (userinfoText (urlOf parts)).toList = HttpUrl.credentialsText parts := by
  unfold userinfoText HttpUrl.credentialsText urlOf
  simp only [ofList_eq_empty_iff]
  split
  · rfl
  · split <;> simp

/-- The text of a `URL` is the standard's serialization. -/
theorem textOfUrl_urlOf (parts : Parts) :
    textOfUrl (urlOf parts) = String.ofList (HttpUrl.serialize parts) := by
  apply String.toList_inj.1
  unfold textOfUrl
  simp only [String.toList_append, userinfoText_urlOf]
  simp only [urlOf, String.toList_ofList, HttpUrl.serialize, List.append_assoc]
  rfl

/-- `new URL(text)` -/
def parseHttpUrl (text : String) : Option Url :=
  outcomeUrl (HttpUrl.read nameHosts none text.toList)

/-- A text of a URL is parsed as that URL. -/
theorem parseHttpUrl_textOfUrl {parts : Parts} (h : parts.WellFormed nameHosts) :
    parseHttpUrl (textOfUrl (urlOf parts)) = some (urlOf parts) := by
  unfold parseHttpUrl
  rw [textOfUrl_urlOf, String.toList_ofList, HttpUrl.read_serialize none h]
  rfl

/-- The parts that a URL's text is read as. -/
def partsOf (url : Url) : Option Parts :=
  match HttpUrl.read nameHosts none (textOfUrl url).toList with
  | .url parts => some parts
  | _ => none

/-- The parts of a `URL` are found again. -/
theorem partsOf_urlOf {parts : Parts} (h : parts.WellFormed nameHosts) :
    partsOf (urlOf parts) = some parts := by
  unfold partsOf
  rw [textOfUrl_urlOf, String.toList_ofList, HttpUrl.read_serialize none h]

/-- Parts that are found are well formed. -/
theorem partsOf_wellFormed {url : Url} {parts : Parts} (h : partsOf url = some parts) :
    parts.WellFormed nameHosts := by
  unfold partsOf at h
  split at h
  · rename_i hread
    cases h
    exact HttpUrl.read_wellFormed (fun _ hnone => absurd hnone (by simp)) hread
  · cases h

/-- `new URL(href, base)` -/
def resolveHttpUrl (href : String) (base : Url) : Option Url :=
  (partsOf base).bind fun parts => outcomeUrl (HttpUrl.read nameHosts (some parts) href.toList)

/-- Resolving is the standard's reading against the base's parts. -/
theorem resolveHttpUrl_urlOf (href : String) {base : Parts} (h : base.WellFormed nameHosts) :
    resolveHttpUrl href (urlOf base) =
      outcomeUrl (HttpUrl.read nameHosts (some base) href.toList) := by
  unfold resolveHttpUrl
  rw [partsOf_urlOf h, Option.bind_some]

/-- What is resolved has well-formed parts. -/
theorem exists_parts_of_resolveHttpUrl {href : String} {base url : Url}
    (h : resolveHttpUrl href base = some url) :
    ∃ parts : Parts, parts.WellFormed nameHosts ∧ url = urlOf parts := by
  obtain ⟨parts, hparts, hurl⟩ := Option.bind_eq_some_iff.1 h
  unfold outcomeUrl at hurl
  split at hurl
  · rename_i found hread
    refine ⟨found, HttpUrl.read_wellFormed (fun b hb => ?_) hread, (Option.some.inj hurl).symm⟩
    obtain rfl := Option.some.inj hb
    exact partsOf_wellFormed hparts
  · cases hurl

/-- The platform to compute with: texts are JSON values, URLs the standard's. -/
def standardPlatform : Platform (Option Json) :=
  { toyPlatform with
    parse_stringify := parse_stringify_toyPlatform
    sha256Hex_hex := isSha256Hex_toyDigest
    parseUrl := parseHttpUrl
    urlToString := textOfUrl
    urlToString_ne_empty := fun url h => by
      have hlength := congrArg String.length h
      unfold textOfUrl at hlength
      simp [String.length_append] at hlength }

/-- Its `new URL` of a text. -/
@[simp] theorem standardPlatform_parseUrl : standardPlatform.parseUrl = parseHttpUrl := rfl

/-- Its `url.toString()`. -/
@[simp] theorem standardPlatform_urlToString : standardPlatform.urlToString = textOfUrl := rfl

/-- The page parser over that platform. -/
def standardParser : PageParser standardPlatform where
  resolve := resolveHttpUrl
  resolvePath path base := (resolveHttpUrl path base).getD base
  parseFixture _ := none
  parse_urlToString href base url h := by
    obtain ⟨parts, hparts, rfl⟩ := exists_parts_of_resolveHttpUrl h
    rw [standardPlatform_parseUrl, standardPlatform_urlToString, parseHttpUrl_textOfUrl hparts]
    rfl

/-- Its `new URL` with a base. -/
@[simp] theorem standardParser_resolve : standardParser.resolve = resolveHttpUrl := rfl

/-- A path that cannot be resolved leaves the base. -/
theorem standardParser_resolvePath (path : String) (base : Url) :
    standardParser.resolvePath path base = (resolveHttpUrl path base).getD base := rfl

/-- **The standard parser is standard**, so the results on such parsers are about it. -/
theorem standardParser_standard : standardParser.Standard nameHosts where
  parse text := by
    rw [standardPlatform_parseUrl]
    exact agrees_outcomeUrl _
  resolve href base h := by
    rw [standardParser_resolve, resolveHttpUrl_urlOf href h]
    exact agrees_outcomeUrl _
  resolvePath path base parts h hread := by
    rw [standardParser_resolvePath, resolveHttpUrl_urlOf path h, hread]
    rfl
  urlToString parts _ := textOfUrl_urlOf parts

end ReplaysFetcher
