/-
  The external id of a listing row (`parseReplayRow` and `hrefToUrl` of `src/discovery/html.ts`).

  A link is checked by the parts of its URL, and its id is searched for in the URL's text.

  1. **The search** (`runAfter_serialize`).  It passes over the scheme, the user information and the
     host, and comes to the `/replays/` that the path begins with, unless the host is `replays`;
     and where the segment after it is empty, it goes on into the rest of the URL.
  2. **The condition** (`rows_identified_iff`).

  The crux is that an authority has no slash: before the path the word can only begin at the second
  slash after the scheme, and then it takes in the whole authority.
-/
import ReplaysFetcher.WebUrls
import ReplaysFetcher.Data.WordRun

namespace ReplaysFetcher.RowLinks

open HttpUrl (Parts Hosts)
open WordRun

/-! ## The row's link and its id -/

variable {Text : Type} {pf : Platform Text} (parser : PageParser pf)

/-- The URL of a row is its link's address, if that counts. -/
theorem parseReplayRow_url (rowHtml : String) (page : ℕ) (sourceUrl : Url) :
    (parseReplayRow parser rowHtml page sourceUrl).source.url =
      hrefToUrl parser (rowHref rowHtml) sourceUrl := by
  dsimp only [parseReplayRow]

/-- The id of a row is read from that URL, as a text. -/
theorem parseReplayRow_externalId (rowHtml : String) (page : ℕ) (sourceUrl : Url) :
    (parseReplayRow parser rowHtml page sourceUrl).source.externalId =
      urlReplayId ((hrefToUrl parser (rowHref rowHtml) sourceUrl).getD "") := by
  rw [← parseReplayRow_url parser rowHtml page sourceUrl]
  dsimp only [parseReplayRow]

/-- The segment that follows a leading `/replays/`. -/
def replaySegment (url : Url) : List Char := (url.pathname.toList.drop 9).takeWhile fun c => c ≠ '/'

/-- What follows a leading `/replays/`, to the end of the URL. -/
def afterReplays (url : Url) : List Char :=
  url.pathname.toList.drop 9 ++ (url.search.toList ++ url.hash.toList)

/-! ## The search -/

/-- The characters of `/replays/`, as the pattern compares them. -/
def replaysWord : List (Char → Bool) :=
  "/replays/".toList.map fun c => fun x => foldCase x = foldCase c

/-- What an id is written with. -/
def isIdChar (c : Char) : Bool := noneOf ['/', '?', '#'] c

/-- The pattern takes the run of id characters after the first word that has one. -/
theorem urlReplayId_eq (url : String) :
    urlReplayId url = (runAfter replaysWord isIdChar url.toList).map String.ofList := by
  have hexec := exec_wordRun replaysWord isIdChar "id" none url.toList
  rw [← hexec]
  show (Regex.exec (wordRun replaysWord isIdChar "id") none url.toList).bind _ = _
  cases Regex.exec (wordRun replaysWord isIdChar "id") none url.toList with
  | none => rfl
  | some found => rfl

/-- A text that the pattern takes for `/replays/`. -/
def IsReplaysWord (text : List Char) : Prop := text.map foldCase = "/replays/".toList

/-- Nothing else folds to a slash. -/
theorem foldCase_slash {c : Char} (h : foldCase c = '/') : c = '/' := by
  unfold foldCase at h
  split at h
  · exact absurd h (by decide)
  · split at h
    · exact absurd h (by decide)
    · exact PercentCode.eq_of_toLower h (by decide)

/-- What the word's characters match is the word, spelled in any case. -/
theorem forall₂_replaysWord {text : List Char} :
    List.Forall₂ (fun letter c => letter c = true) replaysWord text ↔ IsReplaysWord text := by
  have hword : ∀ (word text : List Char),
      List.Forall₂ (fun letter c => letter c = true)
        (word.map fun c => fun x => decide (foldCase x = foldCase c)) text ↔
      text.map foldCase = word.map foldCase := by
    intro word
    induction word with
    | nil =>
      intro text
      cases text with
      | nil => exact iff_of_true .nil rfl
      | cons x xs => exact iff_of_false (fun h => by cases h) (by simp)
    | cons c word ih =>
      intro text
      cases text with
      | nil => exact iff_of_false (fun h => by cases h) (by simp)
      | cons x xs =>
        rw [List.map_cons, List.forall₂_cons, ih, List.map_cons, List.map_cons, List.cons_eq_cons,
          decide_eq_true_iff]
  exact hword "/replays/".toList text

/-- Nothing but a slash is taken for the first letter of the word. -/
theorem slash_letter {c : Char} (h : c ≠ '/') : decide (foldCase c = foldCase '/') = false :=
  decide_eq_false fun hfold => h (foldCase_slash hfold)

/-- The word needs a slash, so a part without one is passed over. -/
theorem runAfter_skip_replays {front rest : List Char} (h : '/' ∉ front) :
    runAfter replaysWord isIdChar (front ++ rest) = runAfter replaysWord isIdChar rest := by
  have hword : replaysWord = (fun x => decide (foldCase x = foldCase '/')) :: replaysWord.tail := rfl
  rw [hword]
  exact runAfter_skip fun c hc => slash_letter fun heq => h (heq ▸ hc)

/-- A text begins with the word in some spelling. -/
theorem begins_replaysWord {text : List Char} : begins replaysWord text = true ↔
    ∃ spelled rest, text = spelled ++ rest ∧ IsReplaysWord spelled := by
  rw [begins_iff]
  simp only [forall₂_replaysWord]

/-- The word is spelled between two slashes. -/
theorem IsReplaysWord.exists_middle {text : List Char} (h : IsReplaysWord text) :
    ∃ middle, text = '/' :: (middle ++ ['/']) ∧ middle.map foldCase = "replays".toList := by
  unfold IsReplaysWord at h
  have hword : "/replays/".toList = ['/'] ++ ("replays".toList ++ ['/']) := rfl
  rw [hword, List.map_eq_append_iff] at h
  obtain ⟨first, others, rfl, hfirst, hothers⟩ := h
  obtain ⟨middle, last, rfl, hmiddle, hlast⟩ := List.map_eq_append_iff.1 hothers
  obtain ⟨c, rfl, hc⟩ := List.map_eq_singleton_iff.1 hfirst
  obtain ⟨d, rfl, hd⟩ := List.map_eq_singleton_iff.1 hlast
  rw [foldCase_slash hc, foldCase_slash hd]
  exact ⟨middle, rfl, hmiddle⟩

/-- The word has nine characters. -/
theorem replaysWord_length : replaysWord.length = 9 := rfl

/-- At a path: the segment after `/replays/`, or what is found after it. -/
theorem runAfter_path (rest : List Char) :
    runAfter replaysWord isIdChar ("/replays/".toList ++ rest) =
      if rest.takeWhile isIdChar ≠ [] then some (rest.takeWhile isIdChar)
      else runAfter replaysWord isIdChar rest := by
  have hbegins : begins replaysWord ("/replays/".toList ++ rest) = true :=
    begins_replaysWord.2 ⟨_, rest, rfl, rfl⟩
  have hdrop : ("/replays/".toList ++ rest).drop replaysWord.length = rest := by
    rw [replaysWord_length]
    rfl
  split
  · rename_i hrun
    have hhead : rest.head?.any isIdChar = true := by
      cases rest with
      | nil => exact absurd rfl hrun
      | cons c rest =>
        by_contra hnot
        rw [List.head?_cons, Option.any_some] at hnot
        exact hrun (by simp [hnot])
    have hany : (("/replays/".toList ++ rest).drop replaysWord.length).head?.any isIdChar =
        true := by
      rw [hdrop]
      exact hhead
    rw [runAfter_found hbegins hany, hdrop]
  · rename_i hrun
    have hhead : rest.head?.any isIdChar = false := by
      cases rest with
      | nil => rfl
      | cons c rest =>
        rw [List.head?_cons, Option.any_some]
        by_contra hyes
        rw [Bool.not_eq_false] at hyes
        exact hrun (by simp [hyes])
    -- the slash before the rest does not begin the word either
    have hlast : begins replaysWord ('/' :: rest) = false := by
      cases rest with
      | nil => rfl
      | cons c rest =>
        have hc : c ∈ ['/', '?', '#'] := by
          by_contra hnot
          have hyes : isIdChar c = true := decide_eq_true hnot
          rw [List.head?_cons, Option.any_some, hyes] at hhead
          cases hhead
        simp only [List.mem_cons, List.not_mem_nil, or_false] at hc
        rcases hc with rfl | rfl | rfl <;> rfl
    have hempty : (("/replays/".toList ++ rest).drop replaysWord.length).head?.any isIdChar =
        false := by
      rw [hdrop]
      exact hhead
    have htext : "/replays/".toList ++ rest = '/' :: ("replays".toList ++ '/' :: rest) := rfl
    have hpass : runAfter replaysWord isIdChar ("/replays/".toList ++ rest) =
        runAfter replaysWord isIdChar ("replays".toList ++ '/' :: rest) := by
      rw [runAfter_of_empty hempty, htext, List.tail_cons]
    rw [hpass, runAfter_skip_replays (by decide), runAfter_cons hlast]

/-- At the slash before an authority, whose path begins with `/replays/`. -/
theorem runAfter_authority {authority : List Char} (h : '/' ∉ authority) (rest : List Char) :
    runAfter replaysWord isIdChar ('/' :: (authority ++ ("/replays/".toList ++ rest))) =
      if authority.map foldCase = "replays".toList then some "replays".toList
      else runAfter replaysWord isIdChar ("/replays/".toList ++ rest) := by
  split
  · rename_i hbare
    -- the authority is the word
    have hlength : authority.length = 7 := by
      rw [← List.length_map foldCase, hbare]
      rfl
    have hspelled : IsReplaysWord ('/' :: (authority ++ ['/'])) := by
      unfold IsReplaysWord
      rw [List.map_cons, List.map_append, hbare]
      rfl
    have hbegins : begins replaysWord
        ('/' :: (authority ++ ("/replays/".toList ++ rest))) = true := by
      refine begins_replaysWord.2 ⟨_, "replays/".toList ++ rest, ?_, hspelled⟩
      simp
    have hdrop : ('/' :: (authority ++ ("/replays/".toList ++ rest))).drop replaysWord.length =
        "replays/".toList ++ rest := by
      rw [replaysWord_length, List.drop_succ_cons, List.drop_append, hlength,
        List.drop_eq_nil_of_le (by omega)]
      rfl
    have hany : (('/' :: (authority ++ ("/replays/".toList ++ rest))).drop
        replaysWord.length).head?.any isIdChar = true := by
      rw [hdrop]
      rfl
    rw [runAfter_found hbegins hany, hdrop]
    rfl
  · rename_i hbare
    have hnot : begins replaysWord
        ('/' :: (authority ++ ("/replays/".toList ++ rest))) = false := by
      rw [Bool.eq_false_iff]
      intro hyes
      obtain ⟨spelled, back, htext, hspelled⟩ := begins_replaysWord.1 hyes
      -- what is spelled between the two slashes of the word is the authority
      obtain ⟨middle, rfl, hmiddle⟩ := hspelled.exists_middle
      rw [List.cons_append, List.append_assoc] at htext
      have hbody : authority ++ '/' :: ("replays/".toList ++ rest) = middle ++ '/' :: back :=
        (List.cons_eq_cons.1 htext).2
      have hno : '/' ∉ middle := by
        intro hmem
        have hfold : '/' ∈ middle.map foldCase := List.mem_map.2 ⟨'/', hmem, rfl⟩
        rw [hmiddle] at hfold
        exact absurd hfold (by decide)
      have hfront := congrArg (List.takeWhile fun c => decide (c ≠ '/')) hbody
      rw [HttpUrl.takeWhile_slash h (by simp), HttpUrl.takeWhile_slash hno (by simp)] at hfront
      subst hfront
      exact hbare hmiddle
    rw [runAfter_cons hnot, runAfter_skip_replays h]

/-- The segment ends where the path does, or at a slash. -/
theorem takeWhile_isIdChar {rest after : List Char} (h : ∀ c ∈ rest, HttpUrl.isPathEnd c = false)
    (hafter : ∀ c ∈ after.head?, HttpUrl.isPathEnd c = true) :
    (rest ++ after).takeWhile isIdChar = rest.takeWhile fun c => c ≠ '/' := by
  have hid : ∀ c, isIdChar c = (decide (c ≠ '/') && !HttpUrl.isPathEnd c) := by
    intro c
    unfold isIdChar noneOf HttpUrl.isPathEnd
    simp
  induction rest with
  | nil =>
    cases after with
    | nil => rfl
    | cons c after =>
      have hend : isIdChar c = false := by
        rw [hid, hafter c rfl, Bool.not_true, Bool.and_false]
      simp [hend]
  | cons c rest ih =>
    obtain ⟨hc, hrest⟩ := List.forall_mem_cons.1 h
    have hsame : isIdChar c = decide (c ≠ '/') := by
      rw [hid, hc, Bool.not_false, Bool.and_true]
    rw [List.cons_append, List.takeWhile_cons, List.takeWhile_cons, hsame, ih hrest]

/-- **The search in a URL** whose path begins with `/replays/`. -/
theorem runAfter_serialize {hosts : Hosts} {parts : Parts} (h : parts.WellFormed hosts)
    {rest : List Char} (hpath : HttpUrl.pathText parts.path = "/replays/".toList ++ rest) :
    runAfter replaysWord isIdChar (HttpUrl.serialize parts) =
      if (HttpUrl.credentialsText parts ++ HttpUrl.hostText parts).map foldCase =
        "replays".toList then some "replays".toList
      else if (rest.takeWhile fun c => c ≠ '/') ≠ [] then some (rest.takeWhile fun c => c ≠ '/')
      else runAfter replaysWord isIdChar
        (rest ++ (HttpUrl.queryText parts.query ++ HttpUrl.fragmentText parts.fragment)) := by
  have hscheme : '/' ∉ parts.scheme.text ++ [':'] := by
    cases parts.scheme <;> decide
  have hauthority : '/' ∉ HttpUrl.credentialsText parts ++ HttpUrl.hostText parts := by
    intro hmem
    rcases List.mem_append.1 hmem with hmem | hmem
    · exact absurd (HttpUrl.credentialsText_mem h.toServerFormed hmem) (by decide)
    · exact absurd (HttpUrl.hostText_no_end h.toServerFormed hmem) (by decide)
  have htext : HttpUrl.serialize parts = (parts.scheme.text ++ [':']) ++ ('/' :: '/' ::
      ((HttpUrl.credentialsText parts ++ HttpUrl.hostText parts) ++ ("/replays/".toList ++ (rest ++
        (HttpUrl.queryText parts.query ++ HttpUrl.fragmentText parts.fragment))))) := by
    have hslashes : "://".toList = [':', '/', '/'] := rfl
    unfold HttpUrl.serialize
    rw [hpath, hslashes]
    simp only [List.append_assoc, List.cons_append, List.nil_append]
  have hrest : ∀ c ∈ rest, HttpUrl.isPathEnd c = false := by
    intro c hc
    have hmem : c ∈ HttpUrl.pathText parts.path := by
      rw [hpath]
      exact List.mem_append_right _ hc
    exact (HttpUrl.pathText_mem (fun s hs => (h.path s hs).encoded) hmem).2
  rw [htext, runAfter_skip_replays hscheme, runAfter_cons rfl, runAfter_authority hauthority,
    runAfter_path, takeWhile_isIdChar hrest HttpUrl.after_path_head]

/-! ## The condition -/

/-- The user information and the host, with its port, are `replays` in any case. -/
def BareReplays (url : Url) : Prop :=
  ((userinfoText url).toList ++ url.host.toList).map foldCase = "replays".toList

/-- No `/replays/` with a character of an id after it comes after the leading one. -/
def NoLaterReplay (url : Url) : Prop :=
  ∀ front spelled c back, afterReplays url = front ++ (spelled ++ c :: back) →
    IsReplaysWord spelled → c ∈ ['/', '?', '#']

/-- **The condition.**  A URL whose authority is `replays` has `replays` as its segment as well, and
    one with an empty segment has no later `/replays/`. -/
def NamedBySegment (url : Url) : Prop :=
  (BareReplays url → replaySegment url = "replays".toList) ∧
  (replaySegment url = [] → NoLaterReplay url)

/-- The id that a link's URL has by its path: the segment, unless it is empty. -/
def segmentId (url : Url) : Option String := nonEmptyText (String.ofList (replaySegment url))

/-- The id in the path is the segment after `/replays/`, unless that is empty. -/
theorem segmentId_eq (url : Url) :
    segmentId url = if replaySegment url = [] then none else
      some (String.ofList (replaySegment url)) := by
  unfold segmentId nonEmptyText
  simp only [ofList_eq_empty_iff]

/-- The text after the path's own word has no other one with an id. -/
theorem noLaterReplay_iff (url : Url) :
    NoLaterReplay url ↔ runAfter replaysWord isIdChar (afterReplays url) = none := by
  rw [runAfter_eq_none_iff]
  simp only [forall₂_replaysWord]
  have hid : ∀ c, c ∈ ['/', '?', '#'] ↔ isIdChar c = false := by
    intro c
    show _ ↔ decide (c ∉ ['/', '?', '#']) = false
    rw [decide_eq_false_iff_not, not_not]
  unfold NoLaterReplay
  simp only [hid]

/-- The search finds the segment exactly under the condition. -/
theorem urlReplayId_eq_segmentId_iff {hosts : Hosts} {parts : Parts} (h : parts.WellFormed hosts)
    (hpath : "/replays/".toList <+: HttpUrl.pathText parts.path) :
    urlReplayId (String.ofList (HttpUrl.serialize parts)) = segmentId (urlOf parts) ↔
      NamedBySegment (urlOf parts) := by
  obtain ⟨rest, hrest⟩ := hpath
  have hdrop : (urlOf parts).pathname.toList.drop 9 = rest := by
    show (String.ofList (HttpUrl.pathText parts.path)).toList.drop 9 = _
    rw [String.toList_ofList, ← hrest]
    rfl
  have hsegment : replaySegment (urlOf parts) = rest.takeWhile fun c => c ≠ '/' := by
    unfold replaySegment
    rw [hdrop]
  have hafter : afterReplays (urlOf parts) =
      rest ++ (HttpUrl.queryText parts.query ++ HttpUrl.fragmentText parts.fragment) := by
    unfold afterReplays
    rw [hdrop]
    simp only [urlOf, String.toList_ofList]
  have hbare : BareReplays (urlOf parts) ↔
      (HttpUrl.credentialsText parts ++ HttpUrl.hostText parts).map foldCase =
        "replays".toList := by
    unfold BareReplays
    rw [userinfoText_urlOf]
    simp only [urlOf, String.toList_ofList]
  rw [urlReplayId_eq, String.toList_ofList, runAfter_serialize h hrest.symm, segmentId_eq]
  unfold NamedBySegment
  rw [noLaterReplay_iff, hbare, hafter, hsegment]
  by_cases hname : (HttpUrl.credentialsText parts ++ HttpUrl.hostText parts).map foldCase =
      "replays".toList
  · -- the search stops at the authority
    rw [if_pos hname]
    by_cases hempty : (rest.takeWhile fun c => c ≠ '/') = []
    · rw [if_pos hempty, hempty]
      refine iff_of_false (by simp) fun hboth => ?_
      exact absurd (hboth.1 hname) (by decide)
    · rw [if_neg hempty, Option.map_some, Option.some.injEq, String.ofList_inj]
      constructor
      · intro heq
        exact ⟨fun _ => heq.symm, fun hnil => absurd hnil hempty⟩
      · rintro ⟨heq, _⟩
        exact (heq hname).symm
  · rw [if_neg hname]
    by_cases hempty : (rest.takeWhile fun c => c ≠ '/') = []
    · -- and goes on after an empty segment
      rw [if_pos hempty, if_neg (not_not.2 hempty), Option.map_eq_none_iff]
      exact ⟨fun hnone => ⟨fun hbare => absurd hbare hname, fun _ => hnone⟩,
        fun hboth => hboth.2 hempty⟩
    · rw [if_neg hempty, if_pos hempty]
      exact iff_of_true rfl ⟨fun hbare => absurd hbare hname, fun hnil => absurd hnil hempty⟩

/-! ## Rows of a source -/

/-- A row with a URL, on a page of an http(s) source. -/
structure LinkedRow (parser : PageParser pf) where
  sourceText : String
  sourceUrl : Url
  parse_source : pf.parseUrl sourceText = some sourceUrl
  http : sourceUrl.IsHttp
  rowHtml : String
  page : ℕ
  url : String
  has_url : (parseReplayRow parser rowHtml page sourceUrl).source.url = some url

namespace LinkedRow

variable {parser} {hosts : Hosts} (row other : LinkedRow parser)

/-- What is parsed of the row. -/
def observation : ReplayRow := parseReplayRow parser row.rowHtml row.page row.sourceUrl

/-- The row's URL has the source's origin and a path beginning with `/replays/`, and the row's id is
    the segment after it. -/
def Identified : Prop :=
  ∃ resolved, pf.parseUrl row.url = some resolved ∧ resolved.origin = row.sourceUrl.origin ∧
    "/replays/".toList <+: resolved.pathname.toList ∧
    row.observation.source.externalId = segmentId resolved

/-- Two rows whose links have different segments have no id in common. -/
def NoSharedId : Prop :=
  ∀ resolved resolved', pf.parseUrl row.url = some resolved →
    pf.parseUrl other.url = some resolved' → replaySegment resolved ≠ replaySegment resolved' →
    ∀ id, ¬ (row.observation.source.externalId = some id ∧
      other.observation.source.externalId = some id)

/-- The link resolves to a URL that is named by its segment. -/
def Named : Prop :=
  ∀ href resolved, rowHref row.rowHtml = some href →
    parser.resolve href row.sourceUrl = some resolved → NamedBySegment resolved

/-- The link resolves to a URL of the source's origin. -/
theorem exists_link : ∃ href resolved, rowHref row.rowHtml = some href ∧
    parser.resolve href row.sourceUrl = some resolved ∧ row.url = pf.urlToString resolved ∧
    resolved.origin = row.sourceUrl.origin ∧ "/replays/".toList <+: resolved.pathname.toList := by
  have hurl := row.has_url
  rw [parseReplayRow_url] at hurl
  unfold hrefToUrl at hurl
  split at hurl
  · cases hurl
  · rename_i href hhref
    split at hurl
    · cases hurl
    · rename_i resolved hresolved
      split at hurl
      · cases hurl
      · rename_i hchecks
        simp only [ne_eq, Bool.or_eq_true, decide_eq_true_eq, Bool.not_eq_true', not_or, not_not,
          Bool.not_eq_false] at hchecks
        exact ⟨href, resolved, hhref, hresolved, (Option.some.inj hurl).symm, hchecks.1,
          List.isPrefixOf_iff_prefix.1 hchecks.2⟩

/-- **A row is identified exactly when it is named.** -/
theorem identified_iff (std : parser.Standard hosts) : row.Identified ↔ row.Named := by
  obtain ⟨href, resolved, hhref, hresolved, hurl, horigin, hpath⟩ := row.exists_link
  obtain ⟨base, hbase, hsource⟩ := std.exists_parts row.parse_source row.http
  have hhttp := isHttp_of_origin row.http horigin
  have hlink := hresolved
  rw [hsource] at hlink
  obtain ⟨parts, hparts, rfl⟩ := std.exists_parts_of_resolve hbase hlink hhttp
  have hparse : pf.parseUrl row.url = some (urlOf parts) := by
    rw [hurl]
    exact std.parse_urlToString hparts
  have hid : row.observation.source.externalId =
      urlReplayId (String.ofList (HttpUrl.serialize parts)) := by
    have hhas : hrefToUrl parser (rowHref row.rowHtml) row.sourceUrl = some row.url := by
      rw [← parseReplayRow_url parser row.rowHtml row.page]
      exact row.has_url
    unfold observation
    rw [parseReplayRow_externalId, hhas, Option.getD_some, hurl, std.urlToString parts hparts]
  have hstarts : "/replays/".toList <+: HttpUrl.pathText parts.path := by
    have htext : (urlOf parts).pathname.toList = HttpUrl.pathText parts.path := String.toList_ofList
    rwa [htext] at hpath
  have hnamed : row.Named ↔ NamedBySegment (urlOf parts) := by
    constructor
    · intro h
      exact h href _ hhref hresolved
    · rintro h href' resolved' hhref' hresolved'
      rw [hhref] at hhref'
      cases hhref'
      rw [hresolved] at hresolved'
      cases hresolved'
      exact h
  rw [hnamed, ← urlReplayId_eq_segmentId_iff hparts hstarts, ← hid]
  constructor
  · rintro ⟨found, hfound, _, _, hsame⟩
    rw [hparse] at hfound
    cases hfound
    exact hsame
  · intro hsame
    exact ⟨_, hparse, horigin, hpath, hsame⟩

variable {row other}

/-- An id determines its segment. -/
theorem segmentId_injective {url url' : Url} {id : String} (h : segmentId url = some id)
    (h' : segmentId url' = some id) : replaySegment url = replaySegment url' := by
  rw [segmentId_eq] at h h'
  split at h
  · cases h
  · split at h'
    · cases h'
    · rw [← h', Option.some.injEq, String.ofList_inj] at h
      exact h

/-- Rows that are identified share an id only if their links have one segment. -/
theorem noSharedId_of_identified (h : row.Identified) (h' : other.Identified) :
    row.NoSharedId other := by
  obtain ⟨found, hfound, _, _, hid⟩ := h
  obtain ⟨found', hfound', _, _, hid'⟩ := h'
  intro resolved resolved' hparse hparse' hne id hshared
  rw [hfound] at hparse
  cases hparse
  rw [hfound'] at hparse'
  cases hparse'
  exact hne (segmentId_injective (hid ▸ hshared.1) (hid' ▸ hshared.2))

/-- **Exactly when rows are identified by their links**, so that different segments give different
    ids: when each link resolves to a URL that is named by its segment. -/
theorem rows_identified_iff (std : parser.Standard hosts) (row other : LinkedRow parser) :
    (row.Identified ∧ other.Identified ∧ row.NoSharedId other) ↔ row.Named ∧ other.Named := by
  rw [identified_iff row std, identified_iff other std]
  constructor
  · rintro ⟨h, h', _⟩
    exact ⟨h, h'⟩
  · rintro ⟨h, h'⟩
    exact ⟨h, h', noSharedId_of_identified ((identified_iff row std).2 h)
      ((identified_iff other std).2 h')⟩

end LinkedRow

/-! ## A flaw -/

/-- A row with one link. -/
def linkRow (href : String) : String := "<td><a href=\"" ++ href ++ "\">x</a></td>"

/-- A source whose host is `replays`. -/
def bareRow : LinkedRow standardParser where
  sourceText := "http://replays/"
  sourceUrl := { protocol := "http:", host := "replays", pathname := "/" }
  parse_source := by decide +kernel
  http := Or.inl rfl
  rowHtml := linkRow "/replays/5"
  page := 1
  url := "http://replays/replays/5"
  has_url := by decide +kernel

/-- A row of a source with another name. -/
def rowAt (path : String)
    (h : (parseReplayRow standardParser (linkRow path) 1
      { protocol := "https:", host := "h", pathname := "/" }).source.url = some ("https://h" ++ path)) :
    LinkedRow standardParser where
  sourceText := "https://h/"
  sourceUrl := { protocol := "https:", host := "h", pathname := "/" }
  parse_source := by decide +kernel
  http := Or.inr rfl
  rowHtml := linkRow path
  page := 1
  url := "https://h" ++ path
  has_url := h

/-- A link with an empty segment, and a second `/replays/`. -/
def emptyRow : LinkedRow standardParser := rowAt "/replays//replays/5" (by decide +kernel)

/-- A row of replay 5. -/
def fifthRow : LinkedRow standardParser := rowAt "/replays/5" (by decide +kernel)

/-- A row of replay 6, with a query. -/
def sixthRow : LinkedRow standardParser := rowAt "/replays/6?x=1" (by decide +kernel)

/-- **The flaw**: the id is the path's first segment, or one of a later `/replays/`. -/
theorem rows_not_identified : ¬ bareRow.Identified ∧ ¬ emptyRow.Identified := by
  constructor
  · rw [LinkedRow.identified_iff bareRow standardParser_standard]
    intro hnamed
    have h := hnamed "/replays/5"
      { protocol := "http:", host := "replays", pathname := "/replays/5" }
      (by decide +kernel) (by decide +kernel)
    exact absurd (h.1 rfl) (by decide)
  · rw [LinkedRow.identified_iff emptyRow standardParser_standard]
    intro hnamed
    have h := hnamed "/replays//replays/5"
      { protocol := "https:", host := "h", pathname := "/replays//replays/5" }
      (by decide +kernel) (by decide +kernel)
    exact absurd (h.2 rfl [] "/replays/".toList '5' [] rfl rfl) (by decide)

/-- The first one is named. -/
theorem named_fifthRow : fifthRow.Named := by
  intro href resolved hhref hresolved
  have hlink : rowHref fifthRow.rowHtml = some "/replays/5" := by decide +kernel
  rw [hlink] at hhref
  cases hhref
  have hurl : standardParser.resolve "/replays/5" fifthRow.sourceUrl =
      some { protocol := "https:", host := "h", pathname := "/replays/5" } := by decide +kernel
  rw [hurl] at hresolved
  cases hresolved
  exact ⟨fun hbare => absurd hbare (by unfold BareReplays; decide), fun hnil => absurd hnil (by decide)⟩

/-- So is the second one. -/
theorem named_sixthRow : sixthRow.Named := by
  intro href resolved hhref hresolved
  have hlink : rowHref sixthRow.rowHtml = some "/replays/6?x=1" := by decide +kernel
  rw [hlink] at hhref
  cases hhref
  have hurl : standardParser.resolve "/replays/6?x=1" sixthRow.sourceUrl =
      some { protocol := "https:", host := "h", pathname := "/replays/6", search := "?x=1" } := by
    decide +kernel
  rw [hurl] at hresolved
  cases hresolved
  exact ⟨fun hbare => absurd hbare (by unfold BareReplays; decide), fun hnil => absurd hnil (by decide)⟩

theorem rows_identified_iff_fifth_sixth :
    fifthRow.Identified ∧ sixthRow.Identified ∧ fifthRow.NoSharedId sixthRow :=
  (LinkedRow.rows_identified_iff standardParser_standard fifthRow sixthRow).2
    ⟨named_fifthRow, named_sixthRow⟩

end ReplaysFetcher.RowLinks
