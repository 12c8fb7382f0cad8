/-
  Where a replay's bytes are requested (`toRawReplayUrl` of `src/discovery/discover-candidate.ts`,
  and the `new URL` of `src/storage/store-raw-replay.ts`).

  The filename is encoded as ONE segment under `/data/`, the URL is written as a text, every `%2F`
  in that text is written as `/`, and the text is parsed again.

  1. **The text** (`toRawReplayUrl_eq`).  The encoded filename falls apart at its slashes.  So does
     the detail URL's user information, where it has `%2F`.
  2. **The request** (`parse_toRawReplayUrl`).  The piece before the first slash is now the
     authority, and `.` and `..` among the others are resolved.
  3. **The condition** (`requests_confined_iff`).  Without `%2F` in the user information it is one of
     the filename alone, met by every filename without dot components (`staysInside_of_noDots`,
     `requestPath_injective`).
-/
import ReplaysFetcher.WebUrls
import ReplaysFetcher.Entities

namespace ReplaysFetcher.RawUrls

open HttpUrl (Parts Hosts Scheme isSlash walk)
open PercentCode
open Substitution (substitute substitute_separator substitute_skip)

/-! ## The encoded filename -/

/-- The filename with its suffix. -/
def jsonName (filename : String) : String :=
  if ".json".toList.isSuffixOf filename.toList then filename else filename ++ ".json"

/-- The characters that `encodeURIComponent` escapes. -/
def componentChars (c : Char) : Bool := !isUriUnreserved c

/-- The bytes from the `i`th on come after those that were collected. -/
theorem byteArray_loop (bytes : ByteArray) (i : ℕ) (collected : List UInt8) :
    ByteArray.toList.loop bytes i collected =
      collected.reverse ++ bytes.data.toList.drop i := by
  fun_induction ByteArray.toList.loop bytes i collected with
  | case1 i collected hlt ih =>
    have hlength : i < bytes.data.toList.length := hlt
    have hbyte : bytes.get! i = bytes.data.toList.get ⟨i, hlength⟩ := getElem!_pos bytes.data i hlt
    rw [ih, hbyte, List.reverse_cons, List.append_assoc, List.drop_eq_getElem_cons hlength]
    rfl
  | case2 i collected hge =>
    have hdrop : bytes.data.toList.drop i = [] := List.drop_eq_nil_of_le (Nat.le_of_not_lt hge)
    rw [hdrop, List.append_nil]

/-- The bytes of one character. -/
theorem toList_toUTF8_singleton (c : Char) :
    (String.singleton c).toUTF8.toList = String.utf8EncodeChar c := by
  rw [String.toUTF8_eq_toByteArray, String.toByteArray_singleton, List.utf8Encode_singleton]
  unfold ByteArray.toList
  rw [byteArray_loop, List.reverse_nil, List.nil_append, List.drop_zero,
    List.toList_data_toByteArray]

/-- It is percent-encoding, with its own set. -/
theorem encodeURIComponent_eq (text : String) :
    encodeURIComponent text = String.ofList (encode componentChars text.toList) := by
  unfold encodeURIComponent encode
  refine congrArg (fun f => String.ofList (text.toList.flatMap f)) ?_
  funext c
  unfold code componentChars
  rw [toList_toUTF8_singleton]
  cases isUriUnreserved c with
  | true => rfl
  | false => rfl

/-- What is left alone is kept by the path's encoding as well, and is no separator. -/
theorem unreserved_plain {c : Char} (h : isUriUnreserved c = true) :
    HttpUrl.pathChars c = false ∧ isSlash c = false ∧ c ≠ '%' := by
  have hlt : c.toNat < 128 := by
    unfold isUriUnreserved at h
    rw [Bool.or_eq_true, decide_eq_true_iff] at h
    rcases h with h | h
    · exact isNameChar_lt (by unfold isNameChar; rw [h]; rfl)
    · have hall : ∀ d ∈ ['-', '_', '.', '!', '~', '*', '\'', '(', ')'], d.toNat < 128 := by decide
      exact hall c h
  exact forall_ascii (P := fun c => isUriUnreserved c = true →
    HttpUrl.pathChars c = false ∧ isSlash c = false ∧ c ≠ '%') (by decide) hlt h

/-- What is encoded is kept by the path's encoding, and has no slash. -/
theorem encodeComponent_plain (text : List Char) :
    ∀ c ∈ encode componentChars text, HttpUrl.pathChars c = false ∧ isSlash c = false := by
  have hescapes : ∀ c ∈ escapeChars, HttpUrl.pathChars c = false ∧ isSlash c = false := by decide
  intro c hc
  rcases mem_encode hc with hescape | ⟨_, hplain⟩
  · exact hescapes c hescape
  · have hunreserved : isUriUnreserved c = true := by
      unfold componentChars at hplain
      simpa using hplain
    exact ⟨(unreserved_plain hunreserved).1, (unreserved_plain hunreserved).2.1⟩

/-- The components of a filename, between its slashes. -/
def components (filename : String) : List (List Char) :=
  (jsonName filename).toList.splitOnP fun c => c = '/'

/-- Written with slashes, the encoded filename falls apart into its encoded components. -/
theorem splitOnP_encode_sparing (text : List Char) :
    (encode (sparing componentChars '/') text).splitOnP isSlash =
      (text.splitOnP fun c => c = '/').map (encode componentChars) := by
  induction text with
  | nil => rfl
  | cons c text ih =>
    obtain ⟨first, others, hsplit⟩ :=
      List.exists_cons_of_ne_nil (List.splitOnP_ne_nil (fun c => decide (c = '/')) text)
    rw [encode_cons, List.splitOnP_cons_eq_if_modifyHead]
    by_cases hc : c = '/'
    · subst hc
      have hcode : code (sparing componentChars '/') '/' = ['/'] :=
        code_of_not_escapes (by decide)
      rw [hcode, if_pos (show decide ('/' = '/') = true from rfl), List.map_cons, ← ih]
      show ('/' :: encode _ text).splitOnP isSlash = _
      rw [List.splitOnP_cons_eq_if_modifyHead, if_pos (show isSlash '/' = true from rfl)]
      rfl
    · have hcode : code (sparing componentChars '/') c = code componentChars c := by
        unfold code sparing
        simp [hc]
      have hblock : ∀ d ∈ code componentChars c, isSlash d = false := by
        intro d hd
        refine (encodeComponent_plain [c] d ?_).2
        rw [encode_cons, encode_nil, List.append_nil]
        exact hd
      rw [hcode, HttpUrl.splitOnP_append_block hblock, ih, if_neg (by simpa using hc), hsplit]
      rfl

/-- The text with `%2F` written as a slash. -/
def slashesBack (text : List Char) : List Char := substitute "%2F".toList ['/'] text

/-- Then slashes are spared from the encoding. -/
theorem slashesBack_encode (text : List Char) :
    slashesBack (encode componentChars text) = encode (sparing componentChars '/') text :=
  substitute_encode (x := '/') (by decide) (by decide) (by decide)

/-- A part without escapes stays. -/
theorem slashesBack_append {text : List Char} (h : '%' ∉ text) (rest : List Char) :
    slashesBack (text ++ rest) = text ++ slashesBack rest := substitute_skip h

/-- Nothing to write. -/
@[simp] theorem slashesBack_nil : slashesBack [] = [] := Substitution.substitute_nil

/-- A text without escapes stays as it is. -/
theorem slashesBack_self {text : List Char} (h : '%' ∉ text) : slashesBack text = text := by
  have hskip := slashesBack_append h []
  rwa [slashesBack_nil, List.append_nil] at hskip

/-- A separator keeps its two sides apart. -/
theorem slashesBack_separator {separator : Char} (h : separator ∉ ['%', '2', 'F'])
    (before after : List Char) : slashesBack (before ++ separator :: after) =
      slashesBack before ++ separator :: slashesBack after :=
  substitute_separator (by decide) h before after

/-- The replacement of the source is this one. -/
theorem replaceAllText_slashes (value : String) :
    replaceAllText "%2F" "/" value = String.ofList (slashesBack value.toList) :=
  Entities.replaceAllText_eq (by decide) "/" value

/-! ## The suffix -/

/-- The name ends in the suffix, its own or an added one. -/
theorem jsonName_suffix (filename : String) :
    ∃ stem, (jsonName filename).toList = stem ++ ".json".toList := by
  unfold jsonName
  split
  · rename_i hsuffix
    obtain ⟨stem, hstem⟩ := List.isSuffixOf_iff_suffix.1 hsuffix
    exact ⟨stem, hstem.symm⟩
  · exact ⟨filename.toList, String.toList_append⟩

/-- What ends in `n` is no dot segment, and not `data`. -/
theorem not_dot_of_last (front : List Char) :
    HttpUrl.isSingleDot (front ++ ['n']) = false ∧ HttpUrl.isDoubleDot (front ++ ['n']) = false ∧
      front ++ ['n'] ≠ "data".toList := by
  have hlast : ∀ texts : List (List Char), (∀ text ∈ texts, text.getLast? ≠ some 'n') →
      (front ++ ['n']).map Char.toLower ∉ texts := by
    intro texts htexts hmem
    refine htexts _ hmem ?_
    rw [List.map_append]
    exact List.getLast?_concat
  refine ⟨decide_eq_false (hlast _ (by decide)), decide_eq_false (hlast _ (by decide)), ?_⟩
  intro heq
  have hgetLast := congrArg List.getLast? heq
  rw [List.getLast?_concat] at hgetLast
  exact absurd hgetLast (by decide)

/-- The last component of a filename has the suffix. -/
theorem exists_last_component (filename : String) :
    ∃ front last, (components filename).map (encode componentChars) = front ++ [last ++ ['n']] := by
  obtain ⟨stem, hstem⟩ := jsonName_suffix filename
  have hblock : ∀ c ∈ ".json".toList, decide (c = '/') = false := by decide
  obtain ⟨front, last, hsplit⟩ := HttpUrl.splitOnP_append_last _ hblock stem
  refine ⟨front.map (encode componentChars), encode componentChars last ++ ".jso".toList, ?_⟩
  have hsuffix : encode componentChars ".json".toList = ".jso".toList ++ ['n'] := by rfl
  unfold components
  rw [hstem, hsplit, List.map_append, List.map_singleton, encode_append, hsuffix,
    List.append_assoc]

/-! ## The text -/

variable {Text : Type} {pf : Platform Text} {parser : PageParser pf} {hosts : Hosts}

/-- The first segment of a raw replay's path. -/
def dataSegment : List Char := "data".toList

/-- It is a segment. -/
theorem isSegment_data : HttpUrl.IsSegment dataSegment :=
  ⟨by unfold PercentSet.Encoded dataSegment; decide, by unfold dataSegment; decide, rfl, rfl⟩

/-- An encoded name with the suffix is one segment. -/
theorem isSegment_encoded (stem : List Char) :
    HttpUrl.IsSegment (encode componentChars (stem ++ ".json".toList)) := by
  have htext : encode componentChars (stem ++ ".json".toList) =
      encode componentChars stem ++ ".jso".toList ++ ['n'] := by
    rw [encode_append, List.append_assoc]
    rfl
  have hdots := not_dot_of_last (encode componentChars stem ++ ".jso".toList)
  rw [← htext] at hdots
  exact ⟨fun c hc => (encodeComponent_plain _ c hc).1, fun c hc => (encodeComponent_plain _ c hc).2,
    hdots.1, hdots.2.1⟩

/-- A segment has nothing that ends a path, and only printable characters. -/
theorem segment_mem {segment : List Char} (h : PercentSet.Encoded HttpUrl.pathSet segment) :
    ∀ c ∈ segment, 0x20 < c.toNat ∧ HttpUrl.isPathEnd c = false := by
  intro c hc
  have hnot : c ∉ ['?', '#'] := h.not_mem hc (by decide)
  rw [List.mem_pair, not_or] at hnot
  refine ⟨(h.printable c hc).1, ?_⟩
  unfold HttpUrl.isPathEnd
  rw [decide_eq_false hnot.1, decide_eq_false hnot.2]
  rfl

/-- The URL that a segment is put into. -/
def dataParts (parts : Parts) (segment : List Char) : Parts :=
  { parts with path := [dataSegment, segment], query := none, fragment := none }

/-- The URL under `/data/` is well formed. -/
theorem dataParts_wellFormed {parts : Parts} (h : parts.WellFormed hosts) {segment : List Char}
    (hsegment : HttpUrl.IsSegment segment) : (dataParts parts segment).WellFormed hosts :=
  { username := h.username, password := h.password, host := h.host, port := h.port
    path_ne_nil := List.cons_ne_nil _ _
    path := by
      intro s hs
      rcases List.mem_pair.1 hs with rfl | rfl
      · exact isSegment_data
      · exact hsegment
    query := fun _ hnone => absurd hnone (by simp [dataParts])
    fragment := fun _ hnone => absurd hnone (by simp [dataParts]) }

/-- A segment is put under `/data/`. -/
theorem read_dataPath (parts : Parts) {name : List Char} (hname : HttpUrl.IsSegment name) :
    HttpUrl.read hosts (some parts) ("/data/".toList ++ name) = .url (dataParts parts name) := by
  have hmem := segment_mem hname.encoded
  have hdata : ∀ c ∈ "/data/".toList, 0x20 < c.toNat ∧ HttpUrl.isPathEnd c = false := by decide
  have hprintable : ∀ c ∈ "/data/".toList ++ name, 0x20 < c.toNat := by
    intro c hc
    rcases List.mem_append.1 hc with hc | hc
    · exact (hdata c hc).1
    · exact (hmem c hc).1
  have hend : ∀ c ∈ dataSegment ++ '/' :: name, HttpUrl.isPathEnd c = false := by
    intro c hc
    rcases List.mem_append.1 (show c ∈ "data/".toList ++ name from hc) with hc | hc
    · exact (hdata c (List.mem_cons_of_mem _ hc)).2
    · exact (hmem c hc).2
  have hsplit : (dataSegment ++ '/' :: name).splitOnP isSlash = [dataSegment, name] := by
    rw [List.splitOnP_append_cons_of_forall_mem isSegment_data.no_slash '/' rfl,
      List.splitOnP_eq_singleton hname.no_slash]
  have hsegments : ∀ segment ∈ [dataSegment, name], HttpUrl.IsSegment segment := by
    intro segment hsegment
    rcases List.mem_pair.1 hsegment with rfl | rfl
    · exact isSegment_data
    · exact hname
  have hwalk : walk [] ([dataSegment, name].map (encode HttpUrl.pathSet.escapes)) =
      [dataSegment, name] := by
    rw [List.map_congr_left fun s hs => (hsegments s hs).encoded.encode_eq, List.map_id',
      HttpUrl.walk_of_isSegment hsegments, List.nil_append]
  have hrelative : HttpUrl.readRelative hosts parts ("/data/".toList ++ name) =
      .url (HttpUrl.readPath parts [] (dataSegment ++ '/' :: name)) := rfl
  have hscheme : HttpUrl.schemeOf ("/data/".toList ++ name) = none := rfl
  unfold HttpUrl.read
  rw [HttpUrl.clean_of_printable hprintable, hscheme]
  simp only
  rw [hrelative, HttpUrl.readPath_plain hend, hsplit, hwalk]
  rfl

/-- Its text: the server's, and the two segments. -/
theorem serialize_dataParts (parts : Parts) (segment : List Char) :
    HttpUrl.serialize (dataParts parts segment) = (parts.scheme.text ++ "://".toList) ++
      ((HttpUrl.credentialsText parts ++ HttpUrl.hostText parts) ++
        '/' :: (dataSegment ++ '/' :: segment)) := by
  unfold HttpUrl.serialize dataParts
  simp [HttpUrl.pathText, HttpUrl.queryText, HttpUrl.fragmentText, HttpUrl.credentialsText,
    HttpUrl.hostText]

/-- The user information and the host, as they come to stand in the text. -/
def rewrittenServer (detail : Url) : List Char :=
  slashesBack ((userinfoText detail).toList ++ detail.host.toList)

/-- The rewritten server is the server's text with its slashes back. -/
theorem rewrittenServer_urlOf (parts : Parts) : rewrittenServer (urlOf parts) =
    slashesBack (HttpUrl.credentialsText parts ++ HttpUrl.hostText parts) := by
  unfold rewrittenServer
  rw [userinfoText_urlOf]
  simp only [urlOf, String.toList_ofList]

/-- **The text**: the encoded filename has its slashes back, and so has the user information. -/
theorem toRawReplayUrl_eq (std : parser.Standard hosts) {parts : Parts}
    (h : parts.WellFormed hosts) (filename : String) :
    toRawReplayUrl parser filename (urlOf parts) = String.ofList
      (parts.scheme.text ++ "://".toList ++ (rewrittenServer (urlOf parts) ++ '/' :: (dataSegment ++
        '/' :: encode (sparing componentChars '/') (jsonName filename).toList))) := by
  obtain ⟨stem, hstem⟩ := jsonName_suffix filename
  have hsegment := isSegment_encoded stem
  rw [← hstem] at hsegment
  have hpath : ("/data/" ++ encodeURIComponent (jsonName filename)).toList =
      "/data/".toList ++ encode componentChars (jsonName filename).toList := by
    rw [encodeURIComponent_eq, String.toList_append]
    exact congrArg _ String.toList_ofList
  have hresolve : parser.resolvePath ("/data/" ++ encodeURIComponent (jsonName filename))
      (urlOf parts) = urlOf (dataParts parts (encode componentChars (jsonName filename).toList)) := by
    refine std.resolvePath _ parts _ h ?_
    rw [hpath]
    exact read_dataPath parts hsegment
  have hscheme : '%' ∉ parts.scheme.text ++ "://".toList := by
    cases parts.scheme <;> decide
  have hdata : '%' ∉ dataSegment := by
    unfold dataSegment
    decide
  show replaceAllText "%2F" "/" (pf.urlToString (parser.resolvePath
    ("/data/" ++ encodeURIComponent (jsonName filename)) (urlOf parts))) = _
  rw [hresolve, std.urlToString _ (dataParts_wellFormed h hsegment), serialize_dataParts,
    replaceAllText_slashes, String.toList_ofList, slashesBack_append hscheme,
    slashesBack_separator (by decide), slashesBack_separator (by decide), slashesBack_self hdata,
    slashesBack_encode, rewrittenServer_urlOf]

/-! ## The request -/

/-- The pieces of the rewritten user information and host; slashes before them are passed over. -/
def serverPieces (detail : Url) : List (List Char) :=
  ((rewrittenServer detail).dropWhile isSlash).splitOnP isSlash

/-- The piece that stands for the authority. -/
def requestServer (detail : Url) : List Char := (serverPieces detail).headD []

/-- The path that is requested: what is left of the user information and the host, `data`, and the
    components of the filename, with `.` and `..` resolved. -/
def requestPath (detail : Url) (filename : String) : List (List Char) :=
  walk [] (((serverPieces detail).tail ++ dataSegment ::
    (components filename).map (encode componentChars)).map (encode HttpUrl.pathSet.escapes))

/-- A host has no escapes. -/
theorem rewrittenServer_eq {parts : Parts} (h : parts.WellFormed hosts) :
    rewrittenServer (urlOf parts) =
      slashesBack (HttpUrl.credentialsText parts) ++ HttpUrl.hostText parts := by
  have hhost : '%' ∉ HttpUrl.hostText parts := fun hmem =>
    (HttpUrl.hostText_mem h.toServerFormed hmem).2 (by decide)
  rw [rewrittenServer_urlOf]
  unfold HttpUrl.credentialsText
  split
  · rw [List.nil_append, slashesBack_self hhost, slashesBack_nil, List.nil_append]
  · -- the at sign separates the host
    rw [← List.append_assoc, List.append_assoc _ ['@'], List.singleton_append,
      slashesBack_separator (by decide), slashesBack_self hhost,
      slashesBack_separator (by decide), slashesBack_nil, List.append_assoc, List.singleton_append]

/-- It has no mark of a query or of a fragment. -/
theorem rewrittenServer_mem {parts : Parts} (h : parts.WellFormed hosts) :
    ∀ c ∈ rewrittenServer (urlOf parts), 0x20 < c.toNat ∧ HttpUrl.isPathEnd c = false := by
  intro c hc
  rw [rewrittenServer_urlOf] at hc
  rcases Substitution.mem_of_mem_substitute (by decide) hc with hc | hc
  · have hserialize : c ∈ HttpUrl.serialize parts := by
      unfold HttpUrl.serialize
      rcases List.mem_append.1 hc with hc | hc <;> simp [hc]
    have hend : HttpUrl.isAuthorityEnd c = false := by
      rcases List.mem_append.1 hc with hc | hc
      · exact HttpUrl.credentialsText_mem h.toServerFormed hc
      · exact HttpUrl.hostText_no_end h.toServerFormed hc
    exact ⟨HttpUrl.serialize_printable h c hserialize, (Bool.or_eq_false_iff.1 hend).2⟩
  · rw [List.mem_singleton.1 hc]
    decide

/-- There is something left to parse as an authority. -/
theorem exists_serverPieces {parts : Parts} (h : parts.WellFormed hosts) :
    ∃ first others, serverPieces (urlOf parts) = first :: others ∧ first ≠ [] := by
  have hne := HttpUrl.hostText_ne_nil h.toServerFormed
  cases hrest : (rewrittenServer (urlOf parts)).dropWhile isSlash with
  | nil =>
    -- the host is no slash
    obtain ⟨c, host, hhost⟩ := List.exists_cons_of_ne_nil hne
    have hall := List.dropWhile_eq_nil_iff.1 hrest c (by
      rw [rewrittenServer_eq h, hhost]
      simp)
    have hend := HttpUrl.hostText_no_end (c := c) h.toServerFormed (by rw [hhost]; simp)
    rw [(Bool.or_eq_false_iff.1 hend).1] at hall
    cases hall
  | cons c rest =>
    have hc : isSlash c = false := by
      have hhead := List.head?_dropWhile_not isSlash (rewrittenServer (urlOf parts))
      rw [hrest] at hhead
      simpa using hhead
    obtain ⟨first, others, hsplit⟩ :=
      List.exists_cons_of_ne_nil (List.splitOnP_ne_nil isSlash rest)
    refine ⟨c :: first, others, ?_, List.cons_ne_nil _ _⟩
    unfold serverPieces
    rw [hrest, List.splitOnP_cons_eq_if_modifyHead, hc, hsplit]
    rfl

/-- The encoded filename is kept by the path's encoding, with its slashes too. -/
theorem encoded_sparing (text : List Char) :
    PercentSet.Encoded HttpUrl.pathSet (encode (sparing componentChars '/') text) := by
  have hescapes : ∀ c ∈ escapeChars, HttpUrl.pathChars c = false := by decide
  intro c hc
  rcases mem_encode hc with hescape | ⟨_, hplain⟩
  · exact hescapes c hescape
  · unfold sparing componentChars at hplain
    by_cases hslash : c = '/'
    · rw [hslash]
      rfl
    · simp only [hslash, ne_eq, not_false_iff, decide_true, Bool.and_true,
        Bool.not_eq_false'] at hplain
      exact (unreserved_plain hplain).1

/-- What follows the user information and the host in the text. -/
def dataTail (filename : String) : List Char :=
  '/' :: (dataSegment ++ '/' :: encode (sparing componentChars '/') (jsonName filename).toList)

/-- It has no mark of a query or of a fragment. -/
theorem dataTail_mem (filename : String) :
    ∀ c ∈ dataTail filename, 0x20 < c.toNat ∧ HttpUrl.isPathEnd c = false := by
  intro c hc
  unfold dataTail at hc
  rcases List.mem_cons.1 hc with rfl | hc
  · decide
  · rcases List.mem_append.1 hc with hc | hc
    · exact segment_mem isSegment_data.encoded c hc
    · rcases List.mem_cons.1 hc with rfl | hc
      · decide
      · exact segment_mem (encoded_sparing _) c hc

/-- The text falls apart into the server's pieces, the data segment and the components. -/
theorem splitOnP_dataTail (text : List Char) (filename : String) :
    (text ++ dataTail filename).splitOnP isSlash = text.splitOnP isSlash ++
      dataSegment :: (components filename).map (encode componentChars) := by
  unfold dataTail components
  rw [List.splitOnP_append_cons text _ (show isSlash '/' = true from rfl),
    List.splitOnP_append_cons_of_forall_mem isSegment_data.no_slash '/' rfl,
    splitOnP_encode_sparing]

/-- **The request** is parsed from the piece that stands for the authority, and the others. -/
theorem parse_toRawReplayUrl (std : parser.Standard hosts) {parts : Parts}
    (h : parts.WellFormed hosts) (filename : String) :
    pf.parseUrl (toRawReplayUrl parser filename (urlOf parts)) =
      (HttpUrl.parseAuthority hosts parts.scheme (requestServer (urlOf parts))).map fun base =>
        urlOf { base with path := requestPath (urlOf parts) filename
                          query := none, fragment := none } := by
  obtain ⟨first, others, hpieces, hfirst⟩ := exists_serverPieces h
  have hserver : requestServer (urlOf parts) = first := by
    unfold requestServer
    rw [hpieces]
    rfl
  have hscheme : ∀ c ∈ parts.scheme.text ++ "://".toList, 0x20 < c.toNat := by
    cases parts.scheme <;> decide
  have hmem : ∀ c ∈ rewrittenServer (urlOf parts) ++ dataTail filename,
      0x20 < c.toNat ∧ HttpUrl.isPathEnd c = false := by
    intro c hc
    rcases List.mem_append.1 hc with hc | hc
    · exact rewrittenServer_mem h c hc
    · exact dataTail_mem filename c hc
  have hprintable : ∀ c ∈ parts.scheme.text ++ "://".toList ++
      (rewrittenServer (urlOf parts) ++ dataTail filename), 0x20 < c.toNat := by
    intro c hc
    rcases List.mem_append.1 hc with hc | hc
    · exact hscheme c hc
    · exact (hmem c hc).1
  -- the slashes before the first piece are passed over
  have hsplit : "//".toList ++ (rewrittenServer (urlOf parts) ++ dataTail filename) =
      ("//".toList ++ (rewrittenServer (urlOf parts)).takeWhile isSlash) ++
        ((rewrittenServer (urlOf parts)).dropWhile isSlash ++ dataTail filename) := by
    conv_lhs => rw [← List.takeWhile_append_dropWhile (p := isSlash)
      (l := rewrittenServer (urlOf parts))]
    simp only [List.append_assoc]
  have hslashes : ∀ c ∈ "//".toList ++ (rewrittenServer (urlOf parts)).takeWhile isSlash,
      isSlash c = true := by
    have htwo : ∀ c ∈ "//".toList, isSlash c = true := by decide
    intro c hc
    rcases List.mem_append.1 hc with hc | hc
    · exact htwo c hc
    · exact List.mem_takeWhile_imp hc
  have htext : ((rewrittenServer (urlOf parts)).dropWhile isSlash ++
      dataTail filename).splitOnP isSlash = first :: (others ++ dataSegment ::
        (components filename).map (encode componentChars)) := by
    rw [splitOnP_dataTail]
    show serverPieces (urlOf parts) ++ _ = _
    rw [hpieces]
    rfl
  have hend : ∀ c ∈ (rewrittenServer (urlOf parts)).dropWhile isSlash ++ dataTail filename,
      HttpUrl.isPathEnd c = false := by
    intro c hc
    refine (hmem c ?_).2
    rcases List.mem_append.1 hc with hc | hc
    · exact List.mem_append_left _ ((List.dropWhile_suffix isSlash).subset hc)
    · exact List.mem_append_right _ hc
  have hpath : requestPath (urlOf parts) filename = walk [] ((others ++ dataSegment ::
      (components filename).map (encode componentChars)).map
        (encode HttpUrl.pathSet.escapes)) := by
    unfold requestPath
    rw [hpieces]
    rfl
  rw [toRawReplayUrl_eq std h]
  show pf.parseUrl (String.ofList (parts.scheme.text ++ "://".toList ++
    (rewrittenServer (urlOf parts) ++ dataTail filename))) = _
  rw [std.parse_absolute parts.scheme rfl hprintable, hsplit,
    HttpUrl.readAuthority_pieces parts.scheme hslashes htext (by simp) hfirst hend,
    Option.map_map, hserver, hpath]
  rfl

/-! ## The condition -/

/-- The request has the detail URL's origin and a path under `/data/`. -/
def Confined (parser : PageParser pf) (detail : Url) (filename : String) : Prop :=
  ∃ request, pf.parseUrl (toRawReplayUrl parser filename detail) = some request ∧
    request.origin = detail.origin ∧ "/data/".toList <+: request.pathname.toList

/-- The piece that stands for the authority has the detail URL's host and port. -/
def SameServer (hosts : Hosts) (detail : Url) : Prop :=
  ∃ (scheme : Scheme) (parts : Parts), detail.protocol = String.ofList (scheme.text ++ [':']) ∧
    HttpUrl.parseAuthority hosts scheme (requestServer detail) = some parts ∧
    String.ofList (HttpUrl.hostText parts) = detail.host

/-- **The condition**: the authority is still the same, and the path begins with `data` when `.` and
    `..` are resolved. -/
def StaysInside (hosts : Hosts) (detail : Url) (filename : String) : Prop :=
  SameServer hosts detail ∧ (requestPath detail filename).head? = some dataSegment

/-- What is requested has well-formed segments. -/
theorem requestPath_isSegment (detail : Url) (filename : String) :
    ∀ segment ∈ requestPath detail filename, HttpUrl.IsSegment segment := by
  refine HttpUrl.walk_isSegment (by simp) fun s hs => ?_
  obtain ⟨piece, hpiece, rfl⟩ := List.mem_map.1 hs
  refine ⟨PercentSet.encoded_encode _, HttpUrl.encode_no_slash ?_⟩
  rcases List.mem_append.1 hpiece with hpiece | hpiece
  · exact HttpUrl.mem_of_mem_splitOnP (List.mem_of_mem_tail hpiece)
  · rcases List.mem_cons.1 hpiece with rfl | hpiece
    · exact isSegment_data.no_slash
    · obtain ⟨component, _, rfl⟩ := List.mem_map.1 hpiece
      exact fun c hc => (encodeComponent_plain _ c hc).2

/-- The last segment is the filename's, which is not `data`. -/
theorem requestPath_last (detail : Url) (filename : String) :
    ∃ front last, requestPath detail filename = front ++ [last] ∧ last ≠ dataSegment := by
  obtain ⟨front, last, hlast⟩ := exists_last_component filename
  have hencode : encode HttpUrl.pathSet.escapes (last ++ ['n']) =
      encode HttpUrl.pathSet.escapes last ++ ['n'] := by
    rw [encode_append]
    rfl
  have hdots := not_dot_of_last (encode HttpUrl.pathSet.escapes last)
  rw [← hencode] at hdots
  obtain ⟨before, hwalk⟩ := HttpUrl.walk_append_last []
    (((serverPieces detail).tail ++ dataSegment :: front).map (encode HttpUrl.pathSet.escapes))
    hdots.1 hdots.2.1
  refine ⟨before, _, ?_, hdots.2.2⟩
  rw [← hwalk]
  unfold requestPath
  rw [hlast]
  simp

/-- A path lies under `/data/` when that is its first segment. -/
theorem under_data_iff (detail : Url) (filename : String) :
    "/data/".toList <+: HttpUrl.pathText (requestPath detail filename) ↔
      (requestPath detail filename).head? = some dataSegment := by
  have hslash : ∀ s ∈ requestPath detail filename, '/' ∉ s := by
    intro s hs hmem
    have hno := (requestPath_isSegment detail filename s hs).no_slash '/' hmem
    cases hno
  have hdata : '/' ∉ dataSegment := by
    unfold dataSegment
    decide
  have hunder := HttpUrl.under_pathText_iff hdata hslash
  rw [show "/data/".toList = '/' :: (dataSegment ++ ['/']) from rfl, hunder]
  constructor
  · rintro ⟨next, more, hpath⟩
    rw [hpath]
    rfl
  · intro hhead
    obtain ⟨front, last, hlast, hne⟩ := requestPath_last detail filename
    cases hpath : requestPath detail filename with
    | nil =>
      rw [hpath] at hhead
      cases hhead
    | cons first others =>
      rw [hpath] at hhead hlast
      obtain rfl := Option.some.inj hhead
      cases others with
      | cons next more => exact ⟨next, more, rfl⟩
      | nil =>
        -- the only segment would be the filename's
        have hgetLast := congrArg List.getLast? hlast
        rw [List.getLast?_concat, List.getLast?_singleton] at hgetLast
        exact absurd (Option.some.inj hgetLast).symm hne

/-- The protocol tells the scheme. -/
theorem urlOf_protocol_injective {scheme scheme' : Scheme}
    (h : String.ofList (scheme.text ++ [':']) = String.ofList (scheme'.text ++ [':'])) :
    scheme = scheme' := by
  have htext := String.ofList_inj.1 h
  cases scheme <;> cases scheme' <;> first | rfl | exact absurd htext (by decide)

/-- The request, when there is one. -/
theorem sameServer_iff {parts : Parts} : SameServer hosts (urlOf parts) ↔
    ∃ base, HttpUrl.parseAuthority hosts parts.scheme (requestServer (urlOf parts)) = some base ∧
      String.ofList (HttpUrl.hostText base) = (urlOf parts).host := by
  constructor
  · rintro ⟨scheme, base, hprotocol, hbase, hhost⟩
    obtain rfl := urlOf_protocol_injective hprotocol
    exact ⟨base, hbase, hhost⟩
  · rintro ⟨base, hbase, hhost⟩
    exact ⟨parts.scheme, base, rfl, hbase, hhost⟩

/-- Two URLs of a scheme have one origin when they have one host text. -/
theorem origin_eq_iff {base parts : Parts} {path : List (List Char)}
    {query fragment : Option (List Char)} (h : base.scheme = parts.scheme) :
    (urlOf { base with path, query, fragment }).origin = (urlOf parts).origin ↔
      String.ofList (HttpUrl.hostText base) = (urlOf parts).host := by
  have hhost : (urlOf { base with path, query, fragment }).host =
      String.ofList (HttpUrl.hostText base) := rfl
  have hprotocol : (urlOf { base with path, query, fragment }).protocol =
      (urlOf parts).protocol := by
    show String.ofList (base.scheme.text ++ [':']) = String.ofList (parts.scheme.text ++ [':'])
    rw [h]
  rw [origin_of_isHttp (urlOf_isHttp _), origin_of_isHttp (urlOf_isHttp _), hprotocol, hhost]
  constructor
  · intro heq
    have hlist := congrArg String.toList heq
    simp only [String.toList_append] at hlist
    exact String.toList_inj.1 (List.append_cancel_left hlist)
  · intro heq
    rw [heq]

/-- **A request is confined exactly when it stays inside.** -/
theorem confined_iff (std : parser.Standard hosts) {parts : Parts} (h : parts.WellFormed hosts)
    (filename : String) :
    Confined parser (urlOf parts) filename ↔ StaysInside hosts (urlOf parts) filename := by
  unfold Confined StaysInside
  rw [parse_toRawReplayUrl std h, sameServer_iff, ← under_data_iff]
  constructor
  · rintro ⟨request, hrequest, horigin, hpath⟩
    obtain ⟨base, hbase, rfl⟩ := Option.map_eq_some_iff.1 hrequest
    rw [origin_eq_iff (HttpUrl.parseAuthority_scheme hbase)] at horigin
    refine ⟨⟨base, hbase, horigin⟩, ?_⟩
    have htext : (String.ofList (HttpUrl.pathText (requestPath (urlOf parts) filename))).toList =
      HttpUrl.pathText (requestPath (urlOf parts) filename) := String.toList_ofList
    rw [← htext]
    exact hpath
  · rintro ⟨⟨base, hbase, hhost⟩, hpath⟩
    rw [hbase]
    refine ⟨_, rfl, (origin_eq_iff (HttpUrl.parseAuthority_scheme hbase)).2 hhost, ?_⟩
    have htext : (String.ofList (HttpUrl.pathText (requestPath (urlOf parts) filename))).toList =
      HttpUrl.pathText (requestPath (urlOf parts) filename) := String.toList_ofList
    rw [← htext] at hpath
    exact hpath

/-- Requests from one detail URL differ exactly in their paths. -/
theorem request_eq_iff (std : parser.Standard hosts) {parts : Parts} (h : parts.WellFormed hosts)
    (hserver : SameServer hosts (urlOf parts)) (filename filename' : String) :
    pf.parseUrl (toRawReplayUrl parser filename (urlOf parts)) =
        pf.parseUrl (toRawReplayUrl parser filename' (urlOf parts)) ↔
      requestPath (urlOf parts) filename = requestPath (urlOf parts) filename' := by
  obtain ⟨base, hbase, _⟩ := sameServer_iff.1 hserver
  have hne : ∀ name, requestPath (urlOf parts) name ≠ [] := by
    intro name hnil
    obtain ⟨front, last, hlast, _⟩ := requestPath_last (urlOf parts) name
    rw [hnil] at hlast
    simp at hlast
  rw [parse_toRawReplayUrl std h, parse_toRawReplayUrl std h, hbase, Option.map_some,
    Option.map_some, Option.some.injEq]
  constructor
  · intro heq
    have hpath := String.ofList_inj.1 (congrArg Url.pathname heq)
    exact HttpUrl.pathText_injective (hne filename) (hne filename')
      (fun s hs => (requestPath_isSegment _ _ s hs).no_slash)
      (fun s hs => (requestPath_isSegment _ _ s hs).no_slash) hpath
  · intro heq
    rw [heq]

/-! ## Ordinary requests -/

/-- Without `%2F` in the user information, the authority is all that comes before the path. -/
theorem serverPieces_of_plain {parts : Parts} (h : parts.WellFormed hosts)
    (hplain : ¬ "%2F".toList <:+: HttpUrl.credentialsText parts) :
    serverPieces (urlOf parts) = [HttpUrl.credentialsText parts ++ HttpUrl.hostText parts] := by
  have hno : ∀ c ∈ HttpUrl.credentialsText parts ++ HttpUrl.hostText parts, isSlash c = false := by
    intro c hc
    rcases List.mem_append.1 hc with hc | hc
    · exact (Bool.or_eq_false_iff.1 (HttpUrl.credentialsText_mem h.toServerFormed hc)).1
    · exact (Bool.or_eq_false_iff.1 (HttpUrl.hostText_no_end h.toServerFormed hc)).1
  have hsame : slashesBack (HttpUrl.credentialsText parts) = HttpUrl.credentialsText parts :=
    Substitution.substitute_of_not_has hplain
  have hdrop : (HttpUrl.credentialsText parts ++ HttpUrl.hostText parts).dropWhile isSlash =
      HttpUrl.credentialsText parts ++ HttpUrl.hostText parts := by
    refine HttpUrl.dropWhile_stop (p := isSlash) (fun c hc => absurd hc List.not_mem_nil)
      fun c hc => hno c (List.mem_of_mem_head? hc)
  unfold serverPieces
  rw [rewrittenServer_eq h, hsame, hdrop, List.splitOnP_eq_singleton hno]

/-- Without an encoded slash in the credentials the server stays the same. -/
theorem sameServer_of_plain {parts : Parts} (h : parts.WellFormed hosts)
    (hplain : ¬ "%2F".toList <:+: HttpUrl.credentialsText parts) :
    SameServer hosts (urlOf parts) := by
  refine sameServer_iff.2 ⟨parts.server, ?_, rfl⟩
  unfold requestServer
  rw [serverPieces_of_plain h hplain]
  exact HttpUrl.parseAuthority_text h.toServerFormed

/-- And the path is that of the filename. -/
theorem requestPath_of_plain {parts : Parts} (h : parts.WellFormed hosts)
    (hplain : ¬ "%2F".toList <:+: HttpUrl.credentialsText parts) (filename : String) :
    requestPath (urlOf parts) filename =
      walk [] ((dataSegment :: (components filename).map (encode componentChars)).map
        (encode HttpUrl.pathSet.escapes)) := by
  unfold requestPath
  rw [serverPieces_of_plain h hplain]
  rfl

/-- The code of a character that is escaped begins with an escape of one of its bytes. -/
theorem code_escaped {c : Char} (h : componentChars c = true) : ∃ byte rest,
    byte ∈ String.utf8EncodeChar c ∧ code componentChars c = escape byte ++ rest := by
  obtain ⟨byte, bytes, hbytes⟩ := List.exists_cons_of_ne_nil (@String.utf8EncodeChar_ne_nil c)
  refine ⟨byte, bytes.flatMap escape, by simp [hbytes], ?_⟩
  rw [code_of_escapes h, hbytes, List.flatMap_cons]

/-- An encoded text begins with a dot only if the text does. -/
theorem encode_dot {text rest : List Char}
    (h : (encode componentChars text).map Char.toLower = '.' :: rest) :
    ∃ more, text = '.' :: more ∧ (encode componentChars more).map Char.toLower = rest := by
  cases text with
  | nil => cases h
  | cons c more =>
    rw [encode_cons] at h
    cases hescaped : componentChars c with
    | true =>
      obtain ⟨byte, tail, _, hcode⟩ := code_escaped hescaped
      rw [hcode] at h
      exact absurd (List.cons_eq_cons.1 h).1 (by decide)
    | false =>
      rw [code_of_not_escapes hescaped] at h
      obtain ⟨hc, hmore⟩ := List.cons_eq_cons.1 h
      rw [eq_of_toLower hc (by decide)]
      exact ⟨more, rfl, hmore⟩

/-- An encoded text does not begin with an escaped dot. -/
theorem encode_escapedDot {text rest : List Char} :
    (encode componentChars text).map Char.toLower ≠ '%' :: '2' :: 'e' :: rest := by
  intro h
  cases text with
  | nil => cases h
  | cons c more =>
    rw [encode_cons] at h
    cases hescaped : componentChars c with
    | true =>
      obtain ⟨byte, tail, hbyte, hcode⟩ := code_escaped hescaped
      obtain ⟨hhigh, hlow⟩ := digits_lt byte
      rw [hcode] at h
      obtain ⟨hdigit, hrest⟩ := List.cons_eq_cons.1 (List.cons_eq_cons.1 h).2
      have htwo : ∀ n < 16, (hexChar n).toLower = '2' → n = 2 := by decide
      have hfourteen : ∀ n < 16, (hexChar n).toLower = 'e' → n = 14 := by decide
      have hhi := htwo _ hhigh hdigit
      have hlo := hfourteen _ hlow (List.cons_eq_cons.1 hrest).1
      -- the byte is the dot, which is not escaped
      have hdot : byte = UInt8.ofNat '.'.toNat := by
        rw [← UInt8.toNat_inj]
        show byte.toNat = 46
        omega
      rw [hdot] at hbyte
      rw [eq_of_mem_utf8 (by decide) hbyte] at hescaped
      exact absurd hescaped (by decide)
    | false =>
      rw [code_of_not_escapes hescaped] at h
      rw [eq_of_toLower (List.cons_eq_cons.1 h).1 (by decide)] at hescaped
      exact absurd hescaped (by decide)

/-- A component that is no dot component is no dot segment when it is encoded. -/
theorem isSegment_component {component : List Char} (hsingle : component ≠ ".".toList)
    (hdouble : component ≠ "..".toList) :
    HttpUrl.IsSegment (encode componentChars component) := by
  have hnil : ∀ {more : List Char}, (encode componentChars more).map Char.toLower = [] →
      more = [] := fun hmap => encode_eq_nil_iff.1 (List.map_eq_nil_iff.1 hmap)
  refine ⟨fun c hc => (encodeComponent_plain _ c hc).1,
    fun c hc => (encodeComponent_plain _ c hc).2, ?_, ?_⟩
  · refine decide_eq_false fun hmem => ?_
    rcases List.mem_pair.1 hmem with hdot | hdot
    · obtain ⟨more, rfl, hmore⟩ := encode_dot hdot
      rw [hnil hmore] at hsingle
      exact hsingle rfl
    · exact encode_escapedDot hdot
  · refine decide_eq_false fun hmem => ?_
    simp only [List.mem_cons, List.not_mem_nil, or_false] at hmem
    rcases hmem with hdot | hdot | hdot | hdot
    · obtain ⟨more, rfl, hmore⟩ := encode_dot hdot
      obtain ⟨last, rfl, hlast⟩ := encode_dot hmore
      rw [hnil hlast] at hdouble
      exact hdouble rfl
    · obtain ⟨more, rfl, hmore⟩ := encode_dot hdot
      exact encode_escapedDot hmore
    · exact encode_escapedDot hdot
    · exact encode_escapedDot hdot

/-- A filename without dot components. -/
def NoDots (filename : String) : Prop :=
  ∀ component ∈ components filename, component ≠ ".".toList ∧ component ≠ "..".toList

/-- Without dot segments nothing of it is resolved away. -/
theorem requestPath_of_noDots {parts : Parts} (h : parts.WellFormed hosts)
    (hplain : ¬ "%2F".toList <:+: HttpUrl.credentialsText parts) {filename : String}
    (hdots : NoDots filename) : requestPath (urlOf parts) filename =
      dataSegment :: (components filename).map (encode componentChars) := by
  have hsegments : ∀ s ∈ dataSegment :: (components filename).map (encode componentChars),
      HttpUrl.IsSegment s := by
    intro s hs
    rcases List.mem_cons.1 hs with rfl | hs
    · exact isSegment_data
    · obtain ⟨component, hcomponent, rfl⟩ := List.mem_map.1 hs
      exact isSegment_component (hdots component hcomponent).1 (hdots component hcomponent).2
  rw [requestPath_of_plain h hplain,
    List.map_congr_left fun s hs => (hsegments s hs).encoded.encode_eq, List.map_id',
    HttpUrl.walk_of_isSegment hsegments, List.nil_append]

/-- **Ordinary filenames stay under `/data/`.** -/
theorem staysInside_of_noDots {parts : Parts} (h : parts.WellFormed hosts)
    (hplain : ¬ "%2F".toList <:+: HttpUrl.credentialsText parts) {filename : String}
    (hdots : NoDots filename) : StaysInside hosts (urlOf parts) filename := by
  refine ⟨sameServer_of_plain h hplain, ?_⟩
  rw [requestPath_of_noDots h hplain hdots]
  rfl

/-- **Ordinary filenames are requested apart.** -/
theorem requestPath_injective {parts : Parts} (h : parts.WellFormed hosts)
    (hplain : ¬ "%2F".toList <:+: HttpUrl.credentialsText parts) {filename filename' : String}
    (hdots : NoDots filename) (hdots' : NoDots filename')
    (heq : requestPath (urlOf parts) filename = requestPath (urlOf parts) filename') :
    jsonName filename = jsonName filename' := by
  rw [requestPath_of_noDots h hplain hdots, requestPath_of_noDots h hplain hdots'] at heq
  have hcomponents : components filename = components filename' :=
    List.map_injective_iff.2 (encode_injective (by decide)) (List.cons_eq_cons.1 heq).2
  have hjoin : ∀ name, ['/'].intercalate (components name) = (jsonName name).toList :=
    fun name => List.intercalate_splitOn '/'
  rw [← String.toList_inj, ← hjoin, ← hjoin, hcomponents]

/-! ## The condition is exact -/

/-- **Exactly when requests are confined and distinct.** -/
theorem requests_confined_iff (std : parser.Standard hosts) {text : String} {detail : Url}
    (hdetail : pf.parseUrl text = some detail) (hhttp : detail.IsHttp)
    (filename filename' : String) :
    (Confined parser detail filename ∧ Confined parser detail filename' ∧
      (jsonName filename ≠ jsonName filename' →
        pf.parseUrl (toRawReplayUrl parser filename detail) ≠
          pf.parseUrl (toRawReplayUrl parser filename' detail))) ↔
    (StaysInside hosts detail filename ∧ StaysInside hosts detail filename' ∧
      (jsonName filename ≠ jsonName filename' →
        requestPath detail filename ≠ requestPath detail filename')) := by
  obtain ⟨parts, h, rfl⟩ := std.exists_parts hdetail hhttp
  rw [confined_iff std h, confined_iff std h]
  refine and_congr_right fun hinside => and_congr_right fun _ => ?_
  rw [ne_eq, ne_eq, ne_eq, request_eq_iff std h hinside.1]

/-! ## Requests of one page, and a flaw -/

/-- `https://h/replays/5`, with a user name. -/
def detailParts (username : List Char) : Parts :=
  { scheme := .https, username, password := [], host := ['h'], port := none
    path := ["replays".toList, "5".toList], query := none, fragment := none }

/-- The user name that is a host and an escaped slash. -/
def evilName : List Char := "evil.com%2F".toList

/-- Two detail URLs, the second with a host in its user name. -/
theorem read_detail :
    HttpUrl.read nameHosts none "https://h/replays/5".toList = .url (detailParts []) ∧
    HttpUrl.read nameHosts none "https://evil.com%2F@h/replays/5".toList =
      .url (detailParts evilName) := by
  constructor <;> decide +kernel

/-- The first one is well formed. -/
theorem detailParts_wellFormed : (detailParts []).WellFormed nameHosts :=
  HttpUrl.read_wellFormed (fun _ hnone => absurd hnone (by simp)) read_detail.1

/-- So is the second one. -/
theorem evilParts_wellFormed : (detailParts evilName).WellFormed nameHosts :=
  HttpUrl.read_wellFormed (fun _ hnone => absurd hnone (by simp)) read_detail.2

/-- The first one has no user information. -/
theorem detailParts_plain : ¬ "%2F".toList <:+: HttpUrl.credentialsText (detailParts []) := by
  decide

/-- On it, two ordinary names are confined and told apart. -/
theorem requests_confined_iff_ordinary :
    Confined standardParser (urlOf (detailParts [])) "a.json" ∧
    Confined standardParser (urlOf (detailParts [])) "b/c" ∧
      (jsonName "a.json" ≠ jsonName "b/c" →
        standardPlatform.parseUrl (toRawReplayUrl standardParser "a.json" (urlOf (detailParts []))) ≠
          standardPlatform.parseUrl
            (toRawReplayUrl standardParser "b/c" (urlOf (detailParts [])))) := by
  have hparse : standardPlatform.parseUrl "https://h/replays/5" = some (urlOf (detailParts [])) := by
    rw [standardPlatform_parseUrl]
    unfold parseHttpUrl
    rw [read_detail.1]
    rfl
  have hdots : NoDots "a.json" := by
    unfold NoDots
    decide +kernel
  have hdots' : NoDots "b/c" := by
    unfold NoDots
    decide +kernel
  exact (requests_confined_iff standardParser_standard hparse (urlOf_isHttp _) "a.json" "b/c").2
    ⟨staysInside_of_noDots detailParts_wellFormed detailParts_plain hdots,
      staysInside_of_noDots detailParts_wellFormed detailParts_plain hdots',
      fun hne heq => hne (requestPath_injective detailParts_wellFormed detailParts_plain hdots hdots'
        heq)⟩

/-- The authority of the request is the user name's. -/
theorem requestServer_evil : requestServer (urlOf (detailParts evilName)) = "evil.com".toList := by
  have hrewritten : slashesBack (HttpUrl.credentialsText (detailParts evilName)) =
      "evil.com/@".toList := by
    have htext : HttpUrl.credentialsText (detailParts evilName) =
        "evil.com".toList ++ ("%2F".toList ++ ['@']) := rfl
    have hslash : slashesBack ("%2F".toList ++ ['@']) = ['/'] ++ slashesBack ['@'] :=
      Substitution.substitute_append (by decide) _
    rw [htext, slashesBack_append (by decide), hslash, slashesBack_self (by decide)]
    rfl
  unfold requestServer serverPieces
  rw [rewrittenServer_eq evilParts_wellFormed, hrewritten]
  rfl

/-- **The flaw**, three times: `..` leaves `/data/`, a user name becomes the host, and `.` makes two
    filenames one. -/
theorem requests_not_confined :
    ¬ Confined standardParser (urlOf (detailParts [])) "../x.json" ∧
    ¬ Confined standardParser (urlOf (detailParts evilName)) "x.json" ∧
    (jsonName "./x.json" ≠ jsonName "x.json" ∧
      standardPlatform.parseUrl (toRawReplayUrl standardParser "./x.json" (urlOf (detailParts []))) =
        standardPlatform.parseUrl
          (toRawReplayUrl standardParser "x.json" (urlOf (detailParts [])))) := by
  refine ⟨?_, ?_, ?_, ?_⟩
  · rw [confined_iff standardParser_standard detailParts_wellFormed]
    rintro ⟨_, hhead⟩
    rw [requestPath_of_plain detailParts_wellFormed detailParts_plain] at hhead
    exact absurd hhead (by decide +kernel)
  · rw [confined_iff standardParser_standard evilParts_wellFormed]
    rintro ⟨hserver, _⟩
    obtain ⟨base, hbase, hhost⟩ := sameServer_iff.1 hserver
    rw [requestServer_evil] at hbase
    cases hbase
    exact absurd hhost (by decide +kernel)
  · decide +kernel
  · rw [request_eq_iff standardParser_standard detailParts_wellFormed
      (sameServer_of_plain detailParts_wellFormed detailParts_plain),
      requestPath_of_plain detailParts_wellFormed detailParts_plain,
      requestPath_of_plain detailParts_wellFormed detailParts_plain]
    decide +kernel

end ReplaysFetcher.RawUrls
