/-
  Watch dedup, over many cycles.

  A candidate whose staging has ended should cost the source nothing any more: later cycles that
  list it read neither its detail page nor its bytes.  Both gates look for a row under the source
  identity (system, external id); a staging may end by way of the OTHER unique key, (checksum,
  object key), and then there need not be such a row.

  * What a cycle reads is the list page, and after it only what it reads for some candidate
    (`CycleReads`).  From a world with a row under the source identity, nothing is read for that
    candidate (`safe_cycle_spares`): the row makes both gates say yes, and nobody deletes it.
  * A staging that ends has sent an INSERT that PostgreSQL decided (`insert_of_settled`), and such
    an INSERT leaves a row under the source identity exactly when no OTHER row holds the object
    identity before it (`sourceRow_of_insert`).  So under that condition the cycles converge
    (`watch_dedup_converges_when`).
  * Without it they do not: a second replay with the same bytes is `already_staged` for ever, and
    downloaded in every cycle (`watch_dedup_refetches`).
-/
import ReplaysFetcher.DedupGates
import ReplaysFetcher.Watch
import ReplaysFetcher.Wiring

namespace ReplaysFetcher

open Effectful

variable {Text : Type}

/-! ## What a cycle reads -/

/-- A request to the source. -/
def isSourceRead : Effect Text → Bool
  | .fetchText _ | .fetchBytes _ => true
  | _ => false

def sourceReads (conversation : Conversation Text) : Conversation Text :=
  conversation.filter fun exchange => isSourceRead exchange.1

section Listing

variable {pf : Platform Text} (reader : SourceReader pf) (sourceUrl : Url)

/-- The list page of a cycle. -/
def watchPageUrl (pf : Platform Text) (sourceUrl : Url) : Url := pf.toPageUrl sourceUrl WATCH_PAGE

/-- An HTML row of the list page, when this is what the source answered. -/
def ListsRow (list : Except JsError String) (row : ReplayRow) : Prop :=
  ∃ text, list = .ok text ∧
    row ∈ reader.extractReplayRows text WATCH_PAGE (watchPageUrl pf sourceUrl)

/-- A candidate of the list page: of its fixture, or what some detail page makes of one of its
    rows. -/
def ListsCandidate (list : Except JsError String) (candidate : ReplayCandidate) : Prop :=
  (∃ text fixture, list = .ok text ∧ reader.parseSourceFixture text = some fixture ∧
    candidate ∈ (collectFixtureCandidates pf fixture (watchPageUrl pf sourceUrl)).candidates) ∨
  ∃ row link detailUrl detail, ListsRow reader sourceUrl list row ∧
    rowCandidate reader.toHtmlReader row link detailUrl detail = some candidate

/-- The request is no source read, or it reads the detail page of a listed row, or the bytes of a
    listed candidate, with ANOTHER external id. -/
def SparesId (externalId : String) (list : Except JsError String) : Effect Text → Prop
  | .fetchText url => ∃ row link, ListsRow reader sourceUrl list row ∧
    row.source.externalId ≠ some externalId ∧ row.source.url = some link ∧
    newUrl pf link = .ok url
  | .fetchBytes url => ∃ candidate, ListsCandidate reader sourceUrl list candidate ∧
    candidate.source.externalId ≠ some externalId ∧ bytesUrl pf candidate = .ok url
  | _ => True

/-- **What a converged cycle reads**: nothing yet, or the list page and, after it, only what it reads
    for candidates with other external ids. -/
inductive CycleReads (externalId : String) : Conversation Text → Prop
  | unread : CycleReads externalId []
  | listed (list : Except JsError String) (reads : Conversation Text)
      (h : ∀ exchange ∈ reads, SparesId reader sourceUrl externalId list exchange.1) :
      CycleReads externalId (⟨.fetchText (watchPageUrl pf sourceUrl), list⟩ :: reads)

end Listing

/-- There is a row under the source identity. -/
def SourceRow (externalId : String) (w : World Text) : Prop :=
  ∃ row ∈ w.staging, row.sourceSystem = defaultSourceSystem ∧ row.sourceReplayId = externalId

theorem sourceRow_iff {externalId : String} {w : World Text} :
    SourceRow externalId w ↔ (w.rowBySource? defaultSourceSystem externalId).isSome = true := by
  unfold World.rowBySource? SourceRow
  rw [List.isSome_find?, List.any_eq_true]
  simp only [Bool.and_eq_true, decide_eq_true_eq]

theorem SourceRow.kept {externalId : String} {w w' : World Text} (h : SourceRow externalId w)
    (hkept : RowsKept w w') : SourceRow externalId w' := by
  obtain ⟨row, hmem, hrow⟩ := h
  exact ⟨row, hkept row hmem, hrow⟩

theorem rowsKept_step {b : Backend Text} {w w' : World Text} {e : Effect Text} {r : Reply e}
    (h : b.Step w e r w') : RowsKept w w' :=
  fun _ hmem => (Backend.staging_prefix h).subset hmem

/-- What others do meanwhile: anything, but nobody deletes a row. -/
def OthersAct (w w' : RecordedWorld Unit Text) : Prop := w'.2 = w.2 ∧ RowsKept w.1 w'.1

/-! ## One cycle, from a world with the row -/

section Cycle

variable {pf : Platform Text} (reader : SourceReader pf) (sourceUrl : Url) (externalId : String)
  (start : List (FetchEvent Text))

/-- The source reads since `start`. -/
def ReadsSince (start : List (FetchEvent Text)) (w : RecordedWorld Unit Text)
    (reads : Conversation Text) : Prop :=
  ∃ more, w.2 () = start ++ more ∧ sourceReads (conversation more) = reads

/-- The invariant of the cycle: the row is there, and the reads so far are as they should be. -/
def Spares (w : RecordedWorld Unit Text) : Prop :=
  SourceRow externalId w.1 ∧
    ∃ reads, ReadsSince start w reads ∧ CycleReads reader sourceUrl externalId reads

/-- Before the list page is read. -/
def Unread (externalId : String) (start : List (FetchEvent Text)) (w : RecordedWorld Unit Text) :
    Prop :=
  SourceRow externalId w.1 ∧ ReadsSince start w []

/-- After the list page was read and answered with `list`. -/
def ListRead (list : Except JsError String) (w : RecordedWorld Unit Text) : Prop :=
  SourceRow externalId w.1 ∧ ∃ reads,
    ReadsSince start w (⟨.fetchText (watchPageUrl pf sourceUrl), list⟩ :: reads) ∧
      ∀ exchange ∈ reads, SparesId reader sourceUrl externalId list exchange.1

/-- A step that keeps the invariant and only adds to the record. -/
def Keeps (w w' : RecordedWorld Unit Text) : Prop :=
  (Spares reader sourceUrl externalId start w → Spares reader sourceUrl externalId start w') ∧
    ∃ more, w'.2 () = w.2 () ++ more

variable {reader sourceUrl externalId start} {b : Backend Text} {list : Except JsError String}
  {w w' : RecordedWorld Unit Text}

theorem ReadsSince.unique {reads reads' : Conversation Text} (h : ReadsSince start w reads)
    (h' : ReadsSince start w reads') : reads = reads' := by
  obtain ⟨more, hmore, rfl⟩ := h
  obtain ⟨more', hmore', rfl⟩ := h'
  rw [hmore] at hmore'
  rw [List.append_cancel_left hmore']

/-- The reads since `start` after more events. -/
theorem ReadsSince.append {reads : Conversation Text} {more : List (FetchEvent Text)}
    (h : ReadsSince start w reads) (hmore : w'.2 () = w.2 () ++ more) :
    ReadsSince start w' (reads ++ sourceReads (conversation more)) := by
  obtain ⟨before, hbefore, rfl⟩ := h
  refine ⟨before ++ more, by rw [hmore, hbefore, List.append_assoc], ?_⟩
  unfold sourceReads
  rw [conversation_append, List.filter_append]

theorem ReadsSince.step {reads : Conversation Text} {e : Effect Text} {r : Reply e}
    (h : ReadsSince start w reads) (hstep : b.Step.recorded () w e r w') :
    ReadsSince start w' (reads ++ if isSourceRead e then [⟨e, r⟩] else []) := by
  have happend := h.append (Env.recorded_self hstep)
  have hread : sourceReads (conversation [⟨w.1, e, r, w'.1⟩]) =
      if isSourceRead e then [⟨e, r⟩] else [] := by
    unfold sourceReads conversation
    cases hread : isSourceRead e <;> simp [hread]
  rwa [hread] at happend

theorem Unread.spares (h : Unread externalId start w) :
    Spares reader sourceUrl externalId start w := ⟨h.1, [], h.2, .unread⟩

theorem ListRead.spares (h : ListRead reader sourceUrl externalId start list w) :
    Spares reader sourceUrl externalId start w := by
  obtain ⟨hrow, reads, hreads, hspares⟩ := h
  exact ⟨hrow, _, hreads, .listed list reads hspares⟩

theorem Keeps.refl (w : RecordedWorld Unit Text) : Keeps reader sourceUrl externalId start w w :=
  ⟨id, [], (List.append_nil _).symm⟩

/-- The answer of the list page stays what it was. -/
theorem ListRead.keeps (h : ListRead reader sourceUrl externalId start list w)
    (hkeeps : Keeps reader sourceUrl externalId start w w') :
    ListRead reader sourceUrl externalId start list w' := by
  obtain ⟨hrow', reads', hreads', hcycle⟩ := hkeeps.1 h.spares
  obtain ⟨more, hmore⟩ := hkeeps.2
  obtain ⟨hrow, reads, hreads, hspares⟩ := h
  have heq := (hreads.append hmore).unique hreads'
  cases hcycle with
  | unread => cases heq
  | listed list' reads'' hspares' =>
    rw [List.cons_append, List.cons.injEq, Sigma.mk.injEq] at heq
    obtain ⟨⟨_, hlist⟩, _⟩ := heq
    obtain rfl := eq_of_heq hlist
    exact ⟨hrow', reads'', hreads', hspares'⟩

/-- Others only act on the world. -/
theorem OthersAct.readsSince {reads : Conversation Text} (h : OthersAct w w')
    (hreads : ReadsSince start w reads) : ReadsSince start w' reads := by
  obtain ⟨more, hmore, rfl⟩ := hreads
  exact ⟨more, by rw [h.1, hmore], rfl⟩

theorem OthersAct.unread (h : OthersAct w w') (hunread : Unread externalId start w) :
    Unread externalId start w' :=
  ⟨hunread.1.kept h.2, h.readsSince hunread.2⟩

theorem OthersAct.keeps (h : OthersAct w w') : Keeps reader sourceUrl externalId start w w' := by
  refine ⟨?_, [], by rw [h.1, List.append_nil]⟩
  rintro ⟨hrow, reads, hreads, hcycle⟩
  exact ⟨hrow.kept h.2, reads, h.readsSince hreads, hcycle⟩

/-- A request that is no source read. -/
theorem keeps_of_request {e : Effect Text} {r : Reply e} (he : isSourceRead e = false)
    (h : b.Step.recorded () w e r w') :
    Keeps reader sourceUrl externalId start w w' ∧
      (Unread externalId start w → Unread externalId start w') := by
  have hrows : RowsKept w.1 w'.1 := rowsKept_step h.1
  have hsame : ∀ reads, ReadsSince start w reads → ReadsSince start w' reads := by
    intro reads hreads
    have hstep := hreads.step h
    rwa [he, if_neg Bool.false_ne_true, List.append_nil] at hstep
  refine ⟨⟨?_, _, Env.recorded_self h⟩, fun hunread => ⟨hunread.1.kept hrows, hsame _ hunread.2⟩⟩
  rintro ⟨hrow, reads, hreads, hcycle⟩
  exact ⟨hrow.kept hrows, reads, hsame reads hreads, hcycle⟩

/-- A source read for somebody else. -/
theorem keeps_of_read {e : Effect Text} {r : Reply e}
    (he : SparesId reader sourceUrl externalId list e)
    (hlisted : ListRead reader sourceUrl externalId start list w)
    (h : b.Step.recorded () w e r w') :
    Keeps reader sourceUrl externalId start w w' ∧
      ListRead reader sourceUrl externalId start list w' := by
  have hnext : ListRead reader sourceUrl externalId start list w' := by
    obtain ⟨hrow, reads, hreads, hspares⟩ := hlisted
    refine ⟨hrow.kept (rowsKept_step h.1), _, hreads.step h, fun exchange hmem => ?_⟩
    rcases List.mem_append.1 hmem with hmem | hmem
    · exact hspares exchange hmem
    · split at hmem
      · rw [List.mem_singleton.1 hmem]
        exact he
      · cases hmem
  exact ⟨⟨fun _ => hnext.spares, _, Env.recorded_self h⟩, hnext⟩

/-- The list page is read. -/
theorem keeps_of_list (hunread : Unread externalId start w)
    (h : b.Step.recorded () w (.fetchText (watchPageUrl pf sourceUrl)) list w') :
    Keeps reader sourceUrl externalId start w w' ∧
      ListRead reader sourceUrl externalId start list w' := by
  have hnext : ListRead reader sourceUrl externalId start list w' :=
    ⟨hunread.1.kept (rowsKept_step h.1), [], hunread.2.step h,
      fun _ hmem => absurd hmem List.not_mem_nil⟩
  exact ⟨⟨fun _ => hnext.spares, _, Env.recorded_self h⟩, hnext⟩

/-! ### Its parts

  Once the list page is read, every part of the cycle runs under `Keeps` and keeps `ListRead`. -/

/-- Safety of a part of the cycle, after the list page. -/
abbrev SafePart {α : Type} (b : Backend Text) (reader : SourceReader pf) (sourceUrl : Url)
    (externalId : String) (start : List (FetchEvent Text)) (post : α → RecordedWorld Unit Text → Prop)
    (w : RecordedWorld Unit Text) (p : Program Text α) : Prop :=
  Proc.Safe (b.Step.recorded ()) (Keeps reader sourceUrl externalId start)
    (Keeps reader sourceUrl externalId start) post w p

variable (reader sourceUrl externalId start list) in
/-- A part has resolved with a value of which `fact` holds, or rejected; the list stays read. -/
def PartDone {α : Type} (fact : α → Prop) : Except JsError α → RecordedWorld Unit Text → Prop :=
  Async.Outcome (fun value w => ListRead reader sourceUrl externalId start list w ∧ fact value)
    fun _ w => ListRead reader sourceUrl externalId start list w

theorem partDone_stable {α : Type} {fact : α → Prop} (r : Except JsError α)
    (w w' : RecordedWorld Unit Text) (h : PartDone reader sourceUrl externalId start list fact r w)
    (hr : Keeps reader sourceUrl externalId start w w') :
    PartDone reader sourceUrl externalId start list fact r w' :=
  Async.outcome_stable (fun _ _ _ h hr => ⟨h.1.keeps hr, h.2⟩) (fun _ _ _ h hr => h.keeps hr) r w w' h
    hr

/-- A value that is there. -/
theorem safe_value {α : Type} {fact : α → Prop} {r : Except JsError α}
    (h : PartDone reader sourceUrl externalId start list fact r w) :
    SafePart b reader sourceUrl externalId start
      (PartDone reader sourceUrl externalId start list fact) w (Proc.pure r) :=
  Proc.safe_pure (partDone_stable r) h

/-- One part after another. -/
theorem safe_parts {α β : Type} (mid : α → Prop) {fact : β → Prop} {p : Task Text α}
    {f : α → Task Text β}
    (hp : SafePart b reader sourceUrl externalId start
      (PartDone reader sourceUrl externalId start list mid) w p)
    (hf : ∀ value w, ListRead reader sourceUrl externalId start list w → mid value →
      SafePart b reader sourceUrl externalId start
        (PartDone reader sourceUrl externalId start list fact) w (f value)) :
    SafePart b reader sourceUrl externalId start
      (PartDone reader sourceUrl externalId start list fact) w (p >>= f : Task Text β) :=
  Async.safe_bind (fun value w => ListRead reader sourceUrl externalId start list w ∧ mid value)
    (hp.imp fun r _ h => by cases r <;> exact h) fun value w h => hf value w h.1 h.2

/-- A part that reads nothing. -/
theorem safe_unreading {α : Type} {p : Program Text α}
    (hp : Proc.Asks (fun e => isSourceRead e = false) p)
    (h : ListRead reader sourceUrl externalId start list w) :
    SafePart b reader sourceUrl externalId start
      (fun _ w => ListRead reader sourceUrl externalId start list w) w p :=
  hp.quiet Keeps.refl
    (fun _ he _ _ _ hstep => ⟨(keeps_of_request he hstep).1, (keeps_of_request he hstep).1⟩)
    (ListRead reader sourceUrl externalId start list) (fun _ _ => ListRead.keeps) w h

/-- A source read for somebody else. -/
theorem safe_read {e : Effect Text} (he : SparesId reader sourceUrl externalId list e)
    (h : ListRead reader sourceUrl externalId start list w) :
    SafePart b reader sourceUrl externalId start
      (fun _ w => ListRead reader sourceUrl externalId start list w) w (Proc.perform e) := by
  refine Proc.safe_call (ListRead reader sourceUrl externalId start list)
    (fun _ _ => ListRead.keeps) (fun w h r w' hstep => ?_) h
  obtain ⟨hkeeps, hnext⟩ := keeps_of_read he h hstep
  exact ⟨hkeeps, Proc.safe_pure (fun _ _ => ListRead.keeps) hnext⟩

/-- The lookup of a gate says yes for the id whose row is there. -/
theorem safe_gate (id : String) (h : ListRead reader sourceUrl externalId start list w) :
    SafePart b reader sourceUrl externalId start
      (PartDone reader sourceUrl externalId start list fun found => id = externalId → found = true)
      w (existsBySourceIdentity defaultSourceSystem id) := by
  refine Proc.safe_call (ListRead reader sourceUrl externalId start list)
    (fun _ _ => ListRead.keeps) ?_ h
  intro w h r w' hstep
  have hkeeps : Keeps reader sourceUrl externalId start w w' := (keeps_of_request rfl hstep).1
  refine ⟨hkeeps, safe_value ?_⟩
  cases r with
  | error error => exact h.keeps hkeeps
  | ok found =>
    refine ⟨h.keeps hkeeps, ?_⟩
    rintro rfl
    rcases hstep.1.2 with hfound | ⟨_, _, _, hfound⟩
    · have hrow := sourceRow_iff.1 h.1
      rwa [← Except.ok.inj hfound] at hrow
    · cases hfound

/-- The pre-detail gate. -/
theorem safe_shouldSkipPreDetail (htrust : isTrustworthyId (some externalId) = true)
    (id : Option String) (h : ListRead reader sourceUrl externalId start list w) :
    SafePart b reader sourceUrl externalId start
      (PartDone reader sourceUrl externalId start list fun skip => id = some externalId → skip = true)
      w (shouldSkipPreDetail id (some existsBySourceIdentity) (some defaultSourceSystem)) := by
  unfold shouldSkipPreDetail
  cases id with
  | none => exact safe_value ⟨h, fun heq => by cases heq⟩
  | some id =>
    show SafePart _ _ _ _ _ _ _ (if isTrustworthyId (some id) = true then _ else _)
    by_cases hid : isTrustworthyId (some id) = true
    · rw [if_pos hid]
      refine (safe_gate id h).imp fun r w hr => ?_
      cases r with
      | error error => exact hr
      | ok found => exact ⟨hr.1, fun heq => hr.2 (Option.some.inj heq)⟩
    · rw [if_neg hid]
      refine safe_value ⟨h, ?_⟩
      rintro ⟨⟩
      exact absurd htrust hid

/-! ### Discovery -/

section Discovery

variable {options : DiscoverReplaysDryRunOptions (Effect Text) Reply}

/-- Discovery as the watcher calls it. -/
structure IsWatchOptions (options : DiscoverReplaysDryRunOptions (Effect Text) Reply)
    (sourceUrl : Url) : Prop where
  exists' : options.existsBySourceIdentity = some existsBySourceIdentity
  fetchText : ∀ url readOptions, options.fetchText url readOptions =
    Proc.perform (Effect.fetchText url)
  maxPages : options.maxPages = some WATCH_PAGE
  sleep : ∀ milliseconds, options.sleep milliseconds =
    Proc.perform (Effect.sleep milliseconds)
  sourceSystem : options.sourceSystem = some defaultSourceSystem
  sourceUrl : options.sourceUrl = sourceUrl

/-- A detail page, paced. -/
theorem safe_pacedFetchText (hoptions : IsWatchOptions options sourceUrl) {url : Url}
    (readOptions : SourceReadOptions) (hspares : SparesId reader sourceUrl externalId list (.fetchText url))
    (h : ListRead reader sourceUrl externalId start list w) :
    SafePart b reader sourceUrl externalId start
      (PartDone reader sourceUrl externalId start list fun _ => True) w
      (pacedFetchText options false url readOptions) := by
  have hfetch : ∀ w, ListRead reader sourceUrl externalId start list w →
      SafePart b reader sourceUrl externalId start
        (PartDone reader sourceUrl externalId start list fun _ => True) w
        (options.fetchText url readOptions) := by
    intro w h
    rw [hoptions.fetchText]
    refine (safe_read hspares h).imp fun r w hr => ?_
    cases r with
    | error error => exact hr
    | ok text => exact ⟨hr, trivial⟩
  unfold pacedFetchText
  dsimp only
  split
  · rw [hoptions.sleep]
    exact Async.safe_lift_bind _ (safe_unreading ⟨rfl, fun _ => trivial⟩ h) fun _ w h => hfetch w h
  · exact hfetch w h

variable (reader sourceUrl list) in
/-- Every candidate is listed. -/
def AllListed (candidates : List ReplayCandidate) : Prop :=
  ∀ candidate ∈ candidates, ListsCandidate reader sourceUrl list candidate

/-- One row. -/
theorem safe_discoverRow (htrust : isTrustworthyId (some externalId) = true)
    (hoptions : IsWatchOptions options sourceUrl) (text : String) {row : ReplayRow}
    (hrow : ListsRow reader sourceUrl list row) (acc : RowLoop)
    (hacc : AllListed reader sourceUrl list acc.candidates)
    (h : ListRead reader sourceUrl externalId start list w) :
    SafePart b reader sourceUrl externalId start
      (PartDone reader sourceUrl externalId start list fun acc =>
        AllListed reader sourceUrl list acc.candidates) w
      (discoverRow reader.toHtmlReader (discoverPageInput reader options WATCH_PAGE text) acc row) := by
  unfold discoverRow
  cases hlink : row.source.url with
  | none => exact safe_value ⟨h, hacc⟩
  | some link =>
    dsimp only
    rw [show (discoverPageInput reader options WATCH_PAGE text).existsBySourceIdentity =
        some existsBySourceIdentity from hoptions.exists',
      show (discoverPageInput reader options WATCH_PAGE text).sourceSystem =
        some defaultSourceSystem from hoptions.sourceSystem]
    refine safe_parts _ (safe_shouldSkipPreDetail htrust _ h) fun skip w h hskip => ?_
    cases skip with
    | true => exact safe_value ⟨h, hacc⟩
    | false =>
      -- the gate did not say yes, so this is another row
      have hother : row.source.externalId ≠ some externalId := fun heq => by cases hskip heq
      rw [if_neg Bool.false_ne_true]
      refine safe_parts (fun candidate => ∀ found, candidate = some found →
        ListsCandidate reader sourceUrl list found) ?_ fun candidate w h hcandidate => ?_
      · unfold discoverRowCandidate
        refine safe_parts (fun url => newUrl pf link = .ok url) (safe_value ?_)
          fun url w h hurl => ?_
        · cases hurl : newUrl pf link with
          | error error => exact h
          | ok url => exact ⟨h, rfl⟩
        · refine safe_parts _ (safe_pacedFetchText hoptions _ ⟨row, link, hrow, hother, hlink, hurl⟩ h)
            fun detail w h _ => safe_value ⟨h, fun found hfound => ?_⟩
          exact Or.inr ⟨row, link, url, detail, hrow, hfound⟩
      · refine safe_value ⟨h, ?_⟩
        cases candidate with
        | none => exact hacc
        | some candidate =>
          intro other hmem
          rcases List.mem_append.1 hmem with hmem | hmem
          · exact hacc other hmem
          · rw [List.mem_singleton.1 hmem]
            exact hcandidate candidate rfl

/-- The rows, one after the other. -/
theorem safe_discoverRows (htrust : isTrustworthyId (some externalId) = true)
    (hoptions : IsWatchOptions options sourceUrl) (text : String) (rows : List ReplayRow)
    (hrows : ∀ row ∈ rows, ListsRow reader sourceUrl list row) (acc : RowLoop)
    (hacc : AllListed reader sourceUrl list acc.candidates)
    (h : ListRead reader sourceUrl externalId start list w) :
    SafePart b reader sourceUrl externalId start
      (PartDone reader sourceUrl externalId start list fun acc =>
        AllListed reader sourceUrl list acc.candidates) w
      (discoverRows reader.toHtmlReader (discoverPageInput reader options WATCH_PAGE text) acc
        rows) := by
  induction rows generalizing acc w with
  | nil => exact safe_value ⟨h, hacc⟩
  | cons row rows ih =>
    unfold discoverRows
    refine safe_parts _ (safe_discoverRow htrust hoptions text (hrows row List.mem_cons_self) acc hacc h)
      fun acc w h hacc => ?_
    exact ih (fun other hmem => hrows other (List.mem_cons_of_mem row hmem)) acc hacc h

/-- The candidates of the page, once its text is there. -/
theorem safe_discoverPageCandidates (htrust : isTrustworthyId (some externalId) = true)
    (hoptions : IsWatchOptions options sourceUrl) {text : String} (hlist : list = .ok text)
    (h : ListRead reader sourceUrl externalId start list w) :
    SafePart b reader sourceUrl externalId start
      (PartDone reader sourceUrl externalId start list fun found =>
        AllListed reader sourceUrl list found.candidates) w
      (discoverPageCandidates reader.toHtmlReader (discoverPageInput reader options WATCH_PAGE text)) := by
  have hurl : pf.toPageUrl options.sourceUrl WATCH_PAGE = watchPageUrl pf sourceUrl := by
    rw [hoptions.sourceUrl]
    rfl
  unfold discoverPageCandidates
  cases hfixture : (discoverPageInput reader options WATCH_PAGE text).fixture with
  | some fixture =>
    refine safe_value ⟨h, fun candidate hmem => ?_⟩
    refine Or.inl ⟨text, fixture, hlist, hfixture, ?_⟩
    rw [← hurl]
    exact hmem
  | none =>
    refine safe_parts _ (safe_discoverRows htrust hoptions text _ (fun row hmem => ?_) {}
      (fun _ hmem => absurd hmem List.not_mem_nil) h) fun acc w h hacc => safe_value ⟨h, ?_⟩
    · refine ⟨text, hlist, ?_⟩
      rw [← hurl]
      exact hmem
    · exact fun candidate hmem => hacc candidate (mem_of_collectCandidateDiagnostics hmem)

variable (reader sourceUrl externalId start) in
/-- The list page was read and answered with `list`, and `candidates` are of that list. -/
def Discovered (candidates : List ReplayCandidate) (w : RecordedWorld Unit Text) : Prop :=
  ∃ list, ListRead reader sourceUrl externalId start list w ∧ AllListed reader sourceUrl list candidates

theorem discovered_stable {candidates : List ReplayCandidate} (w w' : RecordedWorld Unit Text)
    (h : Discovered reader sourceUrl externalId start candidates w) (hr : OthersAct w w') :
    Discovered reader sourceUrl externalId start candidates w' := by
  obtain ⟨list, h, hlisted⟩ := h
  exact ⟨list, h.keeps hr.keeps, hlisted⟩

/-- The page loop's body: the list, then its candidates. -/
theorem safe_discoverPage (htrust : isTrustworthyId (some externalId) = true)
    (hoptions : IsWatchOptions options sourceUrl) (h : Unread externalId start w) :
    Proc.Safe (b.Step.recorded ()) OthersAct (Keeps reader sourceUrl externalId start)
      (Async.Outcome (fun found w => Discovered reader sourceUrl externalId start found.candidates w)
        fun _ w => Discovered reader sourceUrl externalId start [] w) w
      (discoverPage reader options WATCH_PAGE) := by
  have hnothing : ∀ list, AllListed reader sourceUrl list [] :=
    fun _ _ hmem => absurd hmem List.not_mem_nil
  have hread : Proc.Safe (b.Step.recorded ()) OthersAct (Keeps reader sourceUrl externalId start)
      (fun list w => ListRead reader sourceUrl externalId start list w) w
      (pacedFetchText options (WATCH_PAGE = 1) (pf.toPageUrl options.sourceUrl WATCH_PAGE)
        (buildReadOptions options WATCH_PAGE .list)) := by
    rw [hoptions.sourceUrl]
    show Proc.Safe _ _ _ _ _ (options.fetchText _ _)
    rw [hoptions.fetchText]
    refine Proc.safe_call (Unread externalId start) (fun _ _ h hr => hr.unread h)
      (fun w h list w' hstep => ?_) h
    obtain ⟨hkeeps, hnext⟩ := keeps_of_list h hstep
    exact ⟨hkeeps, Proc.safe_pure (fun _ _ h hr => h.keeps hr.keeps) hnext⟩
  unfold discoverPage
  refine Async.safe_bind (fun text w => ListRead reader sourceUrl externalId start (.ok text) w)
    (hread.imp fun list w h => ?_) fun text w h => ?_
  · cases list with
    | ok text => exact h
    | error error => exact ⟨_, h, hnothing _⟩
  · -- from here on the parts run under `Keeps`
    refine Async.safe_bind (fun found w => ListRead reader sourceUrl externalId start (.ok text) w ∧
      AllListed reader sourceUrl (.ok text) found.candidates)
      ((safe_discoverPageCandidates htrust hoptions rfl h).weaken (fun _ _ hr => OthersAct.keeps hr)
        (fun _ _ h => h) fun r w h => ?_) fun found w h => ?_
    · cases r with
      | ok found => exact h
      | error error => exact ⟨_, h, hnothing _⟩
    · exact Proc.safe_pure discovered_stable ⟨_, h.1, h.2⟩

/-- Discovery, from its first request to its report. -/
theorem safe_discovery (htrust : isTrustworthyId (some externalId) = true)
    (hoptions : IsWatchOptions options sourceUrl) (h : Unread externalId start w) :
    Proc.Safe (b.Step.recorded ()) OthersAct (Keeps reader sourceUrl externalId start)
      (Async.Outcome
        (fun report w => Discovered reader sourceUrl externalId start report.candidates w)
        fun _ _ => True) w
      (discoverReplaysDryRun reader options) := by
  have hstable : ∀ r w w', Async.Outcome (fun (report : DiscoveryReport) w =>
      Discovered reader sourceUrl externalId start report.candidates w)
      (fun (_ : JsError) _ => True) r w → OthersAct w w' → Async.Outcome
      (fun (report : DiscoveryReport) w =>
        Discovered reader sourceUrl externalId start report.candidates w) (fun _ _ => True) r w' :=
    Async.outcome_stable (fun _ => discovered_stable) fun _ _ _ _ _ => trivial
  unfold discoverReplaysDryRun
  rw [hoptions.maxPages]
  show Proc.Safe _ _ _ _ _ (Proc.bind (Proc.bind (discoverPage reader options WATCH_PAGE) _) _)
  rw [Proc.bind_assoc']
  refine Proc.safe_bind_of (safe_discoverPage htrust hoptions h) fun r w h => ?_
  cases r with
  | ok yielded => exact Proc.safe_pure (hstable _) h
  | error error =>
    refine Proc.safe_pure (hstable _) ?_
    unfold dryRunReport
    cases error <;> first | exact h | trivial

end Discovery

/-! ### The fan-out -/

section Ingest

variable {config : WatchConfig} {runId : String} {candidates : List ReplayCandidate}
  {candidate : ReplayCandidate}

theorem isSourceRead_storage {e : Effect Text} (h : IsStorage e) : isSourceRead e = false := by
  cases e <;> first | exact h.elim | rfl

/-- A candidate with another external id is stored and staged. -/
theorem safe_processCandidate (hlisted : ListsCandidate reader sourceUrl list candidate)
    (hother : candidate.source.externalId ≠ some externalId)
    (h : ListRead reader sourceUrl externalId start list w) :
    SafePart b reader sourceUrl externalId start
      (PartDone reader sourceUrl externalId start list fun _ => True) w
      (processCandidate (watchIngestInput (config.toInput reader) runId candidates) candidate) := by
  have hstore : SafePart b reader sourceUrl externalId start
      (PartDone reader sourceUrl externalId start list fun _ => True) w
      (storeRawReplay pf config.bucket candidate) := by
    let Read := ListRead reader sourceUrl externalId start list
    have hread : ∀ w w', Read w → Keeps reader sourceUrl externalId start w w' → Read w' :=
      fun _ _ => ListRead.keeps
    have hfailed : ∀ (error : JsError) (now : Date) w, Read w →
        PartDone reader sourceUrl externalId start list (fun _ => True)
          (fetchFailureOutcome candidate (toISOString now) error) w := by
      intro error now w h
      unfold fetchFailureOutcome
      cases error <;> first | exact h | exact ⟨h, trivial⟩
    refine safe_storeRawReplay Read Read (fun _ => Read) hread hread partDone_stable ?_ ?_ ?_ ?_ h
    · intro w h r w' hstep
      have hkeeps : Keeps reader sourceUrl externalId start w w' := (keeps_of_request rfl hstep).1
      exact ⟨hkeeps, h.keeps hkeeps⟩
    · exact fun error _ now w h => hfailed error now w h
    · intro url hurl w h r w' hstep
      have hspares : SparesId reader sourceUrl externalId list (.fetchBytes url) :=
        ⟨candidate, hlisted, hother, hurl⟩
      obtain ⟨hkeeps, hnext⟩ := keeps_of_read hspares h hstep
      exact ⟨hkeeps, fun _ _ => hnext, fun error _ now => hfailed error now w' hnext⟩
    · intro now bytes w h
      have hasks : Proc.Asks (fun e => isSourceRead e = false)
          (s3StoreRawReplay config.bucket (storageInput pf candidate now bytes) :
            Program Text RawReplayStorageEvidence) :=
        (asks_s3StoreRawReplay _).mono fun _ => isSourceRead_storage
      exact (safe_unreading hasks h).imp fun _ _ h => ⟨h, trivial⟩
  unfold processCandidate
  refine safe_parts _ hstore fun rawResult w h _ => ?_
  have hasks : Proc.Asks (fun e => isSourceRead e = false)
      (stageRawReplay pf rawResult (some runId) :
        Program Text (Except JsError IngestStagingResult)) :=
    (asks_stageRawReplay rawResult _).mono fun _ => isSourceRead_storage
  refine safe_parts (fun _ => True) ((safe_unreading hasks h).imp fun r w h => ?_)
    fun stagingResult w h _ => safe_value ⟨h, trivial⟩
  cases r with
  | ok _ => exact ⟨h, trivial⟩
  | error _ => exact h

/-- One task of the fan-out. -/
theorem safe_ingestCandidate (htrust : isTrustworthyId (some externalId) = true)
    (hlisted : ListsCandidate reader sourceUrl list candidate)
    (h : ListRead reader sourceUrl externalId start list w) :
    SafePart b reader sourceUrl externalId start
      (PartDone reader sourceUrl externalId start list fun _ => True) w
      (ingestCandidate (watchIngestInput (config.toInput reader) runId candidates) candidate) := by
  cases hid : candidate.source.externalId with
  | none =>
    have hgate : prefetchGate (watchIngestInput (config.toInput reader) runId candidates) candidate =
        none := by
      unfold prefetchGate
      rw [hid]
      rfl
    unfold ingestCandidate
    rw [hgate]
    exact safe_processCandidate hlisted (by rw [hid]; exact fun heq => by cases heq) h
  | some id =>
    have hgate : prefetchGate (watchIngestInput (config.toInput reader) runId candidates) candidate =
        if isTrustworthyId (some id) then some (existsBySourceIdentity defaultSourceSystem id)
        else none := by
      unfold prefetchGate
      rw [hid]
      rfl
    have hprocess : id ≠ externalId → ∀ w, ListRead reader sourceUrl externalId start list w →
        SafePart b reader sourceUrl externalId start
          (PartDone reader sourceUrl externalId start list fun _ => True) w
          (processCandidate (watchIngestInput (config.toInput reader) runId candidates)
            candidate) := by
      intro hne w h
      refine safe_processCandidate hlisted ?_ h
      rw [hid]
      exact fun heq => hne (Option.some.inj heq)
    unfold ingestCandidate
    rw [hgate]
    by_cases htrusted : isTrustworthyId (some id) = true
    · rw [if_pos htrusted]
      refine safe_parts _ (safe_gate id h) fun found w h hfound => ?_
      cases found with
      | true => exact safe_value ⟨h, trivial⟩
      | false => exact hprocess (fun heq => by cases hfound heq) w h
    · rw [if_neg htrusted]
      refine hprocess (fun heq => ?_) w h
      rw [heq] at htrusted
      exact htrusted htrust

/-- The fan-out: whatever the order, nothing is read for the id. -/
theorem safe_watchFan (htrust : isTrustworthyId (some externalId) = true)
    (hlisted : AllListed reader sourceUrl list candidates)
    (h : ListRead reader sourceUrl externalId start list w) :
    SafePart b reader sourceUrl externalId start
      (fun _ w => ListRead reader sourceUrl externalId start list w) w
      (ingestPage (watchIngestInput (config.toInput reader) runId candidates)) := by
  let Read := ListRead reader sourceUrl externalId start list
  have hread : ∀ w w', Read w → Keeps reader sourceUrl externalId start w w' → Read w' :=
    fun _ _ => ListRead.keeps
  rw [ingestPage_eq]
  refine @Proc.safe_fan _ _ _ _ _ _ _ _ _ _ _ _ _ _
    (fun _ => Keeps reader sourceUrl externalId start)
    (fun _ => Keeps reader sourceUrl externalId start) (fun _ _ _ => True) Read
    (fun _ _ _ _ _ h => h) (fun _ _ _ h => h) (fun _ _ _ h => h) Keeps.refl hread
    (fun _ => hread) (fun i => ?_) (fun vs w h _ => Proc.safe_pure hread h) h
  have hmem : candidates.get i ∈ candidates := List.get_mem candidates i
  exact (safe_ingestCandidate htrust (hlisted _ hmem) h).imp fun _ _ _ => trivial

end Ingest

/-! ### The whole cycle -/

/-- How the watcher calls discovery. -/
theorem isWatchOptions (config : WatchConfig) :
    IsWatchOptions
      ({ attempts := config.attempts
         existsBySourceIdentity := some existsBySourceIdentity
         fetchText := fun url _ => Proc.perform (Effect.fetchText url)
         maxPages := some WATCH_PAGE
         requestDelayMs := some config.requestSpacingMs
         sleep := fun milliseconds => Proc.perform (Effect.sleep milliseconds)
         sourceSystem := some defaultSourceSystem
         sourceUrl := config.sourceUrl } : DiscoverReplaysDryRunOptions (Effect Text) Reply)
      config.sourceUrl :=
  ⟨rfl, fun _ _ => rfl, rfl, fun _ => rfl, rfl, rfl⟩

/-- **A cycle that finds the row spares the id**, at every moment and whatever others do. -/
theorem safe_cycle_spares (config : WatchConfig) (htrust : isTrustworthyId (some externalId) = true)
    (h : Unread externalId start w) :
    Proc.Safe (b.Step.recorded ()) OthersAct (Keeps reader config.sourceUrl externalId start)
      (fun _ _ => True) w (config.cycle reader) := by
  -- the three requests before discovery
  have hquiet : ∀ (e : Effect Text), isSourceRead e = false → ∀ w, Unread externalId start w →
      Proc.Safe (b.Step.recorded ()) OthersAct (Keeps reader config.sourceUrl externalId start)
        (fun _ w => Unread externalId start w) w (Proc.perform e) := by
    intro e he w h
    refine Proc.safe_call (Unread externalId start) (fun _ _ h hr => hr.unread h)
      (fun w h r w' hstep => ?_) h
    obtain ⟨hkeeps, hunread⟩ := keeps_of_request he hstep
    exact ⟨hkeeps, Proc.safe_pure (fun _ _ h hr => hr.unread h) (hunread h)⟩
  show Proc.Safe _ _ _ _ _ (runCycle (config.toInput reader))
  unfold runCycle
  refine Async.safe_lift_bind _ (hquiet .now rfl w h) fun cycleStart w h => ?_
  refine Async.safe_lift_bind _ (hquiet (.createRunId cycleStart) rfl w h) fun runId w h => ?_
  refine Async.safe_lift_bind _ (hquiet .awaitFloor rfl w h) fun _ w h => ?_
  refine Async.safe_bind (fun report w =>
    Discovered reader config.sourceUrl externalId start report.candidates w)
    ((safe_discovery htrust (isWatchOptions config) h).imp fun r w h => ?_) ?_
  · cases r with
    | ok report => exact h
    | error error => trivial
  · rintro report w ⟨list, h, hlisted⟩
    -- the rest runs under `Keeps`
    have hkeeps : ∀ w w' : RecordedWorld Unit Text, OthersAct w w' →
        Keeps reader config.sourceUrl externalId start w w' := fun _ _ hr => hr.keeps
    refine Async.safe_bind (fun _ w => ListRead reader config.sourceUrl externalId start list w)
      ((safe_watchFan htrust hlisted h).weaken hkeeps (fun _ _ h => h) fun r w h => ?_) ?_
    · cases r with
      | ok result => exact h
      | error error => trivial
    · intro result w h
      have hasks : Proc.Asks (fun e => isSourceRead e = false)
          (do
            let finishedAt ← (nowRequest : Program Text Date)
            let summary := watchSummary runId cycleStart finishedAt report result
            ((config.toInput reader).log (.watchCycleComplete (toCompactSummary summary)) :
              Program Text Unit)
            pure summary : Task Text RunSummary) := by
        refine Async.asks_lift_bind ⟨rfl, fun _ => trivial⟩ fun finishedAt => ?_
        exact Async.asks_lift_bind ⟨rfl, fun _ => trivial⟩ fun _ => trivial
      exact (safe_unreading hasks h).weaken hkeeps (fun _ _ h => h) fun _ _ _ => trivial

/-- The reads of such a cycle, at any moment of it. -/
theorem cycleReads_of_sourceRow {config : WatchConfig}
    (htrust : isTrustworthyId (some externalId) = true) {p : Task Text RunSummary}
    (hrow : SourceRow externalId w.1)
    (h : (Proc.lts (b.Step.recorded ()) _).Runs OthersAct w (config.cycle reader) w' p) :
    CycleReads reader config.sourceUrl externalId
      (sourceReads (conversation ((w'.2 ()).drop (w.2 ()).length))) := by
  have hunread : Unread externalId (w.2 ()) w := ⟨hrow, [], (List.append_nil _).symm, rfl⟩
  have hspares : Spares reader config.sourceUrl externalId (w.2 ()) w' :=
    (safe_cycle_spares config htrust hunread).always (fun _ _ h hg => hg.1 h)
      (fun _ _ h hr => hr.keeps.1 h) hunread.spares h
  obtain ⟨_, reads, ⟨more, hmore, rfl⟩, hcycle⟩ := hspares
  rw [hmore, List.drop_left]
  exact hcycle

end Cycle

/-! ## A staging that ended -/

section Ended

/-- The reply of an INSERT that PostgreSQL has decided: a row, no row, or a unique violation. -/
def Decided : Except JsError (Option String) → Prop
  | .ok _ => True
  | .error error => isUniqueViolation error = true

/-- The statuses that end the staging of a replay. -/
def EndsStaging : StagingOutcomeStatus → Prop
  | .staged | .alreadyStaged | .conflict => True
  | _ => False

/-- A decided INSERT of `payload` is in the conversation. -/
def HasInsert (payload : IngestStagingPayload) (conversation : Conversation Text) : Prop :=
  ∃ r, Decided r ∧ (⟨.insertStaging payload, r⟩ : Σ e : Effect Text, Reply e) ∈ conversation

/-- Once a decided INSERT is there, the other requests of `stage` do not matter. -/
theorem HasInsert.append {payload : IngestStagingPayload} {conversation more : Conversation Text}
    (h : HasInsert payload conversation) : HasInsert payload (conversation ++ more) := by
  obtain ⟨r, hr, hmem⟩ := h
  exact ⟨r, hr, List.mem_append_left _ hmem⟩

/-- The result, if the staging ended, comes with a decided INSERT. -/
def EndedWith (payload : IngestStagingPayload) (r : Except JsError IngestStagingResult)
    (conversation : Conversation Text) : Prop :=
  ∀ result, r = .ok result → EndsStaging result.status → HasInsert payload conversation

theorem safe_stage_ended (payload : IngestStagingPayload) (conversation : Conversation Text) :
    Proc.Safe Env.free Lts.Alone (fun _ _ => True) (EndedWith payload) conversation
      (stage payload) := by
  have hpost : ∀ (r : Except JsError IngestStagingResult) (l l' : Conversation Text),
      EndedWith payload r l → Lts.Alone l l' → EndedWith payload r l' :=
    fun _ _ _ h hr => hr ▸ h
  have hhas : ∀ l l' : Conversation Text, HasInsert payload l → Lts.Alone l l' →
      HasInsert payload l' := fun _ _ h hr => hr ▸ h
  -- an error that is no unique violation ends as `failed`
  have herror : ∀ (error : JsError) (l : Conversation Text),
      (isUniqueViolation error = true → HasInsert payload l) →
      StageErrorPost (EndedWith payload) (HasInsert payload) payload error l := by
    intro error l h
    unfold StageErrorPost
    split
    · exact h ‹_›
    · rintro result ⟨⟩ hends
      exact hends.elim
  refine safe_stage (fun _ => True) (HasInsert payload) (HasInsert payload) (fun _ _ _ _ => trivial)
    hhas hpost ?_ ?_ ?_ trivial
  · rintro l - r _ rfl
    refine ⟨trivial, ?_⟩
    have hmem : (⟨.insertStaging payload, r⟩ : Σ e : Effect Text, Reply e) ∈
        l ++ [⟨.insertStaging payload, r⟩] := List.mem_append_right _ (List.mem_singleton_self _)
    match r, hmem with
    | .ok (some id), hmem => exact fun _ _ _ => ⟨.ok (some id), trivial, hmem⟩
    | .ok none, hmem => exact ⟨.ok none, trivial, hmem⟩
    | .error error, hmem => exact herror error _ fun hunique => ⟨.error error, hunique, hmem⟩
  · rintro l h r _ rfl
    refine ⟨trivial, ?_⟩
    match r with
    | .ok (some row) => exact fun _ _ _ => h.append
    | .ok none => exact h.append
    | .error error => exact herror error _ fun _ => h.append
  · intro l h
    refine safe_classifyExistingStaging (HasInsert payload) (HasInsert payload) hhas hhas hpost
      ?_ ?_ h
    · rintro l h r _ rfl
      refine ⟨trivial, ?_⟩
      match r with
      | .ok (some row) => exact fun _ _ _ => h.append
      | .ok none => exact h.append
      | .error error => exact fun _ _ _ => h.append
    · rintro l h r _ rfl
      refine ⟨trivial, ?_⟩
      match r with
      | .ok (some row) => exact fun _ _ _ => h.append
      | .ok none => exact fun _ _ _ => h.append
      | .error error => exact fun _ _ _ => h.append

/-- Stored evidence carries the source of its candidate. -/
theorem safe_storeRawReplay_source (pf : Platform Text) (bucket : String) (candidate : ReplayCandidate)
    (conversation : Conversation Text) :
    Proc.Safe Env.free Lts.Alone (fun _ _ => True)
      (fun r _ => ∀ evidence, r = .ok (.stored evidence) → evidence.source = candidate.source)
      conversation (storeRawReplay pf bucket candidate) := by
  have hfailed : ∀ (error : JsError) (now : Date) evidence,
      fetchFailureOutcome candidate (toISOString now) error = .ok (.stored evidence) →
      evidence.source = candidate.source := by
    intro error now evidence h
    unfold fetchFailureOutcome at h
    split at h <;> cases h
  refine safe_storeRawReplay (fun _ => True) (fun _ => True) (fun _ _ => True)
    (fun _ _ _ _ => trivial) (fun _ _ _ _ => trivial) (fun _ _ _ h _ => h)
    (fun _ _ _ _ _ => ⟨trivial, trivial⟩) (fun error _ now _ _ => hfailed error now)
    (fun _ _ _ _ _ _ _ => ⟨trivial, fun _ _ => trivial, fun error _ now => hfailed error now⟩)
    (fun now bytes l _ => ?_) trivial
  refine safe_s3StoreRawReplay (fun _ => True) (fun _ => True) (fun _ _ _ _ => trivial)
    (fun _ _ _ _ => trivial) (fun _ _ _ h _ => h) ?_ ?_ trivial
  · intro l _ r l' _
    refine ⟨trivial, fun output _ => ?_, fun error _ => ?_⟩
    · rintro evidence ⟨⟩
      unfold headEvidence
      split <;> rfl
    · split
      · trivial
      · rintro evidence ⟨⟩
        rfl
  · intro l _ r l' _
    refine ⟨trivial, ?_⟩
    rintro evidence ⟨⟩
    cases r <;> rfl

variable {pf : Platform Text} {reader : SourceReader pf} {externalId : String}

/-- The payload is staged under this source identity. -/
def IsStagedUnder (externalId : String) (payload : IngestStagingPayload) : Prop :=
  payload.sourceSystem = defaultSourceSystem ∧ payload.sourceReplayId = externalId

/-- The result of a candidate, if its staging ended, comes with a decided INSERT under its id. -/
def CandidateEnded (externalId : String) (r : Except JsError SettledCandidate)
    (conversation : Conversation Text) : Prop :=
  ∀ rawResult result, r = .ok (.processed rawResult result) → EndsStaging result.status →
    ∃ payload, IsStagedUnder externalId payload ∧ HasInsert payload conversation

theorem safe_processCandidate_ended (input : IngestPageInput (Effect Text) Reply) {bucket : String}
    (hstore : input.storeRawReplay = storeRawReplay pf bucket)
    (hstage : input.stageRawReplay = stageRawReplay pf) {candidate : ReplayCandidate}
    (hid : candidate.source.externalId = some externalId) (conversation : Conversation Text) :
    Proc.Safe Env.free Lts.Alone (fun _ _ => True) (CandidateEnded externalId) conversation
      (processCandidate input candidate) := by
  have hstable : ∀ (r : Except JsError SettledCandidate) (l l' : Conversation Text),
      CandidateEnded externalId r l → Lts.Alone l l' → CandidateEnded externalId r l' :=
    fun _ _ _ h hr => hr ▸ h
  unfold processCandidate
  rw [hstore, hstage]
  refine Async.safe_bind
    (fun rawResult _ => ∀ evidence, rawResult = .stored evidence → evidence.source = candidate.source)
    ((safe_storeRawReplay_source pf bucket candidate conversation).imp fun r l h => ?_)
    fun rawResult l hsource => ?_
  · cases r with
    | ok rawResult => exact fun evidence heq => h evidence (congrArg _ heq)
    | error error => exact fun _ _ heq => by cases heq
  · refine Async.safe_bind (fun result l => EndsStaging result.status →
      ∃ payload, IsStagedUnder externalId payload ∧ HasInsert payload l) ?_ fun result l h => ?_
    · have hnotStageable : ∀ reason : String, Proc.Safe Env.free Lts.Alone (fun _ _ => True)
          (Async.Outcome (fun (result : IngestStagingResult) l => EndsStaging result.status →
            ∃ payload, IsStagedUnder externalId payload ∧ HasInsert payload l)
            fun error l => CandidateEnded externalId (.error error) l) l
          (Proc.pure (.ok { reason := some reason, status := .notStageable }) :
            Program Text (Except JsError IngestStagingResult)) :=
        fun reason => Proc.safe_pure (fun _ _ h hr => hr ▸ h) fun hends => hends.elim
      unfold stageRawReplay
      split
      · exact hnotStageable _
      · rename_i evidence
        split
        · exact hnotStageable _
        · rename_i payload hpayload
          have hunder : IsStagedUnder externalId payload :=
            identity_of_toIngestStagingPayload ((congrArg _ (hsource evidence rfl)).trans hid) hpayload
          refine (safe_stage_ended payload l).imp fun r l h => ?_
          cases r with
          | ok result => exact fun hends => ⟨payload, hunder, h result rfl hends⟩
          | error error => exact fun _ _ heq => by cases heq
    · refine Proc.safe_pure (hstable _) ?_
      rintro rawResult result ⟨⟩ hends
      exact h hends

/-- **What an ended staging has sent**: behind the gate of the watcher or not, a candidate that was
    processed and whose staging ended has had an INSERT decided under its id. -/
theorem insert_of_settled {config : WatchConfig} {runId : String} {candidates : List ReplayCandidate}
    {candidate : ReplayCandidate} (hid : candidate.source.externalId = some externalId)
    {conversation : Conversation Text} {rawResult : StoreRawReplayResult}
    {result : IngestStagingResult}
    (h : Emits (ingestCandidate (watchIngestInput (config.toInput reader) runId candidates) candidate)
      conversation (.ok (.processed rawResult result))) (hends : EndsStaging result.status) :
    ∃ payload, IsStagedUnder externalId payload ∧ HasInsert payload conversation := by
  have hprocess : ∀ l : Conversation Text, Proc.Safe Env.free Lts.Alone (fun _ _ => True)
      (CandidateEnded externalId) l
      (processCandidate (watchIngestInput (config.toInput reader) runId candidates) candidate) :=
    fun l => safe_processCandidate_ended _ rfl rfl hid l
  have hsafe : Proc.Safe Env.free Lts.Alone (fun _ _ => True) (CandidateEnded externalId) []
      (ingestCandidate (watchIngestInput (config.toInput reader) runId candidates) candidate) := by
    unfold ingestCandidate
    cases prefetchGate (watchIngestInput (config.toInput reader) runId candidates) candidate with
    | none => exact hprocess []
    | some gate =>
      refine Async.safe_bind (fun _ _ => True)
        ((Proc.safe_any (fun _ _ => trivial) gate).imp fun r l _ => ?_) fun found l _ => ?_
      · cases r with
        | ok found => trivial
        | error error => exact fun _ _ heq => by cases heq
      · cases found with
        | true =>
          refine Proc.safe_pure (fun _ _ h hr => hr ▸ h) ?_
          exact fun _ _ heq => by cases heq
        | false => exact hprocess l
  have hended := Proc.Safe.of_run hsafe h
  exact hended rawResult result rfl hends

end Ended

/-! ## The row that an INSERT leaves -/

section Insert

variable {b : Backend Text} {w w' : World Text} {payload : IngestStagingPayload} {externalId : String}
  {r : Except JsError (Option String)}

/-- **When an INSERT leaves a row under the source identity**: unless another row holds the object
    identity already. -/
theorem sourceRow_of_insert (hunder : IsStagedUnder externalId payload) (hr : Decided r)
    (h : b.Step w (.insertStaging payload) r w') :
    SourceRow externalId w' ↔
      ((w.rowByObject? payload.checksum payload.objectKey).isSome = true → SourceRow externalId w) := by
  obtain ⟨hsystem, hid⟩ := hunder
  have hsource : SourceRow externalId w ↔
      (w.rowBySource? payload.sourceSystem payload.sourceReplayId).isSome = true := by
    rw [hsystem, hid]
    exact sourceRow_iff
  have hlost : (∃ e, isUniqueViolation e = false ∧ r = .error e) → False := by
    rintro ⟨e, hviolation, rfl⟩
    have hunique : isUniqueViolation e = true := hr
    rw [hviolation] at hunique
    cases hunique
  rcases h with h | ⟨_, _, herror⟩
  · by_cases hobject : (w.rowByObject? payload.checksum payload.objectKey).isSome = true
    · rw [if_pos hobject] at h
      rw [h.1]
      exact ⟨fun hrow _ => hrow, fun hrow => hrow hobject⟩
    · rw [if_neg hobject] at h
      refine ⟨fun _ hsome => absurd hsome hobject, fun _ => ?_⟩
      by_cases hrow : (w.rowBySource? payload.sourceSystem payload.sourceReplayId).isSome = true
      · rw [if_pos hrow] at h
        rw [h.1]
        exact hsource.2 hrow
      · rw [if_neg hrow] at h
        obtain ⟨id, rfl, _⟩ := h
        exact ⟨payload.toRow id, List.mem_append_right _ (List.mem_singleton_self _), hsystem, hid⟩
  · exact (hlost herror).elim

end Insert

/-! ## Cycles, one after the other -/

/-- A sequence of watch cycles on one record: each of any configuration, ended or killed at any
    point, and others act meanwhile. -/
inductive Cycles (b : Backend Text) {pf : Platform Text} (reader : SourceReader pf) :
    RecordedWorld Unit Text → RecordedWorld Unit Text → Prop
  | nil (w : RecordedWorld Unit Text) : Cycles b reader w w
  | cycle {w w₁ w₂ : RecordedWorld Unit Text} {p : Task Text RunSummary} (config : WatchConfig) :
      Cycles b reader w w₁ →
      (Proc.lts (b.Step.recorded ()) _).Runs OthersAct w₁ (config.cycle reader) w₂ p →
      Cycles b reader w w₂

/-- The staging of a candidate with this id has ended, in some cycle of the conversation: a cycle has
    held the conversation of this candidate's part of the fan-out to its end. -/
def StagingEnded {pf : Platform Text} (reader : SourceReader pf) (externalId : String)
    (conversation : Conversation Text) : Prop :=
  ∃ (config : WatchConfig) (runId : String) (candidates : List ReplayCandidate)
    (candidate : ReplayCandidate) (part : Conversation Text) (rawResult : StoreRawReplayResult)
    (result : IngestStagingResult),
    candidate.source.externalId = some externalId ∧ EndsStaging result.status ∧
    Emits (ingestCandidate (watchIngestInput (config.toInput reader) runId candidates) candidate)
      part (.ok (.processed rawResult result)) ∧ part.Sublist conversation

/-- Unless it is an INSERT for the id that finds its object identity taken and no row under its
    source identity. -/
def findsObjectFree (externalId : String) (ev : FetchEvent Text) : Bool :=
  match ev.request with
  | .insertStaging payload =>
    !(payload.sourceSystem = defaultSourceSystem && payload.sourceReplayId = externalId) ||
      (ev.before.rowByObject? payload.checksum payload.objectKey).isNone ||
      (ev.before.rowBySource? payload.sourceSystem payload.sourceReplayId).isSome
  | _ => true

section History

variable {b : Backend Text} {pf : Platform Text} {reader : SourceReader pf} {externalId : String}
  {w w' w₁ w₂ w₃ : RecordedWorld Unit Text}

/-- The record is of steps of the services, and no row they left has been deleted since. -/
def RecordKept (b : Backend Text) (w : RecordedWorld Unit Text) : Prop :=
  ∀ ev ∈ w.2 (), b.Step ev.before ev.request ev.reply ev.after ∧ RowsKept ev.after w.1

theorem RowsKept.trans {w w' w'' : World Text} (h : RowsKept w w') (h' : RowsKept w' w'') :
    RowsKept w w'' :=
  fun row hmem => h' row (h row hmem)

theorem recordKept_runs {p p' : Task Text RunSummary} (hw : RecordKept b w ∧ RowsKept w₁.1 w.1)
    (h : (Proc.lts (b.Step.recorded ()) _).Runs OthersAct w p w' p') :
    RecordKept b w' ∧ RowsKept w₁.1 w'.1 := by
  induction h with
  | refl => exact hw
  | step _ hs ih =>
    obtain ⟨hkept, hrows⟩ := ih
    rcases Proc.Step.world hs with rfl | ⟨e, r, hr⟩
    · exact ⟨hkept, hrows⟩
    · have hstep : RowsKept _ _ := rowsKept_step hr.1
      refine ⟨fun ev hmem => ?_, hrows.trans hstep⟩
      rw [Env.recorded_self hr] at hmem
      rcases List.mem_append.1 hmem with hmem | hmem
      · exact ⟨(hkept ev hmem).1, (hkept ev hmem).2.trans hstep⟩
      · rw [List.mem_singleton.1 hmem]
        exact ⟨hr.1, fun _ hrow => hrow⟩
  | interfere _ hothers ih =>
    obtain ⟨hkept, hrows⟩ := ih
    refine ⟨fun ev hmem => ?_, hrows.trans hothers.2⟩
    rw [hothers.1] at hmem
    exact ⟨(hkept ev hmem).1, (hkept ev hmem).2.trans hothers.2⟩

theorem recordKept_cycles (hw : RecordKept b w) (h : Cycles b reader w w') :
    RecordKept b w' ∧ RowsKept w.1 w'.1 := by
  induction h with
  | nil => exact ⟨hw, fun _ hrow => hrow⟩
  | cycle config _ hruns ih => exact recordKept_runs ih hruns

/-- A staging that ended, and whose INSERT found the object identity free, has left its row. -/
theorem sourceRow_of_stagingEnded (hkept : RecordKept b w)
    (hended : StagingEnded reader externalId (conversation (w.2 ())))
    (hfree : ∀ ev ∈ w.2 (), findsObjectFree externalId ev = true) : SourceRow externalId w.1 := by
  obtain ⟨config, runId, candidates, candidate, part, rawResult, result, hid, hends, hemits, hpart⟩ :=
    hended
  obtain ⟨payload, hunder, r, hr, hmem⟩ := insert_of_settled hid hemits hends
  obtain ⟨ev, hev, heq⟩ := List.mem_map.1 (hpart.subset hmem)
  obtain ⟨hstep, hrows⟩ := hkept ev hev
  have hcondition := hfree ev hev
  obtain ⟨before, request, reply, after⟩ := ev
  cases heq
  have hrow : SourceRow externalId after := by
    rw [sourceRow_of_insert hunder hr hstep]
    intro hobject
    unfold findsObjectFree at hcondition
    dsimp only at hcondition
    rw [hunder.1, hunder.2, decide_eq_true rfl, decide_eq_true rfl, Bool.and_self, Bool.not_true,
      Bool.false_or, Bool.or_eq_true, Option.isNone_iff_eq_none] at hcondition
    rcases hcondition with hnone | hsome
    · rw [hnone] at hobject
      cases hobject
    · exact sourceRow_iff.2 hsome
  exact hrow.kept hrows

/-- **Watch dedup converges when no other replay holds the object identity.** In any history of
    cycles in which every INSERT for the id finds its object identity free, or its row there: once
    the staging of a candidate with this id has ended, every later cycle reads neither a detail page
    nor bytes for it. -/
theorem watch_dedup_converges_when (htrust : isTrustworthyId (some externalId) = true)
    {w₀ : World Text} (hhistory : Cycles b reader (w₀, fun _ => []) w₁)
    (hended : StagingEnded reader externalId (conversation (w₁.2 ())))
    (hfree : ∀ ev ∈ w₁.2 (), findsObjectFree externalId ev = true)
    (hlater : Cycles b reader w₁ w₂) {config : WatchConfig} {p : Task Text RunSummary}
    (hcycle : (Proc.lts (b.Step.recorded ()) _).Runs OthersAct w₂ (config.cycle reader) w₃ p) :
    CycleReads reader config.sourceUrl externalId
      (sourceReads (conversation ((w₃.2 ()).drop (w₂.2 ()).length))) := by
  have hstart : RecordKept b (w₀, fun _ => []) := fun _ hmem => absurd hmem List.not_mem_nil
  have hkept := (recordKept_cycles hstart hhistory).1
  have hrow : SourceRow externalId w₁.1 := sourceRow_of_stagingEnded hkept hended hfree
  exact cycleReads_of_sourceRow htrust (hrow.kept (recordKept_cycles hkept hlater).2) hcycle

end History

/-! ## Two cycles over one list -/

section Toy

/-- The services around the source that lists one candidate, with the id "1". -/
def toyWatchServices : Backend (Option Json) where
  reports _ r := r = .error (.error "no list")
  pageText _ r := r = .ok "a"
  served _ bytes := bytes = [7]
  tag _ _ := True

theorem step_toyWatch (w : World (Option Json)) (e : Effect (Option Json)) :
    toyWatchServices.Step w e ((toySource "a").serve w e).1 ((toySource "a").serve w e).2 :=
  (toySource "a").step_serve (fun _ => rfl) (fun _ => rfl) (fun _ => Or.inl ⟨[7], rfl, rfl⟩)
    (fun _ _ => trivial) w e

/-- A cycle on its own. -/
def toyCycle (w : RecordedWorld Unit (Option Json)) : RecordedWorld Unit (Option Json) :=
  (Proc.exec (recordServe (toySource "a").serve ()) 30 (w, toyWatch.cycle toyReader)).1

theorem runs_toyCycle (w : RecordedWorld Unit (Option Json)) : ∃ p,
    (Proc.lts (toyWatchServices.Step.recorded ()) _).Runs OthersAct w (toyWatch.cycle toyReader)
      (toyCycle w) p :=
  ⟨_, Proc.runs_exec (recorded_serve step_toyWatch) 30 (w, toyWatch.cycle toyReader)⟩

theorem cycles_toyCycle (w : RecordedWorld Unit (Option Json)) :
    Cycles toyWatchServices toyReader w (toyCycle w) := by
  obtain ⟨p, hp⟩ := runs_toyCycle w
  exact .cycle toyWatch (.nil w) hp

/-- The candidate's part of the fan-out, on its own. -/
def toyPart (w : World (Option Json)) : RecordedWorld Unit (Option Json) ×
    Program (Option Json) (Except JsError SettledCandidate) :=
  Proc.exec (recordServe (toySource "a").serve ()) 20 ((w, fun _ => []),
    ingestCandidate (watchIngestInput (toyWatch.toInput toyReader) "run" [toyCandidate]) toyCandidate)

theorem stagingEnded_toy {w : World (Option Json)} {conversation' : Conversation (Option Json)}
    {rawResult : StoreRawReplayResult} {result : IngestStagingResult}
    (hdone : (toyPart w).2 = .pure (.ok (.processed rawResult result)))
    (hends : EndsStaging result.status)
    (hpart : (conversation ((toyPart w).1.2 ())).Sublist conversation') :
    StagingEnded toyReader "1" conversation' := by
  have hruns : (Proc.lts (toyWatchServices.Step.recorded ()) _).Runs Lts.Alone (w, fun _ => [])
      (ingestCandidate (watchIngestInput (toyWatch.toInput toyReader) "run" [toyCandidate])
        toyCandidate) (toyPart w).1 (toyPart w).2 :=
    Proc.runs_exec (recorded_serve step_toyWatch) 20 ((w, fun _ => []), _)
  rw [hdone] at hruns
  obtain ⟨part, hemits, hconversation⟩ := Proc.emits_of_recorded hruns
  have hempty : conversation (((w, fun _ => []) : RecordedWorld Unit (Option Json)).2 ()) = [] := rfl
  rw [hempty, List.nil_append] at hconversation
  rw [hconversation] at hpart
  exact ⟨toyWatch, "run", [toyCandidate], toyCandidate, part, rawResult, result, rfl, hends, hemits,
    hpart⟩

/-- The record of a first cycle over the world `w`. -/
def toyFirst (w : World (Option Json)) : RecordedWorld Unit (Option Json) :=
  toyCycle (w, fun _ => [])

theorem watch_dedup_converges_when_two :
    StagingEnded toyReader "1" (conversation ((toyFirst emptyWorld).2 ())) ∧
    CycleReads toyReader toyWatch.sourceUrl "1" (sourceReads (conversation
      (((toyCycle (toyFirst emptyWorld)).2 ()).drop ((toyFirst emptyWorld).2 ()).length))) := by
  have hpart : conversation ((toyPart emptyWorld).1.2 ()) =
      ((conversation ((toyFirst emptyWorld).2 ())).drop 4).take 6 := rfl
  have hended : StagingEnded toyReader "1" (conversation ((toyFirst emptyWorld).2 ())) :=
    @stagingEnded_toy emptyWorld _ _ _ rfl trivial
      (hpart ▸ (List.take_sublist _ _).trans (List.drop_sublist _ _))
  have hfree : ((toyFirst emptyWorld).2 ()).all (findsObjectFree "1") = true := rfl
  obtain ⟨p, hp⟩ := runs_toyCycle (toyFirst emptyWorld)
  exact ⟨hended, watch_dedup_converges_when (by decide) (cycles_toyCycle _) hended
    (List.all_eq_true.1 hfree) (.nil _) hp⟩

/-- Another replay with the same bytes is staged already. -/
def toyOccupiedWorld : World (Option Json) :=
  emptyWorld.addRow
    { id := "0", checksum := toyPlatform.sha256Hex [7], objectKey := rawKey (toyPlatform.sha256Hex [7])
      sourceReplayId := "0", sourceSystem := defaultSourceSystem, status := "pending" }

/-- **Two replays with one content do not converge.** The staging of the second one ends as
    `already_staged`; the next cycle reads its bytes again, though it lists nothing else. -/
theorem watch_dedup_refetches :
    ∃ (w₁ w₂ : RecordedWorld Unit (Option Json)) (p : Task (Option Json) RunSummary),
      isTrustworthyId (some "1") = true ∧
      Cycles toyWatchServices toyReader (toyOccupiedWorld, fun _ => []) w₁ ∧
      StagingEnded toyReader "1" (conversation (w₁.2 ())) ∧
      (Proc.lts (toyWatchServices.Step.recorded ()) _).Runs OthersAct w₁ (toyWatch.cycle toyReader)
        w₂ p ∧
      ¬ CycleReads toyReader toyWatch.sourceUrl "1"
        (sourceReads (conversation ((w₂.2 ()).drop (w₁.2 ()).length))) := by
  have hpart : conversation ((toyPart toyOccupiedWorld).1.2 ()) =
      ((conversation ((toyFirst toyOccupiedWorld).2 ())).drop 4).take 7 := rfl
  have hended : StagingEnded toyReader "1" (conversation ((toyFirst toyOccupiedWorld).2 ())) :=
    @stagingEnded_toy toyOccupiedWorld _ _ _ rfl trivial
      (hpart ▸ (List.take_sublist _ _).trans (List.drop_sublist _ _))
  obtain ⟨p, hp⟩ := runs_toyCycle (toyFirst toyOccupiedWorld)
  refine ⟨toyFirst toyOccupiedWorld, toyCycle (toyFirst toyOccupiedWorld), p, by decide,
    cycles_toyCycle _, hended, hp, fun hreads => ?_⟩
  have hactual : sourceReads (conversation (((toyCycle (toyFirst toyOccupiedWorld)).2 ()).drop
      ((toyFirst toyOccupiedWorld).2 ()).length)) =
      [⟨.fetchText (watchPageUrl toyPlatform toyWatch.sourceUrl), .ok "a"⟩,
        ⟨.fetchBytes { protocol := "https:", host := "a", pathname := "" }, .ok [7]⟩] := rfl
  rw [hactual] at hreads
  cases hreads with
  | listed list reads hspares =>
    obtain ⟨candidate, hlists, hother, _⟩ := hspares _ (List.mem_singleton_self _)
    rcases hlists with ⟨text, fixture, htext, hfixture, hmem⟩ | ⟨row, _, _, _, ⟨_, _, hrow⟩, _⟩
    · -- the fixture lists the one candidate with this id
      cases htext
      cases hfixture
      have hone : candidate = toyCandidate := List.mem_singleton.1 hmem
      rw [hone] at hother
      exact hother rfl
    · exact absurd hrow List.not_mem_nil

end Toy

end ReplaysFetcher
