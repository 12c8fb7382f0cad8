/-
  What decoding an escaped filename gives (`decodeHtmlEntities`, `extractFilenameFromDetailHtml`).

  A page serves a text with five letters written as entities, all in one pass.  Decoding replaces
  the five entities one after the other, and `&amp;` FIRST.

  1. **One entity** (`decode_escape`).  `&amp;` is undone exactly.  From then on the text has marks
     of its own again, and each later replacement also decodes the entities that the text had before
     it was escaped: what decoding gives is the text with these four decoded.
  2. **The condition** (`EntityFree`).  A text comes back exactly when it has none of the four.
  3. **The page** (`extract_of_serves`).  A filename comes back exactly when besides that it is not
     empty and has no blanks at its ends.

  A filename that has one of the four is taken for another filename, one that comes back as itself.
-/
import ReplaysFetcher.Html
import ReplaysFetcher.Data.Substitution

namespace ReplaysFetcher.Entities

open Substitution

/-! ## Escaping -/

/-- The letters that are escaped, with the names of their entities. -/
def entityNames : List (Char × List Char) :=
  [('&', "amp".toList), ('"', "quot".toList), ('\'', "#39".toList), ('<', "lt".toList),
    ('>', "gt".toList)]

/-- A name that is found is in the list. -/
theorem mem_of_entityName {c : Char} {n : List Char} (h : entityNames.lookup c = some n) :
    (c, n) ∈ entityNames := by
  obtain ⟨before, after, hsplit, _⟩ := List.lookup_eq_some_iff.1 h
  rw [hsplit]
  simp

/-- The five entities that the source decodes. -/
def htmlEntities : Names Char where
  mark := '&'
  closing := ';'
  name c := entityNames.lookup c
  plain c n hname := by
    have hall : ∀ entry ∈ entityNames, ∀ x ∈ entry.2 ++ [';'],
        x ≠ '&' ∧ entityNames.lookup x = none := by decide
    exact hall _ (mem_of_entityName hname)
  closing_not_mem c n hname := by
    have hall : ∀ entry ∈ entityNames, ';' ∉ entry.2 := by decide
    exact hall _ (mem_of_entityName hname)
  injective c d n hc hd := by
    have hall : ∀ e ∈ entityNames, ∀ e' ∈ entityNames, e.2 = e'.2 → e.1 = e'.1 := by decide
    exact hall _ (mem_of_entityName hc) _ (mem_of_entityName hd) rfl

/-- The HTML escaping of a text: the five letters as entities, in one pass. -/
def escapeHtml (value : String) : String := String.ofList (htmlEntities.encode value.toList)

example : escapeHtml "<a&b>" = "&lt;a&amp;b&gt;" := by rfl

/-! ## Decoding -/

/-- The names of the entities that are replaced after `&amp;`, in this order. -/
def laterNames : List (List Char × Char) :=
  [("quot".toList, '"'), ("#39".toList, '\''), ("lt".toList, '<'), ("gt".toList, '>')]

/-- The entities that are replaced after `&amp;`. -/
def laterEntities : List String := ["&quot;", "&#39;", "&lt;", "&gt;"]

/-- None of the entities that are replaced after `&amp;` is part of the text. -/
def EntityFree (value : String) : Prop :=
  ∀ entity ∈ laterEntities, ¬ entity.toList <:+: value.toList

instance (value : String) : Decidable (EntityFree value) := by
  unfold EntityFree
  infer_instance

/-- The text with the later entities decoded. -/
def decodeLater (value : List Char) : List Char :=
  substituteAll (htmlEntities.spellings laterNames) value

/-- The replacement of a text is a substitution. -/
theorem replaceAllText_eq {needle : String} (hneedle : needle.toList ≠ []) (image value : String) :
    replaceAllText needle image value =
      String.ofList (substitute needle.toList image.toList value.toList) := by
  unfold replaceAllText
  exact congrArg String.ofList (replaceAll_literal hneedle _ _)

/-- The ampersand is decoded first, the other four later. -/
theorem decodeHtmlEntities_eq (value : String) : decodeHtmlEntities value =
    String.ofList (decodeLater (substitute "&amp;".toList ['&'] value.toList)) := by
  unfold decodeHtmlEntities
  rw [replaceAllText_eq (by decide), replaceAllText_eq (by decide), replaceAllText_eq (by decide),
    replaceAllText_eq (by decide), replaceAllText_eq (by decide)]
  simp only [String.toList_ofList]
  rfl

/-- **Decoding an escaped text** decodes the later entities that the text had. -/
theorem decode_escape (value : String) :
    decodeHtmlEntities (escapeHtml value) = String.ofList (decodeLater value.toList) := by
  have hescape : (escapeHtml value).toList = htmlEntities.encode value.toList :=
    String.toList_ofList
  have hamp : substitute "&amp;".toList ['&'] (htmlEntities.encode value.toList) =
      (htmlEntities.erase '&').encode value.toList := by
    have hname : htmlEntities.name '&' = some "amp".toList := rfl
    have hcoded : htmlEntities.name htmlEntities.mark ≠ none := by decide
    exact Names.substitute_encode_of_coded hname hcoded value.toList
  have hlater : decodeLater ((htmlEntities.erase '&').encode value.toList) =
      ((htmlEntities.erase '&').eraseAll laterNames).encode (decodeLater value.toList) :=
    Names.substituteAll_encode (by decide) (by decide) rfl _
  -- no letter is left in the code
  have hnone : ∀ c, ((htmlEntities.erase '&').eraseAll laterNames).name c = none := by
    intro c
    show (if c = '>' then none else if c = '<' then none else if c = '\'' then none else
      if c = '"' then none else if c = '&' then none else entityNames.lookup c) = none
    split_ifs with h₁ h₂ h₃ h₄ h₅
    any_goals rfl
    cases hlookup : entityNames.lookup c with
    | none => rfl
    | some n =>
      have hmem := mem_of_entityName hlookup
      simp [entityNames, h₁, h₂, h₃, h₄, h₅] at hmem
  rw [decodeHtmlEntities_eq, hescape, hamp, hlater, Names.encode_plain fun c _ => hnone c]

/-- Each of them is longer than what it stands for. -/
theorem laterEntities_shorter :
    ∀ pair ∈ htmlEntities.spellings laterNames, pair.2.length < pair.1.length := by decide

/-- The later ones leave a text alone exactly when it has none of them. -/
theorem decodeLater_eq_self_iff (value : String) :
    decodeLater value.toList = value.toList ↔ EntityFree value := by
  have hwords : (htmlEntities.spellings laterNames).map Prod.fst =
      laterEntities.map String.toList := by rfl
  unfold decodeLater EntityFree
  rw [substituteAll_eq_self_iff laterEntities_shorter]
  constructor
  · intro h entity hentity
    have hmem : entity.toList ∈ (htmlEntities.spellings laterNames).map Prod.fst := by
      rw [hwords]
      exact List.mem_map_of_mem hentity
    obtain ⟨pair, hpair, hfst⟩ := List.mem_map.1 hmem
    rw [← hfst]
    exact h pair hpair
  · intro h pair hpair
    have hmem : pair.1 ∈ laterEntities.map String.toList := by
      rw [← hwords]
      exact List.mem_map_of_mem hpair
    obtain ⟨entity, hentity, hfst⟩ := List.mem_map.1 hmem
    rw [← hfst]
    exact h entity hentity

/-- **The condition**: a text comes back exactly when it has none of the later entities. -/
theorem decode_escape_eq_self_iff (value : String) :
    decodeHtmlEntities (escapeHtml value) = value ↔ EntityFree value := by
  rw [decode_escape, ← decodeLater_eq_self_iff]
  constructor
  · intro h
    have htext := congrArg String.toList h
    rwa [String.toList_ofList] at htext
  · intro h
    rw [h, String.ofList_toList]

/-- What an escaped text is decoded as has none of the later entities, and so comes back. -/
theorem entityFree_decode_escape (value : String) :
    EntityFree (decodeHtmlEntities (escapeHtml value)) := by
  intro entity hentity
  have hletters : ∀ entity ∈ laterEntities, ∀ pair ∈ htmlEntities.spellings laterNames,
      pair.1 ≠ [] ∧ pair.2.length = 1 ∧ ∀ y ∈ pair.2, y ∉ entity.toList := by decide
  have hmem : ∀ entity ∈ laterEntities,
      entity.toList ∈ (htmlEntities.spellings laterNames).map Prod.fst := by decide
  rw [decode_escape, String.toList_ofList]
  exact not_infix_substituteAll (hletters entity hentity) _ (Or.inl (hmem entity hentity))

/-- **Distinct texts**: a text is taken for no other one that comes back exactly when it comes back
    itself. -/
theorem entityFree_iff_distinct (value : String) : EntityFree value ↔
    ∀ other, EntityFree other → other ≠ value →
      decodeHtmlEntities (escapeHtml other) ≠ decodeHtmlEntities (escapeHtml value) := by
  constructor
  · intro hvalue other hother hne h
    rw [(decode_escape_eq_self_iff other).2 hother, (decode_escape_eq_self_iff value).2 hvalue] at h
    exact hne h
  · intro h
    by_contra hvalue
    have hfree := entityFree_decode_escape value
    refine h _ hfree ?_ ((decode_escape_eq_self_iff _).2 hfree)
    intro heq
    exact hvalue (heq ▸ hfree)

/-! ## The page -/

/-- The attribute of a detail page that the filename is taken from, as the page has it. -/
def servedFilename (html : String) : Option String :=
  if ((findInputValueById html "filename").map trimJs).bind nonEmptyText = none then
    (execOn bodyPattern html).bind fun found => groupOf found "filename"
  else findInputValueById html "filename"

/-- The filename of a page is what it serves, trimmed and decoded. -/
theorem extractFilename_eq (html : String) : extractFilenameFromDetailHtml html =
    (((servedFilename html).map trimJs).bind nonEmptyText).map decodeHtmlEntities := by
  unfold extractFilenameFromDetailHtml servedFilename
  cases h : ((findInputValueById html "filename").map trimJs).bind nonEmptyText with
  | none => rw [if_pos rfl]
  | some filename =>
    rw [if_neg (Option.some_ne_none _), h]
    rfl

/-- Dropping from the left what is coded as itself, when nothing else begins with such a letter. -/
theorem dropWhile_flatMap {p : Char → Bool} {code : Char → List Char}
    (hplain : ∀ c, p c = true → code c = [c])
    (hcoded : ∀ c, p c = false → ∃ y ys, code c = y :: ys ∧ p y = false) (text : List Char) :
    (text.flatMap code).dropWhile p = (text.dropWhile p).flatMap code := by
  induction text with
  | nil => rfl
  | cons c text ih =>
    rw [List.flatMap_cons, List.dropWhile_cons]
    cases hc : p c with
    | true =>
      rw [if_pos rfl, hplain c hc, List.singleton_append, List.dropWhile_cons, if_pos hc, ih]
    | false =>
      obtain ⟨y, ys, hcode, hy⟩ := hcoded c hc
      rw [if_neg Bool.false_ne_true, List.flatMap_cons, hcode, List.cons_append,
        List.dropWhile_cons, if_neg (by rw [hy]; exact Bool.false_ne_true)]

/-- Blanks are not escaped, and the escape of another letter has no blank at its ends. -/
theorem code_blank (c : Char) :
    (isJsWhitespace c = true → htmlEntities.code c = [c]) ∧
    (isJsWhitespace c = false → ∃ y ys, htmlEntities.code c = y :: ys ∧ isJsWhitespace y = false) ∧
    (isJsWhitespace c = false →
      ∃ y ys, (htmlEntities.code c).reverse = y :: ys ∧ isJsWhitespace y = false) := by
  have hall : ∀ entry ∈ entityNames, isJsWhitespace entry.1 = false := by decide
  cases hname : htmlEntities.name c with
  | none =>
    rw [Names.code_of_none hname]
    exact ⟨fun _ => rfl, fun h => ⟨c, [], rfl, h⟩, fun h => ⟨c, [], rfl, h⟩⟩
  | some n =>
    have hc : isJsWhitespace c = false := hall _ (mem_of_entityName hname)
    rw [Names.code_of_name hname, hc]
    refine ⟨fun h => absurd h Bool.false_ne_true, fun _ => ⟨'&', n ++ [';'], rfl, by decide⟩,
      fun _ => ⟨';', (htmlEntities.mark :: n).reverse, ?_, by decide⟩⟩
    show ((htmlEntities.mark :: n) ++ [';']).reverse = _
    rw [List.reverse_append]
    rfl

/-- Escaping neither adds nor takes away blanks at the ends. -/
theorem trimJs_escapeHtml (value : String) :
    trimJs (escapeHtml value) = escapeHtml (trimJs value) := by
  have hright : ∀ text : List Char,
      ((text.flatMap htmlEntities.code).reverse.dropWhile isJsWhitespace).reverse =
        (text.reverse.dropWhile isJsWhitespace).reverse.flatMap htmlEntities.code := by
    intro text
    have hplain : ∀ c, isJsWhitespace c = true → (htmlEntities.code c).reverse = [c] := by
      intro c hc
      rw [(code_blank c).1 hc]
      rfl
    rw [List.reverse_flatMap]
    show ((text.reverse.flatMap fun c => (htmlEntities.code c).reverse).dropWhile _).reverse = _
    rw [dropWhile_flatMap hplain fun c => (code_blank c).2.2, List.reverse_flatMap]
    congr 1
    funext c
    exact List.reverse_reverse _
  unfold trimJs escapeHtml
  rw [String.toList_ofList, String.toList_ofList]
  unfold Names.encode
  rw [dropWhile_flatMap (fun c => (code_blank c).1) fun c => (code_blank c).2.1, hright]

/-- Trimming only takes away. -/
theorem trimJs_sublist (value : String) : (trimJs value).toList.Sublist value.toList := by
  unfold trimJs
  rw [String.toList_ofList]
  have hright := (List.dropWhile_sublist (l := (value.toList.dropWhile isJsWhitespace).reverse)
    isJsWhitespace).reverse
  rw [List.reverse_reverse] at hright
  exact hright.trans (List.dropWhile_sublist _)

/-- Only the empty text is escaped to nothing. -/
theorem escapeHtml_eq_empty_iff (value : String) : escapeHtml value = "" ↔ value = "" := by
  constructor
  · intro h
    have hempty : htmlEntities.encode value.toList = [] := by
      have htext := congrArg String.toList h
      rwa [escapeHtml, String.toList_ofList] at htext
    cases htext : value.toList with
    | nil => exact String.toList_eq_nil_iff.1 htext
    | cons c text =>
      rw [htext] at hempty
      have hcode := (List.flatMap_eq_nil_iff.1 hempty) c List.mem_cons_self
      cases hname : htmlEntities.name c with
      | none =>
        rw [Names.code_of_none hname] at hcode
        cases hcode
      | some n =>
        rw [Names.code_of_name hname] at hcode
        cases hcode
  · rintro rfl
    rfl

/-- **A filename served escaped** comes back exactly when it has none of the later entities, is not
    empty and has no blanks at its ends. -/
theorem extract_of_serves {html filename : String}
    (h : servedFilename html = some (escapeHtml filename)) :
    extractFilenameFromDetailHtml html = some filename ↔
      EntityFree filename ∧ filename ≠ "" ∧ trimJs filename = filename := by
  rw [extractFilename_eq, h, Option.map_some, trimJs_escapeHtml, Option.bind_some]
  simp only [nonEmptyText, escapeHtml_eq_empty_iff]
  constructor
  · intro hsome
    split at hsome
    · cases hsome
    · rename_i hne
      have hdecode : decodeHtmlEntities (escapeHtml (trimJs filename)) = filename :=
        Option.some.inj hsome
      -- neither trimming nor decoding lengthens a text
      have hlength : filename.toList.length ≤ (trimJs filename).toList.length := by
        have htext := congrArg String.toList hdecode
        rw [decode_escape, String.toList_ofList] at htext
        rw [← htext]
        exact length_substituteAll_le laterEntities_shorter _
      have htrim : trimJs filename = filename :=
        String.toList_inj.1 ((trimJs_sublist filename).eq_of_length_le hlength)
      rw [htrim] at hne hdecode
      exact ⟨(decode_escape_eq_self_iff filename).1 hdecode, hne, htrim⟩
  · rintro ⟨hfree, hne, htrim⟩
    rw [htrim, if_neg hne, Option.map_some, (decode_escape_eq_self_iff filename).2 hfree]

/-- **Exactly when decoding inverts escaping**: for a text, for a filename that a page serves
    escaped, and for telling a text from the others that come back. -/
theorem decoding_inverts_iff (value : String) :
    (decodeHtmlEntities (escapeHtml value) = value ↔ EntityFree value) ∧
    (∀ html, servedFilename html = some (escapeHtml value) →
      (extractFilenameFromDetailHtml html = some value ↔
        EntityFree value ∧ value ≠ "" ∧ trimJs value = value)) ∧
    (EntityFree value ↔ ∀ other, EntityFree other → other ≠ value →
      decodeHtmlEntities (escapeHtml other) ≠ decodeHtmlEntities (escapeHtml value)) :=
  ⟨decode_escape_eq_self_iff value, fun _ h => extract_of_serves h, entityFree_iff_distinct value⟩

/-- The page of a filename that has an ampersand. -/
theorem decoding_inverts_iff_ampersand :
    extractFilenameFromDetailHtml "<input id=\"filename\" value=\"a&amp;b.json\">" =
      some "a&b.json" := by
  have hserved : servedFilename "<input id=\"filename\" value=\"a&amp;b.json\">" =
      some (escapeHtml "a&b.json") := by rfl
  exact ((decoding_inverts_iff "a&b.json").2.1 _ hserved).2 ⟨by decide, by decide, by rfl⟩

/-- **The flaw**: a filename that has an entity is taken for another filename, and the pages of the
    two are read as the same. -/
theorem not_decoding_inverts :
    (¬ ∀ value, decodeHtmlEntities (escapeHtml value) = value) ∧
    servedFilename "<input id=\"filename\" value=\"&amp;lt;.json\">" =
      some (escapeHtml "&lt;.json") ∧
    servedFilename "<input id=\"filename\" value=\"&lt;.json\">" = some (escapeHtml "<.json") ∧
    extractFilenameFromDetailHtml "<input id=\"filename\" value=\"&amp;lt;.json\">" =
      some "<.json" ∧
    extractFilenameFromDetailHtml "<input id=\"filename\" value=\"&lt;.json\">" =
      some "<.json" := by
  have hentity : ¬ EntityFree "&lt;" := by decide
  refine ⟨fun h => hentity ((decode_escape_eq_self_iff "&lt;").1 (h _)), by rfl, by rfl, by rfl, ?_⟩
  rfl

end ReplaysFetcher.Entities
