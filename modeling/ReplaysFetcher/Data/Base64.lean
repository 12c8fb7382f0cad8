/-
  Base64.

  Three bytes are four letters of six bits each; a rest of one or two bytes is padded with `=`.
  `decode` reads the letters and passes over everything else, so line breaks do not matter to it:
  `decode_wrapLines_encode` is the round trip through a printed, line-broken text.  The alphabet is
  what makes such a text safe to hand around (`mem_encode`), and its length is known in advance
  (`length_encode`, `length_wrapLines`).
-/
import Mathlib.Data.List.Basic
import Mathlib.Data.Nat.Notation

namespace Base64

/-! ## Letters -/

/-- The letter for six bits. -/
def letter (n : ℕ) : Char :=
  if n < 26 then Char.ofNat (65 + n)
  else if n < 52 then Char.ofNat (97 + (n - 26))
  else if n < 62 then Char.ofNat (48 + (n - 52))
  else if n = 62 then '+' else '/'

/-- The six bits of a letter of the standard or of the URL alphabet. -/
def value? (c : Char) : Option ℕ :=
  if 'A' ≤ c ∧ c ≤ 'Z' then some (c.toNat - 65)
  else if 'a' ≤ c ∧ c ≤ 'z' then some (c.toNat - 97 + 26)
  else if '0' ≤ c ∧ c ≤ '9' then some (c.toNat - 48 + 52)
  else if c = '+' ∨ c = '-' then some 62
  else if c = '/' ∨ c = '_' then some 63
  else none

/-- Each sextet is read back from its letter. -/
theorem value_letter : ∀ n < 64, value? (letter n) = some n := by decide

/-- The padding has no value. -/
theorem value_pad : value? '=' = none := by decide

/-- Letters are ASCII. -/
theorem val_letter : ∀ n < 64, (letter n).val ≤ 127 := by decide

/-! ## Encoding -/

/-- Three bytes are four letters; one or two bytes at the end are padded. -/
def encode : List UInt8 → List Char
  | [] => []
  | [a] => [letter (a.toNat / 4), letter (a.toNat % 4 * 16), '=', '=']
  | [a, b] =>
    [letter (a.toNat / 4), letter (a.toNat % 4 * 16 + b.toNat / 16), letter (b.toNat % 16 * 4), '=']
  | a :: b :: c :: rest =>
    letter (a.toNat / 4) :: letter (a.toNat % 4 * 16 + b.toNat / 16) ::
      letter (b.toNat % 16 * 4 + c.toNat / 64) :: letter (c.toNat % 64) :: encode rest

/-- Every character of an encoded text is a letter or the padding. -/
theorem mem_encode {bytes : List UInt8} {x : Char} (h : x ∈ encode bytes) :
    (∃ n < 64, x = letter n) ∨ x = '=' := by
  fun_induction encode bytes with
  | case1 => cases h
  -- one byte over: two letters and twice the pad
  | case2 a =>
    have ha := a.toNat_lt
    simp only [List.mem_cons, List.not_mem_nil, or_false] at h
    rcases h with h | h | h | h
    · exact Or.inl ⟨_, by omega, h⟩
    · exact Or.inl ⟨_, by omega, h⟩
    · exact Or.inr h
    · exact Or.inr h
  -- two bytes over: three letters and the pad
  | case3 a b =>
    have ha := a.toNat_lt
    have hb := b.toNat_lt
    simp only [List.mem_cons, List.not_mem_nil, or_false] at h
    rcases h with h | h | h | h
    · exact Or.inl ⟨_, by omega, h⟩
    · exact Or.inl ⟨_, by omega, h⟩
    · exact Or.inl ⟨_, by omega, h⟩
    · exact Or.inr h
  -- four letters for three bytes
  | case4 a b c rest ih =>
    have ha := a.toNat_lt
    have hb := b.toNat_lt
    have hc := c.toNat_lt
    simp only [List.mem_cons] at h
    rcases h with h | h | h | h | h
    · exact Or.inl ⟨_, by omega, h⟩
    · exact Or.inl ⟨_, by omega, h⟩
    · exact Or.inl ⟨_, by omega, h⟩
    · exact Or.inl ⟨_, by omega, h⟩
    · exact ih h

/-- The letters and the padding are ASCII. -/
theorem val_of_mem_encode {bytes : List UInt8} {x : Char} (h : x ∈ encode bytes) : x.val ≤ 127 := by
  rcases mem_encode h with ⟨n, hn, rfl⟩ | rfl
  · exact val_letter n hn
  · decide

/-- Four letters for each three bytes begun. -/
theorem length_encode (bytes : List UInt8) :
    (encode bytes).length = 4 * ((bytes.length + 2) / 3) := by
  fun_induction encode bytes with
  | case1 => rfl
  | case2 a => simp only [List.length_cons, List.length_nil]
  | case3 a b => simp only [List.length_cons, List.length_nil]
  | case4 a b c rest ih =>
    simp only [List.length_cons, ih]
    omega

/-! ## Decoding -/

/-- The bytes of a run of six-bit values; an incomplete group loses its open bits. -/
def ofSextets : List ℕ → List UInt8
  | a :: b :: c :: d :: rest =>
    UInt8.ofNat (a * 4 + b / 16) :: UInt8.ofNat (b % 16 * 16 + c / 4) ::
      UInt8.ofNat (c % 4 * 64 + d) :: ofSextets rest
  | [a, b, c] => [UInt8.ofNat (a * 4 + b / 16), UInt8.ofNat (b % 16 * 16 + c / 4)]
  | [a, b] => [UInt8.ofNat (a * 4 + b / 16)]
  | _ => []

/-- Characters outside of the alphabet, line ends among them, are skipped. -/
def decode (text : List Char) : List UInt8 := ofSextets (text.filterMap value?)

/-- **The bytes are read back.** -/
theorem decode_encode (bytes : List UInt8) : decode (encode bytes) = bytes := by
  unfold decode
  fun_induction encode bytes with
  | case1 => rfl
  | case2 a =>
    have ha := a.toNat_lt
    simp only [List.filterMap_cons, value_letter _ (show a.toNat / 4 < 64 by omega),
      value_letter _ (show a.toNat % 4 * 16 < 64 by omega), value_pad, List.filterMap_nil, ofSextets]
    rw [show a.toNat / 4 * 4 + a.toNat % 4 * 16 / 16 = a.toNat by omega, UInt8.ofNat_toNat]
  | case3 a b =>
    have ha := a.toNat_lt
    have hb := b.toNat_lt
    simp only [List.filterMap_cons, value_letter _ (show a.toNat / 4 < 64 by omega),
      value_letter _ (show a.toNat % 4 * 16 + b.toNat / 16 < 64 by omega),
      value_letter _ (show b.toNat % 16 * 4 < 64 by omega), value_pad, List.filterMap_nil, ofSextets]
    rw [show a.toNat / 4 * 4 + (a.toNat % 4 * 16 + b.toNat / 16) / 16 = a.toNat by omega,
      show (a.toNat % 4 * 16 + b.toNat / 16) % 16 * 16 + b.toNat % 16 * 4 / 4 = b.toNat by omega,
      UInt8.ofNat_toNat, UInt8.ofNat_toNat]
  | case4 a b c rest ih =>
    have ha := a.toNat_lt
    have hb := b.toNat_lt
    have hc := c.toNat_lt
    simp only [List.filterMap_cons, value_letter _ (show a.toNat / 4 < 64 by omega),
      value_letter _ (show a.toNat % 4 * 16 + b.toNat / 16 < 64 by omega),
      value_letter _ (show b.toNat % 16 * 4 + c.toNat / 64 < 64 by omega),
      value_letter _ (show c.toNat % 64 < 64 by omega), ofSextets]
    rw [show a.toNat / 4 * 4 + (a.toNat % 4 * 16 + b.toNat / 16) / 16 = a.toNat by omega,
      show (a.toNat % 4 * 16 + b.toNat / 16) % 16 * 16 + (b.toNat % 16 * 4 + c.toNat / 64) / 4 =
        b.toNat by omega,
      show (b.toNat % 16 * 4 + c.toNat / 64) % 4 * 64 + c.toNat % 64 = c.toNat by omega,
      UInt8.ofNat_toNat, UInt8.ofNat_toNat, UInt8.ofNat_toNat, ih]

/-! ## Line breaks -/

/-- Break the line after `room` more characters, and then after every `width`. -/
def wrapFrom (width : ℕ) : ℕ → List Char → List Char
  | _, [] => ['\n']
  | 0, c :: cs => '\n' :: c :: wrapFrom width (width - 1) cs
  | room + 1, c :: cs => c :: wrapFrom width room cs

/-- Lines of `width` characters, each ended by a line break; an empty text has none. -/
def wrapLines (width : ℕ) (text : List Char) : List Char :=
  if text = [] then [] else wrapFrom width width text

/-- Line ends do not matter to the decoder. -/
theorem filterMap_wrapFrom (width room : ℕ) (text : List Char) :
    (wrapFrom width room text).filterMap value? = text.filterMap value? := by
  have hbreak : value? '\n' = none := by decide
  fun_induction wrapFrom width room text with
  | case1 room => rw [List.filterMap_cons_none hbreak]
  | case2 c cs ih => rw [List.filterMap_cons_none hbreak, List.filterMap_cons, ih, List.filterMap_cons]
  | case3 room c cs ih => rw [List.filterMap_cons, ih, List.filterMap_cons]

/-- **The round trip through a printed text.** -/
theorem decode_wrapLines_encode (width : ℕ) (bytes : List UInt8) :
    decode (wrapLines width (encode bytes)) = bytes := by
  unfold wrapLines
  split
  · rename_i h
    have hempty := decode_encode bytes
    rw [h] at hempty
    exact hempty
  · have hround := decode_encode bytes
    unfold decode at hround ⊢
    rw [filterMap_wrapFrom]
    exact hround

/-- Each line begun after the first adds its end, and so does the last one. -/
theorem length_wrapFrom {width room : ℕ} (hwidth : 0 < width) (hroom : room ≤ width)
    (text : List Char) : (wrapFrom width room text).length =
      text.length + 1 + (text.length + (width - 1) - room) / width := by
  fun_induction wrapFrom width room text with
  | case1 room =>
    have hdiv : (0 + (width - 1) - room) / width = 0 := Nat.div_eq_of_lt (by omega)
    simp only [List.length_cons, List.length_nil, hdiv]
  | case2 c cs ih =>
    have hdiv : (cs.length + 1 + (width - 1) - 0) / width = cs.length / width + 1 := by
      rw [show cs.length + 1 + (width - 1) - 0 = cs.length + width by omega,
        Nat.add_div_right _ hwidth]
    have hsame : cs.length + (width - 1) - (width - 1) = cs.length := by omega
    simp only [List.length_cons, ih (by omega), hdiv, hsame]
    omega
  | case3 room c cs ih =>
    have hsame : cs.length + 1 + (width - 1) - (room + 1) = cs.length + (width - 1) - room := by omega
    simp only [List.length_cons, ih (by omega), hsame]
    omega

/-- A wrapped text is longer by one line end for each line. -/
theorem length_wrapLines {width : ℕ} (hwidth : 0 < width) (text : List Char) :
    (wrapLines width text).length = text.length + (text.length + (width - 1)) / width := by
  unfold wrapLines
  split
  · rename_i h
    have hdiv : (0 + (width - 1)) / width = 0 := Nat.div_eq_of_lt (by omega)
    rw [h, List.length_nil, hdiv]
  · rename_i h
    have hpos : 0 < text.length := List.length_pos_iff.2 h
    have hdiv : (text.length + (width - 1)) / width =
        (text.length + (width - 1) - width) / width + 1 := by
      rw [show text.length + (width - 1) = text.length + (width - 1) - width + width by omega,
        Nat.add_div_right _ hwidth, Nat.add_sub_cancel]
    rw [length_wrapFrom hwidth (Nat.le_refl _), hdiv]
    omega

/-- Wrapping keeps a text in ASCII. -/
theorem val_of_mem_wrapFrom {width room : ℕ} {text : List Char} (htext : ∀ c ∈ text, c.val ≤ 127) :
    ∀ x ∈ wrapFrom width room text, x.val ≤ 127 := by
  have hbreak : ('\n' : Char).val ≤ 127 := by decide
  fun_induction wrapFrom width room text with
  | case1 room => exact List.forall_mem_singleton.2 hbreak
  | case2 c cs ih =>
    have hrest := ih fun x hx => htext x (List.mem_cons_of_mem c hx)
    exact List.forall_mem_cons.2
      ⟨hbreak, List.forall_mem_cons.2 ⟨htext c List.mem_cons_self, hrest⟩⟩
  | case3 room c cs ih =>
    have hrest := ih fun x hx => htext x (List.mem_cons_of_mem c hx)
    exact List.forall_mem_cons.2 ⟨htext c List.mem_cons_self, hrest⟩

/-- What is printed is ASCII. -/
theorem val_of_mem_wrapLines {width : ℕ} {text : List Char} (htext : ∀ c ∈ text, c.val ≤ 127) :
    ∀ x ∈ wrapLines width text, x.val ≤ 127 := by
  unfold wrapLines
  split
  · exact fun x hx => absurd hx List.not_mem_nil
  · exact val_of_mem_wrapFrom htext

end Base64
