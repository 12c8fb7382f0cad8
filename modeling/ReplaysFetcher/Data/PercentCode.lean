/-
  Percent-encoding (`%2F` for a slash): each character of a set is written as the escapes of its
  UTF-8 bytes, the others as themselves.

  1. **Reading back** (`encode_injective`).  While the percent sign is encoded, no two characters
     have codes of which one begins with the other, and a text is determined by its code.
  2. **Undoing one escape** (`substitute_encode`).  Substituting the escape of a character by the
     character takes it out of the set; the escapes of the others stay.
  3. **Sets** (`PercentSet`).  A set that lets escapes through encodes a text at most once.

  The crux of the first two is that every escape has three characters and begins with a percent
  sign, which no digit is, so that escapes are read one after the other.
-/
import ReplaysFetcher.Data.Substitution

namespace PercentCode

open Substitution

/-! ## Codes -/

/-- A hexadecimal digit, in capitals. -/
def hexChar (n : ℕ) : Char := Char.ofNat (if n < 10 then 48 + n else 55 + n)

/-- `%XX` -/
def escape (byte : UInt8) : List Char :=
  ['%', hexChar (byte.toNat / 16), hexChar (byte.toNat % 16)]

/-- The code of a character: itself, or the escapes of its UTF-8 bytes. -/
def code (escapes : Char → Bool) (c : Char) : List Char :=
  if escapes c then (String.utf8EncodeChar c).flatMap escape else [c]

/-- Each character that the set escapes is written as its UTF-8 bytes. -/
def encode (escapes : Char → Bool) (text : List Char) : List Char := text.flatMap (code escapes)

/-- The characters of an escape. -/
def escapeChars : List Char := "%0123456789ABCDEF".toList

variable {escapes : Char → Bool} {a b c : Char} {text text' : List Char}

/-- Nothing to encode. -/
@[simp] theorem encode_nil : encode escapes [] = [] := rfl

/-- The first character is encoded on its own. -/
@[simp] theorem encode_cons : encode escapes (c :: text) = code escapes c ++ encode escapes text :=
  rfl

/-- So is each part of a text. -/
theorem encode_append : encode escapes (text ++ text') = encode escapes text ++ encode escapes text' :=
  List.flatMap_append

/-- An escaped character is its bytes. -/
theorem code_of_escapes (h : escapes c = true) :
    code escapes c = (String.utf8EncodeChar c).flatMap escape := if_pos h

/-- A kept character is itself. -/
theorem code_of_not_escapes (h : escapes c = false) : code escapes c = [c] :=
  if_neg (by rw [h]; decide)

/-- A digit is written with a digit, never with the escape's mark. -/
theorem hexChar_mem : ∀ n < 16, hexChar n ∈ escapeChars ∧ hexChar n ≠ '%' := by decide

/-- Digits are told apart. -/
theorem hexChar_inj : ∀ n < 16, ∀ m < 16, hexChar n = hexChar m → n = m := by decide

/-- The two digits of a byte. -/
theorem digits_lt (byte : UInt8) : byte.toNat / 16 < 16 ∧ byte.toNat % 16 < 16 := by
  have := byte.toNat_lt
  omega

/-- What an escape is written with. -/
theorem mem_escape {byte : UInt8} (h : c ∈ escape byte) : c ∈ escapeChars := by
  obtain ⟨hhigh, hlow⟩ := digits_lt byte
  unfold escape at h
  rcases List.mem_cons.1 h with rfl | h
  · decide
  rcases List.mem_pair.1 h with rfl | rfl
  · exact (hexChar_mem _ hhigh).1
  · exact (hexChar_mem _ hlow).1

/-- Nothing of the set is left in a code, but what escapes are written with. -/
theorem mem_encode (h : c ∈ encode escapes text) :
    c ∈ escapeChars ∨ (c ∈ text ∧ escapes c = false) := by
  obtain ⟨d, hd, hc⟩ := List.mem_flatMap.1 h
  cases hescapes : escapes d with
  | true =>
    rw [code_of_escapes hescapes] at hc
    obtain ⟨byte, _, hbyte⟩ := List.mem_flatMap.1 hc
    exact Or.inl (mem_escape hbyte)
  | false =>
    rw [code_of_not_escapes hescapes, List.mem_singleton] at hc
    subst hc
    exact Or.inr ⟨hd, hescapes⟩

/-- A text that is kept is its own code. -/
theorem encode_eq_self (h : ∀ c ∈ text, escapes c = false) : encode escapes text = text := by
  induction text with
  | nil => rfl
  | cons c text ih =>
    obtain ⟨hc, hrest⟩ := List.forall_mem_cons.1 h
    rw [encode_cons, code_of_not_escapes hc, ih hrest]
    rfl

/-- Only the empty text has an empty code. -/
theorem encode_eq_nil_iff : encode escapes text = [] ↔ text = [] := by
  constructor
  · intro h
    cases text with
    | nil => rfl
    | cons c text =>
      rw [encode_cons, List.append_eq_nil_iff] at h
      have hc := h.1
      unfold code at hc
      split at hc
      · obtain ⟨byte, bytes, hbytes⟩ := List.exists_cons_of_ne_nil (@String.utf8EncodeChar_ne_nil c)
        rw [hbytes, List.flatMap_cons] at hc
        exact absurd hc (List.cons_ne_nil _ _)
      · exact absurd hc (List.cons_ne_nil _ _)
  · rintro rfl
    rfl

/-- What holds of 128 code points holds of every ASCII character. -/
theorem forall_ascii {P : Char → Prop} (h : ∀ n < 128, P (Char.ofNat n)) (hc : c.toNat < 128) :
    P c := by
  have hP := h c.toNat hc
  rwa [Char.ofNat_toNat] at hP

/-- What is below the small letters is the small form of itself only. -/
theorem eq_of_toLower {d : Char} (h : c.toLower = d) (hd : d.toNat < 97) : c = d := by
  unfold Char.toLower at h
  split at h
  · -- a capital letter has a small one
    rename_i hupper
    have hnat : (c.val + ('a'.val - 'A'.val)).toNat = d.toNat := congrArg Char.toNat h
    have hshift : ('a'.val - 'A'.val).toNat = 32 := rfl
    have hlow : 65 ≤ c.val.toNat := UInt32.le_iff_toNat_le.1 hupper.1
    have hhigh : c.val.toNat ≤ 90 := UInt32.le_iff_toNat_le.1 hupper.2
    rw [UInt32.toNat_add, hshift] at hnat
    omega
  · exact h

/-! ## Escapes, one after the other -/

/-- The byte can be read off the front of what is written. -/
theorem escape_append {byte byte' : UInt8} {rest rest' : List Char}
    (h : escape byte ++ rest = escape byte' ++ rest') : byte = byte' ∧ rest = rest' := by
  obtain ⟨hhigh, hlow⟩ := digits_lt byte
  obtain ⟨hhigh', hlow'⟩ := digits_lt byte'
  unfold escape at h
  simp only [List.cons_append, List.nil_append, List.cons.injEq, true_and] at h
  obtain ⟨h1, h2, hrest⟩ := h
  have hdiv := hexChar_inj _ hhigh _ hhigh' h1
  have hmod := hexChar_inj _ hlow _ hlow' h2
  exact ⟨UInt8.toNat_inj.1 (by omega), hrest⟩

/-- The escapes of some bytes begin a text only if the bytes begin those of the text. -/
theorem prefix_of_escapes {bytes bytes' : List UInt8}
    (h : bytes.flatMap escape <+: bytes'.flatMap escape) : bytes <+: bytes' := by
  induction bytes generalizing bytes' with
  | nil => exact List.nil_prefix
  | cons byte bytes ih =>
    obtain ⟨rest, hrest⟩ := h
    cases bytes' with
    | nil => exact absurd hrest (List.cons_ne_nil _ _)
    | cons byte' bytes' =>
      rw [List.flatMap_cons, List.flatMap_cons, List.append_assoc] at hrest
      obtain ⟨rfl, hbytes⟩ := escape_append hrest
      exact List.cons_prefix_cons.2 ⟨rfl, ih ⟨rest, hbytes⟩⟩

/-- No character's UTF-8 bytes begin those of another. -/
theorem eq_of_utf8_prefix (h : String.utf8EncodeChar a <+: String.utf8EncodeChar b) : a = b := by
  obtain ⟨rest, hrest⟩ := h
  have ha := @ByteArray.utf8DecodeChar?_utf8EncodeChar_append rest.toByteArray a
  have hb := @ByteArray.utf8DecodeChar?_utf8EncodeChar_append ByteArray.empty b
  rw [← List.toByteArray_append, hrest] at ha
  rw [ByteArray.append_empty, ha] at hb
  exact Option.some.inj hb

/-- No code begins another. -/
theorem eq_of_code_starts (hpercent : escapes '%' = true)
    (h : code escapes a <+: code escapes b) : a = b := by
  have hhead : ∀ d, escapes d = true → ∃ rest, code escapes d = '%' :: rest := by
    intro d hd
    obtain ⟨byte, bytes, hbytes⟩ := List.exists_cons_of_ne_nil (@String.utf8EncodeChar_ne_nil d)
    rw [code_of_escapes hd, hbytes, List.flatMap_cons]
    exact ⟨_, rfl⟩
  have hplain : ∀ d, escapes d = false → d ≠ '%' := by
    rintro d hd rfl
    rw [hpercent] at hd
    cases hd
  cases ha : escapes a with
  | true =>
    cases hb : escapes b with
    | true =>
      rw [code_of_escapes ha, code_of_escapes hb] at h
      exact eq_of_utf8_prefix (prefix_of_escapes h)
    | false =>
      obtain ⟨rest, hrest⟩ := hhead a ha
      rw [hrest, code_of_not_escapes hb] at h
      exact absurd (List.cons_prefix_cons.1 h).1.symm (hplain b hb)
  | false =>
    rw [code_of_not_escapes ha] at h
    cases hb : escapes b with
    | true =>
      obtain ⟨rest, hrest⟩ := hhead b hb
      rw [hrest] at h
      exact absurd (List.cons_prefix_cons.1 h).1 (hplain a ha)
    | false =>
      rw [code_of_not_escapes hb] at h
      exact (List.cons_prefix_cons.1 h).1

/-- **A text is determined by its code.** -/
theorem encode_injective (hpercent : escapes '%' = true) : Function.Injective (encode escapes) := by
  intro text text' h
  induction text generalizing text' with
  | nil => exact (encode_eq_nil_iff.1 h.symm).symm
  | cons c text ih =>
    cases text' with
    | nil => exact encode_eq_nil_iff.1 h
    | cons c' text' =>
      rw [encode_cons, encode_cons] at h
      have hc : c = c' := by
        rcases List.prefix_or_prefix_of_prefix ⟨_, rfl⟩ ⟨_, h.symm⟩ with hstarts | hstarts
        · exact eq_of_code_starts hpercent hstarts
        · exact (eq_of_code_starts hpercent hstarts).symm
      subst hc
      rw [ih (List.append_cancel_left h)]

/-! ## Undoing one escape -/

/-- The set without one character. -/
def sparing (escapes : Char → Bool) (x : Char) (c : Char) : Bool := escapes c && c ≠ x

/-- Substituting a byte's escape steps over another byte's. -/
theorem substitute_escape_of_ne {byte byte' : UInt8} (h : byte ≠ byte') (image rest : List Char) :
    substitute (escape byte) image (escape byte' ++ rest) =
      escape byte' ++ substitute (escape byte) image rest := by
  obtain ⟨hhigh, hlow⟩ := digits_lt byte'
  have hnot : ¬ escape byte <+: escape byte' ++ rest := by
    rintro ⟨tail, htail⟩
    exact h (escape_append htail).1
  have hdigits : '%' ∉ [hexChar (byte'.toNat / 16), hexChar (byte'.toNat % 16)] := by
    intro hmem
    rcases List.mem_pair.1 hmem with heq | heq
    · exact (hexChar_mem _ hhigh).2 heq.symm
    · exact (hexChar_mem _ hlow).2 heq.symm
  refine (substitute_of_not_starts hnot).trans ?_
  show '%' :: substitute ('%' :: _) image
    ([hexChar (byte'.toNat / 16), hexChar (byte'.toNat % 16)] ++ rest) = _
  rw [substitute_skip hdigits]
  rfl

/-- So it does over any bytes without that one. -/
theorem substitute_escapes {byte : UInt8} {bytes : List UInt8} (h : byte ∉ bytes)
    (image rest : List Char) :
    substitute (escape byte) image (bytes.flatMap escape ++ rest) =
      bytes.flatMap escape ++ substitute (escape byte) image rest := by
  induction bytes with
  | nil => rfl
  | cons byte' bytes ih =>
    rw [List.mem_cons, not_or] at h
    rw [List.flatMap_cons, List.append_assoc, substitute_escape_of_ne h.1, ih h.2,
      List.append_assoc]

/-- An ASCII character is one byte, which is in no other character's bytes. -/
theorem utf8_ascii {x : Char} (h : x.toNat < 0x80) :
    String.utf8EncodeChar x = [UInt8.ofNat x.toNat] := by
  have hle : x.val.toNat ≤ 0x7f := Nat.le_of_lt_succ h
  unfold String.utf8EncodeChar
  simp only [hle, if_true]
  rfl

/-- An ASCII byte only stands in the code of its own character. -/
theorem eq_of_mem_utf8 {x : Char} (hx : x.toNat < 0x80)
    (h : UInt8.ofNat x.toNat ∈ String.utf8EncodeChar c) : c = x := by
  have hmod : (UInt8.ofNat x.toNat).toNat = x.toNat := by
    rw [UInt8.toNat_ofNat']
    omega
  by_cases hc : c.toNat < 0x80
  · rw [utf8_ascii hc, List.mem_singleton] at h
    have hnat := congrArg UInt8.toNat h
    rw [hmod, UInt8.toNat_ofNat', Nat.mod_eq_of_lt (by omega)] at hnat
    exact (Char.toNat_inj.1 hnat).symm
  · -- the bytes of another character are from 0x80 on
    have hall : ∀ byte ∈ String.utf8EncodeChar c, 0x80 ≤ byte.toNat := by
      have hle : ¬ c.val.toNat ≤ 0x7f := fun hle => hc (Nat.lt_succ_of_le hle)
      intro byte hbyte
      unfold String.utf8EncodeChar at hbyte
      simp only [hle, if_false] at hbyte
      split at hbyte
      · simp only [List.mem_cons, List.not_mem_nil, or_false] at hbyte
        rcases hbyte with rfl | rfl <;> rw [UInt8.toNat_ofNat'] <;> omega
      · split at hbyte
        · simp only [List.mem_cons, List.not_mem_nil, or_false] at hbyte
          rcases hbyte with rfl | rfl | rfl <;> rw [UInt8.toNat_ofNat'] <;> omega
        · simp only [List.mem_cons, List.not_mem_nil, or_false] at hbyte
          rcases hbyte with rfl | rfl | rfl | rfl <;> rw [UInt8.toNat_ofNat'] <;> omega
    have hbyte := hall _ h
    rw [hmod] at hbyte
    omega

/-- **Undoing one escape**: the character is written as itself, and the other codes stay. -/
theorem substitute_encode {x : Char} (hx : x.toNat < 0x80) (hpercent : escapes '%' = true)
    (hescapes : escapes x = true) :
    substitute (escape (UInt8.ofNat x.toNat)) [x] (encode escapes text) =
      encode (sparing escapes x) text := by
  induction text with
  | nil => rw [encode_nil, substitute_nil, encode_nil]
  | cons c text ih =>
    rw [encode_cons, encode_cons]
    by_cases hc : c = x
    · -- the escape of the character itself
      subst hc
      have hspared : sparing escapes c c = false := by simp [sparing]
      have hword : escape (UInt8.ofNat c.toNat) ≠ [] := List.cons_ne_nil _ _
      rw [code_of_escapes hescapes, utf8_ascii hx, List.flatMap_singleton,
        substitute_append hword, ih, code_of_not_escapes hspared]
    cases hplain : escapes c with
    | true =>
      have hkept : sparing escapes x c = true := by simp [sparing, hplain, hc]
      rw [code_of_escapes hplain, code_of_escapes hkept,
        substitute_escapes (fun hmem => hc (eq_of_mem_utf8 hx hmem)), ih]
    | false =>
      have hkept : sparing escapes x c = false := by simp [sparing, hplain]
      have hmark : '%' ∉ [c] := by
        intro hmem
        rw [← List.mem_singleton.1 hmem, hpercent] at hplain
        cases hplain
      rw [code_of_not_escapes hplain, code_of_not_escapes hkept]
      exact (substitute_skip hmark).trans (by rw [← ih]; rfl)

/-! ## Sets -/

/-- A percent-encode set.  Only printable ASCII is let through, and an escape always is. -/
structure PercentSet where
  escapes : Char → Bool
  printable : ∀ c, escapes c = false → 0x20 < c.toNat ∧ c.toNat < 0x7f
  keeps : ∀ c ∈ escapeChars, escapes c = false

/-- Nothing in the text is left to encode. -/
def PercentSet.Encoded (set : PercentSet) (text : List Char) : Prop :=
  ∀ c ∈ text, set.escapes c = false

variable {set : PercentSet}

/-- A code has nothing left to escape. -/
theorem PercentSet.encoded_encode (text : List Char) : set.Encoded (encode set.escapes text) := by
  intro c hc
  rcases mem_encode hc with hescape | ⟨_, hplain⟩
  · exact set.keeps c hescape
  · exact hplain

/-- Encoding it once more changes nothing. -/
theorem PercentSet.Encoded.encode_eq (h : set.Encoded text) : encode set.escapes text = text :=
  encode_eq_self h

/-- What is encoded is printable ASCII. -/
theorem PercentSet.Encoded.printable (h : set.Encoded text) :
    ∀ c ∈ text, 0x20 < c.toNat ∧ c.toNat < 0x7f := fun c hc => set.printable c (h c hc)

/-- None of the letters that a set escapes is in an encoded text. -/
theorem PercentSet.Encoded.not_mem (h : set.Encoded text) (hc : c ∈ text) {letters : List Char}
    (hletters : ∀ d ∈ letters, set.escapes d = true) : c ∉ letters := by
  intro hmem
  have hescapes := hletters c hmem
  rw [h c hc] at hescapes
  cases hescapes

end PercentCode
