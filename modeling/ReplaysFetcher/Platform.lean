/-
  What the fetcher takes from its platform: JSON, URLs and SHA-256.

  * JSON VALUES are an inductive type.  A property bag has no observable order here, so an object
    is listed by increasing key: then a value has one representation and equality of values is
    equality.  `Json.Canonical` says that a tree is so listed.
  * `JSON.parse` and `JSON.stringify` enter as a pair of functions over an abstract type `Text` of
    bodies, tied by the one law the code relies on: parsing what was stringified gives the value
    back.  What other texts parse to is left open, so a theorem about "any body" is about any
    string, JSON or not.
  * The WHATWG `URL` class and `createHash("sha256")` enter the same way.  The only law about the
    hash is the shape of its hex form; where a result needs that two contents do not collide, it
    says so about these contents.
-/
import ReplaysFetcher.Types
import Mathlib.Data.Rat.Defs
import Mathlib.Order.Basic
import Mathlib.Data.String.Basic

namespace ReplaysFetcher

/-! ## JSON values -/

/-- The values of JSON. -/
inductive Json
  | null
  | bool (b : Bool)
  | num (q : ℚ)
  | str (s : String)
  | arr (elements : List Json)
  | obj (fields : List (String × Json))

/-- Every object of the tree lists its keys in strictly increasing order. -/
inductive Json.Canonical : Json → Prop
  | null : Canonical .null
  | bool (b : Bool) : Canonical (.bool b)
  | num (q : ℚ) : Canonical (.num q)
  | str (s : String) : Canonical (.str s)
  | arr {elements : List Json} (h : ∀ j ∈ elements, Canonical j) : Canonical (.arr elements)
  | obj {fields : List (String × Json)} (hkeys : (fields.map Prod.fst).Pairwise (· < ·))
      (h : ∀ field ∈ fields, Canonical field.2) : Canonical (.obj fields)

/-- An object with these keys is canonical if they are in order and its values are. -/
theorem Json.canonical_obj {fields : List (String × Json)} (keys : List String)
    (hkeys : fields.map Prod.fst = keys) (hsorted : keys.Pairwise (· < ·))
    (h : ∀ field ∈ fields, field.2.Canonical) : Canonical (.obj fields) :=
  .obj (hkeys ▸ hsorted) h

/-! Deriving does not reach through the lists, so equality of values is decided here. -/

mutual

/-- Structural equality is decided. -/
def Json.decEq : (a b : Json) → Decidable (a = b)
  | .null, b => match b with
    | .null => isTrue rfl
    | .bool _ | .num _ | .str _ | .arr _ | .obj _ => isFalse (by intro h; cases h)
  | .bool x, b => match b with
    | .bool y => decidable_of_iff (x = y) ⟨congrArg Json.bool, Json.bool.inj⟩
    | .null | .num _ | .str _ | .arr _ | .obj _ => isFalse (by intro h; cases h)
  | .num x, b => match b with
    | .num y => decidable_of_iff (x = y) ⟨congrArg Json.num, Json.num.inj⟩
    | .null | .bool _ | .str _ | .arr _ | .obj _ => isFalse (by intro h; cases h)
  | .str x, b => match b with
    | .str y => decidable_of_iff (x = y) ⟨congrArg Json.str, Json.str.inj⟩
    | .null | .bool _ | .num _ | .arr _ | .obj _ => isFalse (by intro h; cases h)
  | .arr x, b => match b with
    | .arr y =>
      have := Json.decEqList x y
      decidable_of_iff (x = y) ⟨congrArg Json.arr, Json.arr.inj⟩
    | .null | .bool _ | .num _ | .str _ | .obj _ => isFalse (by intro h; cases h)
  | .obj x, b => match b with
    | .obj y =>
      have := Json.decEqFields x y
      decidable_of_iff (x = y) ⟨congrArg Json.obj, Json.obj.inj⟩
    | .null | .bool _ | .num _ | .str _ | .arr _ => isFalse (by intro h; cases h)

/-- That of arrays. -/
def Json.decEqList : (a b : List Json) → Decidable (a = b)
  | [], [] => isTrue rfl
  | [], _ :: _ => isFalse (by intro h; cases h)
  | _ :: _, [] => isFalse (by intro h; cases h)
  | x :: xs, y :: ys =>
    have := Json.decEq x y
    have := Json.decEqList xs ys
    decidable_of_iff (x = y ∧ xs = ys) (List.cons_eq_cons).symm

/-- That of the fields of objects. -/
def Json.decEqFields : (a b : List (String × Json)) → Decidable (a = b)
  | [], [] => isTrue rfl
  | [], _ :: _ => isFalse (by intro h; cases h)
  | _ :: _, [] => isFalse (by intro h; cases h)
  | (k, x) :: xs, (l, y) :: ys =>
    have := Json.decEq x y
    have := Json.decEqFields xs ys
    decidable_of_iff ((k = l ∧ x = y) ∧ xs = ys) (by rw [List.cons_eq_cons, Prod.mk.injEq])
end

instance : DecidableEq Json := Json.decEq

/-- `value[key]`; `none` is `undefined`. -/
def Json.get (value : Json) (key : String) : Option Json :=
  match value with
  | .obj fields => (fields.find? fun field => field.1 = key).map Prod.snd
  | _ => none

/-! ## URLs -/

/-- A parsed URL, by the parts the fetcher looks at. -/
structure Url where
  protocol : String
  username : String := ""
  password : String := ""
  host : String
  pathname : String
  search : String := ""
  hash : String := ""
  deriving DecidableEq, Repr

/-- The scheme is one of the two the source may have. -/
def Url.IsHttp (url : Url) : Prop := url.protocol = "http:" ∨ url.protocol = "https:"

/-! ## The platform -/

/-- The lower-case hex form of a SHA-256 digest, `/^[\da-f]{64}$/u`. -/
def isSha256Hex (text : String) : Bool :=
  text.length = 64 && text.toList.all fun c => ('0' ≤ c && c ≤ '9') || ('a' ≤ c && c ≤ 'f')

/-- The platform functions the fetcher calls, over stored texts of type `Text`. -/
structure Platform (Text : Type) where
  /-- `JSON.parse`; `none` when it throws. -/
  parse : Text → Option Json
  /-- `JSON.stringify` -/
  stringify : Json → Text
  parse_stringify : ∀ value : Json, value.Canonical → parse (stringify value) = some value
  /-- `createHash("sha256").update(bytes).digest("hex")` -/
  sha256Hex : Bytes → String
  sha256Hex_hex : ∀ bytes, isSha256Hex (sha256Hex bytes)
  /-- `new TextEncoder().encode(text)` -/
  encode : String → Bytes
  /-- `new URL(text)`; `none` when it throws. -/
  parseUrl : String → Option Url
  /-- `url.toString()` -/
  urlToString : Url → String
  urlToString_ne_empty : ∀ url, urlToString url ≠ ""
  /-- `url.searchParams.set(name, value)` -/
  setSearchParam : Url → String → String → Url

namespace Platform

variable {Text : Type} (pf : Platform Text)

/-- `url.username = ""; url.password = ""; url.toString()` -/
def withoutUserinfo (url : Url) : String :=
  pf.urlToString { url with username := "", password := "" }

/-- `url.searchParams.set("p", String(page))`, but for page 1, which is the source URL itself. -/
def toPageUrl (sourceUrl : Url) (page : ℕ) : Url :=
  if page = 1 then sourceUrl else pf.setSearchParam sourceUrl "p" (toString page)

end Platform

/-! ## A platform to compute with

  A text is a JSON value, or `none` for a body that is not JSON; a digest is the first byte of
  the contents, as 64 hex digits; a URL is written as its host.  It is not the real platform, but
  it has the properties above, and every function of the model can be run on it. -/

/-- A digit of a lower-case hexadecimal number. -/
def hexDigit (n : ℕ) : Char := Char.ofNat (if n < 10 then 48 + n else 87 + n)

/-- A digest of 64 digits that tells the shortest contents apart. -/
def toyDigest (bytes : Bytes) : String :=
  let b := (bytes.headD 0).toNat
  String.ofList (List.replicate 62 '0' ++ [hexDigit (b / 16), hexDigit (b % 16)])

/-- It is one. -/
theorem hexDigit_ok : ∀ n < 16, (('0' ≤ hexDigit n && hexDigit n ≤ '9') ||
    ('a' ≤ hexDigit n && hexDigit n ≤ 'f')) = true := by decide

/-- 64 such digits pass for a checksum. -/
theorem isSha256Hex_ofList {digits : List Char} (hlen : digits.length = 64)
    (hall : ∀ c ∈ digits, (('0' ≤ c && c ≤ '9') || ('a' ≤ c && c ≤ 'f')) = true) :
    isSha256Hex (String.ofList digits) := by
  unfold isSha256Hex
  rw [String.length_ofList, String.toList_ofList, Bool.and_eq_true, List.all_eq_true]
  exact ⟨decide_eq_true hlen, hall⟩

/-- So the toy digest does. -/
theorem isSha256Hex_toyDigest (bytes : Bytes) : isSha256Hex (toyDigest bytes) := by
  have hb : (bytes.headD 0).toNat < 256 := UInt8.toNat_lt _
  refine isSha256Hex_ofList (by rw [List.length_append, List.length_replicate]; rfl)
    fun c hc => ?_
  rcases List.mem_append.1 hc with hc | hc
  · obtain rfl := List.eq_of_mem_replicate hc
    decide
  · rcases List.mem_pair.1 hc with rfl | rfl
    · exact hexDigit_ok _ (by omega)
    · exact hexDigit_ok _ (Nat.mod_lt _ (by decide))

/-- A platform whose texts are their own values. -/
def toyPlatform : Platform (Option Json) where
  parse := id
  stringify := some
  parse_stringify _ _ := rfl
  sha256Hex := toyDigest
  sha256Hex_hex := isSha256Hex_toyDigest
  encode text := text.toList.map fun c => UInt8.ofNat c.toNat
  parseUrl text := some { protocol := "https:", host := text, pathname := "" }
  urlToString url := "//" ++ url.host
  urlToString_ne_empty url h := by
    have hlen := congrArg String.length h
    simp [String.length_append] at hlen
  setSearchParam url name value := { url with search := "?" ++ name ++ "=" ++ value }

/-- What it has written it reads. -/
theorem parse_stringify_toyPlatform : ∀ value : Json, value.Canonical →
    toyPlatform.parse (toyPlatform.stringify value) = some value := toyPlatform.parse_stringify

end ReplaysFetcher
