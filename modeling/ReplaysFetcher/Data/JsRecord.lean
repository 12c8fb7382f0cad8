/-
  Property bags: finite maps from strings, with no observable order.

  A `Record<string, V>` is a `Finmap`.  What is added here is the part a program needs on top of
  the map algebra: a CANONICAL listing (`sortedEntries`, by increasing key, the same for equal
  maps), the way back (`ofEntries`), the object spread, and the multiset of values with its sums.
-/
import Mathlib.Data.Finmap
import Mathlib.Data.List.Sort
import Mathlib.Order.Basic
import Mathlib.Data.String.Basic
import Mathlib.Algebra.BigOperators.Group.Finset.Basic

/-- `Record<string, V>` -/
abbrev JsRecord (V : Type) : Type := Finmap fun _ : String => V

namespace JsRecord

variable {V : Type}

/-- The keys in increasing order. -/
def sortedKeys (r : JsRecord V) : List String :=
  Quot.liftOn r.keys.val (List.insertionSort (· ≤ ·)) fun l l' h =>
    ((List.perm_insertionSort _ l).trans (h.trans (List.perm_insertionSort _ l').symm)
      ).eq_of_pairwise' (r := (· ≤ ·)) (List.pairwise_insertionSort _ l)
      (List.pairwise_insertionSort _ l')

/-- Sorting the keys forgets none and adds none. -/
theorem coe_sortedKeys (r : JsRecord V) : (r.sortedKeys : Multiset String) = r.keys.val := by
  unfold sortedKeys
  induction r.keys.val using Quot.ind with
  | mk l => exact Quot.sound (List.perm_insertionSort _ l)

/-- The sorted keys are the record's keys. -/
@[simp] theorem mem_sortedKeys {r : JsRecord V} {k : String} : k ∈ r.sortedKeys ↔ k ∈ r := by
  rw [← Multiset.mem_coe, coe_sortedKeys, ← Finset.mem_def, Finmap.mem_keys]

/-- The sorted keys ascend strictly: each stands once. -/
theorem sortedKeys_pairwise (r : JsRecord V) : r.sortedKeys.Pairwise (· < ·) := by
  have hle : r.sortedKeys.Pairwise (· ≤ ·) := by
    unfold sortedKeys
    induction r.keys.val using Quot.ind with
    | mk l => exact List.pairwise_insertionSort _ _
  have hne : r.sortedKeys.Pairwise (· ≠ ·) := by
    have hnodup := r.keys.nodup
    rw [← coe_sortedKeys] at hnodup
    exact Multiset.coe_nodup.1 hnodup
  exact (hle.and hne).imp fun h => lt_of_le_of_ne h.1 h.2

/-- The properties by increasing key. -/
def sortedEntries (r : JsRecord V) : List (String × V) :=
  r.sortedKeys.filterMap fun k => (r.lookup k).map (Prod.mk k)

/-- The entries are what the record looks up. -/
@[simp] theorem mem_sortedEntries {r : JsRecord V} {k : String} {v : V} :
    (k, v) ∈ r.sortedEntries ↔ r.lookup k = some v := by
  unfold sortedEntries
  rw [List.mem_filterMap]
  constructor
  · rintro ⟨k', _, h⟩
    obtain ⟨v', hv', heq⟩ := Option.map_eq_some_iff.1 h
    cases heq
    exact hv'
  · intro h
    refine ⟨k, ?_, by rw [h]; rfl⟩
    rw [mem_sortedKeys, ← Finmap.lookup_isSome, h]
    rfl

/-- The entries stand in the order of the keys. -/
theorem map_fst_sortedEntries (r : JsRecord V) :
    r.sortedEntries.map Prod.fst = r.sortedKeys := by
  unfold sortedEntries
  rw [List.map_filterMap]
  have hall : ∀ k ∈ r.sortedKeys,
      ((r.lookup k).map (Prod.mk k)).map Prod.fst = some k := fun k hk => by
    have hsome := Finmap.lookup_isSome.2 (mem_sortedKeys.1 hk)
    obtain ⟨v, hv⟩ := Option.isSome_iff_exists.1 hsome
    rw [hv]
    rfl
  calc r.sortedKeys.filterMap (fun k => ((r.lookup k).map (Prod.mk k)).map Prod.fst)
      = r.sortedKeys.filterMap some := List.filterMap_congr hall
    _ = r.sortedKeys := List.filterMap_some

/-- `Object.fromEntries` -/
def ofEntries (l : List (String × V)) : JsRecord V := (l.map Prod.toSigma).toFinmap

/-- The first entry of a key is found; the entries of a record have distinct keys. -/
theorem lookup_ofEntries (l : List (String × V)) (k : String) :
    (ofEntries l).lookup k = (l.map Prod.toSigma).dlookup k :=
  Finmap.dlookup_list_toFinmap ..

/-- With distinct keys the record has just the listed entries. -/
theorem lookup_ofEntries_eq_some {l : List (String × V)} (hl : (l.map Prod.fst).Nodup) {k : String}
    {v : V} : (ofEntries l).lookup k = some v ↔ (k, v) ∈ l := by
  have hnodup : (l.map Prod.toSigma).NodupKeys := by
    have hkeys : (l.map Prod.toSigma).keys = l.map Prod.fst := by
      rw [List.keys, List.map_map]
      rfl
    rw [List.NodupKeys, hkeys]
    exact hl
  rw [lookup_ofEntries, ← Option.mem_def, List.mem_dlookup_iff hnodup, List.mem_map]
  constructor
  · rintro ⟨⟨k', v'⟩, hmem, heq⟩
    cases heq
    exact hmem
  · intro h
    exact ⟨(k, v), h, rfl⟩

/-- No key has two entries. -/
theorem nodup_sortedEntries (r : JsRecord V) : (r.sortedEntries.map Prod.fst).Nodup := by
  rw [map_fst_sortedEntries]
  exact r.sortedKeys_pairwise.imp fun h => ne_of_lt h

/-- Listing a record and reading the list back gives the record. -/
@[simp] theorem ofEntries_sortedEntries (r : JsRecord V) : ofEntries r.sortedEntries = r := by
  refine Finmap.ext_lookup fun k => ?_
  ext v
  rw [lookup_ofEntries_eq_some r.nodup_sortedEntries, mem_sortedEntries]

/-- The same keys, with `f` applied to every value. -/
def map {V' : Type} (f : V → V') (r : JsRecord V) : JsRecord V' :=
  ofEntries (r.sortedEntries.map fun entry => (entry.1, f entry.2))

/-- A mapped record looks up the mapped value. -/
@[simp] theorem lookup_map {V' : Type} (f : V → V') (r : JsRecord V) (k : String) :
    (map f r).lookup k = (r.lookup k).map f := by
  have hnodup : ((r.sortedEntries.map fun entry => (entry.1, f entry.2)).map Prod.fst).Nodup := by
    rw [List.map_map]
    exact r.nodup_sortedEntries
  ext v
  unfold map
  rw [lookup_ofEntries_eq_some hnodup, List.mem_map, Option.map_eq_some_iff]
  constructor
  · rintro ⟨⟨k', v'⟩, hmem, heq⟩
    cases heq
    exact ⟨v', mem_sortedEntries.1 hmem, rfl⟩
  · rintro ⟨v', hv', rfl⟩
    exact ⟨(k, v'), mem_sortedEntries.2 hv', rfl⟩

/-- Mapping keeps the keys. -/
@[simp] theorem mem_map {V' : Type} {f : V → V'} {r : JsRecord V} {k : String} :
    k ∈ map f r ↔ k ∈ r := by
  rw [← Finmap.lookup_isSome, lookup_map, Option.isSome_map, Finmap.lookup_isSome]

/-- `{ ...left, ...right }`: on a common key the right side wins. -/
def spread (left right : JsRecord V) : JsRecord V := right ∪ left

/-- In a spread the right record's entry wins. -/
theorem lookup_spread (left right : JsRecord V) (k : String) :
    (spread left right).lookup k = (right.lookup k).or (left.lookup k) := by
  unfold spread
  cases h : right.lookup k with
  | none =>
    rw [Finmap.lookup_union_right (by rwa [← Finmap.lookup_eq_none]), Option.none_or]
  | some v =>
    rw [Finmap.lookup_union_left (by rw [← Finmap.lookup_isSome, h]; rfl), h, Option.some_or]

/-- A spread has the keys of both. -/
theorem mem_spread {left right : JsRecord V} {k : String} :
    k ∈ spread left right ↔ k ∈ left ∨ k ∈ right := by
  unfold spread
  rw [Finmap.mem_union, or_comm]

/-- Spreading a part of a record over it changes nothing. -/
theorem spread_eq_left {left right : JsRecord V}
    (h : ∀ k v, right.lookup k = some v → left.lookup k = some v) : spread left right = left := by
  refine Finmap.ext_lookup fun k => ?_
  rw [lookup_spread]
  cases hk : right.lookup k with
  | none => rfl
  | some v => rw [h k v hk, Option.some_or]

/-- `Object.values` -/
def values (r : JsRecord V) : Multiset V := r.entries.map Sigma.snd

/-- A new key adds its value. -/
theorem values_insert {r : JsRecord V} {k : String} {v : V} (h : k ∉ r) :
    values (r.insert k v) = v ::ₘ r.values := by
  unfold values
  rw [Finmap.entries_insert_of_notMem h, Multiset.map_cons]

/-- A sum over the values is a sum over the keys. -/
theorem sum_values {M : Type} [AddCommMonoid M] (r : JsRecord V) (f : V → M) :
    (r.values.map f).sum = ∑ k ∈ r.keys, (r.lookup k).elim 0 f := by
  have hkeys : r.keys.val = r.entries.map Sigma.fst := rfl
  unfold values
  rw [Finset.sum, hkeys, Multiset.map_map, Multiset.map_map]
  refine congrArg Multiset.sum (Multiset.map_congr rfl ?_)
  rintro ⟨k, v⟩ hmem
  have hk : r.lookup k = some v := Finmap.lookup_eq_some_iff.2 hmem
  simp only [Function.comp_apply, hk, Option.elim_some]

end JsRecord
