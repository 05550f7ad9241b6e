import ColorSdk.Lib.SortedKV
import ColorSdk.Lib.Lex
import ColorSdk.Lib.Cursor
import Mathlib

/-!
# Keys, stores and prefix ranges

Every store of the SDK maps byte strings to byte strings and is ordered by
`bytes.Compare`, which is the lexicographic order of byte strings.  A byte is
a `Fin 256`, so that the order of keys is Mathlib's lexicographic order on
lists, and the byte `0xFF` is the top byte.

The parent of every wrapping store (prefix, cache) is a `KVStore`, seen through
its contract in `store/types/store.go`: `Get` reads the contents, and
`Iterator(start, end)` walks the keys of `[start, end)` in ascending order
(`ReverseIterator` in descending order), a `nil` bound leaving that side open.

`PrefixEndBytes` (`store/types/utils.go`) computes the exclusive upper bound
of the keys with a given prefix, or `nil` when the prefix is all `0xFF`;
`InclusiveEndBytes` appends a zero byte, the least key above its argument.

## Main definitions

* `Bytes`, `KVStore` — keys and values, and the contents of a store.
* `KVStore.Iterator`, `KVStore.ReverseIterator` — the parent iterator contract.
* `PrefixEndBytes`, `KVStorePrefixIterator`, `KVStoreReversePrefixIterator`.
* `InclusiveEndBytes`.

## Main results

* `inRange_prefixEndBytes` — **`[p, PrefixEndBytes p)` holds exactly the
  extensions of `p`**, for every prefix, empty and all-`0xFF` ones included.
* `mem_KVStorePrefixIterator` — a prefix scan lists the entries under the prefix.
* `prefix_range_exact` — the prefix range, the inclusive end and both prefix
  iterators together.

## References

* src/store/types/store.go, src/store/types/utils.go
-/

namespace ColorSdk

/-- A byte string. -/
abbrev Bytes := List (Fin 256)

/-- Byte literals are numerals of `Fin 256`, whose modulus is not zero. -/
instance instNeZeroByteModulus : NeZero (256 : ℕ) := ⟨by decide⟩

/-- The contents of a `KVStore`. -/
abbrev KVStore := SortedKV Bytes Bytes

namespace KVStore

/-- The parent iterator contract: the entries of `[start, end)`, ascending. -/
def Iterator (P : KVStore) (start endKey : Option Bytes) : List (Bytes × Bytes) :=
  P.range start endKey

/-- The parent iterator contract: the entries of `[start, end)`, descending. -/
def ReverseIterator (P : KVStore) (start endKey : Option Bytes) : List (Bytes × Bytes) :=
  (P.range start endKey).reverse

end KVStore

/-! ### PrefixEndBytes -/

/-- The loop of `PrefixEndBytes`, on the bytes of `end` read from the last one:
a last byte below `0xFF` is incremented, a last `0xFF` is dropped, and when no
byte is left the result is `nil`. -/
def prefixEndLoop : Bytes → Option Bytes
  | [] => none
  | b :: rest => if b ≠ 255 then some ((b + 1) :: rest) else prefixEndLoop rest

/-- The bytes that end a range query for all keys with prefix `pfx`; `none` is
Go's `nil`, an open end. -/
def PrefixEndBytes (pfx : Bytes) : Option Bytes :=
  if pfx.length = 0 then none else (prefixEndLoop pfx.reverse).map List.reverse

theorem byte_top_eq : (⊤ : Fin 256) = 255 := rfl

theorem byte_covBy_add_one {b : Fin 256} (h : b ≠ 255) : b ⋖ b + 1 := by
  have hb : b.val < 255 := by omega
  have hv : (b + 1).val = b.val + 1 := by
    rw [Fin.val_add_one_of_lt]
    exact Fin.lt_def.2 hb
  refine ⟨Fin.lt_def.2 (by omega), fun c h₁ h₂ => ?_⟩
  rw [Fin.lt_def] at h₁ h₂
  omega

theorem prefixEndLoop_eq_none : ∀ {r : Bytes}, prefixEndLoop r = none → r = .replicate r.length ⊤
  | [], _ => rfl
  | b :: rest, h => by
    rw [prefixEndLoop] at h
    split_ifs at h with hb
    push Not at hb
    rw [List.length_cons, List.replicate_succ, prefixEndLoop_eq_none h, List.length_replicate, hb]
    rfl

theorem prefixEndLoop_eq_some : ∀ {r e : Bytes}, prefixEndLoop r = some e →
    ∃ q b m, b ≠ 255 ∧ r = .replicate m ⊤ ++ b :: q ∧ e = (b + 1) :: q
  | [], _, h => nomatch h
  | b :: rest, e, h => by
    rw [prefixEndLoop] at h
    split_ifs at h with hb
    · exact ⟨rest, b, 0, hb, rfl, (Option.some.inj h).symm⟩
    · push Not at hb
      obtain ⟨q, c, m, hc, rfl, rfl⟩ := prefixEndLoop_eq_some h
      exact ⟨q, c, m + 1, hc, by rw [hb]; rfl, rfl⟩

/-- An all-`0xFF` prefix (the empty one included) has an open end. -/
theorem eq_replicate_of_prefixEndBytes_eq_none {p : Bytes} (h : PrefixEndBytes p = none) :
    p = .replicate p.length ⊤ := by
  unfold PrefixEndBytes at h
  split_ifs at h with hp
  · rw [List.length_eq_zero_iff.1 hp]; rfl
  · rw [Option.map_eq_none_iff] at h
    have hr := prefixEndLoop_eq_none h
    rw [List.length_reverse] at hr
    rw [← List.reverse_reverse p, hr, List.reverse_replicate, List.length_replicate]

/-- Otherwise the end increments the last byte below `0xFF` and drops the
`0xFF` bytes after it. -/
theorem eq_of_prefixEndBytes_eq_some {p e : Bytes} (h : PrefixEndBytes p = some e) :
    ∃ q b m, b ≠ 255 ∧ p = q ++ b :: .replicate m ⊤ ∧ e = q ++ [b + 1] := by
  unfold PrefixEndBytes at h
  split_ifs at h
  obtain ⟨e', he', rfl⟩ := Option.map_eq_some_iff.1 h
  obtain ⟨q, b, m, hb, hr, rfl⟩ := prefixEndLoop_eq_some he'
  refine ⟨q.reverse, b, m, hb, ?_, by simp⟩
  rw [← List.reverse_reverse p, hr]
  simp

/-- **`[p, PrefixEndBytes p)` holds exactly the extensions of `p`.** -/
theorem inRange_prefixEndBytes (p x : Bytes) :
    inRange (some p) (PrefixEndBytes p) x = true ↔ p <+: x := by
  cases he : PrefixEndBytes p with
  | none =>
    -- an all-`0xFF` prefix: everything above it extends it
    have hp := eq_replicate_of_prefixEndBytes_eq_none he
    rw [inRange_iff]
    simp only [Option.some.injEq, forall_eq', reduceCtorEq, false_implies, implies_true,
      and_true]
    refine ⟨fun h => ?_, List.le_of_isPrefix⟩
    rw [hp] at h ⊢
    exact List.isPrefix_replicate_top_of_le h
  | some e =>
    obtain ⟨q, b, m, hb, rfl, rfl⟩ := eq_of_prefixEndBytes_eq_some he
    rw [List.isPrefix_iff_of_covBy (byte_covBy_add_one hb), inRange_iff]
    simp

/-- Iterate over all the keys with a certain prefix in ascending order. -/
def KVStorePrefixIterator (kvs : KVStore) (pfx : Bytes) : List (Bytes × Bytes) :=
  kvs.Iterator (some pfx) (PrefixEndBytes pfx)

/-- A prefix scan lists exactly the entries whose keys carry the prefix. -/
theorem mem_KVStorePrefixIterator {kvs : KVStore} {pfx k v : Bytes} :
    (k, v) ∈ KVStorePrefixIterator kvs pfx ↔ kvs.get k = some v ∧ pfx <+: k := by
  rw [KVStorePrefixIterator, KVStore.Iterator, SortedKV.mem_range, inRange_prefixEndBytes]

/-- Iterate over all the keys with a certain prefix in descending order. -/
def KVStoreReversePrefixIterator (kvs : KVStore) (pfx : Bytes) : List (Bytes × Bytes) :=
  kvs.ReverseIterator (some pfx) (PrefixEndBytes pfx)

/-- A descending prefix scan lists the same entries. -/
theorem mem_KVStoreReversePrefixIterator {kvs : KVStore} {pfx k v : Bytes} :
    (k, v) ∈ KVStoreReversePrefixIterator kvs pfx ↔ kvs.get k = some v ∧ pfx <+: k := by
  rw [KVStoreReversePrefixIterator, KVStore.ReverseIterator, List.mem_reverse,
    ← KVStore.Iterator, ← KVStorePrefixIterator, mem_KVStorePrefixIterator]

/-! ### InclusiveEndBytes -/

/-- `InclusiveEndBytes`: the bound that ends a range with its argument included,
the argument followed by a zero byte. -/
def InclusiveEndBytes (inclusiveBytes : Bytes) : Bytes := inclusiveBytes ++ [0]

/-- The keys below `InclusiveEndBytes x` are those up to `x`. -/
theorem lt_InclusiveEndBytes_iff (x k : Bytes) : k < InclusiveEndBytes x ↔ k ≤ x := by
  rw [InclusiveEndBytes, show (0 : Fin 256) = ⊥ from rfl, List.lt_append_bot_iff, not_lt]

/-! ### Prefix ranges are exact -/

/-- **Prefix ranges are exact.**  A key is in `[p, PrefixEndBytes p)`, with no
upper bound when `PrefixEndBytes p` is `nil`, exactly when it extends `p`; the
keys below `InclusiveEndBytes x` are those up to `x`; and both prefix iterators
list exactly the entries under the prefix.  The empty prefix is included: its
end is `nil` and every key extends it. -/
theorem prefix_range_exact :
    (∀ p k : Bytes, (p ≤ k ∧ ∀ e, PrefixEndBytes p = some e → k < e) ↔ p <+: k) ∧
    (∀ x k : Bytes, k < InclusiveEndBytes x ↔ k ≤ x) ∧
    ∀ (kvs : KVStore) (p k v : Bytes),
      ((k, v) ∈ KVStorePrefixIterator kvs p ↔ kvs.get k = some v ∧ p <+: k) ∧
      ((k, v) ∈ KVStoreReversePrefixIterator kvs p ↔ kvs.get k = some v ∧ p <+: k) := by
  refine ⟨fun p k => ?_, lt_InclusiveEndBytes_iff, fun kvs p k v =>
    ⟨mem_KVStorePrefixIterator, mem_KVStoreReversePrefixIterator⟩⟩
  -- the range test of the iterators, with its two bounds spelled out
  have hrange := inRange_prefixEndBytes p k
  rw [inRange_iff] at hrange
  simpa using hrange

end ColorSdk
