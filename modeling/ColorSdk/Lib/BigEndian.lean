import ColorSdk.Lib.Lex
import Mathlib.Order.Monotone.Basic
import Mathlib.Tactic.Ring

/-!
# Fixed-width big-endian keys

Keys of ordered byte stores are often concatenations of fixed-width fields: a
number written in `n` big-endian digits, a string with every letter mapped
through an order-reversing map (a byte complemented), and so on.  The
lexicographic order on such keys is the order of the fields taken one after the
other, as long as each field has one width in every key.  This file proves that
for the two kinds of field: `n` big-endian base-`b` digits compare as the
numbers they write, and words of one length mapped letter by letter through a
strictly antitone map compare the other way.

## Main definitions

* `BigEndian.encode` — the `n` lowest base-`b` digits of a number, most
  significant first.
* `BigEndian.decode` — the number a list of base-`b` digits writes.

## Main results

* `BigEndian.decode_encode` — decoding gives the number back modulo `bⁿ`.
* `BigEndian.lt_iff_decode_lt` — digit lists of one length compare as the
  numbers they write.
* `BigEndian.encode_lt_encode_iff` — below `bⁿ`, encodings compare as the numbers.
* `List.append_lt_append_iff_of_length_eq` — keys compare field by field.
* `List.map_lt_map_iff_of_strictAnti` — a strictly antitone map on the letters
  reverses the order of words of one length.
-/

namespace List

variable {α β : Type*} [LinearOrder α] [LinearOrder β]

/-- Words whose first fields have one length compare field by field. -/
theorem append_lt_append_iff_of_length_eq :
    ∀ {p q : List α} (a c : List α), p.length = q.length →
      (p ++ a < q ++ c ↔ p < q ∨ p = q ∧ a < c)
  | [], [], a, c, _ => by simp
  | [], _ :: _, _, _, h => absurd h (by simp)
  | _ :: _, [], _, _, h => absurd h (by simp)
  | x :: p, y :: q, a, c, h => by
    have hlen : p.length = q.length := by simpa using h
    rw [cons_append, cons_append, cons_lt_cons_iff, cons_lt_cons_iff,
      append_lt_append_iff_of_length_eq a c hlen, cons_eq_cons]
    simp only [and_or_left, or_assoc, and_assoc]

/-- A strictly antitone map on the letters reverses the order of words of one
length. -/
theorem map_lt_map_iff_of_strictAnti {f : α → β} (hf : StrictAnti f) :
    ∀ {l l' : List α}, l.length = l'.length → (l.map f < l'.map f ↔ l' < l)
  | [], [], _ => by simp
  | [], _ :: _, h => absurd h (by simp)
  | _ :: _, [], h => absurd h (by simp)
  | x :: l, y :: l', h => by
    have hlen : l.length = l'.length := by simpa using h
    rw [map_cons, map_cons, cons_lt_cons_iff, cons_lt_cons_iff, hf.lt_iff_gt,
      hf.injective.eq_iff, map_lt_map_iff_of_strictAnti hf hlen]
    exact or_congr_right (and_congr_left fun _ => eq_comm)

end List

namespace BigEndian

variable {b : ℕ} [NeZero b]

/-- The `n` lowest base-`b` digits of `v`, most significant first. -/
def encode (b : ℕ) [NeZero b] : ℕ → ℕ → List (Fin b)
  | 0, _ => []
  | n + 1, v => Fin.ofNat b (v / b ^ n) :: encode b n v

/-- The number a list of base-`b` digits writes, most significant first. -/
def decode : List (Fin b) → ℕ
  | [] => 0
  | d :: ds => d * b ^ ds.length + decode ds

@[simp] theorem length_encode (n v : ℕ) : (encode b n v).length = n := by
  induction n with
  | zero => rfl
  | succ n ih => rw [encode, List.length_cons, ih]

omit [NeZero b] in
theorem decode_lt (ds : List (Fin b)) : decode ds < b ^ ds.length := by
  induction ds with
  | nil => simp [decode]
  | cons d ds ih =>
    -- the leading digit counts at most `b - 1` units of `b ^ ds.length`
    have hd : (d : ℕ) + 1 ≤ b := d.isLt
    calc decode (d :: ds) = d * b ^ ds.length + decode ds := rfl
      _ < d * b ^ ds.length + b ^ ds.length := Nat.add_lt_add_left ih _
      _ = (d + 1) * b ^ ds.length := by ring
      _ ≤ b * b ^ ds.length := Nat.mul_le_mul_right _ hd
      _ = b ^ (d :: ds).length := by rw [List.length_cons, pow_succ']

theorem decode_encode (n v : ℕ) : decode (encode b n v) = v % b ^ n := by
  induction n with
  | zero => simp [encode, decode, Nat.mod_one]
  | succ n ih =>
    rw [encode, decode, length_encode, ih, Fin.val_ofNat, Nat.mod_pow_succ]
    ring

/-- A leading digit outweighs anything after it. -/
theorem mul_add_lt_mul_add_iff {B d e x y : ℕ} (hx : x < B) (hy : y < B) :
    d * B + x < e * B + y ↔ d < e ∨ d = e ∧ x < y := by
  constructor
  · intro h
    rcases lt_trichotomy d e with hde | rfl | hed
    · exact .inl hde
    · exact .inr ⟨rfl, by omega⟩
    · have hle : (e + 1) * B ≤ d * B := Nat.mul_le_mul_right B hed
      rw [Nat.succ_mul] at hle
      omega
  · rintro (hde | ⟨rfl, hxy⟩)
    · have hle : (d + 1) * B ≤ e * B := Nat.mul_le_mul_right B hde
      rw [Nat.succ_mul] at hle
      omega
    · omega

omit [NeZero b] in
/-- Digit lists of one length compare as the numbers they write. -/
theorem lt_iff_decode_lt :
    ∀ {ds es : List (Fin b)}, ds.length = es.length → (ds < es ↔ decode ds < decode es)
  | [], [], _ => by simp [decode]
  | [], _ :: _, h => absurd h (by simp)
  | _ :: _, [], h => absurd h (by simp)
  | d :: ds, e :: es, h => by
    have hlen : ds.length = es.length := by simpa using h
    have hds : decode ds < b ^ es.length := hlen ▸ decode_lt ds
    rw [List.cons_lt_cons_iff, lt_iff_decode_lt hlen, decode, decode, hlen,
      mul_add_lt_mul_add_iff hds (decode_lt es), Fin.lt_def, Fin.val_inj]

/-- Below `bⁿ`, encodings compare as the numbers they encode. -/
theorem encode_lt_encode_iff {n v w : ℕ} (hv : v < b ^ n) (hw : w < b ^ n) :
    encode b n v < encode b n w ↔ v < w := by
  rw [lt_iff_decode_lt (by simp), decode_encode, decode_encode, Nat.mod_eq_of_lt hv,
    Nat.mod_eq_of_lt hw]

/-- Below `bⁿ`, distinct numbers have distinct encodings. -/
theorem encode_inj {n v w : ℕ} (hv : v < b ^ n) (hw : w < b ^ n) :
    encode b n v = encode b n w ↔ v = w := by
  constructor
  · intro h
    have hdec := congrArg decode h
    rwa [decode_encode, decode_encode, Nat.mod_eq_of_lt hv, Nat.mod_eq_of_lt hw] at hdec
  · rintro rfl
    rfl

end BigEndian
