import ColorSdk.Lib.BigEndian
import ColorSdk.Lib.GoText
import Mathlib

/-!
# Zero-padded decimal keys

A store that keys its entries by number often writes the number in decimal with
zeros in front, `fmt.Sprintf("%020d", n)`, so that the keys of one width
compare as the numbers do, and reads it back with `strconv.ParseUint`.  This
file gives the printer, the reader and the conversions between text and bytes,
and proves the two facts such a store needs: the printed digits of a number
that fits the width read back to the number, and the byte strings of two such
printings compare as the numbers.

Text is a list of characters, and `[]byte(s)` on the ASCII text of digits is
one byte per character.

## Main definitions

* `GoText.sprintfZeroPad` — `fmt.Sprintf("%0<width>d", n)` for `n ≥ 0`.
* `GoText.parseUint` — `strconv.ParseUint(s, 10, 64)`.
* `GoText.stringBytes`, `GoText.bytesString` — `[]byte(s)` and `string(b)`.

## Main results

* `GoText.parseUint_sprintfZeroPad` — printed digits read back.
* `GoText.sprintfZeroPad_lt_iff` — **the byte strings of two printings of one
  width compare as the numbers.**
* `GoText.bytesString_stringBytes` — digits survive the trip through bytes.
-/

namespace List

variable {α β : Type*} [LinearOrder α] [LinearOrder β]

/-- A strictly monotone map on the letters keeps the order of words of one
length. -/
theorem map_lt_map_iff_of_strictMono {f : α → β} (hf : StrictMono f) :
    ∀ {l l' : List α}, l.length = l'.length → (l.map f < l'.map f ↔ l < l')
  | [], [], _ => by simp
  | [], _ :: _, h => absurd h (by simp)
  | _ :: _, [], h => absurd h (by simp)
  | x :: l, y :: l', h => by
    have hlen : l.length = l'.length := by simpa using h
    rw [map_cons, map_cons, cons_lt_cons_iff, cons_lt_cons_iff, hf.lt_iff_lt,
      hf.injective.eq_iff, map_lt_map_iff_of_strictMono hf hlen]

end List

namespace GoText

/-! ### The printer and the reader -/

/-- `fmt.Sprintf("%0<width>d", n)` for a non-negative `n`: its decimal digits,
with zeros in front up to `width`. -/
def sprintfZeroPad (width n : ℕ) : List Char :=
  List.replicate (width - (Nat.toDigits 10 n).length) '0' ++ Nat.toDigits 10 n

/-- The loop of `strconv.ParseUint` in base 10: each digit is added to the
number read so far, which must stay below `2 ^ 64`; the first character that is
not a digit is a syntax error, and the first digit that overflows a range
error. -/
def parseUintLoop (n : ℕ) : List Char → Except NumError ℕ
  | [] => .ok n
  | c :: cs =>
    if c.isDigit then
      if 10 * n + (c.toNat - '0'.toNat) < 2 ^ 64 then parseUintLoop (10 * n + (c.toNat - '0'.toNat)) cs
      else .error .ErrRange
    else .error .ErrSyntax

/-- `strconv.ParseUint(s, 10, 64)`: the empty text is a syntax error. -/
def parseUint (s : List Char) : Except NumError ℕ :=
  if s = [] then .error .ErrSyntax else parseUintLoop 0 s

theorem toNat_of_isDigit {c : Char} (h : c.isDigit = true) : 48 ≤ c.toNat ∧ c.toNat ≤ 57 := by
  simpa [Char.isDigit, UInt32.le_iff_toNat_le] using h

theorem isDigit_of_mem_sprintfZeroPad {width n : ℕ} {c : Char} (hc : c ∈ sprintfZeroPad width n) :
    c.isDigit = true := by
  rcases List.mem_append.1 hc with hc | hc
  · rw [List.eq_of_mem_replicate hc]
    decide
  · exact Nat.isDigit_of_mem_toDigits (by decide) (by decide) hc

theorem length_sprintfZeroPad {width n : ℕ} (hw : 0 < width) (hn : n < 10 ^ width) :
    (sprintfZeroPad width n).length = width := by
  have hlen := (Nat.length_toDigits_le_iff (by decide) hw).2 hn
  rw [sprintfZeroPad, List.length_append, List.length_replicate]
  omega

/-- The zeros in front add nothing. -/
theorem ofDigitChars_sprintfZeroPad (width n : ℕ) :
    Nat.ofDigitChars 10 (sprintfZeroPad width n) 0 = n := by
  rw [sprintfZeroPad, Nat.ofDigitChars_append, Nat.ofDigitChars_replicate_zero, Nat.mul_zero,
    Nat.ofDigitChars_ten_toDigits]

/-- Digits whose value fits in 64 bits are read without an error: the number read
so far never exceeds the whole. -/
theorem parseUintLoop_of_digits :
    ∀ {ds : List Char} {n : ℕ}, (∀ c ∈ ds, c.isDigit = true) → Nat.ofDigitChars 10 ds n < 2 ^ 64 →
      parseUintLoop n ds = .ok (Nat.ofDigitChars 10 ds n)
  | [], n, _, _ => by simp [parseUintLoop, Nat.ofDigitChars_nil]
  | c :: cs, n, hds, hlt => by
    have hc := hds c List.mem_cons_self
    rw [Nat.ofDigitChars_cons] at hlt ⊢
    -- the number read after this digit is at most the whole
    have hle : 10 * n + (c.toNat - '0'.toNat) ≤ Nat.ofDigitChars 10 cs (10 * n + (c.toNat - '0'.toNat)) := by
      rw [Nat.ofDigitChars_eq_ofDigitChars_zero]
      exact le_add_right (Nat.le_mul_of_pos_left _ (Nat.pow_pos (by decide)))
    rw [parseUintLoop, if_pos hc, if_pos (by omega)]
    exact parseUintLoop_of_digits (fun c' hc' => hds c' (List.mem_cons_of_mem _ hc')) hlt

/-- **Printed digits read back** to the number, when it fits in 64 bits. -/
theorem parseUint_sprintfZeroPad (width : ℕ) {n : ℕ} (hn : n < 2 ^ 64) :
    parseUint (sprintfZeroPad width n) = .ok n := by
  have hne : sprintfZeroPad width n ≠ [] := by simp [sprintfZeroPad]
  rw [parseUint, if_neg hne, parseUintLoop_of_digits (fun _ hc => isDigit_of_mem_sprintfZeroPad hc)
    (by rwa [ofDigitChars_sprintfZeroPad]), ofDigitChars_sprintfZeroPad]

/-! ### Text and bytes -/

/-- `[]byte(s)` on ASCII text: one byte per character. -/
def stringBytes (s : List Char) : List (Fin 256) := s.map fun c => Fin.ofNat 256 c.toNat

/-- `string(b)`: one character per byte, which is the text the bytes encode when
they are ASCII. -/
def bytesString (b : List (Fin 256)) : List Char := b.map fun x => Char.ofNat x.val

/-- The value of a decimal digit. -/
def digitVal (c : Char) : Fin 10 := Fin.ofNat 10 (c.toNat - 48)

/-- The byte of a decimal digit's character. -/
def digitByte (d : Fin 10) : Fin 256 := Fin.ofNat 256 (48 + d.val)

theorem digitByte_strictMono : StrictMono digitByte := fun a b h => by
  have ha := a.isLt
  have hb := b.isLt
  rw [Fin.lt_def] at h ⊢
  simp only [digitByte, Fin.val_ofNat]
  omega

theorem digitByte_digitVal {c : Char} (hc : c.isDigit = true) :
    digitByte (digitVal c) = Fin.ofNat 256 c.toNat := by
  have := toNat_of_isDigit hc
  apply Fin.ext
  simp only [digitByte, digitVal, Fin.val_ofNat]
  omega

/-- The bytes of a text of digits are the bytes of their values. -/
theorem stringBytes_eq_map {s : List Char} (hs : ∀ c ∈ s, c.isDigit = true) :
    stringBytes s = (s.map digitVal).map digitByte := by
  rw [List.map_map, stringBytes]
  exact List.map_congr_left fun c hc => (digitByte_digitVal (hs c hc)).symm

/-- Big-endian digits write the number the text of the digits does. -/
theorem decode_map_digitVal :
    ∀ {s : List Char}, (∀ c ∈ s, c.isDigit = true) →
      BigEndian.decode (s.map digitVal) = Nat.ofDigitChars 10 s 0
  | [], _ => by simp [BigEndian.decode, Nat.ofDigitChars_nil]
  | c :: cs, hs => by
    have hc := toNat_of_isDigit (hs c List.mem_cons_self)
    have hval : (digitVal c : ℕ) = c.toNat - '0'.toNat := by
      simp only [digitVal, Fin.val_ofNat]
      change (c.toNat - 48) % 10 = c.toNat - 48
      omega
    rw [List.map_cons, BigEndian.decode, decode_map_digitVal fun c' hc' => hs c' (List.mem_cons_of_mem _ hc'),
      List.length_map, Nat.ofDigitChars_cons, Nat.mul_zero, Nat.zero_add, @Nat.ofDigitChars_eq_ofDigitChars_zero cs (c.toNat - '0'.toNat), hval]
    ring

/-- Texts of digits of one length compare, as bytes, as the numbers they write. -/
theorem stringBytes_lt_iff {s t : List Char} (hs : ∀ c ∈ s, c.isDigit = true)
    (ht : ∀ c ∈ t, c.isDigit = true) (hlen : s.length = t.length) :
    stringBytes s < stringBytes t ↔ Nat.ofDigitChars 10 s 0 < Nat.ofDigitChars 10 t 0 := by
  rw [stringBytes_eq_map hs, stringBytes_eq_map ht,
    List.map_lt_map_iff_of_strictMono digitByte_strictMono (by simp [hlen]),
    BigEndian.lt_iff_decode_lt (by simp [hlen]), decode_map_digitVal hs, decode_map_digitVal ht]

/-- **Printings of one width compare as the numbers**, when both fit in it. -/
theorem sprintfZeroPad_lt_iff {width n m : ℕ} (hw : 0 < width) (hn : n < 10 ^ width)
    (hm : m < 10 ^ width) :
    stringBytes (sprintfZeroPad width n) < stringBytes (sprintfZeroPad width m) ↔ n < m := by
  rw [stringBytes_lt_iff (fun _ hc => isDigit_of_mem_sprintfZeroPad hc)
    (fun _ hc => isDigit_of_mem_sprintfZeroPad hc)
    (by rw [length_sprintfZeroPad hw hn, length_sprintfZeroPad hw hm]),
    ofDigitChars_sprintfZeroPad, ofDigitChars_sprintfZeroPad]

/-- Digits survive the trip through bytes. -/
theorem bytesString_stringBytes {s : List Char} (hs : ∀ c ∈ s, c.isDigit = true) :
    bytesString (stringBytes s) = s := by
  rw [bytesString, stringBytes, List.map_map]
  refine (List.map_congr_left fun c hc => ?_).trans (List.map_id s)
  have := toNat_of_isDigit (hs c hc)
  simp only [Function.comp_apply, Fin.val_ofNat, id]
  rw [Nat.mod_eq_of_lt (by omega), Char.ofNat_toNat]

end GoText
