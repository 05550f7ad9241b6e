import ColorSdk.Staking.PowerIndex
import ColorSdk.Lib.BigEndian
import ColorSdk.Store.Types
import Mathlib

/-!
# The power-index key in bytes

The staking model keys its power index by the pair of a validator's tokens and
its operator address, ordered lexicographically with the address reversed
(`GetValidatorsByPowerIndexKey`).  The store itself is keyed by bytes:
`getValidatorPowerRank` writes the prefix `0x23`, the tokens as a big-endian
`uint64`, and the operator address with every byte complemented, so that among
equal tokens the smaller address sorts last.  `parseValidatorPowerRankKey`
reads the address back.

For addresses of `sdk.AddrLen` bytes and tokens in `[0, 2⁶³)` the byte key is an
order embedding of the pair: byte keys compare as the model's keys do.  So the
loop of `ApplyAndReturnValidatorSetUpdates`, which reads the store from its
highest key down, meets the same validators in the same order as the model's
loop, and meets them by non-increasing potential power.

## Main definitions

* `PutUint64`, `Int64`, `toUint64`, `copyInto` — the Go primitives the key is
  built with.
* `getValidatorPowerRank`, `parseValidatorPowerRankKey`.
* `PowerRankable` — an address of `AddrLen` bytes and tokens in `[0, 2⁶³)`.

## Main results

* `powerRank_lt_iff`, `powerRank_inj`, `parse_powerRank` — the byte key orders
  validators by tokens and then by reversed address, tells them apart, and
  gives the address back.
* `PowerIndexed.scan_power_antitone` — the reverse scan of the power index
  meets validators by non-increasing potential power.
* `power_rank_order_embedding` — the byte key is an order embedding of the
  model's key, and the scan order follows.

## References

* src/x/staking/keeper/key.go, src/x/staking/keeper/val_state_change.go,
  src/types/int.go, src/types/address.go
-/

namespace ColorSdk
namespace Staking

/-- `sdk.AddrLen`. -/
def AddrLen : ℕ := 20

/-- `ValidatorsByPowerIndexKey`, the prefix of the power index. -/
def ValidatorsByPowerIndexKey : Bytes := [0x23]

/-- `sdk.Int.Int64`, which panics with "Int64() out of bound" outside the range
of `int64`; the panic is `none`. -/
def Int64 (i : ℤ) : Option ℤ := if -2 ^ 63 ≤ i ∧ i < 2 ^ 63 then some i else none

/-- Go's conversion `uint64(x)` of an `int64`: the same bits, read unsigned. -/
def toUint64 (x : ℤ) : ℕ := (x % 2 ^ 64).toNat

/-- `binary.BigEndian.PutUint64`: the eight bytes of a `uint64`, most
significant first. -/
def PutUint64 (v : ℕ) : Bytes := BigEndian.encode 256 8 v

/-- Go's `copy` into a fresh zeroed slice of length `n`: the first `n` bytes of
`src`, and zeros after them when `src` is shorter. -/
def copyInto (n : ℕ) (src : Bytes) : Bytes := src.take n ++ List.replicate (n - src.length) 0

/-- `getValidatorPowerRank`: the prefix, the tokens as a big-endian `uint64`,
and the operator address with every byte complemented (`^b` on a byte is
`255 - b`, `Fin.rev`). -/
def getValidatorPowerRank {P : Type} (validator : Validator Bytes P) : Option Bytes := do
  let potentialPower := validator.Tokens
  let tendermintPower ← Int64 potentialPower
  let tendermintPowerBytes := PutUint64 (toUint64 tendermintPower)
  let operAddrInvr := validator.OperatorAddress.map Fin.rev
  -- key is of format prefix || powerbytes || addrBytes
  pure (ValidatorsByPowerIndexKey ++ tendermintPowerBytes ++ copyInto AddrLen operAddrInvr)

/-- `parseValidatorPowerRankKey`: the address bytes of a key, complemented
back; a key of another length panics, modelled as `none`. -/
def parseValidatorPowerRankKey (key : Bytes) : Option Bytes :=
  let powerBytesLen := 8
  if key.length ≠ 1 + powerBytesLen + AddrLen then none
  else some ((key.drop (powerBytesLen + 1)).map Fin.rev)

/-! ### The key of a validator that fits -/

section Key

variable {P : Type}

/-- A validator whose power key is well formed: an address of `AddrLen` bytes,
and tokens that fit an `int64` without being negative, so that the eight bytes
of the power are its big-endian encoding. -/
structure PowerRankable (v : Validator Bytes P) : Prop where
  addrLen : v.OperatorAddress.length = AddrLen
  nonneg : 0 ≤ v.Tokens
  lt : v.Tokens < 2 ^ 63

theorem copyInto_of_length {n : ℕ} {src : Bytes} (h : src.length = n) : copyInto n src = src := by
  rw [copyInto, List.take_of_length_le h.le, h, Nat.sub_self, List.replicate_zero,
    List.append_nil]

theorem PowerRankable.toNat_lt {v : Validator Bytes P} (h : PowerRankable v) :
    v.Tokens.toNat < 256 ^ 8 := by
  have hlt := h.lt
  have hpow : (256 : ℕ) ^ 8 = 2 ^ 64 := by norm_num
  rw [hpow]
  omega

/-- A validator that fits gets the key of its three fields. -/
theorem getValidatorPowerRank_eq {v : Validator Bytes P} (h : PowerRankable v) :
    getValidatorPowerRank v =
      some (ValidatorsByPowerIndexKey ++ PutUint64 v.Tokens.toNat ++ v.OperatorAddress.map Fin.rev) := by
  have hint : Int64 v.Tokens = some v.Tokens := if_pos ⟨by linarith [h.nonneg], h.lt⟩
  have huint : toUint64 v.Tokens = v.Tokens.toNat := by
    rw [toUint64, Int.emod_eq_of_lt h.nonneg (by linarith [h.lt])]
  have hcopy : copyInto AddrLen (v.OperatorAddress.map Fin.rev) = v.OperatorAddress.map Fin.rev :=
    copyInto_of_length (by rw [List.length_map, h.addrLen])
  simp only [getValidatorPowerRank, hint, huint, hcopy, Option.bind_eq_bind, Option.bind_some,
    Option.pure_def]

section TwoValidators

variable {v₁ v₂ : Validator Bytes P} (h₁ : PowerRankable v₁) (h₂ : PowerRankable v₂)
include h₁ h₂

/-- **The byte key orders by tokens, then by reversed address.**  After the
common prefix, the eight token bytes compare as the tokens, and the complemented
addresses of one length compare as the addresses the other way. -/
theorem powerRank_lt_iff :
    ValidatorsByPowerIndexKey ++ PutUint64 v₁.Tokens.toNat ++ v₁.OperatorAddress.map Fin.rev <
        ValidatorsByPowerIndexKey ++ PutUint64 v₂.Tokens.toNat ++ v₂.OperatorAddress.map Fin.rev ↔
      v₁.Tokens < v₂.Tokens ∨ v₁.Tokens = v₂.Tokens ∧ v₂.OperatorAddress < v₁.OperatorAddress := by
  have hlen : (v₁.OperatorAddress.map Fin.rev).length = (v₂.OperatorAddress.map Fin.rev).length := by
    rw [List.length_map, List.length_map, h₁.addrLen, h₂.addrLen]
  rw [List.append_assoc, List.append_assoc, List.append_lt_append_left_iff,
    List.append_lt_append_iff_of_length_eq _ _ (by simp [PutUint64]), PutUint64, PutUint64,
    BigEndian.encode_lt_encode_iff h₁.toNat_lt h₂.toNat_lt,
    BigEndian.encode_inj h₁.toNat_lt h₂.toNat_lt,
    List.map_lt_map_iff_of_strictAnti Fin.rev_strictAnti (by simpa using hlen)]
  have hn₁ := h₁.nonneg
  have hn₂ := h₂.nonneg
  have hlt : v₁.Tokens.toNat < v₂.Tokens.toNat ↔ v₁.Tokens < v₂.Tokens := by omega
  have heq : v₁.Tokens.toNat = v₂.Tokens.toNat ↔ v₁.Tokens = v₂.Tokens := by omega
  rw [hlt, heq]

/-- **Distinct validators have distinct keys.** -/
theorem powerRank_inj :
    ValidatorsByPowerIndexKey ++ PutUint64 v₁.Tokens.toNat ++ v₁.OperatorAddress.map Fin.rev =
        ValidatorsByPowerIndexKey ++ PutUint64 v₂.Tokens.toNat ++ v₂.OperatorAddress.map Fin.rev ↔
      v₁.Tokens = v₂.Tokens ∧ v₁.OperatorAddress = v₂.OperatorAddress := by
  constructor
  · intro hkey
    rw [List.append_assoc, List.append_assoc, List.append_cancel_left_eq] at hkey
    -- the token bytes have one width, so the two fields split apart
    obtain ⟨hpow, haddr⟩ := List.append_inj hkey (by simp [PutUint64])
    have htok := (BigEndian.encode_inj h₁.toNat_lt h₂.toNat_lt).1 hpow
    have hn₁ := h₁.nonneg
    have hn₂ := h₂.nonneg
    exact ⟨by omega, List.map_injective_iff.2 Fin.rev_injective haddr⟩
  · rintro ⟨htok, haddr⟩
    rw [htok, haddr]

end TwoValidators

/-- Parsing a key gives back the address it was built from. -/
theorem parse_powerRank {v : Validator Bytes P} (h : PowerRankable v) :
    parseValidatorPowerRankKey
        (ValidatorsByPowerIndexKey ++ PutUint64 v.Tokens.toNat ++ v.OperatorAddress.map Fin.rev) =
      some v.OperatorAddress := by
  have hhead : (ValidatorsByPowerIndexKey ++ PutUint64 v.Tokens.toNat).length = 8 + 1 := by
    simp [ValidatorsByPowerIndexKey, PutUint64]
  have hlen : (ValidatorsByPowerIndexKey ++ PutUint64 v.Tokens.toNat ++
      v.OperatorAddress.map Fin.rev).length = 1 + 8 + AddrLen := by
    rw [List.length_append, hhead, List.length_map, h.addrLen]
  rw [parseValidatorPowerRankKey, if_neg (not_not.2 hlen), List.drop_left' hhead, List.map_map,
    Fin.rev_involutive.comp_self, List.map_id]

end Key

/-! ### The model's key and the scan of the index -/

section Scan

variable {A P : Type} [LinearOrder A] [LinearOrder P]

omit [LinearOrder P] in
/-- The model's key orders by tokens, then by reversed address. -/
theorem key_lt_iff {v₁ v₂ : Validator A P} :
    GetValidatorsByPowerIndexKey v₁ < GetValidatorsByPowerIndexKey v₂ ↔
      v₁.Tokens < v₂.Tokens ∨ v₁.Tokens = v₂.Tokens ∧ v₂.OperatorAddress < v₁.OperatorAddress := by
  rw [GetValidatorsByPowerIndexKey, GetValidatorsByPowerIndexKey, Prod.Lex.toLex_lt_toLex,
    OrderDual.toDual_lt_toDual]

omit [LinearOrder A] [LinearOrder P] in
/-- Potential power grows with the tokens. -/
theorem PotentialTendermintPower_mono {v₁ v₂ : Validator A P} (h : v₁.Tokens ≤ v₂.Tokens) :
    v₁.PotentialTendermintPower ≤ v₂.PotentialTendermintPower :=
  Int.tdiv_le_tdiv (by decide) h

/-- An entry of the power index holds the key of the validator it names. -/
theorem PowerIndexed.key_of_mem {s : State A P} (h : PowerIndexed s) {e : (ℤ ×ₗ Aᵒᵈ) × A}
    (he : e ∈ s.validatorsByPowerIndex.entries) {v : Validator A P}
    (hv : s.GetValidator e.2 = some v) : GetValidatorsByPowerIndexKey v = e.1 := by
  obtain ⟨w, hw, -, hkey⟩ := (h.get_eq_some_iff e.1 e.2).1 (SortedKV.get_eq_some_iff.2 he)
  rw [hv] at hw
  cases hw
  exact hkey

/-- **The scan meets validators by non-increasing power.**  The loop of
`ApplyAndReturnValidatorSetUpdates` reads the index from its highest key down;
the keys lead with the tokens, so each validator it meets has no more potential
power than the ones before it. -/
theorem PowerIndexed.scan_power_antitone {s : State A P} (h : PowerIndexed s) :
    s.validatorsByPowerIndex.entries.reverse.Pairwise fun e e' =>
      ∀ v v', s.GetValidator e.2 = some v → s.GetValidator e'.2 = some v' →
        v'.PotentialTendermintPower ≤ v.PotentialTendermintPower := by
  rw [List.pairwise_reverse]
  refine s.validatorsByPowerIndex.sorted.imp_of_mem fun {e e'} he he' hlt v v' hv hv' => ?_
  -- `v` sits at the higher key `e'`, `v'` at the lower key `e`
  have hkey : GetValidatorsByPowerIndexKey v' < GetValidatorsByPowerIndexKey v := by
    rw [h.key_of_mem he hv', h.key_of_mem he' hv]
    exact hlt
  apply PotentialTendermintPower_mono
  rcases key_lt_iff.1 hkey with htok | ⟨htok, -⟩
  · exact htok.le
  · exact htok.le

end Scan

/-! ### The order embedding -/

/-- **The power key is an order embedding.**  For validators with addresses of
`AddrLen` bytes and tokens in `[0, 2⁶³)`, the byte key is built without a panic;
one key is above another exactly when its validator has more tokens, or as many
and a smaller address; keys of distinct validators differ; the address parses
back; and byte keys compare as the model's keys.  So the scan of the index from
its highest key, in every state reachable from one whose index is consistent,
meets validators by non-increasing potential power. -/
theorem power_rank_order_embedding {A P : Type} [LinearOrder A] [LinearOrder P]
    (v₁ v₂ : Validator Bytes P) (h₁ : PowerRankable v₁) (h₂ : PowerRankable v₂)
    {s₀ s : State A P} (h₀ : PowerIndexed s₀) (hreach : Reachable s₀ s) :
    (∃ k₁ k₂, getValidatorPowerRank v₁ = some k₁ ∧ getValidatorPowerRank v₂ = some k₂ ∧
      (k₂ < k₁ ↔ v₂.Tokens < v₁.Tokens ∨
        v₁.Tokens = v₂.Tokens ∧ v₁.OperatorAddress < v₂.OperatorAddress) ∧
      (k₁ = k₂ ↔ v₁.Tokens = v₂.Tokens ∧ v₁.OperatorAddress = v₂.OperatorAddress) ∧
      parseValidatorPowerRankKey k₁ = some v₁.OperatorAddress ∧
      (k₁ < k₂ ↔ GetValidatorsByPowerIndexKey v₁ < GetValidatorsByPowerIndexKey v₂)) ∧
    s.validatorsByPowerIndex.entries.reverse.Pairwise fun e e' =>
      ∀ v v', s.GetValidator e.2 = some v → s.GetValidator e'.2 = some v' →
        v'.PotentialTendermintPower ≤ v.PotentialTendermintPower := by
  have hrefines : ValidatorsByPowerIndexKey ++ PutUint64 v₁.Tokens.toNat ++
      v₁.OperatorAddress.map Fin.rev <
        ValidatorsByPowerIndexKey ++ PutUint64 v₂.Tokens.toNat ++ v₂.OperatorAddress.map Fin.rev ↔
      GetValidatorsByPowerIndexKey v₁ < GetValidatorsByPowerIndexKey v₂ := by
    rw [powerRank_lt_iff h₁ h₂, key_lt_iff]
  refine ⟨⟨_, _, getValidatorPowerRank_eq h₁, getValidatorPowerRank_eq h₂,
    (powerRank_lt_iff h₂ h₁).trans (or_congr_right (and_congr_left fun _ => eq_comm)),
    powerRank_inj h₁ h₂, parse_powerRank h₁, hrefines⟩,
    (h₀.reachable hreach).scan_power_antitone⟩

theorem power_rank_order_embedding_sample :
    let v₁ : Validator Bytes ℕ := { NewValidator (List.replicate 20 1) 0 with Tokens := 7 }
    let v₂ : Validator Bytes ℕ := { NewValidator (List.replicate 20 2) 0 with Tokens := 7 }
    PowerRankable v₁ ∧ PowerRankable v₂ ∧ PowerIndexed genesis ∧ Reachable genesis genesis ∧
    (∃ k₁ k₂, getValidatorPowerRank v₁ = some k₁ ∧ getValidatorPowerRank v₂ = some k₂ ∧
      (k₂ < k₁ ↔ v₂.Tokens < v₁.Tokens ∨
        v₁.Tokens = v₂.Tokens ∧ v₁.OperatorAddress < v₂.OperatorAddress) ∧
      (k₁ = k₂ ↔ v₁.Tokens = v₂.Tokens ∧ v₁.OperatorAddress = v₂.OperatorAddress) ∧
      parseValidatorPowerRankKey k₁ = some v₁.OperatorAddress ∧
      (k₁ < k₂ ↔ GetValidatorsByPowerIndexKey v₁ < GetValidatorsByPowerIndexKey v₂)) ∧
    genesis.validatorsByPowerIndex.entries.reverse.Pairwise fun e e' =>
      ∀ v v', genesis.GetValidator e.2 = some v → genesis.GetValidator e'.2 = some v' →
        v'.PotentialTendermintPower ≤ v.PotentialTendermintPower :=
  have h₁ : PowerRankable ({ NewValidator (List.replicate 20 1) 0 with Tokens := 7 } :
      Validator Bytes ℕ) := ⟨rfl, by decide, by decide⟩
  have h₂ : PowerRankable ({ NewValidator (List.replicate 20 2) 0 with Tokens := 7 } :
      Validator Bytes ℕ) := ⟨rfl, by decide, by decide⟩
  ⟨h₁, h₂, genesis_powerIndexed, .refl,
    power_rank_order_embedding _ _ h₁ h₂ genesis_powerIndexed .refl⟩

end Staking
end ColorSdk
