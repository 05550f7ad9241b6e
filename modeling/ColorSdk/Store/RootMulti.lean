import ColorSdk.Store.Types
import Mathlib

/-!
# Multistore proofs

A query against the root multistore is proven in two steps: a proof of the key
in its substore, which yields the substore's commit hash, and a
`MultiStoreProofOp`, which checks that hash against the list of `storeInfo`s it
carries and yields the root hash of the multistore computed from that list.

`commitInfo.Hash` builds a map from store name to the hash of the store's core,
a later entry overwriting an earlier one of the same name, and hashes the map
with `merkle.SimpleHashFromMap`.  `MultiStoreProofOp.Run` accepts a value when
it equals the commit hash of the *first* entry of the list named by the key.
The list comes from the prover, and nothing checks that its names are distinct.

The hash functions, `tmhash` of the amino encoding of a store's core and
`merkle.SimpleHashFromMap`, are parameters of the model (`Hashers`); a Go map is
modelled by its contents, a `SortedKV` of names.  The key of the operation is
read as a store name (`string(op.key)`).

## Main definitions

* `commitInfo.storeMap`, `commitInfo.Hash` — the map of names to core hashes, and
  its hash.
* `MultiStoreProof.ComputeRootHash`, `MultiStoreProofOp.Run` — the proof
  operation.

## Main results

* `commitInfo.get_storeMap` — the map holds the hash of the last entry of each
  name.
* `MultiStoreProofOp.Run_eq_ok_iff` — what the operation accepts.
* `MultiStoreProofOp.Run_eq_ok_iff_of_nodup` — with distinct names, it accepts
  exactly the commit hashes of the cores the root commits to.
* `MultiStoreProofOp.Run_binding_of_nodup` — with injective hashes, two proofs of
  distinct names and one root authenticate one hash for a name.
* `multistore_proof_duplicate_forgery` — a duplicated name lets two proofs of one
  root authenticate different hashes for it, whatever the hash functions.

## References

* src/store/rootmulti/proof.go, src/store/rootmulti/store.go
-/

namespace ColorSdk
namespace RootMulti

/-- `types.CommitID`: a version and the hash committed at it. -/
structure CommitID where
  Version : ℤ
  Hash : Bytes
  deriving DecidableEq, Repr

structure storeCore where
  CommitID : CommitID
  deriving DecidableEq, Repr

/-- The name and core of a substore: a leaf of the multistore's tree. -/
structure storeInfo where
  Name : String
  Core : storeCore
  deriving DecidableEq, Repr

structure commitInfo where
  Version : ℤ
  StoreInfos : List storeInfo
  deriving DecidableEq, Repr

structure MultiStoreProof where
  StoreInfos : List storeInfo
  deriving DecidableEq, Repr

structure MultiStoreProofOp where
  /-- The key of the proof operation, read as a store name. -/
  key : String
  Proof : MultiStoreProof
  deriving DecidableEq, Repr

/-- The hash functions the multistore takes from the crypto libraries. -/
structure Hashers where
  /-- `tmhash` of the amino encoding of a store's core. -/
  tmhashCore : storeCore → Bytes
  /-- `merkle.SimpleHashFromMap`, of the map's contents. -/
  SimpleHashFromMap : SortedKV String Bytes → Bytes

/-- The errors of `MultiStoreProofOp.Run`. -/
inductive ProofError where
  /-- "Value size is not 1" -/
  | valueSizeNotOne
  /-- "hash mismatch for substore %v: %X vs %X", with the substore's name, its
  commit hash and the value. -/
  | hashMismatch (name : String) (hash value : Bytes)
  /-- "key %v not found in multistore proof" -/
  | keyNotFound (key : String)
  deriving DecidableEq, Repr

variable (H : Hashers)

/-- The leaf hash of a substore: the name is left out, since the map's keys
carry it. -/
def storeInfo.Hash (si : storeInfo) : Bytes := H.tmhashCore si.Core

/-- The map `commitInfo.Hash` hashes: each entry written in turn at its name. -/
def commitInfo.storeMap (ci : commitInfo) : SortedKV String Bytes :=
  ci.StoreInfos.foldl (fun m storeInfo => m.set storeInfo.Name (storeInfo.Hash H)) SortedKV.empty

def commitInfo.Hash (ci : commitInfo) : Bytes := H.SimpleHashFromMap (ci.storeMap H)

def MultiStoreProof.ComputeRootHash (proof : MultiStoreProof) : Bytes :=
  (commitInfo.mk (-1) proof.StoreInfos).Hash H

/-- The proof operation: the root hash, if the value is the commit hash of the
first substore named by the key. -/
def MultiStoreProofOp.Run (op : MultiStoreProofOp) (args : List Bytes) :
    Except ProofError (List Bytes) :=
  match args with
  | [value] =>
    let root := op.Proof.ComputeRootHash H
    -- the loop over the store infos returns at the first name that matches
    match op.Proof.StoreInfos.find? (fun si => si.Name = op.key) with
    | some si =>
      if value = si.Core.CommitID.Hash then .ok [root]
      else .error (.hashMismatch si.Name si.Core.CommitID.Hash value)
    | none => .error (.keyNotFound op.key)
  | _ => .error .valueSizeNotOne

/-! ### The map and the operation -/

namespace commitInfo

variable {H}

/-- The map holds, at each name, the hash of the last entry of that name. -/
theorem get_storeMap (ci : commitInfo) (k : String) :
    (ci.storeMap H).get k =
      (ci.StoreInfos.reverse.find? fun si => si.Name = k).map (storeInfo.Hash H) := by
  rw [storeMap, SortedKV.get_foldl_set, SortedKV.get_empty, Option.or_none]

/-- With distinct names, the map holds the hash of each entry at its name. -/
theorem get_storeMap_of_nodup {ci : commitInfo} (hnodup : (ci.StoreInfos.map (·.Name)).Nodup)
    {si : storeInfo} (hsi : si ∈ ci.StoreInfos) : (ci.storeMap H).get si.Name = some (si.Hash H) := by
  rw [get_storeMap, List.find?_reverse_of_nodup_map hnodup,
    List.find?_eq_some_of_nodup_map hnodup hsi, Option.map_some]

/-- Two lists of store infos that read the same at every name hash to the same
root. -/
theorem Hash_eq_of_find? {ci ci' : commitInfo}
    (h : ∀ k, (ci.StoreInfos.reverse.find? fun si => si.Name = k) =
      ci'.StoreInfos.reverse.find? fun si => si.Name = k) : ci.Hash H = ci'.Hash H := by
  have hmap : ci.storeMap H = ci'.storeMap H := by
    apply SortedKV.ext_get
    intro k
    rw [get_storeMap, get_storeMap, h]
  rw [Hash, Hash, hmap]

end commitInfo

namespace MultiStoreProofOp

variable {H}

/-- The operation accepts exactly one value, the commit hash of the first
substore named by the key, and then yields the root hash. -/
theorem Run_eq_ok_iff (op : MultiStoreProofOp) (args r : List Bytes) :
    op.Run H args = .ok r ↔
      ∃ si, op.Proof.StoreInfos.find? (fun si => si.Name = op.key) = some si ∧
        args = [si.Core.CommitID.Hash] ∧ r = [op.Proof.ComputeRootHash H] := by
  match args with
  | [] => simp [Run]
  | [value] =>
    -- the first substore of the key decides
    cases hfind : op.Proof.StoreInfos.find? (fun si => si.Name = op.key) with
    | none => simp [Run, hfind]
    | some si =>
      by_cases hv : value = si.Core.CommitID.Hash
      · have hrun : op.Run H [value] = .ok [op.Proof.ComputeRootHash H] := by
          simp [Run, hfind, hv]
        rw [hrun]
        simp [hv, eq_comm]
      · simp [Run, hfind, hv]
  | _ :: _ :: _ => simp [Run]

/-- **Soundness for distinct names.**  When the proof names each substore
once, an accepted value is the commit hash of the core whose hash the root's
map holds at the key. -/
theorem Run_sound_of_nodup {op : MultiStoreProofOp}
    (hnodup : (op.Proof.StoreInfos.map (·.Name)).Nodup) {v : Bytes} {r : List Bytes}
    (hrun : op.Run H [v] = .ok r) :
    r = [op.Proof.ComputeRootHash H] ∧ ∃ core : storeCore, core.CommitID.Hash = v ∧
      ((commitInfo.mk (-1) op.Proof.StoreInfos).storeMap H).get op.key =
        some (H.tmhashCore core) := by
  obtain ⟨si, hfind, hv, hr⟩ := (Run_eq_ok_iff op [v] r).1 hrun
  have hname : si.Name = op.key := by simpa using List.find?_some hfind
  have hmem : si ∈ op.Proof.StoreInfos := List.mem_of_find?_eq_some hfind
  refine ⟨hr, si.Core, (List.singleton_inj.1 hv).symm, ?_⟩
  rw [← hname]
  exact commitInfo.get_storeMap_of_nodup hnodup hmem

/-- **Binding for distinct names.**  With injective hashes, two proofs that
name each substore once and hash to the same root accept the same value for a
name. -/
theorem Run_binding_of_nodup (hmap : Function.Injective H.SimpleHashFromMap)
    (hcore : Function.Injective H.tmhashCore) {k : String} {P₁ P₂ : MultiStoreProof}
    (h₁ : (P₁.StoreInfos.map (·.Name)).Nodup) (h₂ : (P₂.StoreInfos.map (·.Name)).Nodup)
    (hroot : P₁.ComputeRootHash H = P₂.ComputeRootHash H) {v₁ v₂ : Bytes}
    {r₁ r₂ : List Bytes} (hr₁ : Run H ⟨k, P₁⟩ [v₁] = .ok r₁) (hr₂ : Run H ⟨k, P₂⟩ [v₂] = .ok r₂) :
    v₁ = v₂ := by
  obtain ⟨-, c₁, rfl, hget₁⟩ := Run_sound_of_nodup h₁ hr₁
  obtain ⟨-, c₂, rfl, hget₂⟩ := Run_sound_of_nodup h₂ hr₂
  -- one root is the hash of one map
  have hsame : (commitInfo.mk (-1) P₁.StoreInfos).storeMap H =
      (commitInfo.mk (-1) P₂.StoreInfos).storeMap H := hmap hroot
  rw [hsame, hget₂, Option.some_inj] at hget₁
  rw [hcore hget₁]

end MultiStoreProofOp

/-! ### Duplicated names -/

/-- **A duplicated name forges a substore hash.**  For every choice of the hash
functions, a proof that lists store `k` with commit hash `h₁` and then again
with `h₂` hashes to the root of the proof that lists it once with `h₂`, whose
map holds the core of `h₂` at `k`.  The first proof accepts `h₁` for `k` and
the second accepts `h₂`, both yielding that root. -/
theorem multistore_proof_duplicate_forgery (k : String) (h₁ h₂ : Bytes) :
    let forged : MultiStoreProof := ⟨[⟨k, ⟨⟨0, h₁⟩⟩⟩, ⟨k, ⟨⟨0, h₂⟩⟩⟩]⟩
    let honest : MultiStoreProof := ⟨[⟨k, ⟨⟨0, h₂⟩⟩⟩]⟩
    forged.ComputeRootHash H = honest.ComputeRootHash H ∧
    ((commitInfo.mk (-1) forged.StoreInfos).storeMap H).get k = some (H.tmhashCore ⟨⟨0, h₂⟩⟩) ∧
    MultiStoreProofOp.Run H ⟨k, forged⟩ [h₁] = .ok [forged.ComputeRootHash H] ∧
    MultiStoreProofOp.Run H ⟨k, honest⟩ [h₂] = .ok [forged.ComputeRootHash H] := by
  intro forged honest
  -- the later entry of `k` overwrites the earlier one
  have hroot : forged.ComputeRootHash H = honest.ComputeRootHash H := by
    apply commitInfo.Hash_eq_of_find?
    intro k'
    by_cases hk : k = k' <;> simp [forged, honest, hk]
  refine ⟨hroot, ?_, ?_, ?_⟩
  · simp [commitInfo.get_storeMap, forged, storeInfo.Hash]
  · simp [MultiStoreProofOp.Run, forged]
  · simp [MultiStoreProofOp.Run, honest, hroot]

end RootMulti
end ColorSdk
