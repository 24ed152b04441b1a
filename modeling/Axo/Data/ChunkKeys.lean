import Axo.Consensus.Replication
import Axo.Lib.Slices
import Mathlib.Algebra.BigOperators.Group.Finset.Basic
import Mathlib.Tactic.Linarith

/-!
# Chunks and their keys

`core/data/chunking.py`: how a dataset is cut into chunks, and the path that each of them is
stored under.

* `chunkKey_inj`: a path determines the dataset and the index, whatever the name is, since version
  and index are written without a slash;
* `sum_expectedChunkLen`: the lengths of the chunks add up to the size.
-/

namespace Axo

/-- The key of a chunk: the kind of its backend and its `FsKey`. -/
structure BlobKey where
  kind : String
  path : String
  deriving DecidableEq

/-- `k` times the digit zero. -/
def zeros (k : ℕ) : String := String.ofList (List.replicate k '0')

/-- `f"{index:08d}"`. -/
def padded : ℤ → String
  | .ofNat n => zeros (8 - n.repr.length) ++ n.repr
  | .negSucc n => "-" ++ zeros (7 - (n + 1).repr.length) ++ (n + 1).repr

/-- `chunk_key`. -/
def chunkKey (kind : String) (key : RecordKey) (index : ℤ) : BlobKey where
  kind := kind
  path := key.id ++ "/" ++ key.version.repr ++ "/chunk_" ++ padded index

theorem repr_injective : Function.Injective Int.repr := fun m n h => by
  have hread : intOfStr m.repr.toList = intOfStr n.repr.toList := by rw [h]
  rw [intOfStr_repr, intOfStr_repr] at hread
  exact Option.some.inj hread

theorem ofDigitChars_padded (n : ℕ) :
    Nat.ofDigitChars 10 (padded (n : ℤ)).toList 0 = n := by
  have htext : (padded (n : ℤ)).toList =
      List.replicate (8 - n.repr.length) '0' ++ n.repr.toList := by
    show (zeros _ ++ n.repr).toList = _
    simp [zeros]
  rw [htext, Nat.ofDigitChars_append, Nat.ofDigitChars_replicate_zero, Nat.mul_zero,
    Nat.toList_repr, Nat.ofDigitChars_toDigits (by decide) (by decide)]

theorem padded_injective {m n : ℕ} (h : padded (m : ℤ) = padded (n : ℤ)) : m = n := by
  rw [← ofDigitChars_padded m, h, ofDigitChars_padded]

theorem isDigit_of_mem_padded {n : ℕ} {c : Char} (hc : c ∈ (padded (n : ℤ)).toList) :
    c.isDigit = true := by
  have htext : (padded (n : ℤ)).toList =
      List.replicate (8 - n.repr.length) '0' ++ n.repr.toList := by
    show (zeros _ ++ n.repr).toList = _
    simp [zeros]
  rw [htext, List.mem_append] at hc
  rcases hc with hc | hc
  · rw [List.eq_of_mem_replicate hc]
    decide
  · exact isDigit_of_mem_repr hc

/-- The characters of an integer. -/
theorem mem_repr {n : ℤ} {c : Char} (h : c ∈ n.repr.toList) : c = '-' ∨ c.isDigit = true := by
  cases n with
  | ofNat n => exact .inr (isDigit_of_mem_repr (n := n) h)
  | negSucc n =>
    simp only [Int.repr, String.toList_append, List.mem_append] at h
    rcases h with h | h
    · exact .inl (List.mem_singleton.1 h)
    · exact .inr (isDigit_of_mem_repr h)

theorem slash_notMem_repr (n : ℤ) : '/' ∉ n.repr.toList := by
  intro h
  rcases mem_repr h with h | h <;> exact absurd h (by decide)

/-- The path of a chunk as a list of characters. -/
theorem toList_path (kind : String) (key : RecordKey) (index : ℤ) :
    (chunkKey kind key index).path.toList =
      (key.id.toList ++ '/' :: key.version.repr.toList) ++
        '/' :: ("chunk_".toList ++ (padded index).toList) := by
  simp [chunkKey]

theorem slash_notMem_file (n : ℕ) : '/' ∉ "chunk_".toList ++ (padded (n : ℤ)).toList := by
  rw [List.mem_append, not_or]
  exact ⟨by simp, fun h => absurd (isDigit_of_mem_padded h) (by decide)⟩

/-- Different chunks have different paths. -/
theorem chunkKey_inj {kind kind' : String} {key key' : RecordKey} {i j : ℕ} :
    chunkKey kind key i = chunkKey kind' key' j ↔ kind = kind' ∧ key = key' ∧ i = j := by
  constructor
  · intro h
    have hkind : kind = kind' := congrArg BlobKey.kind h
    have hpath := congrArg (fun k : BlobKey => k.path.toList) h
    simp only [toList_path] at hpath
    rw [Slices.append_cons_inj (slash_notMem_file i) (slash_notMem_file j),
      Slices.append_cons_inj (slash_notMem_repr _) (slash_notMem_repr _)] at hpath
    obtain ⟨⟨hid, hversion⟩, hfile⟩ := hpath
    refine ⟨hkind, ?_, padded_injective (String.toList_inj.1 (List.append_cancel_left hfile))⟩
    have hid' := String.toList_inj.1 hid
    have hversion' := repr_injective (String.toList_inj.1 hversion)
    cases key
    cases key'
    exact congrArg₂ RecordKey.mk hid' hversion'
  · rintro ⟨rfl, rfl, rfl⟩
    rfl

example : (chunkKey "fs" { id := "b/d", version := -2 } 17).path = "b/d/-2/chunk_00000017" := by
  decide

/-! ### The chunks of a size -/

/-- `expected_chunk_len`. -/
def expectedChunkLen (totalSize chunkBytes index : ℤ) : ℤ :=
  if index = DataRegistry.totalChunksFor totalSize chunkBytes - 1 then totalSize - index * chunkBytes
  else chunkBytes

/-- The number of chunks is the size divided by the length of a chunk, rounded up. -/
theorem totalChunksFor_spec {totalSize chunkBytes : ℤ} (hsize : 0 < totalSize)
    (hbytes : 0 < chunkBytes) :
    0 < DataRegistry.totalChunksFor totalSize chunkBytes ∧
      totalSize ≤ chunkBytes * DataRegistry.totalChunksFor totalSize chunkBytes ∧
      chunkBytes * (DataRegistry.totalChunksFor totalSize chunkBytes - 1) < totalSize := by
  have hchunks : DataRegistry.totalChunksFor totalSize chunkBytes = -(-totalSize / chunkBytes) := by
    rw [DataRegistry.totalChunksFor, if_neg (by omega), Int.fdiv_eq_ediv_of_nonneg _ hbytes.le]
  have hlow := Int.mul_ediv_self_le (x := -totalSize) hbytes.ne'
  have hhigh := Int.lt_mul_ediv_self_add (x := -totalSize) hbytes
  rw [hchunks]
  refine ⟨?_, by linarith, by linarith⟩
  by_contra hneg
  have hnonneg : 0 ≤ chunkBytes * (-totalSize / chunkBytes) :=
    mul_nonneg hbytes.le (by omega)
  omega

theorem totalChunksFor_nonpos {totalSize chunkBytes : ℤ} (hsize : totalSize ≤ 0) :
    DataRegistry.totalChunksFor totalSize chunkBytes = 0 := if_pos hsize

/-- All chunks but the last have the full length. -/
theorem sum_full_chunks {totalSize chunkBytes : ℤ} {m : ℕ}
    (hm : (m : ℤ) < DataRegistry.totalChunksFor totalSize chunkBytes) :
    ((List.range m).map fun i : ℕ => expectedChunkLen totalSize chunkBytes i).sum =
      m * chunkBytes := by
  induction m with
  | zero => simp
  | succ m ih =>
    have hlast : (m : ℤ) ≠ DataRegistry.totalChunksFor totalSize chunkBytes - 1 := by
      push_cast at hm
      omega
    rw [List.range_succ, List.map_append, List.sum_append, ih (by push_cast at hm; omega)]
    simp only [List.map_cons, List.map_nil, List.sum_cons, List.sum_nil, expectedChunkLen,
      if_neg hlast]
    push_cast
    ring

/-- The lengths of the chunks add up to the size. -/
theorem sum_expectedChunkLen {totalSize chunkBytes : ℤ}
    (hchunks : 0 < DataRegistry.totalChunksFor totalSize chunkBytes) :
    ((List.range (DataRegistry.totalChunksFor totalSize chunkBytes).toNat).map
      fun i : ℕ => expectedChunkLen totalSize chunkBytes i).sum = totalSize := by
  obtain ⟨m, hm⟩ : ∃ m : ℕ, DataRegistry.totalChunksFor totalSize chunkBytes = m + 1 :=
    ⟨(DataRegistry.totalChunksFor totalSize chunkBytes - 1).toNat, by omega⟩
  have hlast : (m : ℤ) = DataRegistry.totalChunksFor totalSize chunkBytes - 1 := by omega
  have htoNat : (DataRegistry.totalChunksFor totalSize chunkBytes).toNat = m + 1 := by omega
  rw [htoNat, List.range_succ, List.map_append, List.sum_append, sum_full_chunks (by omega)]
  simp only [List.map_cons, List.map_nil, List.sum_cons, List.sum_nil, expectedChunkLen,
    if_pos hlast]
  ring

/-- The slices of `chunkBytes` bytes have the lengths that are expected. -/
theorem length_slice_eq {data : List UInt8} {chunkBytes i : ℕ} (hbytes : 0 < chunkBytes)
    (hi : (i : ℤ) < DataRegistry.totalChunksFor data.length chunkBytes) :
    ((Slices.slice chunkBytes data i).length : ℤ) =
      expectedChunkLen data.length chunkBytes i := by
  have hdata : 0 < data.length := by
    rcases Nat.eq_zero_or_pos data.length with hzero | hpos
    · rw [hzero, totalChunksFor_nonpos (by simp)] at hi
      omega
    · exact hpos
  have hlen : (0 : ℤ) < data.length := by omega
  have hbytes : (0 : ℤ) < chunkBytes := by omega
  obtain ⟨-, hupper, hlower⟩ := totalChunksFor_spec hlen hbytes
  rw [Slices.length_slice]
  unfold expectedChunkLen
  split_ifs with hlast
  · have hlen : (i * chunkBytes : ℕ) < data.length ∧ data.length ≤ i * chunkBytes + chunkBytes := by
      rw [← hlast] at hlower
      rw [show DataRegistry.totalChunksFor (data.length : ℤ) chunkBytes = (i : ℤ) + 1 by omega]
        at hupper
      constructor <;> zify <;> linarith
    rw [min_eq_right (by omega)]
    push_cast [Nat.cast_sub hlen.1.le]
    rfl
  · have hfull : (i + 1) * chunkBytes ≤ data.length := by
      have hle : ((i : ℤ) + 1) * chunkBytes ≤
          chunkBytes * (DataRegistry.totalChunksFor data.length chunkBytes - 1) := by
        rw [mul_comm (chunkBytes : ℤ)]
        exact mul_le_mul_of_nonneg_right (by omega) (by omega)
      zify
      linarith
    rw [Nat.add_one_mul] at hfull
    rw [min_eq_left (by omega)]

/-- The chunks cover the data. -/
theorem length_le_totalChunks {data : List UInt8} {chunkBytes : ℕ} (hbytes : 0 < chunkBytes) :
    data.length ≤ (DataRegistry.totalChunksFor data.length chunkBytes).toNat * chunkBytes := by
  rcases Nat.eq_zero_or_pos data.length with hzero | hpos
  · rw [hzero]
    exact Nat.zero_le _
  · have hlen : (0 : ℤ) < data.length := by omega
    have hbytes : (0 : ℤ) < chunkBytes := by omega
    obtain ⟨hchunks, hupper, -⟩ := totalChunksFor_spec hlen hbytes
    zify
    rw [Int.toNat_of_nonneg hchunks.le]
    linarith

end Axo
