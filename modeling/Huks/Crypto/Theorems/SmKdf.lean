import Huks.Crypto.SmKdf
import Huks.Crypto.Theorems.PublicKeyFormat
import Huks.Engine.SmImportWrapKey
import Huks.Lib.BlockStream

namespace Huks.InPlace

open OutBuffer EStateM

section Definition

variable (lib : Sm3Library) (z : Bytes)

-- The digests of `z` and a counter of four bytes, which starts with one
def kdfBlock (i : Nat) : Bytes := lib.sm3 (z ++ bigEndianBytes 4 (i + 1))

def smKdf (n : Nat) : Bytes := streamTake (kdfBlock lib z) n

theorem length_kdfBlock (i : Nat) : (kdfBlock lib z i).length = 32 := lib.sm3_size _

end Definition

section Inputs

theorem counterBytes_eq {n : Nat} (h : n < UInt32.size) : counterBytes n.toUInt32 = bigEndianBytes 4 n := by
  have hn : n.toUInt32.toNat = n := UInt32.toNat_ofNat_of_lt' h
  have hbyte (k : UInt32) (i : Nat) (hk : k.toNat % 32 = 8 * i) :
      (n.toUInt32 >>> k &&& 0xFF).toUInt8 = (n / 256 ^ i).toUInt8 := by
    have hmask : (0xFF : UInt32).toNat = 2 ^ 8 - 1 := rfl
    have hpow : 2 ^ (8 * i) = 256 ^ i := Nat.pow_mul 2 8 i
    rw [← UInt8.toNat_inj, UInt32.toNat_toUInt8, UInt32.toNat_and, hmask, Nat.and_two_pow_sub_one_eq_mod,
      UInt32.toNat_shiftRight, hn, hk, Nat.shiftRight_eq_div_pow, hpow, Nat.mod_mod]
    exact UInt8.toNat_ofNat'.symm
  have hbytes : bigEndianBytes 4 n =
      [(n / 256 ^ 3).toUInt8, (n / 256 ^ 2).toUInt8, (n / 256 ^ 1).toUInt8, (n / 256 ^ 0).toUInt8] := rfl
  rw [hbytes, ← hbyte 24 3 rfl, ← hbyte 16 2 rfl, ← hbyte 8 1 rfl, ← hbyte 0 0 rfl]
  rfl

variable {kekData factor : Bytes}

-- The two blobs can be put behind each other.
def Appendable (kekData factor : Bytes) : Prop :=
  kekData ≠ [] ∧ factor ≠ [] ∧ mallocOk (kekData.length + factor.length)

instance : Decidable (Appendable kekData factor) := inferInstanceAs (Decidable (_ ∧ _))

theorem appendedSize (h : kekData.length + factor.length < UInt32.size) :
    (kekData.size + factor.size).toNat = kekData.length + factor.length ∧
      (kekData.size + factor.size - kekData.size).toNat = factor.length := by
  have hkek : kekData.size.toNat = kekData.length := UInt32.toNat_ofNat_of_lt' (by omega)
  have hsize : (kekData.size + factor.size).toNat = kekData.length + factor.length := by
    rw [Bytes.size, Bytes.size, ← UInt32.ofNat_add]
    exact UInt32.toNat_ofNat_of_lt' h
  refine ⟨hsize, ?_⟩
  rw [UInt32.toNat_sub_of_le _ _ (UInt32.le_iff_toNat_le.mpr (by omega)), hsize, hkek]
  omega

theorem appendKekAndFactor_ok (h : Appendable kekData factor) :
    appendKekAndFactor kekData factor = .ok (kekData ++ factor) := by
  obtain ⟨hkek, hfactor, hmalloc⟩ := h
  have hle : 0 < kekData.length + factor.length ∧ kekData.length + factor.length ≤ 0x800000 :=
    mallocOk_iff.mp hmalloc
  have hkekPos := List.length_pos_iff.mpr hkek
  have hfactorPos := List.length_pos_iff.mpr hfactor
  have ⟨hsize, hrest⟩ := @appendedSize kekData factor (by rw [UInt32.size]; omega)
  have hmax : secureMemMaxLen = 0x7fffffff := rfl
  let room : Bytes := .replicate (kekData.length + factor.length) 0
  let block : OutBuffer := ⟨room, room.length.toUInt32⟩
  have hblock : block.room.length = kekData.length + factor.length := List.length_replicate
  have hcopy : (do
      discard <| memcpyInto 0 (kekData.length + factor.length) kekData
      discard <| memcpyInto kekData.length factor.length factor : OutM HksErrorCode PUnit).run block =
        .ok ⟨⟩ { block with room := kekData ++ factor } := by
    rw [run_bind, discard_memcpyInto_run (by omega) (by omega) (by omega)]
    dsimp only
    rw [discard_memcpyInto_behind (by omega) (Nat.le_refl _) (Nat.zero_add _) (by omega),
      splice_all (by rw [List.length_append, hblock])]
  simp only [appendKekAndFactor, hsize, hmalloc, hkek, hfactor, hrest, if_false, not_true_eq_false]
  exact inBlock_run hcopy

-- What cannot be appended is refused.
theorem appendKekAndFactor_refused (hwrap : kekData.length + factor.length < UInt32.size)
    (h : ¬Appendable kekData factor) : ∃ e, appendKekAndFactor kekData factor = .error (.error e) := by
  by_cases hfactor : factor = []
  case pos => exact ⟨_, if_pos hfactor⟩
  case neg =>
    by_cases hkek : kekData = []
    case pos =>
      refine ⟨.invalidArgument, ?_⟩
      simp only [appendKekAndFactor, hfactor, hkek, if_false, if_true]
      rfl
    case neg =>
      have hmalloc : ¬mallocOk (kekData.length + factor.length) := fun hmalloc => h ⟨hkek, hfactor, hmalloc⟩
      refine ⟨.mallocFail, ?_⟩
      simp only [appendKekAndFactor, hfactor, hkek, (appendedSize hwrap).1, hmalloc, if_false]
      rfl

end Inputs

section Rounds

-- The number of the blocks of a key, and how much of a block is in the key
def blockCount (size : UInt32) : UInt32 := (size - 1) / hksDigestSm3Len + 1

theorem blockCount_toNat {size : UInt32} (h : 0 < size.toNat) :
    (blockCount size).toNat = (size.toNat - 1) / 32 + 1 := by
  have hsub : (size - 1).toNat = size.toNat - 1 := UInt32.toNat_sub_of_le _ _ (UInt32.le_iff_toNat_le.mpr h)
  have hdiv : ((size - 1) / hksDigestSm3Len).toNat = (size.toNat - 1) / 32 := by
    rw [UInt32.toNat_div, hsub]
    rfl
  have hlt := size.toNat_lt
  exact (toNat_add_of_lt (by rw [hdiv, UInt32.size]; change _ + 1 < _; omega)).trans (congrArg (· + 1) hdiv)

theorem isLastRound {size : UInt32} {i : Nat} (h : 0 < size.toNat) (hi : i < (blockCount size).toNat) :
    i.toUInt32 = blockCount size - 1 ↔ i = (size.toNat - 1) / 32 := by
  have hcount := blockCount_toNat h
  have hlt := size.toNat_lt
  have hiNat : i.toUInt32.toNat = i := UInt32.toNat_ofNat_of_lt' (by rw [UInt32.size]; omega)
  have hlast : (blockCount size - 1).toNat = (size.toNat - 1) / 32 := by
    rw [UInt32.toNat_sub_of_le _ _ (UInt32.le_iff_toNat_le.mpr (by change 1 ≤ _; omega)), hcount]
    rfl
  rw [← UInt32.toNat_inj, hiNat, hlast]

theorem digestLength_toNat {size digestLength : UInt32} {i : Nat} (h : 0 < size.toNat)
    (hi : i < (blockCount size).toNat) (hdigest : digestLength = 32) :
    (if i.toUInt32 = blockCount size - 1 ∧ size % hksDigestSm3Len ≠ 0 then size % hksDigestSm3Len
      else digestLength).toNat = min 32 (size.toNat - 32 * i) := by
  have hcount := blockCount_toNat h
  have hlt := size.toNat_lt
  have hmod : (size % hksDigestSm3Len).toNat = size.toNat % 32 := UInt32.toNat_mod ..
  have hwhole : size % hksDigestSm3Len ≠ 0 ↔ size.toNat % 32 ≠ 0 := by
    rw [ne_eq, ← UInt32.toNat_inj, hmod]
    rfl
  split
  case isTrue hpart =>
    rw [isLastRound h hi, hwhole] at hpart
    rw [hmod]
    omega
  case isFalse hfull =>
    rw [isLastRound h hi, hwhole] at hfull
    rw [hdigest]
    change 32 = _
    omega

-- What the variables of the loop hold before a round
structure RoundState (z : Bytes) (size : UInt32) (k : Nat) (s : SmKdfLoop) : Prop where
  input        : ∃ tail : Bytes, s.inputHash = z ++ tail ∧ tail.length = 4
  counter      : s.counter = (k + 1).toUInt32
  digestLength : k < (blockCount size).toNat → s.digestLength = 32

-- Nothing behind the key is touched.
structure Framed (out t : OutBuffer) : Prop where
  size   : t.size = out.size
  length : t.room.length = out.room.length
  behind : t.room.drop out.size.toNat = out.room.drop out.size.toNat

variable {lib : Sm3Library} {z : Bytes} {out : OutBuffer} {k i : Nat} {s : SmKdfLoop}

theorem framed_splice {bytes : Bytes} (hbytes : bytes.length ≤ out.size.toNat)
    (hheld : out.size.toNat ≤ out.room.length) : Framed out { out with room := splice out.room 0 bytes } := by
  refine ⟨rfl, length_splice (by omega), ?_⟩
  dsimp only
  rw [splice, List.take_zero, List.nil_append, List.drop_append, List.drop_of_length_le hbytes, List.drop_drop,
    List.nil_append]
  congr 1
  omega

-- The buffer after `k` rounds
def filled (lib : Sm3Library) (z : Bytes) (out : OutBuffer) (k : Nat) : OutBuffer :=
  { out with room := splice out.room 0 ((blocks (kdfBlock lib z) k).take out.size.toNat) }

theorem framed_filled (hheld : out.size.toNat ≤ out.room.length) : Framed out (filled lib z out k) :=
  framed_splice (List.length_take_le _ _) hheld

-- What `k` rounds end with
def AfterRounds (lib : Sm3Library) (z : Bytes) (out : OutBuffer) (k : Nat) :
    Result (Stop HksErrorCode) OutBuffer SmKdfLoop → Prop
  | .ok s t             => (∀ i < k, ¬lib.fails i) ∧ RoundState z out.size k s ∧ t = filled lib z out k
  | .error (.error _) t => (∃ i < k, lib.fails i) ∧ Framed out t
  | .error .outside _   => False

theorem inputHash_ok {tail : Bytes} {counter : UInt32} (hz : z.length < UInt32.size) (htail : tail.length = 4) :
    inBlock (z ++ tail) (discard (memcpyInto z.size.toNat 4 (counterBytes counter)) : OutM HksErrorCode PUnit) =
      .ok (z ++ counterBytes counter) := by
  have hsize : z.size.toNat = z.length := UInt32.toNat_ofNat_of_lt' hz
  have hcounter : (counterBytes counter).length = 4 := rfl
  have hmiddle := @splice_middle _ z tail (counterBytes counter) [] (by omega)
  rw [List.append_nil, List.append_nil] at hmiddle
  rw [hsize, inBlock_run (discard_memcpyInto_run (by decide) (Nat.le_of_eq hcounter)
    (by rw [List.length_append]; omega)), hmiddle]

-- The blocks so far, and what a round puts behind them
theorem filled_succ (hn : 0 < out.size.toNat) (hi : i < (blockCount out.size).toNat) :
    (blocks (kdfBlock lib z) i).take out.size.toNat = blocks (kdfBlock lib z) i ∧
      (blocks (kdfBlock lib z) (i + 1)).take out.size.toNat =
        blocks (kdfBlock lib z) i ++ (kdfBlock lib z i).take (min 32 (out.size.toNat - 32 * i)) := by
  have hlen := length_blocks (length_kdfBlock lib z) i
  have hcount := blockCount_toNat hn
  have hblock := length_kdfBlock lib z i
  refine ⟨List.take_of_length_le (by omega), ?_⟩
  rw [blocks_succ, List.take_append, List.take_of_length_le (by omega), hlen]
  congr 1
  obtain hle | hle := Nat.le_total 32 (out.size.toNat - 32 * i)
  · rw [Nat.min_eq_left hle, List.take_of_length_le (by omega), List.take_of_length_le (by omega)]
  · rw [Nat.min_eq_right hle]

-- The copy of a digest, or of the front of the last one
theorem copyDigest_run {length : Nat} (hn : 0 < out.size.toNat) (hheld : out.size.toNat ≤ out.room.length)
    (hi : i < (blockCount out.size).toNat) (hlength : length = min 32 (out.size.toNat - 32 * i)) :
    (discard (memcpyInto (hksDigestSm3Len * i.toUInt32).toNat length ((kdfBlock lib z i).take length)) :
      OutM HksErrorCode PUnit).run (filled lib z out i) = .ok ⟨⟩ (filled lib z out (i + 1)) := by
  have hcount := blockCount_toNat hn
  have hlt := out.size.toNat_lt
  have hmax : secureMemMaxLen = 0x7fffffff := rfl
  have ⟨hfull, hnext⟩ := @filled_succ lib z _ _ hn hi
  have hblocks := length_blocks (length_kdfBlock lib z) i
  have htake : ((kdfBlock lib z i).take length).length = length := by
    rw [List.length_take, length_kdfBlock]
    omega
  have hplace : (hksDigestSm3Len * i.toUInt32).toNat = 32 * i := by
    have hiNat : i.toUInt32.toNat = i := UInt32.toNat_ofNat_of_lt' (by rw [UInt32.size]; omega)
    rw [UInt32.toNat_mul, hiNat]
    exact Nat.mod_eq_of_lt (by change 32 * i < _; omega)
  rw [hplace, filled, filled, hfull, hnext, ← hlength]
  exact discard_memcpyInto_behind (by omega) (Nat.le_of_eq htake) (by rw [hblocks, Nat.zero_add]) (by omega)

theorem smKdfRound_run (hz : z ≠ [] ∧ z.length < UInt32.size) (hn : 0 < out.size.toNat)
    (hheld : out.size.toNat ≤ out.room.length) (hi : i < (blockCount out.size).toNat)
    (hbefore : ∀ j < i, ¬lib.fails j) (hs : RoundState z out.size i s) :
    AfterRounds lib z out (i + 1)
      ((smKdfRound lib z.size (blockCount out.size) out.size s i).run (filled lib z out i)) := by
  obtain ⟨tail, hinput, htail⟩ := hs.input
  have hcount := blockCount_toNat hn
  have hlt := out.size.toNat_lt
  have hcounter : counterBytes s.counter = bigEndianBytes 4 (i + 1) := by
    rw [hs.counter, counterBytes_eq (by rw [UInt32.size]; omega)]
  have hne : z ++ bigEndianBytes 4 (i + 1) ≠ [] := fun hnil => hz.1 (List.append_eq_nil_iff.mp hnil).1
  have hhash : inBlock s.inputHash (discard (memcpyInto z.size.toNat 4 (counterBytes s.counter)) :
      OutM HksErrorCode PUnit) = .ok (z ++ bigEndianBytes 4 (i + 1)) := by
    rw [hinput, inputHash_ok hz.2 htail, hcounter]
  rw [smKdfRound, hhash, reading_ok_bind]
  by_cases hfails : lib.fails i
  case pos =>
    have hdigest : hksOpensslHash lib i (z ++ bigEndianBytes 4 (i + 1)) = .error .cryptoEngineError := by
      rw [hksOpensslHash, if_neg hne, if_pos hfails]
      rfl
    rw [hdigest]
    exact ⟨⟨i, Nat.lt_succ_self i, hfails⟩, framed_filled hheld⟩
  case neg =>
    have hdigest : hksOpensslHash lib i (z ++ bigEndianBytes 4 (i + 1)) = .ok (kdfBlock lib z i) := by
      rw [hksOpensslHash, if_neg hne, if_neg hfails]
      rfl
    have hcopy := @copyDigest_run lib z _ _ _ hn hheld hi
      (digestLength_toNat hn hi (hs.digestLength hi))
    rw [hdigest]
    change AfterRounds lib z out (i + 1) ((discard _ >>= fun _ => pure _ : OutM HksErrorCode SmKdfLoop).run _)
    rw [run_bind, hcopy]
    refine ⟨fun j hj => ?_, ⟨⟨_, rfl, BigNum.length_bigEndianBytes _ _⟩, ?_, fun hmore => ?_⟩, rfl⟩
    · obtain hlt | rfl := Nat.lt_succ_iff_lt_or_eq.mp hj
      · exact hbefore j hlt
      · exact hfails
    · rw [hs.counter]
      exact (UInt32.ofNat_add (i + 1) 1).symm
    · -- This is not the last block.
      have hlast : ¬(i.toUInt32 = blockCount out.size - 1 ∧ out.size % hksDigestSm3Len ≠ 0) := by
        rw [isLastRound hn hi]
        omega
      exact (if_neg hlast).trans (hs.digestLength hi)

-- All the rounds, one behind the other
theorem smKdfRounds_run {s : SmKdfLoop} (hz : z ≠ [] ∧ z.length < UInt32.size) (hn : 0 < out.size.toNat)
    (hheld : out.size.toNat ≤ out.room.length) (hk : k ≤ (blockCount out.size).toNat)
    (hs : RoundState z out.size 0 s) :
    AfterRounds lib z out k
      (((List.range k).foldlM (smKdfRound lib z.size (blockCount out.size) out.size) s).run out) := by
  induction k
  case zero =>
    have hnone : filled lib z out 0 = out := by
      rw [filled, blocks, List.range_zero, List.flatMap_nil, List.take_nil, splice_nil]
    exact ⟨fun _ h => absurd h (Nat.not_lt_zero _), hs, hnone.symm⟩
  case succ k ih =>
    rw [List.range_succ, List.foldlM_append, run_bind]
    have hrun := ih (by omega)
    cases hresult : ((List.range k).foldlM (smKdfRound lib z.size (blockCount out.size) out.size) s).run out
    case ok s' t =>
      rw [hresult] at hrun
      obtain ⟨hbefore, hs', rfl⟩ := hrun
      have hround := smKdfRound_run hz hn hheld (by omega) hbefore hs'
      simpa only [List.foldlM_cons, List.foldlM_nil, bind_pure] using hround
    case error e t =>
      rw [hresult] at hrun
      cases e
      case outside => exact hrun
      case error =>
        obtain ⟨⟨i, hi, hfails⟩, hframed⟩ := hrun
        exact ⟨⟨i, by omega, hfails⟩, hframed⟩

end Rounds

section Kdf

-- A key and an info whose sizes, and the one of the counter, have a sum of 32 bits
structure KdfRequest where
  mainKey : Bytes
  info    : Bytes
  sum_lt  : mainKey.length + info.length + 4 < UInt32.size

-- The buffer for the key. There may be more behind it.
structure KdfBuffer where
  out  : OutBuffer
  held : out.size.toNat ≤ out.room.length

-- What a key is derived from, and that no digest fails
def Derives (lib : Sm3Library) (request : KdfRequest) (n : Nat) : Prop :=
  Appendable request.mainKey request.info ∧ n ≠ 0 ∧ mallocOk (request.mainKey.length + request.info.length + 4) ∧
    ∀ i < (n - 1) / 32 + 1, ¬lib.fails i

theorem initialInput {z : Bytes} (h : mallocOk (z.length + 4)) :
    ∃ tail : Bytes, inBlock (.replicate (z.length + 4) 0) (discard (memcpyInto 0 (z.length + 4) z) :
      OutM HksErrorCode PUnit) = .ok (z ++ tail) ∧ tail.length = 4 := by
  have hle : 0 < z.length + 4 ∧ z.length + 4 ≤ 0x800000 := mallocOk_iff.mp h
  have hmax : secureMemMaxLen = 0x7fffffff := rfl
  have hblock : (List.replicate (z.length + 4) (0 : UInt8)).length = z.length + 4 := List.length_replicate
  refine ⟨(List.replicate (z.length + 4) 0).drop z.length, ?_, by rw [List.length_drop]; omega⟩
  rw [inBlock_run (discard_memcpyInto_run (by omega) (by omega) (by dsimp only; omega))]
  dsimp only
  rw [splice, List.take_zero, List.nil_append, Nat.zero_add]

theorem filled_all {lib : Sm3Library} {z : Bytes} {out : OutBuffer} (hn : 0 < out.size.toNat) :
    filled lib z out (blockCount out.size).toNat =
      { out with room := smKdf lib z out.size.toNat ++ out.room.drop out.size.toNat } := by
  have hcount := blockCount_toNat hn
  have hlen : (smKdf lib z out.size.toNat).length = out.size.toNat := by
    rw [smKdf, streamTake, List.length_take, length_blocks (length_kdfBlock lib z)]
    omega
  rw [filled, take_blocks (length_kdfBlock lib z) (by decide) (by omega)]
  change { out with room := splice out.room 0 (smKdf lib z out.size.toNat) } = _
  rw [splice, List.take_zero, List.nil_append, Nat.zero_add, hlen]

theorem Framed.refl (out : OutBuffer) : Framed out out := ⟨rfl, rfl, rfl⟩

variable (lib : Sm3Library) (request : KdfRequest) (buffer : KdfBuffer)

theorem hashSize_toNat : (Bytes.size (request.mainKey ++ request.info) + 4).toNat =
    request.mainKey.length + request.info.length + 4 := by
  have hsum := request.sum_lt
  have hsize : (Bytes.size (request.mainKey ++ request.info)).toNat = request.mainKey.length + request.info.length := by
    rw [← List.length_append]
    exact UInt32.toNat_ofNat_of_lt' (by rw [List.length_append]; omega)
  exact (toNat_add_of_lt (by rw [hsize]; exact hsum)).trans (congrArg (· + 4) hsize)

-- Behind the checks: all the rounds
theorem hksOpensslSmKdf_rounds (hn : buffer.out.size ≠ 0) (happend : Appendable request.mainKey request.info)
    (hmalloc : mallocOk (request.mainKey.length + request.info.length + 4)) :
    ∃ s, RoundState (request.mainKey ++ request.info) buffer.out.size 0 s ∧
      (hksOpensslSmKdf lib request.mainKey request.info).run buffer.out =
        (discard <| (List.range (blockCount buffer.out.size).toNat).foldlM (smKdfRound lib
          (Bytes.size (request.mainKey ++ request.info)) (blockCount buffer.out.size) buffer.out.size) s).run
            buffer.out := by
  have hlen : (request.mainKey ++ request.info).length = request.mainKey.length + request.info.length :=
    List.length_append
  rw [← hlen] at hmalloc
  obtain ⟨tail, hinput, htail⟩ := initialInput hmalloc
  have hhash : (Bytes.size (request.mainKey ++ request.info) + 4).toNat =
      (request.mainKey ++ request.info).length + 4 := by rw [hashSize_toNat, hlen]
  refine ⟨⟨request.mainKey ++ request.info ++ tail, hksDigestSm3Len, 1⟩, ⟨⟨tail, rfl, htail⟩, rfl, fun _ => rfl⟩, ?_⟩
  have hargs : ¬(request.mainKey = [] ∨ buffer.out.size = 0) := not_or.mpr ⟨happend.1, hn⟩
  rw [hksOpensslSmKdf, run_bind]
  change (if request.mainKey = [] ∨ buffer.out.size = 0 then _ else _ : OutM HksErrorCode PUnit).run buffer.out = _
  rw [if_neg hargs, appendKekAndFactor_ok happend]
  change (if ¬mallocOk (Bytes.size (request.mainKey ++ request.info) + 4).toNat then _ else _ :
    OutM HksErrorCode PUnit).run buffer.out = _
  rw [hhash, if_neg (not_not.mpr hmalloc), hinput]
  rfl

-- What the checks refuse leaves the buffer as it was.
theorem hksOpensslSmKdf_refused (h : ¬(Appendable request.mainKey request.info ∧ buffer.out.size ≠ 0 ∧
      mallocOk (request.mainKey.length + request.info.length + 4))) :
    ∃ e, (hksOpensslSmKdf lib request.mainKey request.info).run buffer.out = .error (.error e) buffer.out := by
  have hsum := request.sum_lt
  rw [hksOpensslSmKdf, run_bind]
  change ∃ e, (if request.mainKey = [] ∨ buffer.out.size = 0 then _ else _ : OutM HksErrorCode PUnit).run buffer.out = _
  by_cases hargs : request.mainKey = [] ∨ buffer.out.size = 0
  case pos =>
    rw [if_pos hargs]
    exact ⟨_, rfl⟩
  case neg =>
    have ⟨_, hsize⟩ := not_or.mp hargs
    rw [if_neg hargs]
    by_cases happend : Appendable request.mainKey request.info
    case neg =>
      obtain ⟨e, happended⟩ := appendKekAndFactor_refused (by omega) happend
      rw [happended]
      exact ⟨_, rfl⟩
    case pos =>
      have hmalloc : ¬mallocOk (request.mainKey.length + request.info.length + 4) := fun hok => h ⟨happend, hsize, hok⟩
      have hhash : (Bytes.size (request.mainKey ++ request.info) + 4).toNat =
          request.mainKey.length + request.info.length + 4 := hashSize_toNat request
      rw [appendKekAndFactor_ok happend]
      change ∃ e, (if ¬mallocOk (Bytes.size (request.mainKey ++ request.info) + 4).toNat then _ else _ :
        OutM HksErrorCode PUnit).run buffer.out = _
      rw [hhash, if_pos hmalloc]
      exact ⟨_, rfl⟩

-- Either a key is derived, or an error is returned.
theorem hksOpensslSmKdf_cases :
    (Derives lib request buffer.out.size.toNat ∧
      (hksOpensslSmKdf lib request.mainKey request.info).run buffer.out =
        .ok ⟨⟩ (filled lib (request.mainKey ++ request.info) buffer.out (blockCount buffer.out.size).toNat)) ∨
    (¬Derives lib request buffer.out.size.toNat ∧ ∃ e t,
      (hksOpensslSmKdf lib request.mainKey request.info).run buffer.out = .error (.error e) t ∧
        Framed buffer.out t) := by
  have hsizeNat : buffer.out.size ≠ 0 ↔ buffer.out.size.toNat ≠ 0 := not_congr UInt32.toNat_inj.symm
  by_cases hchecks : Appendable request.mainKey request.info ∧ buffer.out.size ≠ 0 ∧
      mallocOk (request.mainKey.length + request.info.length + 4)
  case neg =>
    obtain ⟨e, hrun⟩ := hksOpensslSmKdf_refused lib request buffer hchecks
    exact .inr ⟨fun ⟨happend, hn, hmalloc, _⟩ => hchecks ⟨happend, hsizeNat.mpr hn, hmalloc⟩,
      e, buffer.out, hrun, Framed.refl _⟩
  case pos =>
    obtain ⟨happend, hsize, hmalloc⟩ := hchecks
    have hn : 0 < buffer.out.size.toNat := Nat.pos_of_ne_zero (hsizeNat.mp hsize)
    have hz : request.mainKey ++ request.info ≠ [] ∧ (request.mainKey ++ request.info).length < UInt32.size := by
      have hsum := request.sum_lt
      exact ⟨fun hnil => happend.1 (List.append_eq_nil_iff.mp hnil).1, by rw [List.length_append]; omega⟩
    obtain ⟨s, hs, hrun⟩ := hksOpensslSmKdf_rounds lib request buffer hsize happend hmalloc
    have hrounds := @smKdfRounds_run lib _ _ _ _ hz hn buffer.held (Nat.le_refl _) hs
    have hcount := blockCount_toNat hn
    rw [hrun, run_discard]
    match hresult : ((List.range (blockCount buffer.out.size).toNat).foldlM (smKdfRound lib
        (Bytes.size (request.mainKey ++ request.info)) (blockCount buffer.out.size) buffer.out.size) s).run
          buffer.out with
    | .ok s' t =>
      rw [hresult] at hrounds
      obtain ⟨hfails, _, rfl⟩ := hrounds
      exact .inl ⟨⟨happend, by omega, hmalloc, hcount ▸ hfails⟩, rfl⟩
    | .error .outside _ =>
      rw [hresult] at hrounds
      exact hrounds.elim
    | .error (.error e) t =>
      rw [hresult] at hrounds
      obtain ⟨⟨i, hi, hfails⟩, hframed⟩ := hrounds
      exact .inr ⟨fun hderives => hderives.2.2.2 i (hcount ▸ hi) hfails, e, t, rfl, hframed⟩

theorem counterBytes_reverse (counter : UInt32) : counterBytes counter = (toBytes32 counter).reverse := by
  have hmask (k : UInt32) : (counter >>> k &&& 0xFF).toUInt8 = (counter >>> k).toUInt8 := by
    have h255 : (0xFF : UInt32).toNat = 2 ^ 8 - 1 := rfl
    rw [← UInt8.toNat_inj, UInt32.toNat_toUInt8, UInt32.toNat_toUInt8, UInt32.toNat_and, h255,
      Nat.and_two_pow_sub_one_eq_mod, Nat.mod_mod]
  simp [counterBytes, toBytes32, hmask]

-- The derivation as the import of wrapped keys has it gives the same key.
theorem smKdf_of_engine {crypto : SmCrypto} (hsm3 : ∀ msg, crypto.sm3 msg = some (lib.sm3 msg)) {n : Nat}
    (hn : n < UInt32.size) (h : Derives lib request n) :
    SmImport.hksOpensslSmKdf crypto request.mainKey request.info n =
      .ok (smKdf lib (request.mainKey ++ request.info) n) := by
  obtain ⟨⟨hkey, hinfo, happend⟩, hne, hmalloc, _⟩ := h
  have hdigests (m : Nat) (hm : m ≤ n) : ((List.range m).mapM fun i =>
      cryptoAnswer (crypto.sm3 (request.mainKey ++ request.info ++ SmImport.counterBytes (i + 1)))) =
        .ok ((List.range m).map (kdfBlock lib (request.mainKey ++ request.info))) := by
    induction m
    case zero => rfl
    case succ m ih =>
      have hblock : cryptoAnswer (crypto.sm3 (request.mainKey ++ request.info ++ SmImport.counterBytes (m + 1))) =
          .ok (kdfBlock lib (request.mainKey ++ request.info) m) := by
        rw [SmImport.counterBytes, ← counterBytes_reverse, counterBytes_eq (by omega), hsm3]
        rfl
      rw [List.range_succ, List.mapM_append, ih (by omega), List.mapM_cons, hblock, List.map_append]
      rfl
  have hargs : ¬(request.mainKey = [] ∨ n = 0 ∨ request.info = [] ∨
      ¬mallocOk (request.mainKey.length + request.info.length)) := by
    simp only [not_or, not_not]
    exact ⟨hkey, hne, hinfo, happend⟩
  have hallocated : SmImport.hksMalloc (request.mainKey.length + request.info.length + 4) = .ok () := if_pos hmalloc
  have htake := take_blocks (m := (n - 1) / 32 + 1) (n := n)
    (length_kdfBlock lib (request.mainKey ++ request.info)) (by decide) (by omega)
  have hcount := hdigests ((n - 1) / Huks.hksDigestSm3Len + 1) (by
    change (n - 1) / 32 + 1 ≤ n
    omega)
  simp only [SmImport.hksOpensslSmKdf, if_neg hargs, hallocated, hcount, bind, Except.bind]
  exact congrArg Except.ok ((congrArg (List.take n) (List.flatMap_def.symm)).trans htake)

-- The key is the one of the definition, up to its last byte and no further, and the one that the import of
-- wrapped keys derives with the same digest.
theorem hksOpensslSmKdf_computes :
    (Derives lib request buffer.out.size.toNat →
      (hksOpensslSmKdf lib request.mainKey request.info).run buffer.out = .ok ⟨⟩ { buffer.out with
        room := smKdf lib (request.mainKey ++ request.info) buffer.out.size.toNat ++
          buffer.out.room.drop buffer.out.size.toNat }) ∧
    (¬Derives lib request buffer.out.size.toNat → ∃ e t,
      (hksOpensslSmKdf lib request.mainKey request.info).run buffer.out = .error (.error e) t ∧
        Framed buffer.out t) ∧
    ∀ crypto : SmCrypto, (∀ msg, crypto.sm3 msg = some (lib.sm3 msg)) → Derives lib request buffer.out.size.toNat →
      SmImport.hksOpensslSmKdf crypto request.mainKey request.info buffer.out.size.toNat =
        .ok (smKdf lib (request.mainKey ++ request.info) buffer.out.size.toNat) := by
  have hengine (crypto : SmCrypto) (hsm3 : ∀ msg, crypto.sm3 msg = some (lib.sm3 msg)) :=
    @smKdf_of_engine lib request crypto hsm3 _ buffer.out.size.toNat_lt
  obtain ⟨hderives, hrun⟩ | ⟨hnot, hrun⟩ := hksOpensslSmKdf_cases lib request buffer
  · have hn : 0 < buffer.out.size.toNat := Nat.pos_of_ne_zero hderives.2.1
    exact ⟨fun _ => hrun.trans (congrArg _ (filled_all hn)), fun hnot => absurd hderives hnot, hengine⟩
  · exact ⟨fun hderives => absurd hderives hnot, fun _ => hrun, hengine⟩

end Kdf

end Huks.InPlace
