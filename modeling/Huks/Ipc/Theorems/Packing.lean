import Huks.Ipc.Serialization
import Huks.Lib.Layout
import Huks.Common.Theorems.ParamImage

namespace Huks

-- `ALIGN_SIZE` does not wrap around.
def Blob.Aligns (blob : Blob) : Prop := blob.val.length + 3 < 2 ^ 32

instance (blob : Blob) : Decidable blob.Aligns := inferInstanceAs (Decidable (_ < _))

theorem toUInt32_toNat {n : Nat} (h : n < 2 ^ 32) : n.toUInt32.toNat = n :=
  UInt32.toNat_ofNat_of_lt' h

theorem Blob.size_toNat (blob : Blob) : blob.size.toNat = blob.val.length :=
  toUInt32_toNat blob.property

theorem alignSize_toNat (size : UInt32) :
    (alignSize size).toNat = (size.toNat + 3) % 2 ^ 32 / 4 * 4 := by
  have hle : (size.toNat + 3) % 2 ^ 32 / 4 * 4 < 2 ^ 32 := by omega
  simp only [alignSize, UInt32.toNat_shiftLeft, UInt32.toNat_shiftRight, UInt32.toNat_add,
    Nat.shiftLeft_eq, Nat.shiftRight_eq_div_pow]
  exact Nat.mod_eq_of_lt hle

theorem alignSize_of_small {size : UInt32} (h : size.toNat + 3 < 2 ^ 32) :
    size.toNat ≤ (alignSize size).toNat ∧ (alignSize size).toNat ≤ size.toNat + 3 := by
  rw [alignSize_toNat, Nat.mod_eq_of_lt h]
  omega

theorem alignSize_of_large {size : UInt32} (h : 2 ^ 32 ≤ size.toNat + 3) :
    (alignSize size).toNat = 0 := by
  have := size.toNat_lt
  rw [alignSize_toNat]
  omega

namespace Blob

variable {blob : Blob}

theorem Aligns.le (h : blob.Aligns) : blob.val.length ≤ (alignSize blob.size).toNat := by
  have := @alignSize_of_small blob.size (by rwa [blob.size_toNat])
  rw [blob.size_toNat] at this
  exact this.1

theorem align_of_not (h : ¬blob.Aligns) : (alignSize blob.size).toNat = 0 := by
  apply alignSize_of_large
  rw [blob.size_toNat]
  exact Nat.le_of_not_lt h

end Blob

-- A blob in a buffer: its size and, unless the size is out of range, its bytes.
def blobFormat : Format UInt8 Blob where
  item b i blob j := j = i + 4 + (alignSize blob.size).toNat ∧ j ≤ b.length ∧
    slice b i 4 = toBytes32 blob.size ∧
    (blob.Aligns → slice b (i + 4) blob.val.length = blob.val)
  front := by
    intro b b' i blob j ⟨hj, hlen, hsize, hbytes⟩ h
    have hlen' : j ≤ b'.length := by
      have := congrArg List.length h
      rw [List.length_take, List.length_take] at this
      omega
    refine ⟨hj, hlen', ?_, fun ha => ?_⟩
    · rw [← hsize]
      exact slice_congr h.symm (by omega)
    · have := ha.le
      rw [← slice_congr h (by omega)]
      exact hbytes ha
  le := by
    intro b i blob j ⟨hj, hlen, _⟩
    exact ⟨by omega, hlen⟩

section KeyInfo

variable (addressOf : BlobData → UInt64) (padding : Nat → UInt32)

-- An element of a list of key infos: the alias, and the block of the params.
def keyInfoFormat : Format UInt8 HksKeyInfo where
  item b i keyInfo j := ∃ k, blobFormat.item b i keyInfo.alias' k ∧
    j = k + (alignSize keyInfo.paramSet.paramSetSize).toNat ∧ j ≤ b.length ∧
    ((keyInfo.paramSet.image addressOf padding).length ≤
        (alignSize keyInfo.paramSet.paramSetSize).toNat →
      slice b k (keyInfo.paramSet.image addressOf padding).length =
        keyInfo.paramSet.image addressOf padding)
  front := by
    intro b b' i keyInfo j ⟨k, halias, hj, hlen, himage⟩ h
    have hlen' : j ≤ b'.length := by
      have := congrArg List.length h
      rw [List.length_take, List.length_take] at this
      omega
    refine ⟨k, blobFormat.front halias (take_of_take (by omega) h), hj, hlen', fun hle => ?_⟩
    rw [← slice_congr h (by omega)]
    exact himage hle
  le := by
    intro b i keyInfo j ⟨k, halias, hj, hlen, _⟩
    exact ⟨by have := (blobFormat.le halias).1; omega, hlen⟩

end KeyInfo

namespace PackBuffer

variable {b b' : PackBuffer} {src : Bytes} {n : UInt32}

-- `size` and `offset` are those of a buffer.
structure Valid (b : PackBuffer) : Prop where
  length_lt : b.data.length < 2 ^ 32
  within    : b.offset.toNat ≤ b.data.length

namespace Valid

theorem size_toNat (v : b.Valid) : b.size.toNat = b.data.length := toUInt32_toNat v.length_lt

theorem offset_le (v : b.Valid) : ¬b.offset > b.size := by
  rw [gt_iff_lt, UInt32.lt_iff_toNat_lt, v.size_toNat]
  exact Nat.not_lt.mpr v.within

theorem room_toNat (v : b.Valid) :
    (b.size - b.offset).toNat = b.data.length - b.offset.toNat := by
  rw [UInt32.toNat_sub_of_le _ _ (by rw [UInt32.le_iff_toNat_le, v.size_toNat]; exact v.within),
    v.size_toNat]

-- `memcpy_s` copies what there is room for.
theorem memcpyS_eq (v : b.Valid) :
    b.memcpyS src = if b.offset.toNat + src.length ≤ b.data.length ∧ b.offset.toNat ≠ b.data.length
      then some { b with data := splice b.data b.offset.toNat src } else none := by
  have hroom := v.room_toNat
  have hwithin := v.within
  have hzero : b.size - b.offset = 0 ↔ b.offset.toNat = b.data.length := by
    rw [← UInt32.toNat_inj, hroom]
    simp
    omega
  have hcond : (b.size - b.offset = 0 ∨ src.length > (b.size - b.offset).toNat) ↔
      ¬(b.offset.toNat + src.length ≤ b.data.length ∧ b.offset.toNat ≠ b.data.length) := by
    rw [hzero, hroom]
    omega
  simp only [PackBuffer.memcpyS, Huks.memcpyS, hcond, ite_not]
  split <;> rfl

end Valid

theorem advance_toNat (v : b.Valid) (h : b.offset.toNat + n.toNat ≤ b.data.length) :
    (b.advance n).offset.toNat = b.offset.toNat + n.toNat := by
  have := v.length_lt
  rw [advance, UInt32.toNat_add]
  exact Nat.mod_eq_of_lt (by omega)

theorem Valid.advance (v : b.Valid) (h : b.offset.toNat + n.toNat ≤ b.data.length) :
    (b.advance n).Valid where
  length_lt := v.length_lt
  within    := by rw [advance_toNat v h]; exact h

-- The bytes are copied and the offset moves past them.
structure Put (b b' : PackBuffer) (src : Bytes) (n : UInt32) : Prop where
  valid  : b'.Valid
  offset : b'.offset.toNat = b.offset.toNat + n.toNat
  grows  : Grows b.data b'.data b.offset.toNat b'.offset.toNat
  bytes  : slice b'.data b.offset.toNat src.length = src

theorem Valid.copied {c : PackBuffer} (v : b.Valid) (hc : b.memcpyS src = some c)
    (h : b.offset.toNat + n.toNat ≤ b.data.length) : Put b (c.advance n) src n := by
  rw [v.memcpyS_eq] at hc
  split at hc
  case isFalse => cases hc
  case isTrue hroom =>
    obtain rfl := Option.some.inj hc
    have hlen : (splice b.data b.offset.toNat src).length = b.data.length := length_splice hroom.1
    have v' : Valid { b with data := splice b.data b.offset.toNat src } :=
      ⟨by rw [hlen]; exact v.length_lt, by rw [hlen]; exact v.within⟩
    have hoffset := advance_toNat (n := n) v' (by rw [hlen]; exact h)
    refine ⟨v'.advance (by rw [hlen]; exact h), hoffset, ?_, slice_splice v.within⟩
    rw [hoffset]
    exact .splice hroom.1 (Nat.le_add_right _ _) h

theorem Valid.put (v : b.Valid) (hn : src.length ≤ n.toNat)
    (h : b.offset.toNat + n.toNat ≤ b.data.length) :
    Put b (((b.memcpyS src).getD b).advance n) src n := by
  cases hcopy : b.memcpyS src
  case some c => exact v.copied hcopy h
  case none =>
    -- There is no room left, and nothing to copy.
    rw [v.memcpyS_eq] at hcopy
    split at hcopy
    case isTrue => cases hcopy
    case isFalse hroom =>
      have hsrc : src = [] := List.eq_nil_of_length_eq_zero (by omega)
      have hn : n.toNat = 0 := by omega
      have hoffset := advance_toNat v h
      refine ⟨v.advance h, hoffset, ?_, ?_⟩
      · rw [Option.getD_none, hoffset, hn]
        exact .refl v.within
      · rw [hsrc]
        rfl

variable {blob : Blob}

theorem Valid.putBlob (v : b.Valid)
    (h : b.offset.toNat + (4 + (alignSize blob.size).toNat) ≤ b.data.length) :
    (b.putBlob blob).Valid ∧
      Grows b.data (b.putBlob blob).data b.offset.toNat (b.putBlob blob).offset.toNat ∧
      blobFormat.item (b.putBlob blob).data b.offset.toNat blob (b.putBlob blob).offset.toNat := by
  have hsize := @Valid.put _ (toBytes32 blob.size) 4 v (Nat.le_refl 4)
    (Nat.le_trans (Nat.add_le_add_left (Nat.le_add_right _ _) _) h)
  rw [PackBuffer.putBlob]
  generalize ((b.memcpyS (toBytes32 blob.size)).getD b).advance 4 = t at hsize ⊢
  have hoffset : t.offset.toNat = b.offset.toNat + 4 := hsize.offset
  have hroom : t.offset.toNat + (alignSize blob.size).toNat ≤ t.data.length := by
    rw [hoffset, hsize.grows.length]
    omega
  by_cases ha : blob.Aligns
  case pos =>
    have hput := hsize.valid.put ha.le hroom
    refine ⟨hput.valid, hsize.grows.trans hput.grows, by rw [hput.offset, hoffset],
      hput.grows.within, ?_, fun _ => ?_⟩
    · rw [slice_congr hput.grows.kept (Nat.le_of_eq hoffset.symm)]
      exact hsize.bytes
    · rw [← hoffset]
      exact hput.bytes
  case neg =>
    -- The buffer has no room for such a blob.
    have hzero := Blob.align_of_not ha
    have hnone : t.memcpyS blob.val = none := by
      rw [hsize.valid.memcpyS_eq, if_neg]
      have := hsize.valid.length_lt
      rw [Blob.Aligns] at ha
      omega
    have hadvance := advance_toNat hsize.valid hroom
    rw [hnone, Option.getD_none]
    refine ⟨hsize.valid.advance hroom, ?_, by rw [hadvance, hoffset], ?_, hsize.bytes,
      fun h => absurd h ha⟩
    · rw [hadvance, hzero]
      exact hsize.grows
    · rw [hadvance]
      exact hroom

end PackBuffer

section Service

variable {dest dest' : PackBuffer}

theorem copyUint32ToBuffer_put {value : UInt32} (v : dest.Valid)
    (h : copyUint32ToBuffer value dest = .ok dest') : dest.Put dest' (toBytes32 value) 4 := by
  rw [copyUint32ToBuffer, if_neg v.offset_le] at h
  cases hcopy : dest.memcpyS (toBytes32 value)
  case none => rw [hcopy] at h; cases h
  case some copied =>
    have hroom : dest.offset.toNat + 4 ≤ dest.data.length := by
      rw [v.memcpyS_eq] at hcopy
      split at hcopy
      case isTrue hroom => exact hroom.1
      case isFalse => cases hcopy
    rw [hcopy] at h
    exact Except.ok.inj h ▸ v.copied hcopy hroom

theorem copyBlobToBuffer_writes :
    Writes blobFormat PackBuffer.data (·.offset.toNat) PackBuffer.Valid
      fun dest blob => copyBlobToBuffer blob dest where
  place v := v.within
  step {s s' blob} v h := by
    simp only [copyBlobToBuffer] at h
    split at h
    case isTrue => cases h
    case isFalse =>
      split at h
      case isTrue => cases h
      case isFalse hroom =>
        rw [v.room_toNat, not_or] at hroom
        obtain rfl := Except.ok.inj h
        have := v.within
        exact v.putBlob (by omega)

variable (addressOf : BlobData → UInt64) (padding : Nat → UInt32)

theorem copyParamSetToBuffer_put {paramSet : HksParamSet} (v : dest.Valid)
    (h : copyParamSetToBuffer addressOf padding paramSet dest = .ok dest') :
    dest.Put dest' (paramSet.image addressOf padding) (alignSize paramSet.paramSetSize) := by
  simp only [copyParamSetToBuffer, UInt32.lt_iff_toNat_lt, v.room_toNat] at h
  split at h
  case isTrue => cases h
  case isFalse hroom =>
    rw [not_or] at hroom
    have := v.within
    cases hcopy : dest.memcpyS (paramSet.image addressOf padding)
    case none => rw [hcopy] at h; cases h
    case some copied =>
      rw [hcopy] at h
      exact Except.ok.inj h ▸ v.copied hcopy (by omega)

theorem copyKeyInfo_writes :
    Writes (keyInfoFormat addressOf padding) PackBuffer.data (·.offset.toNat) PackBuffer.Valid
      fun dest keyInfo => (do
        let dest ← copyBlobToBuffer keyInfo.alias' dest
        copyParamSetToBuffer addressOf padding keyInfo.paramSet dest) where
  place v := v.within
  step {s s' keyInfo} v h := by
    have ⟨t, ht, h⟩ := Except.bind_eq_ok.mp h
    have ⟨hvalid, hgrow, halias⟩ := copyBlobToBuffer_writes.step v ht
    have hput := copyParamSetToBuffer_put addressOf padding hvalid h
    refine ⟨hput.valid, hgrow.trans hput.grows, t.offset.toNat,
      blobFormat.front halias hput.grows.kept.symm, hput.offset, hput.grows.within, fun _ => hput.bytes⟩

end Service

-- A reply: how many values there are, and then the values.
structure Counted {α : Type} (f : Format UInt8 α) (reply : Bytes) (l : List α) : Prop where
  length_lt : reply.length < 2 ^ 32
  count     : slice reply 0 4 = toBytes32 l.length.toUInt32
  laid      : ∃ k, Laid f reply (4 : UInt32).toNat l k

section Replies

variable {α : Type} {f : Format UInt8 α} {put : PackBuffer → α → Except HksErrorCode PackBuffer}
  {l : List α} {dest : PackBuffer} {size : Nat} {reply : Bytes}

theorem counted_of_put (w : Writes f PackBuffer.data (·.offset.toNat) PackBuffer.Valid put)
    (hsize : size < 2 ^ 32)
    (h : (do
      let dest ← copyUint32ToBuffer l.length.toUInt32 ⟨.replicate size 0, 0⟩
      l.foldlM put dest) = .ok dest) :
    Counted f dest.data l ∧ dest.data.length = size := by
  have ⟨t, ht, h⟩ := Except.bind_eq_ok.mp h
  have v : PackBuffer.Valid ⟨.replicate size 0, 0⟩ :=
    ⟨by rwa [List.length_replicate], Nat.zero_le _⟩
  have hcount := copyUint32ToBuffer_put v ht
  have hoffset : t.offset.toNat = 4 := hcount.offset
  have ⟨hvalid, hgrow, hlaid⟩ := w.foldlM hcount.valid h
  rw [hoffset] at hlaid
  refine ⟨⟨hvalid.length_lt, ?_, _, hlaid⟩, ?_⟩
  · rw [slice_congr hgrow.kept (Nat.le_of_eq hoffset.symm)]
    exact hcount.bytes
  · rw [hgrow.length, hcount.grows.length, List.length_replicate]

theorem keyInfoListReply_counted {addressOf : BlobData → UInt64} {padding : Nat → UInt32}
    {keyInfoList : List HksKeyInfo} (h : keyInfoListReply addressOf padding keyInfoList = .ok reply) :
    Counted (keyInfoFormat addressOf padding) reply keyInfoList := by
  simp only [keyInfoListReply] at h
  split at h
  case isTrue => cases h
  case isFalse =>
    have ⟨dest, hdest, h⟩ := Except.bind_eq_ok.mp h
    obtain rfl := Except.ok.inj h
    exact (counted_of_put (copyKeyInfo_writes addressOf padding) (UInt32.toNat_lt _) hdest).1

theorem hksListAliasesPackFromService_counted {aliasSet : List Blob} (hne : aliasSet ≠ [])
    (h : hksListAliasesPackFromService aliasSet = .ok reply) :
    Counted blobFormat reply aliasSet ∧
      reply.length = (aliasSet.foldl (fun size blob => size + (4 + alignSize blob.size)) 4).toNat := by
  simp only [hksListAliasesPackFromService, hne, if_false] at h
  split at h
  case isTrue => cases h
  case isFalse =>
    have ⟨dest, hdest, h⟩ := Except.bind_eq_ok.mp h
    obtain rfl := Except.ok.inj h
    exact counted_of_put copyBlobToBuffer_writes (UInt32.toNat_lt _) hdest

end Replies

-- The certificates of an attestation are a reply with four of them.
section Attest

variable {buf buf' : PackBuffer} {blob : Blob}

theorem copyCertToBuffer_writes :
    Writes blobFormat PackBuffer.data (·.offset.toNat) PackBuffer.Valid
      fun buf blob => copyCertToBuffer blob buf where
  place v := v.within
  step {s s' blob} v h := by
    simp only [copyCertToBuffer, v.room_toNat] at h
    split at h
    case isTrue => cases h
    case isFalse hroom =>
      obtain rfl := Except.ok.inj h
      have := v.within
      exact v.putBlob (by omega)

theorem formatCertToBuf_ok {cert : Except HksErrorCode Blob}
    (h : formatCertToBuf cert buf = .ok buf') :
    ∃ c, cert = .ok c ∧ copyCertToBuffer c buf = .ok buf' := by
  cases cert
  case error => cases h
  case ok c => exact ⟨c, rfl, h⟩

theorem formatAttestChain_counted {attestCert devCert : Blob}
    {caCert rootCert : Except HksErrorCode Blob} {certChain reply : Bytes}
    (hlt : certChain.length < 2 ^ 32) (hroom : 4 ≤ certChain.length)
    (h : formatAttestChain attestCert devCert caCert rootCert certChain = .ok reply) :
    ∃ ca root, caCert = .ok ca ∧ rootCert = .ok root ∧
      Counted blobFormat reply [attestCert, devCert, ca, root] := by
  have ⟨attested, hattest, h⟩ := Except.bind_eq_ok.mp h
  have ⟨device, hdevice, h⟩ := Except.bind_eq_ok.mp h
  have ⟨withCa, hca, h⟩ := Except.bind_eq_ok.mp h
  have ⟨tmp, hroot, h⟩ := Except.bind_eq_ok.mp h
  obtain rfl := Except.ok.inj h
  have ⟨ca, hca, hcopyCa⟩ := formatCertToBuf_ok (Except.orError_eq_ok.mp hca)
  have ⟨root, hroot, hcopyRoot⟩ := formatCertToBuf_ok (Except.orError_eq_ok.mp hroot)
  have hlen : (splice certChain 0 (toBytes32 hksAttestCertCount)).length = certChain.length :=
    length_splice (Nat.le_trans (Nat.le_of_eq (Nat.zero_add 4)) hroom)
  have v : PackBuffer.Valid ⟨splice certChain 0 (toBytes32 hksAttestCertCount), 4⟩ :=
    ⟨by rwa [hlen], by rw [hlen]; exact hroom⟩
  have hfold : [attestCert, devCert, ca, root].foldlM (fun buf blob => copyCertToBuffer blob buf)
      ⟨splice certChain 0 (toBytes32 hksAttestCertCount), 4⟩ = .ok tmp :=
    Except.foldlM_cons_eq_ok.mpr ⟨attested, hattest, Except.foldlM_cons_eq_ok.mpr ⟨device, hdevice,
      Except.foldlM_cons_eq_ok.mpr ⟨withCa, hcopyCa, Except.foldlM_cons_eq_ok.mpr ⟨tmp, hcopyRoot, rfl⟩⟩⟩⟩
  have ⟨hvalid, hgrow, hlaid⟩ := copyCertToBuffer_writes.foldlM v hfold
  have hwithin := hvalid.within
  have hlt' := hvalid.length_lt
  have htake : tmp.data.take tmp.offset.toNat =
      (tmp.data.take tmp.offset.toNat).take tmp.offset.toNat := by
    rw [List.take_take, Nat.min_self]
  refine ⟨ca, root, hca, hroot, ?_, ?_, _, hlaid.front htake⟩
  · rw [List.length_take]
    omega
  · have hkept : (tmp.data.take tmp.offset.toNat).take 4 =
        (splice certChain 0 (toBytes32 hksAttestCertCount)).take 4 := by
      have hle : 4 ≤ tmp.offset.toNat := hgrow.le
      rw [List.take_take, Nat.min_eq_left hle]
      exact hgrow.kept
    rw [slice_congr hkept (Nat.le_refl 4)]
    exact slice_splice (Nat.zero_le _)

end Attest

end Huks
