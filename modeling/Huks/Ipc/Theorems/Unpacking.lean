import Huks.Ipc.Theorems.Packing

namespace Huks

-- Every read lies in the reply, and what is returned with success is good.
def Delivers {α : Type} (run : ReplyM α) (good : α → Prop) : Prop :=
  ∃ r, run.run = some r ∧ ∀ a, r = .ok a → good a

namespace Delivers

variable {α β : Type} {run : ReplyM α} {next : α → ReplyM β} {good good' : α → Prop}
  {result : β → Prop} {a : α} {e : HksErrorCode} {c : Prop} [Decidable c]

theorem pure (h : good a) : Delivers (Pure.pure a) good :=
  ⟨.ok a, rfl, fun _ ha => Except.ok.inj ha ▸ h⟩

theorem throw : Delivers (MonadExcept.throw e : ReplyM α) good := ⟨.error e, rfl, nofun⟩

theorem bind (h : Delivers run good) (hnext : ∀ a, good a → Delivers (next a) result) :
    Delivers (run >>= next) result := by
  obtain ⟨r, hr, hgood⟩ := h
  cases r
  case error e =>
    refine ⟨.error e, ?_, nofun⟩
    rw [ExceptT.run_bind, hr]
    rfl
  case ok a =>
    have ⟨r, hnext, hresult⟩ := hnext a (hgood a rfl)
    refine ⟨r, ?_, hresult⟩
    rw [ExceptT.run_bind, hr]
    exact hnext

theorem ite {run' : ReplyM α} (ht : c → Delivers run good) (hf : ¬c → Delivers run' good) :
    Delivers (if c then run else run') good := by
  split
  case isTrue hc => exact ht hc
  case isFalse hc => exact hf hc

theorem adapt (h : Delivers run good) (f : HksErrorCode → HksErrorCode) :
    Delivers (run.adapt f) good := by
  obtain ⟨r, hr, hgood⟩ := h
  refine ⟨r.mapError f, ?_, ?_⟩
  · change Except.mapError f <$> run.run = _
    rw [hr]
    rfl
  · intro a ha
    cases r
    case error => cases ha
    case ok => exact hgood a ha

-- A run that is known.
theorem of_pure (h : Delivers (Pure.pure a : ReplyM α) good) : good a :=
  have ⟨_, hr, hgood⟩ := h
  hgood a (Option.some.inj hr).symm

end Delivers

section Reading

variable {reply : Bytes} {offset : UInt32}

theorem reply_room (h : reply.length < 2 ^ 32) (hle : offset.toNat ≤ reply.length) :
    (reply.length.toUInt32 - offset).toNat = reply.length - offset.toNat := by
  rw [UInt32.toNat_sub_of_le _ _ (by rw [UInt32.le_iff_toNat_le, toUInt32_toNat h]; exact hle),
    toUInt32_toNat h]

-- The check in front of each read.
theorem reply_short (h : reply.length < 2 ^ 32) (n : Nat) :
    (offset > reply.length.toUInt32 ∨ (reply.length.toUInt32 - offset).toNat < n) ↔
      reply.length < offset.toNat + n := by
  rw [gt_iff_lt, UInt32.lt_iff_toNat_lt, toUInt32_toNat h]
  by_cases hle : offset.toNat ≤ reply.length
  case pos =>
    rw [reply_room h hle]
    omega
  case neg =>
    constructor
    · omega
    · intro _
      left
      omega

theorem readReply_eq {i n : Nat} (h : i + n ≤ reply.length) :
    readReply reply i n = pure (slice reply i n) := by
  rw [readReply, if_pos h]

theorem le32_slice {i : Nat} {n : UInt32} (h : slice reply i 4 = toBytes32 n) :
    le32 (slice reply i 4) = n := by
  have := le32_toBytes32_append n []
  rwa [List.append_nil, ← h] at this

-- A blob that lies in the reply.
def ReplyBlob.Within (reply : Bytes) (blob : ReplyBlob) : Prop :=
  blob.offset.toNat + blob.size.toNat ≤ reply.length

theorem copyFromReply_eq {destMax : UInt32} {blob : ReplyBlob} (h : blob.Within reply) :
    copyFromReply reply destMax blob = pure (if destMax = 0 ∨ destMax < blob.size then none
      else some (slice reply blob.offset.toNat blob.size.toNat)) := by
  rw [copyFromReply, readReply_eq h]
  split <;> rfl

-- What the three readers have in common: the size at the offset, and the aligned bytes.
theorem isAdditionOverflow_align {size : UInt32} :
    isAdditionOverflow size defaultAlignMaskSize = true ↔ 2 ^ 32 ≤ size.toNat + 3 :=
  isAdditionOverflow_iff size defaultAlignMaskSize

theorem getBlobFromBuffer_eq (h : reply.length < 2 ^ 32)
    (hroom : offset.toNat + 4 ≤ reply.length) {size : UInt32}
    (hsize : le32 (slice reply offset.toNat 4) = size) :
    getBlobFromBuffer reply offset =
      if 2 ^ 32 ≤ size.toNat + 3 then throw .invalidArgument
      else if reply.length < offset.toNat + 4 + (alignSize size).toNat then throw .bufferTooSmall
      else pure (⟨offset + 4, size⟩, offset + 4 + alignSize size) := by
  have hshort := @reply_short _ offset h 4
  have hle : offset.toNat ≤ reply.length := by omega
  have hrest : (reply.length.toUInt32 - offset - 4).toNat = reply.length - offset.toNat - 4 := by
    rw [UInt32.toNat_sub_of_le _ _ (by rw [UInt32.le_iff_toNat_le, reply_room h hle]; simp; omega),
      reply_room h hle]
    rfl
  have hcheck : ¬(offset > reply.length.toUInt32 ∨ reply.length.toUInt32 - offset < 4) := by
    rw [UInt32.lt_iff_toNat_lt]
    exact fun hs => absurd (hshort.mp hs) (Nat.not_lt.mpr hroom)
  rw [getBlobFromBuffer, if_neg hcheck, readReply_eq hroom, pure_bind, hsize]
  simp only [isAdditionOverflow_align, gt_iff_lt, UInt32.lt_iff_toNat_lt, hrest]
  split
  case isTrue => rfl
  case isFalse =>
    have : reply.length - offset.toNat - 4 < (alignSize size).toNat ↔
        reply.length < offset.toNat + 4 + (alignSize size).toNat := by omega
    simp only [this]

theorem getParamSetFromBuffer_eq (h : reply.length < 2 ^ 32)
    (hroom : offset.toNat + HksParamSet.headerSize ≤ reply.length) {size : UInt32}
    (hsize : le32 (slice reply offset.toNat 4) = size) :
    getParamSetFromBuffer reply offset =
      if 2 ^ 32 ≤ size.toNat + 3 then throw .invalidArgument
      else if reply.length < offset.toNat + (alignSize size).toNat then throw .bufferTooSmall
      else pure (⟨offset, size⟩, offset + alignSize size) := by
  have hshort := @reply_short _ offset h HksParamSet.headerSize
  have hle : offset.toNat ≤ reply.length := by omega
  have hread : offset.toNat + 4 ≤ reply.length := by
    rw [HksParamSet.headerSize] at hroom
    omega
  have hcheck : ¬(offset > reply.length.toUInt32 ∨
      (reply.length.toUInt32 - offset).toNat < HksParamSet.headerSize) :=
    fun hs => absurd (hshort.mp hs) (Nat.not_lt.mpr hroom)
  rw [getParamSetFromBuffer, if_neg hcheck, readReply_eq hread, pure_bind, hsize]
  simp only [isAdditionOverflow_align, gt_iff_lt, UInt32.lt_iff_toNat_lt, reply_room h hle]
  split
  case isTrue => rfl
  case isFalse =>
    have : reply.length - offset.toNat < (alignSize size).toNat ↔
        reply.length < offset.toNat + (alignSize size).toNat := by omega
    simp only [this]

-- On any reply the readers stay inside it.
theorem getUint32FromBuffer_delivers (h : reply.length < 2 ^ 32) :
    Delivers (getUint32FromBuffer reply offset) fun _ => True := by
  apply Delivers.ite (fun _ => .throw)
  intro hcheck
  rw [UInt32.lt_iff_toNat_lt] at hcheck
  have hroom := Nat.not_lt.mp (mt (reply_short h 4).mpr hcheck)
  rw [readReply_eq hroom, pure_bind]
  exact .pure trivial

theorem getBlobFromBuffer_delivers (h : reply.length < 2 ^ 32) :
    Delivers (getBlobFromBuffer reply offset) fun p => p.1.Within reply := by
  by_cases hroom : offset.toNat + 4 ≤ reply.length
  case pos =>
    rw [getBlobFromBuffer_eq h hroom rfl]
    refine .ite (fun _ => .throw) fun hsmall => .ite (fun _ => .throw) fun hfits => .pure ?_
    have hle := (alignSize_of_small (Nat.not_le.mp hsmall)).1
    have hoffset : (offset + 4).toNat = offset.toNat + 4 := by
      rw [UInt32.toNat_add]
      exact Nat.mod_eq_of_lt (by simp; omega)
    change (offset + 4).toNat + _ ≤ _
    rw [hoffset]
    exact Nat.le_trans (Nat.add_le_add_left hle _) (Nat.not_lt.mp hfits)
  case neg =>
    refine .ite (fun _ => .throw) fun hcheck => ?_
    rw [UInt32.lt_iff_toNat_lt] at hcheck
    exact absurd (Nat.not_lt.mp (mt (reply_short h 4).mpr hcheck)) hroom

theorem getParamSetFromBuffer_delivers (h : reply.length < 2 ^ 32) :
    Delivers (getParamSetFromBuffer reply offset) fun p => p.1.Within reply := by
  by_cases hroom : offset.toNat + HksParamSet.headerSize ≤ reply.length
  case pos =>
    rw [getParamSetFromBuffer_eq h hroom rfl]
    refine .ite (fun _ => .throw) fun hsmall => .ite (fun _ => .throw) fun hfits => .pure ?_
    have hle := (alignSize_of_small (Nat.not_le.mp hsmall)).1
    exact Nat.le_trans (Nat.add_le_add_left hle _) (Nat.not_lt.mp hfits)
  case neg =>
    refine .ite (fun _ => .throw) fun hcheck => ?_
    exact absurd (Nat.not_lt.mp (mt (reply_short h _).mpr hcheck)) hroom

end Reading

section Safety

variable {reply : Bytes} (h : reply.length < 2 ^ 32)

include h

theorem unpackAliases_delivers (count : Nat) (offset : UInt32) :
    Delivers (unpackAliases reply count offset) fun _ => True := by
  induction count generalizing offset
  case zero => exact .pure trivial
  case succ count ih =>
    refine .bind (getBlobFromBuffer_delivers h) fun (blob, offset) hwithin => ?_
    refine .ite (fun _ => .throw) fun _ => ?_
    rw [copyFromReply_eq hwithin, pure_bind]
    split
    case h_1 => exact .throw
    case h_2 => exact .bind (ih offset) fun _ _ => .pure trivial

theorem hksListAliasesUnpackFromService_delivers :
    Delivers (hksListAliasesUnpackFromService reply) fun _ => True := by
  rw [hksListAliasesUnpackFromService]
  split
  case isTrue => exact .pure trivial
  case isFalse =>
    refine .bind (getUint32FromBuffer_delivers h) fun (cntFromBuffer, offset) _ => ?_
    refine .ite (fun _ => .throw) fun _ => .ite (fun _ => .throw) fun _ => ?_
    exact .bind (unpackAliases_delivers h _ offset) fun _ _ => .pure trivial

theorem unpackCerts_delivers (certs : List UInt32) (count : Nat) (offset : UInt32) :
    Delivers (unpackCerts reply certs count offset) fun _ => True := by
  induction count generalizing certs offset
  case zero =>
    rw [unpackCerts]
    exact .pure trivial
  case succ count ih =>
    cases certs
    case nil => exact .pure trivial
    case cons destMax certs =>
      refine .bind ((getBlobFromBuffer_delivers h).adapt _) fun (blob, offset) hwithin => ?_
      dsimp only
      rw [copyFromReply_eq hwithin, pure_bind]
      split
      case h_1 => exact .throw
      case h_2 => exact .bind (ih certs offset) fun _ _ => .pure trivial

theorem hksCertificateChainUnpackFromService_delivers (certs : List UInt32) :
    Delivers (hksCertificateChainUnpackFromService reply certs) fun _ => True := by
  refine .ite (fun _ => .throw) fun hshort => ?_
  rw [UInt32.lt_iff_toNat_lt, toUInt32_toNat h] at hshort
  rw [readReply_eq (by simpa using hshort), pure_bind]
  exact .ite (fun _ => .throw) fun _ => unpackCerts_delivers h certs _ 4

variable (memory : UInt64 → BlobData)

theorem unpackKeyInfoList_delivers (slots : List KeyInfoSlot) (count : Nat) (offset : UInt32) :
    Delivers (unpackKeyInfoList reply memory slots count offset) fun _ => True := by
  induction count generalizing slots offset
  case zero =>
    rw [unpackKeyInfoList]
    exact .pure trivial
  case succ count ih =>
    cases slots
    case nil => exact .pure trivial
    case cons slot slots =>
      refine .bind (getBlobFromBuffer_delivers h) fun (blob, offset) hwithin => ?_
      dsimp only
      rw [copyFromReply_eq hwithin, pure_bind]
      split
      case h_1 => exact .pure trivial
      case h_2 =>
        refine .bind (getParamSetFromBuffer_delivers h) fun (paramSet, offset) hwithin => ?_
        dsimp only
        rw [copyFromReply_eq hwithin, pure_bind]
        split
        case h_1 => exact .pure trivial
        case h_2 =>
          split
          case h_1 => exact .throw
          case h_2 => exact .bind (ih slots offset) fun _ _ => .pure trivial

theorem hksGetKeyInfoListUnpackFromService_delivers (slots : List KeyInfoSlot) :
    Delivers (hksGetKeyInfoListUnpackFromService reply memory slots) fun _ => True := by
  refine .bind (getUint32FromBuffer_delivers h) fun (countFromBuffer, offset) _ => ?_
  refine .ite (fun _ => .throw) fun _ => ?_
  exact .bind (unpackKeyInfoList_delivers h memory slots _ offset) fun _ _ => .pure trivial

end Safety

-- What is in a reply is read back.
section Laid

variable {reply : Bytes} {offset destMax : UInt32} {blob : Blob} {j : Nat}

theorem getBlobFromBuffer_of_not_aligns (h : reply.length < 2 ^ 32)
    (hitem : blobFormat.item reply offset.toNat blob j) (ha : ¬blob.Aligns) :
    getBlobFromBuffer reply offset = throw .invalidArgument := by
  obtain ⟨rfl, hlen, hsize, _⟩ := hitem
  rw [getBlobFromBuffer_eq h (by omega) (le32_slice hsize), if_pos]
  rw [blob.size_toNat]
  exact Nat.not_lt.mp ha

theorem getBlobFromBuffer_of_aligns (h : reply.length < 2 ^ 32)
    (hitem : blobFormat.item reply offset.toNat blob j) (ha : blob.Aligns) :
    ∃ offset', offset'.toNat = j ∧
      getBlobFromBuffer reply offset = pure (⟨offset + 4, blob.size⟩, offset') ∧
      ∀ destMax, copyFromReply reply destMax ⟨offset + 4, blob.size⟩ =
        pure (if destMax = 0 ∨ destMax < blob.size then none else some blob.val) := by
  obtain ⟨rfl, hlen, hsize, hbytes⟩ := hitem
  have hle := ha.le
  have hoffset : (offset + 4).toNat = offset.toNat + 4 := by
    rw [UInt32.toNat_add]
    exact Nat.mod_eq_of_lt (by simp; omega)
  have hnext : (offset + 4 + alignSize blob.size).toNat =
      offset.toNat + 4 + (alignSize blob.size).toNat := by
    rw [UInt32.toNat_add, hoffset]
    exact Nat.mod_eq_of_lt (by omega)
  have hwithin : ReplyBlob.Within reply ⟨offset + 4, blob.size⟩ := by
    change (offset + 4).toNat + blob.size.toNat ≤ _
    rw [hoffset, blob.size_toNat]
    omega
  refine ⟨_, hnext, ?_, fun destMax => ?_⟩
  · rw [getBlobFromBuffer_eq h (by omega) (le32_slice hsize), if_neg, if_neg (by omega)]
    rw [blob.size_toNat]
    exact Nat.not_le.mpr ha
  · rw [copyFromReply_eq hwithin]
    dsimp only
    rw [hoffset, blob.size_toNat, hbytes ha]

theorem getUint32FromBuffer_counted {α : Type} {f : Format UInt8 α} {l : List α}
    (h : Counted f reply l) (hroom : 4 ≤ reply.length) :
    getUint32FromBuffer reply 0 = pure (l.length.toUInt32, 4) := by
  have hcheck : ¬((0 : UInt32) > reply.length.toUInt32 ∨ reply.length.toUInt32 - 0 < 4) := by
    rw [UInt32.lt_iff_toNat_lt (b := 4)]
    exact mt (reply_short h.length_lt 4).mp (by simpa using hroom)
  have hread : readReply reply (0 : UInt32).toNat 4 = pure (slice reply 0 4) :=
    readReply_eq (by simpa using hroom)
  rw [getUint32FromBuffer, if_neg hcheck, hread, pure_bind, le32_slice h.count]
  rfl

theorem unpackAliases_laid {aliasSet : List Blob} (h : reply.length < 2 ^ 32)
    (hset : ∀ blob ∈ aliasSet, blob.Aligns ∧ mallocOk blob.val.length)
    (hlaid : Laid blobFormat reply offset.toNat aliasSet j) :
    unpackAliases reply aliasSet.length offset = pure (aliasSet.map Subtype.val) := by
  induction aliasSet generalizing offset
  case nil => rfl
  case cons blob aliasSet ih =>
    cases hlaid
    case cons hitem hlaid =>
      have ⟨ha, hmalloc⟩ := hset blob (by simp)
      have ⟨offset', hoffset, hget, hcopy⟩ := getBlobFromBuffer_of_aligns h hitem ha
      have hne : ¬(blob.size = 0 ∨ blob.size < blob.size) := by
        have hpos : 0 < blob.val.length := (mallocOk_iff.mp hmalloc).1
        rw [← UInt32.toNat_inj, blob.size_toNat, UInt32.lt_iff_toNat_lt]
        simp
        exact List.ne_nil_of_length_pos hpos
      have ih := ih (fun b hb => hset b (by simp [hb])) (hoffset ▸ hlaid)
      rw [List.length_cons, unpackAliases, hget, pure_bind]
      dsimp only
      rw [blob.size_toNat, hmalloc, hcopy, if_neg hne, ih]
      rfl

theorem unpackCerts_laid {l : List Blob} {certs : List UInt32} (h : reply.length < 2 ^ 32)
    (hlen : l.length ≤ certs.length) (hlaid : Laid blobFormat reply offset.toNat l j) :
    Delivers (unpackCerts reply certs l.length offset) (· = l.map Subtype.val) := by
  induction l generalizing certs offset
  case nil =>
    rw [List.length_nil, unpackCerts]
    exact .pure rfl
  case cons blob l ih =>
    cases certs
    case nil => simp at hlen
    case cons destMax certs =>
      cases hlaid
      case cons hitem hlaid =>
        rw [List.length_cons, unpackCerts]
        by_cases ha : blob.Aligns
        case neg =>
          rw [getBlobFromBuffer_of_not_aligns h hitem ha]
          exact .throw
        case pos =>
          have ⟨offset', hoffset, hget, hcopy⟩ := getBlobFromBuffer_of_aligns h hitem ha
          have ih := ih (Nat.le_of_succ_le_succ hlen) (hoffset ▸ hlaid)
          have hadapt : (getBlobFromBuffer reply offset).adapt (fun _ => HksErrorCode.ipcMsgFail) =
              pure (⟨offset + 4, blob.size⟩, offset') := by
            rw [hget]
            rfl
          rw [hadapt, pure_bind]
          dsimp only
          rw [hcopy, pure_bind]
          split
          case h_1 => exact .throw
          case h_2 cert hcert =>
            refine .bind ih fun chain hchain => .pure ?_
            have hcert : blob.val = cert := by
              split at hcert
              case isTrue => cases hcert
              case isFalse => exact Option.some.inj hcert
            rw [hchain, List.map_cons, hcert]

end Laid

end Huks
