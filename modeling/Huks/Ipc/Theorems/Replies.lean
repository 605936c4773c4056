import Huks.Ipc.Theorems.KeyInfoList

namespace Huks

namespace Counted

variable {α : Type} {f : Format UInt8 α} {reply : Bytes} {l : List α}

theorem room (h : Counted f reply l) : 4 ≤ reply.length := by
  have := congrArg List.length h.count
  rw [slice, List.length_take, length_toBytes32] at this
  simp at this
  omega

-- A value takes at least four bytes, so the count does not wrap around.
theorem length_toNat (h : Counted f reply l) (hf : ∀ {i a j}, f.item reply i a j → i + 4 ≤ j) :
    l.length.toUInt32.toNat = l.length := by
  have ⟨_, hlaid⟩ := h.laid
  have hle := hlaid.length_le (fun {i a j} => hf)
  have hwithin := hlaid.within h.room
  have hlt := h.length_lt
  exact toUInt32_toNat (by omega)

end Counted

theorem blobFormat_four {reply : Bytes} {i j : Nat} {blob : Blob} (h : blobFormat.item reply i blob j) :
    i + 4 ≤ j := by
  have := h.1
  omega

-- The client has all of the list.
def KeyInfoDelivered (keyInfoList : List HksKeyInfo) (result : UInt32 × List (Bytes × HksParamSet)) :
    Prop :=
  result.1.toNat = keyInfoList.length ∧ List.Forall₂ HksKeyInfo.Same keyInfoList result.2

section

variable {addressOf : BlobData → UInt64} {padding : Nat → UInt32} {memory : UInt64 → BlobData}
  {reply : Bytes}

theorem keyInfoList_delivered {keyInfoList : List HksKeyInfo} {slots : List KeyInfoSlot}
    (hreply : keyInfoListReply addressOf padding keyInfoList = .ok reply)
    (hbuilt : ∀ keyInfo ∈ keyInfoList, keyInfo.paramSet.Built) (hslots : slots.length < 2 ^ 32) :
    Delivers (hksGetKeyInfoListUnpackFromService reply memory slots) (KeyInfoDelivered keyInfoList) ↔
      slots.length < keyInfoList.length ∨ SlotsFit slots keyInfoList := by
  have h := keyInfoListReply_counted hreply
  have hcount : keyInfoList.length.toUInt32.toNat = keyInfoList.length :=
    h.length_toNat fun ⟨k, halias, hj, _⟩ => by
      have := blobFormat_four halias
      omega
  have ⟨j, hlaid⟩ := h.laid
  rw [hksGetKeyInfoListUnpackFromService, getUint32FromBuffer_counted h h.room, pure_bind]
  have hmany : keyInfoList.length.toUInt32 > slots.length.toUInt32 ↔
      slots.length < keyInfoList.length := by
    rw [gt_iff_lt, UInt32.lt_iff_toNat_lt, hcount, toUInt32_toNat hslots]
  simp only [hmany, hcount]
  split
  case isTrue hless => exact ⟨fun _ => .inl hless, fun _ => .throw⟩
  case isFalse hless =>
    constructor
    case mp =>
      intro hdelivers
      apply Classical.byContradiction
      intro hsmall
      rw [not_or] at hsmall
      have ⟨got, hrun, hlt⟩ := unpackKeyInfoList_lost memory h.length_lt hlaid hbuilt hsmall.2
      rw [hrun, pure_bind] at hdelivers
      have : got.length = keyInfoList.length := hdelivers.of_pure.2.length_eq.symm
      omega
    case mpr =>
      intro hfits
      have hrun := unpackKeyInfoList_delivered memory h.length_lt
        hlaid hbuilt (Nat.not_lt.mp hless) (hfits.resolve_left hless)
      exact .bind hrun fun _ hsame => .pure ⟨hcount, hsame⟩

-- The bytes that an alias set takes in a reply.
def aliasSetSize (aliasSet : List Blob) : Nat :=
  4 + (aliasSet.map fun blob => 4 + (alignSize blob.size).toNat).sum

-- The aliases that the service lists.
structure AliasSet (aliasSet : List Blob) : Prop where
  count : aliasSet.length ≤ hksMaxKeyAliasCount
  sizes : ∀ blob ∈ aliasSet, 1 ≤ blob.val.length ∧ blob.val.length ≤ hksMaxKeyAliasLen

theorem aliasSize_le {blob : Blob} (h : blob.val.length ≤ hksMaxKeyAliasLen) :
    (alignSize blob.size).toNat ≤ 64 := by
  rw [alignSize_toNat, blob.size_toNat]
  simp only [hksMaxKeyAliasLen] at h
  omega

-- The sum that the service keeps does not wrap around.
theorem foldl_aliasSize {aliasSet : List Blob} {size : UInt32}
    (h : ∀ blob ∈ aliasSet, blob.val.length ≤ hksMaxKeyAliasLen)
    (hsize : size.toNat + 68 * aliasSet.length < 2 ^ 32) :
    (aliasSet.foldl (fun size blob => size + (4 + alignSize blob.size)) size).toNat =
      size.toNat + (aliasSet.map fun blob => 4 + (alignSize blob.size).toNat).sum := by
  induction aliasSet generalizing size
  case nil => rfl
  case cons blob aliasSet ih =>
    have hle := aliasSize_le (h blob (by simp))
    have hnext : (size + (4 + alignSize blob.size)).toNat =
        size.toNat + (4 + (alignSize blob.size).toNat) := by
      rw [List.length_cons] at hsize
      rw [UInt32.toNat_add, UInt32.toNat_add]
      simp only [UInt32.toNat_ofNat]
      omega
    rw [List.foldl_cons, ih (fun b hb => h b (by simp [hb])) (by
      rw [List.length_cons] at hsize
      omega), hnext]
    rw [List.map_cons, List.sum_cons, Nat.add_assoc]

theorem AliasSet.reply_size {aliasSet : List Blob} (a : AliasSet aliasSet) :
    (aliasSet.foldl (fun size blob => size + (4 + alignSize blob.size)) 4).toNat =
      aliasSetSize aliasSet := by
  have hcount := a.count
  simp only [hksMaxKeyAliasCount] at hcount
  exact foldl_aliasSize (fun blob hblob => (a.sizes blob hblob).2) (by simp; omega)

-- What the client is promised about an alias set: the reply fits the room that the client has made,
-- and what the client has afterwards is the set.
def AliasesDelivered (aliasSet : List Blob) (reply : Bytes) : Prop :=
  reply.length ≤ listAliasesOutSize ∧
    Delivers (hksListAliasesUnpackFromService reply) (· = some (aliasSet.map Subtype.val))

theorem aliases_delivered {aliasSet : List Blob} (a : AliasSet aliasSet)
    (hreply : hksListAliasesPackFromService aliasSet = .ok reply) :
    AliasesDelivered aliasSet reply ↔
      aliasSet ≠ [] ∧ aliasSetSize aliasSet ≤ listAliasesOutSize := by
  by_cases hne : aliasSet = []
  case pos =>
    subst hne
    obtain rfl := Except.ok.inj hreply
    constructor
    · intro ⟨_, hdelivers⟩
      have hrun : hksListAliasesUnpackFromService [] = pure none := rfl
      rw [hrun] at hdelivers
      cases hdelivers.of_pure
    · exact fun ⟨hne, _⟩ => absurd rfl hne
  case neg =>
    have ⟨h, hsize⟩ := hksListAliasesPackFromService_counted hne hreply
    rw [a.reply_size] at hsize
    rw [AliasesDelivered, hsize, and_iff_right hne, and_iff_left_iff_imp]
    intro hroom
    have hcount : aliasSet.length.toUInt32.toNat = aliasSet.length :=
      h.length_toNat fun hitem => blobFormat_four hitem
    have ⟨j, hlaid⟩ := h.laid
    have hblobs : ∀ blob ∈ aliasSet, blob.Aligns ∧ mallocOk blob.val.length := by
      intro blob hblob
      have ⟨hpos, hmax⟩ := a.sizes blob hblob
      simp only [hksMaxKeyAliasLen] at hmax
      rw [Blob.Aligns, mallocOk, decide_eq_true_eq]
      omega
    have hmany : ¬aliasSet.length.toUInt32.toNat > hksMaxKeyAliasCount := by
      rw [hcount]
      exact Nat.not_lt.mpr a.count
    have hmalloc : mallocOk (aliasSet.length.toUInt32.toNat * 16) := by
      have hpos := List.length_pos_of_ne_nil hne
      have hmax := a.count
      simp only [hksMaxKeyAliasCount] at hmax
      rw [hcount, mallocOk, decide_eq_true_eq]
      omega
    have hzero : ¬reply.length.toUInt32 = 0 := by
      have := h.room
      rw [← UInt32.toNat_inj, toUInt32_toNat h.length_lt]
      simp only [UInt32.toNat_zero]
      omega
    rw [hksListAliasesUnpackFromService, if_neg hzero, getUint32FromBuffer_counted h h.room, pure_bind]
    dsimp only
    rw [if_neg hmany, if_neg (not_not_intro hmalloc), hcount,
      unpackAliases_laid h.length_lt hblobs hlaid, pure_bind]
    exact .pure rfl

theorem certChain_delivered {attestCert devCert : Blob} {caCert rootCert : Except HksErrorCode Blob}
    {certChain reply : Bytes} {certs : List UInt32} (hchain : certChain.length < 2 ^ 32)
    (hroom : hksAttestCertSize ≤ certChain.length) (hcerts : certs.length < 2 ^ 32)
    (hreply : formatAttestChain attestCert devCert caCert rootCert certChain = .ok reply) :
    ∃ ca root, caCert = .ok ca ∧ rootCert = .ok root ∧
      Delivers (hksCertificateChainUnpackFromService reply certs)
        (· = [attestCert, devCert, ca, root].map Subtype.val) := by
  simp only [hksAttestCertSize] at hroom
  have ⟨ca, root, hca, hroot, h⟩ := formatAttestChain_counted hchain (by omega) hreply
  refine ⟨ca, root, hca, hroot, ?_⟩
  have ⟨j, hlaid⟩ := h.laid
  have hshort : ¬reply.length.toUInt32 < 4 := by
    rw [UInt32.lt_iff_toNat_lt, toUInt32_toNat h.length_lt]
    exact Nat.not_lt.mpr h.room
  rw [hksCertificateChainUnpackFromService, if_neg hshort,
    readReply_eq (by rw [Nat.zero_add]; exact h.room), pure_bind, le32_slice h.count]
  refine .ite (fun _ => .throw) fun hmany => ?_
  rw [gt_iff_lt, UInt32.lt_iff_toNat_lt, toUInt32_toNat hcerts] at hmany
  exact unpackCerts_laid h.length_lt (Nat.not_lt.mp hmany) hlaid

-- A key info list arrives unless an element of the client is too small: then the rest of the list is
-- missing, with success. An alias set arrives if it is not empty and fits the room of the client. A
-- certificate chain arrives. No reply makes the client read outside it.
theorem ipcReply_roundTrip (addressOf : BlobData → UInt64) (padding : Nat → UInt32)
    (memory : UInt64 → BlobData) (slots : List KeyInfoSlot) (certs : List UInt32) :
    (∀ reply keyInfoList,
      keyInfoListReply addressOf padding keyInfoList = .ok reply →
      (∀ keyInfo ∈ keyInfoList, keyInfo.paramSet.Built) → slots.length < 2 ^ 32 →
      (Delivers (hksGetKeyInfoListUnpackFromService reply memory slots) (KeyInfoDelivered keyInfoList) ↔
        slots.length < keyInfoList.length ∨ SlotsFit slots keyInfoList)) ∧
    (∀ aliasSet reply, AliasSet aliasSet → hksListAliasesPackFromService aliasSet = .ok reply →
      (AliasesDelivered aliasSet reply ↔
        aliasSet ≠ [] ∧ aliasSetSize aliasSet ≤ listAliasesOutSize)) ∧
    (∀ (attestCert devCert : Blob) caCert rootCert (certChain : Blob) reply,
      hksAttestCertSize ≤ certChain.val.length → certs.length < 2 ^ 32 →
      formatAttestChain attestCert devCert caCert rootCert certChain.val = .ok reply →
      ∃ ca root, caCert = .ok ca ∧ rootCert = .ok root ∧
        Delivers (hksCertificateChainUnpackFromService reply certs)
          (· = [attestCert, devCert, ca, root].map Subtype.val)) ∧
    (∀ reply : Blob,
      Delivers (hksGetKeyInfoListUnpackFromService reply.val memory slots) (fun _ => True) ∧
      Delivers (hksListAliasesUnpackFromService reply.val) (fun _ => True) ∧
      Delivers (hksCertificateChainUnpackFromService reply.val certs) (fun _ => True)) := by
  refine ⟨?_, ?_, ?_, ?_⟩
  · intro reply keyInfoList hreply hbuilt hslots
    exact keyInfoList_delivered hreply hbuilt hslots
  · intro aliasSet reply a hreply
    exact aliases_delivered a hreply
  · intro attestCert devCert caCert rootCert certChain reply hroom hcerts hreply
    exact certChain_delivered certChain.property hroom hcerts hreply
  · intro reply
    exact ⟨hksGetKeyInfoListUnpackFromService_delivers reply.property memory slots,
      hksListAliasesUnpackFromService_delivers reply.property,
      hksCertificateChainUnpackFromService_delivers reply.property certs⟩

def sampleKeyInfo : HksKeyInfo := ⟨⟨[1, 2], by decide⟩, gcmParamSet⟩

def slotOf (aliasSize : UInt32) : KeyInfoSlot := ⟨aliasSize, ⟨.replicate 92 0, 92, rfl⟩⟩

def sampleReply : Except HksErrorCode Bytes := keyInfoListReply (fun _ => 0) (fun _ => 0) [sampleKeyInfo]

theorem sampleKeyInfo_built : ∀ keyInfo ∈ [sampleKeyInfo], keyInfo.paramSet.Built :=
  fun _ h => List.mem_singleton.mp h ▸ gcmParamSet_built

theorem sampleReply_ok : ∃ reply, sampleReply = .ok reply := by
  have hlen : sampleReply.map List.length = .ok 104 := by decide +kernel
  cases h : sampleReply
  case error =>
    rw [h] at hlen
    nomatch hlen
  case ok reply => exact ⟨reply, rfl⟩

theorem ipcReply_roundTrip_sample : ∃ reply, sampleReply = .ok reply ∧
    Delivers (hksGetKeyInfoListUnpackFromService reply (fun _ => .null) [slotOf 2])
      (KeyInfoDelivered [sampleKeyInfo]) := by
  have ⟨reply, hreply⟩ := sampleReply_ok
  have hdelivers := (ipcReply_roundTrip (fun _ => 0) (fun _ => 0) (fun _ => .null) [slotOf 2] []).1 reply
    [sampleKeyInfo] hreply sampleKeyInfo_built (by decide)
  exact ⟨reply, hreply, hdelivers.mpr (.inr (.inr ⟨⟨by decide, by decide, by decide⟩, trivial⟩))⟩

-- The room for the alias is one byte short: the client has success and no element.
theorem keyInfoList_lost :
    ∃ keyInfoList slots reply,
      keyInfoListReply (fun _ => 0) (fun _ => 0) keyInfoList = .ok reply ∧
      (∀ keyInfo ∈ keyInfoList, keyInfo.paramSet.Built) ∧ slots.length = keyInfoList.length ∧
      (hksGetKeyInfoListUnpackFromService reply (fun _ => .null) slots).run =
        some (.ok (1, [])) ∧ keyInfoList.length = 1 := by
  have ⟨reply, hreply⟩ := sampleReply_ok
  refine ⟨[sampleKeyInfo], [slotOf 1], reply, hreply, sampleKeyInfo_built, rfl, ?_, rfl⟩
  have hlost : sampleReply.toOption.bind (fun reply =>
      (hksGetKeyInfoListUnpackFromService reply (fun _ => .null) [slotOf 1]).run) = some (.ok (1, [])) := by
    decide +kernel
  rw [hreply] at hlost
  exact hlost

end

end Huks
