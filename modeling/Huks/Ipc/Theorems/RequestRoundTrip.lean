import Huks.Ipc.Theorems.RequestUnpacking
import Huks.Ipc.Theorems.SessionMessage

namespace Huks

-- A call of the client
inductive ClientCall
  | generateKey (keyAlias : Blob) (paramSetIn : HksParamSet) (paramSetOutSize : UInt32)
  | importKey (keyAlias : Blob) (paramSet : HksParamSet) (key : Blob)
  | exportPublicKey (keyAlias : Blob) (paramSet : Option HksParamSet) (keySize : UInt32)
  | importWrappedKey (keyAlias wrappingKeyAlias : Blob) (paramSet : HksParamSet) (wrappedKeyData : Blob)
  | deleteKey (keyAlias : Blob) (paramSet : Option HksParamSet)
  | getKeyParamSet (keyAlias : Blob) (paramSetIn : Option HksParamSet) (paramSetOutSize : UInt32)
  | keyExist (keyAlias : Blob) (paramSet : Option HksParamSet)
  | generateRandom (randomSize : UInt32)
  | sign (key : Blob) (paramSet : HksParamSet) (srcData signature : Blob)
  | verify (key : Blob) (paramSet : HksParamSet) (srcData signature : Blob)
  | encrypt (key : Blob) (paramSet : HksParamSet) (plainText cipherText : Blob)
  | decrypt (key : Blob) (paramSet : HksParamSet) (cipherText plainText : Blob)
  | agreeKey (paramSet : HksParamSet) (privateKey peerPublicKey : Blob) (agreedKeySize : UInt32)
  | deriveKey (paramSet : HksParamSet) (mainKey : Blob) (derivedKeySize : UInt32)
  | mac (key : Blob) (paramSet : HksParamSet) (srcData mac : Blob)
  | getKeyInfoList (paramSet : Option HksParamSet) (keyInfoList : List KeyInfoRoom)
  | attestKey (keyAlias : Blob) (paramSet : HksParamSet) (certs : List UInt32) (needAnonCertChain : Bool)
  | listAliases (paramSet : HksParamSet)
  | init (keyAlias : Blob) (paramSet : HksParamSet)
  | update (handle : Blob) (paramSet : HksParamSet) (inData : Blob) (outDataSize : UInt32)
  | finish (handle : Blob) (paramSet : HksParamSet) (inData : Blob) (outDataSize : UInt32)
  | abort (handle : Blob) (paramSet : HksParamSet)
  | exportChipsetPlatformPublicKey (salt : Blob) (scene publicKeySize : UInt32)

namespace ClientCall

def send (addressOf : BlobData → UInt64) (padding paramsPadding : Nat → UInt32) :
    ClientCall → Except HksErrorCode HksParcel
  | .generateKey a s n        => hksClientGenerateKey addressOf padding a s n
  | .importKey a s k          => hksClientImportKey addressOf padding a s k
  | .exportPublicKey a s n    => hksClientExportPublicKey addressOf padding a s n
  | .importWrappedKey a w s d => hksClientImportWrappedKey addressOf padding a w s d
  | .deleteKey a s            => hksClientDeleteKey addressOf padding a s
  | .getKeyParamSet a s n     => hksClientGetKeyParamSet addressOf padding a s n
  | .keyExist a s             => hksClientKeyExist addressOf padding a s
  | .generateRandom n         => hksClientGenerateRandom n
  | .sign k s d o             => hksClientSign addressOf padding k s d o
  | .verify k s d o           => hksClientVerify addressOf padding k s d o
  | .encrypt k s d o          => hksClientEncrypt addressOf padding k s d o
  | .decrypt k s d o          => hksClientDecrypt addressOf padding k s d o
  | .agreeKey s k p n         => hksClientAgreeKey addressOf padding s k p n
  | .deriveKey s k n          => hksClientDeriveKey addressOf padding s k n
  | .mac k s d o              => hksClientMac addressOf padding k s d o
  | .getKeyInfoList s l       => hksClientGetKeyInfoList addressOf padding s l
  | .attestKey a s c anon     => hksClientAttestKey addressOf padding a s c anon
  | .listAliases s            => hksClientListAliases addressOf padding s
  | .init a s                 => hksClientInit addressOf padding paramsPadding a s
  | .update h s d n           => hksClientUpdate addressOf padding paramsPadding h s d n
  | .finish h s d n           => hksClientFinish addressOf padding paramsPadding h s d n
  | .abort h s                => hksClientAbort addressOf padding paramsPadding h s
  | .exportChipsetPlatformPublicKey salt scene n =>
    hksClientExportChipsetPlatformPublicKey addressOf padding salt scene n

-- The param set of the caller was built, and a list has a length.
def WellFormed : ClientCall → Prop
  | .generateKey _ s _ | .importKey _ s _ | .importWrappedKey _ _ s _ | .sign _ s _ _ | .verify _ s _ _
  | .encrypt _ s _ _ | .decrypt _ s _ _ | .agreeKey s _ _ _ | .deriveKey s _ _ | .mac _ s _ _ | .attestKey _ s _ _
  | .listAliases s | .init _ s | .update _ s _ _ | .finish _ s _ _ | .abort _ s => s.Built
  | .getKeyInfoList _ l => l.length < 2 ^ 32
  | _ => True

-- The service does not make the room for what is sent back.
def Refused : ClientCall → Prop
  | .generateKey _ _ n => n > maxOutBlobSize
  | .generateRandom n | .agreeKey _ _ _ n | .deriveKey _ _ n => isInvalidLength n
  | .sign _ _ _ o | .encrypt _ _ _ o | .decrypt _ _ _ o | .mac _ _ _ o => isInvalidLength o.size
  | .attestKey _ _ c _ => isInvalidLength (certBufSize c)
  | .getKeyInfoList _ l => ∃ room ∈ l, room.Refused
  | .update _ _ _ n | .finish _ _ _ n | .exportChipsetPlatformPublicKey _ _ n => n.toNat > maxMallocLen
  | _ => False

-- The request is what the client called: the same aliases and data, and params that say the same.
inductive Received : ClientCall → ServiceRequest → Prop
  | generateKey {a s n got} (h : got.Contains s.contents) : Received (.generateKey a s n) (.generateKey a.val got n)
  | importKey {a s k got} (h : got.Contains s.contents) : Received (.importKey a s k) (.importKey a.val got k.val)
  | exportPublicKey {a s n got} (h : got.Contains (optContents s)) :
    Received (.exportPublicKey a s n)
      (.exportPublicKey a.val (some got) (if isInvalidLength n then none else some n))
  | importWrappedKey {a w s d got} (h : got.Contains s.contents) :
    Received (.importWrappedKey a w s d) (.importWrappedKey a.val w.val got d.val)
  | deleteKey {a s got} (h : got.Contains (optContents s)) : Received (.deleteKey a s) (.deleteKey a.val (some got))
  | getKeyParamSet {a s n got} (h : got.Contains (optContents s)) :
    Received (.getKeyParamSet a s n) (.getKeyParamSet a.val (some got)
      (if isInvalidLength n ∨ n.toNat < HksParamSet.headerSize then none else some n))
  | keyExist {a s got} (h : got.Contains (optContents s)) : Received (.keyExist a s) (.keyExist a.val (some got))
  | generateRandom {n} : Received (.generateRandom n) (.generateRandom n)
  | sign {k s d o got} (h : got.Contains s.contents) : Received (.sign k s d o) (.sign k.val got d.val o.size)
  | verify {k s d o got} (h : got.Contains s.contents) : Received (.verify k s d o) (.verify k.val got d.val o.val)
  | encrypt {k s d o got} (h : got.Contains (s.contents ++ contentsOf (cipherTags s d true))) :
    Received (.encrypt k s d o) (.encrypt k.val got d.val o.size)
  | decrypt {k s d o got} (h : got.Contains (s.contents ++ contentsOf (cipherTags s d false))) :
    Received (.decrypt k s d o) (.decrypt k.val got d.val o.size)
  | agreeKey {s k p n got} (h : got.Contains s.contents) : Received (.agreeKey s k p n) (.agreeKey got k.val p.val n)
  | deriveKey {s k n got} (h : got.Contains s.contents) : Received (.deriveKey s k n) (.deriveKey got k.val n)
  | mac {k s d o got} (h : got.Contains s.contents) : Received (.mac k s d o) (.mac k.val got d.val o.size)
  | getKeyInfoList {s l got} (h : got.Contains (optContents s)) :
    Received (.getKeyInfoList s l) (.getKeyInfoList (some got) l.length.toUInt32 (some l))
  | attestKey {a s c anon got} (h : got.Contains s.contents) :
    Received (.attestKey a s c anon) (.attestKey a.val got (certBufSize c))
  | listAliases {s got} (h : got.Contains s.contents) : Received (.listAliases s) (.listAliases got)
  | init {a s got} (h : got.Contains s.contents) :
    Received (.init a s) (.init a.val got (handleSize + tokenSize.toUInt32))
  | update {h s d n got} (hgot : got.Contains s.contents) :
    Received (.update h s d n) (.update h.val got d.val n)
  | finish {h s d n got} (hgot : got.Contains s.contents) :
    Received (.finish h s d n) (.finish h.val got d.val n)
  | abort {h s got} (hgot : got.Contains s.contents) : Received (.abort h s) (.abort h.val got)
  | exportChipsetPlatformPublicKey {salt scene n} :
    Received (.exportChipsetPlatformPublicKey salt scene n) (.exportChipsetPlatformPublicKey salt.val scene n)

-- The service has the call, if there is room for the message and for what is sent back.
def Exchanged (memory : UInt64 → BlobData) (call : ClientCall) (parcel : HksParcel) : Prop :=
  (∃ request, processRemoteRequest memory parcel = pure (some request) ∧ call.Received request) ↔
    parcel.data.length ≤ maxMallocLen ∧ ¬call.Refused

end ClientCall

open ClientCall

section Exchange

variable {memory : UInt64 → BlobData} {call : ClientCall} {parcel : HksParcel} {request : ServiceRequest} {c : Prop}

theorem processRemoteRequest_eq (hpos : 0 < parcel.data.length) (hlt : parcel.data.length < 2 ^ 32) :
    processRemoteRequest memory parcel =
      if parcel.data.length > maxMallocLen then throw .invalidArgument
      else processAttestOrNormalMessage memory parcel.code parcel.outSize parcel.data := by
  have hzero : parcel.data.length.toUInt32 ≠ 0 := by
    rw [ne_eq, ← UInt32.toNat_inj, toUInt32_toNat hlt]
    exact Nat.ne_of_gt hpos
  simp only [processRemoteRequest, toUInt32_toNat hlt, hzero, false_or]

theorem exchanged_iff [Decidable c] (hpos : 0 < parcel.data.length)
    (hlt : parcel.data.length < 2 ^ 32)
    (hrun : processAttestOrNormalMessage memory parcel.code parcel.outSize parcel.data =
      if c then throw .invalidArgument else pure (some request))
    (hreceived : call.Received request) (hc : c ↔ call.Refused) : Exchanged memory call parcel := by
  rw [Exchanged, processRemoteRequest_eq hpos hlt, hrun, ← hc]
  constructor
  · rintro ⟨r, hr, _⟩
    split at hr
    case isTrue => cases hr
    case isFalse hmax =>
      split at hr
      case isTrue => cases hr
      case isFalse hnot => exact ⟨Nat.not_lt.mp hmax, hnot⟩
  · rintro ⟨hmax, hnot⟩
    refine ⟨request, ?_, hreceived⟩
    rw [if_neg (Nat.not_lt.mpr hmax), if_neg hnot]

theorem exchanged_of_pure (hpos : 0 < parcel.data.length) (hlt : parcel.data.length < 2 ^ 32)
    (hrun : processAttestOrNormalMessage memory parcel.code parcel.outSize parcel.data = pure (some request))
    (hreceived : call.Received request) (hc : ¬call.Refused) : Exchanged memory call parcel :=
  exchanged_iff (c := False) hpos hlt (hrun.trans (if_neg not_false).symm) hreceived
    (iff_of_false not_false hc)

end Exchange

-- The calls that go in one piece
section Calls

variable (addressOf : BlobData → UInt64) (padding : Nat → UInt32) (memory : UInt64 → BlobData) {s : HksParamSet}

theorem generateKey_exchanged (hbuilt : s.Built) (keyAlias : Blob) (n : UInt32) :
    Packs (hksClientGenerateKey addressOf padding keyAlias s n)
      (Exchanged memory (.generateKey keyAlias s n)) := by
  refine (hksClientGenerateKey_packs addressOf padding hbuilt keyAlias n).weaken fun parcel _ ⟨ha, sent⟩ => ?_
  obtain ⟨j, hlaid⟩ := sent.laid
  obtain ⟨got, hgot, hunpack⟩ := hksGenerateKeyUnpack_laid memory sent.length_lt ha hbuilt hlaid
  refine exchanged_iff (c := n > maxOutBlobSize) sent.pos sent.length_lt ?_ (.generateKey hgot) Iff.rfl
  rw [sent.code_eq]
  change hksGenerateKeyUnpack memory parcel.data >>= _ = _
  rw [hunpack, ReplyM.refuse_bind]

theorem importKey_exchanged (hbuilt : s.Built) (keyAlias key : Blob) :
    Packs (hksClientImportKey addressOf padding keyAlias s key) (Exchanged memory (.importKey keyAlias s key)) := by
  refine (hksClientImportKey_packs addressOf padding hbuilt keyAlias key).weaken fun parcel _ ⟨⟨ha, hk⟩, sent⟩ => ?_
  obtain ⟨j, hlaid⟩ := sent.laid
  obtain ⟨got, hgot, hunpack⟩ := hksImportKeyUnpack_laid memory sent.length_lt ha hbuilt hk hlaid
  refine exchanged_of_pure sent.pos sent.length_lt ?_ (.importKey hgot) id
  rw [sent.code_eq]
  change hksImportKeyUnpack memory parcel.data >>= _ = _
  rw [hunpack, pure_bind]

theorem exportPublicKey_exchanged (keyAlias : Blob) (paramSet : Option HksParamSet) (n : UInt32) :
    Packs (hksClientExportPublicKey addressOf padding keyAlias paramSet n)
      (Exchanged memory (.exportPublicKey keyAlias paramSet n)) := by
  refine (hksClientExportPublicKey_packs addressOf padding keyAlias paramSet n).weaken
    fun parcel _ ⟨ha, s, hs, sent⟩ => ?_
  obtain ⟨j, hlaid⟩ := sent.laid
  obtain ⟨got, hgot, hunpack⟩ := hksExportPublicKeyUnpack_laid memory sent.length_lt ha hs.1 hlaid
  refine exchanged_of_pure sent.pos sent.length_lt ?_ (.exportPublicKey (hs.2 ▸ hgot)) id
  rw [sent.code_eq]
  change hksExportPublicKeyUnpack memory parcel.data >>= _ = _
  rw [hunpack, pure_bind]

theorem importWrappedKey_exchanged (hbuilt : s.Built) (keyAlias wrappingKeyAlias wrappedKeyData : Blob) :
    Packs (hksClientImportWrappedKey addressOf padding keyAlias wrappingKeyAlias s wrappedKeyData)
      (Exchanged memory (.importWrappedKey keyAlias wrappingKeyAlias s wrappedKeyData)) := by
  refine (hksClientImportWrappedKey_packs addressOf padding hbuilt keyAlias wrappingKeyAlias wrappedKeyData).weaken
    fun parcel _ ⟨⟨ha, hw, hd⟩, sent⟩ => ?_
  obtain ⟨j, hlaid⟩ := sent.laid
  obtain ⟨got, hgot, hunpack⟩ := hksImportWrappedKeyUnpack_laid memory sent.length_lt ha hbuilt hw hd hlaid
  refine exchanged_of_pure sent.pos sent.length_lt ?_ (.importWrappedKey hgot) id
  rw [sent.code_eq]
  change hksImportWrappedKeyUnpack memory parcel.data >>= _ = _
  rw [hunpack, pure_bind]

theorem deleteKey_exchanged (keyAlias : Blob) (paramSet : Option HksParamSet) :
    Packs (hksClientDeleteKey addressOf padding keyAlias paramSet)
      (Exchanged memory (.deleteKey keyAlias paramSet)) := by
  refine (hksClientDeleteKey_packs addressOf padding keyAlias paramSet).weaken fun parcel _ ⟨ha, s, hs, sent⟩ => ?_
  obtain ⟨j, hlaid⟩ := sent.laid
  obtain ⟨got, hgot, hunpack⟩ := hksDeleteKeyUnpack_laid memory sent.length_lt ha hs.1 hlaid
  refine exchanged_of_pure sent.pos sent.length_lt ?_ (.deleteKey (hs.2 ▸ hgot)) id
  rw [sent.code_eq]
  change hksDeleteKeyUnpack memory parcel.data >>= _ = _
  rw [hunpack, pure_bind]

theorem getKeyParamSet_exchanged (keyAlias : Blob) (paramSet : Option HksParamSet) (n : UInt32) :
    Packs (hksClientGetKeyParamSet addressOf padding keyAlias paramSet n)
      (Exchanged memory (.getKeyParamSet keyAlias paramSet n)) := by
  refine (hksClientGetKeyParamSet_packs addressOf padding keyAlias paramSet n).weaken
    fun parcel _ ⟨ha, s, hs, sent⟩ => ?_
  obtain ⟨j, hlaid⟩ := sent.laid
  obtain ⟨got, hgot, hunpack⟩ := hksGetKeyParamSetUnpack_laid memory sent.length_lt ha hs.1 hlaid
  refine exchanged_of_pure sent.pos sent.length_lt ?_ (.getKeyParamSet (hs.2 ▸ hgot)) id
  rw [sent.code_eq]
  change hksGetKeyParamSetUnpack memory parcel.data >>= _ = _
  rw [hunpack, pure_bind]

theorem keyExist_exchanged (keyAlias : Blob) (paramSet : Option HksParamSet) :
    Packs (hksClientKeyExist addressOf padding keyAlias paramSet)
      (Exchanged memory (.keyExist keyAlias paramSet)) := by
  refine (hksClientKeyExist_packs addressOf padding keyAlias paramSet).weaken fun parcel _ ⟨ha, s, hs, sent⟩ => ?_
  obtain ⟨j, hlaid⟩ := sent.laid
  obtain ⟨got, hgot, hunpack⟩ := hksDeleteKeyUnpack_laid memory sent.length_lt ha hs.1 hlaid
  refine exchanged_of_pure sent.pos sent.length_lt ?_ (.keyExist (hs.2 ▸ hgot)) id
  rw [sent.code_eq]
  change hksDeleteKeyUnpack memory parcel.data >>= _ = _
  rw [hunpack, pure_bind]

theorem generateRandom_exchanged (n : UInt32) :
    Packs (hksClientGenerateRandom n) (Exchanged memory (.generateRandom n)) := by
  refine (hksClientGenerateRandom_packs n).weaken fun parcel _ h => ?_
  have hlen : parcel.data.length = 4 := by
    rw [h]
    rfl
  refine exchanged_iff (c := isInvalidLength n) (by omega) (by omega) ?_ .generateRandom Iff.rfl
  have hread : readReply parcel.data 0 4 = pure (toBytes32 n) := by
    rw [readReply_eq (by omega), h]
    rfl
  have hrun : generateRandomSize parcel.data = if isInvalidLength n then throw .invalidArgument else pure n := by
    have hshort : ¬parcel.data.length.toUInt32 < 4 := by
      rw [hlen]
      decide
    have hword : le32 (toBytes32 n) = n := le32_toBytes32_append n []
    rw [generateRandomSize, if_neg hshort, hread, pure_bind, hword]
    dsimp only
    split
    case isTrue => rfl
    case isFalse hvalid => rw [if_neg (not_not_intro (mallocOk_of_length (by simpa using hvalid)))]
  rw [h] at hrun ⊢
  change generateRandomSize _ >>= _ = _
  rw [hrun, ReplyM.refuse_bind]

theorem agreeKey_exchanged (hbuilt : s.Built) (privateKey peerPublicKey : Blob) (n : UInt32) :
    Packs (hksClientAgreeKey addressOf padding s privateKey peerPublicKey n)
      (Exchanged memory (.agreeKey s privateKey peerPublicKey n)) := by
  refine (hksClientAgreeKey_packs addressOf padding hbuilt privateKey peerPublicKey n).weaken
    fun parcel _ ⟨⟨hk, hp⟩, sent⟩ => ?_
  obtain ⟨j, hlaid⟩ := sent.laid
  obtain ⟨got, hgot, hunpack⟩ := hksAgreeKeyUnpack_laid memory sent.length_lt hk hbuilt hp hlaid
  refine exchanged_iff (c := isInvalidLength n) sent.pos sent.length_lt ?_ (.agreeKey hgot) Iff.rfl
  rw [sent.code_eq]
  change hksAgreeKeyUnpack memory parcel.data >>= _ = _
  rw [hunpack, ReplyM.refuse_bind]

theorem deriveKey_exchanged (hbuilt : s.Built) (mainKey : Blob) (n : UInt32) :
    Packs (hksClientDeriveKey addressOf padding s mainKey n) (Exchanged memory (.deriveKey s mainKey n)) := by
  refine (hksClientDeriveKey_packs addressOf padding hbuilt mainKey n).weaken fun parcel _ ⟨hk, sent⟩ => ?_
  obtain ⟨j, hlaid⟩ := sent.laid
  obtain ⟨got, hgot, hunpack⟩ := hksDeriveKeyUnpack_laid memory sent.length_lt hk hbuilt hlaid
  refine exchanged_iff (c := isInvalidLength n) sent.pos sent.length_lt ?_ (.deriveKey hgot) Iff.rfl
  rw [sent.code_eq]
  change hksDeriveKeyUnpack memory parcel.data >>= _ = _
  rw [hunpack, ReplyM.refuse_bind]

theorem attestKey_exchanged (hbuilt : s.Built) (keyAlias : Blob) (certs : List UInt32) (needAnonCertChain : Bool) :
    Packs (hksClientAttestKey addressOf padding keyAlias s certs needAnonCertChain)
      (Exchanged memory (.attestKey keyAlias s certs needAnonCertChain)) := by
  refine (hksClientAttestKey_packs addressOf padding hbuilt keyAlias certs needAnonCertChain).weaken
    fun parcel _ ⟨ha, sent⟩ => ?_
  obtain ⟨j, hlaid⟩ := sent.laid
  obtain ⟨got, hgot, hunpack⟩ := hksCertificateChainUnpack_laid memory sent.length_lt ha hbuilt hlaid
  refine exchanged_iff (c := isInvalidLength (certBufSize certs)) sent.pos sent.length_lt ?_ (.attestKey hgot) Iff.rfl
  have hcode : parcel.code = .attestKey ∨ parcel.code = .attestKeyAsyncReply := by
    rw [sent.code_eq]
    cases needAnonCertChain
    case false => exact .inl rfl
    case true => exact .inr rfl
  rw [processAttestOrNormalMessage, if_pos hcode, hunpack, ReplyM.refuse_bind]

theorem listAliases_exchanged (hbuilt : s.Built) :
    Packs (hksClientListAliases addressOf padding s) (Exchanged memory (.listAliases s)) := by
  refine (hksClientListAliases_packs addressOf padding hbuilt).weaken fun parcel _ sent => ?_
  obtain ⟨j, hlaid⟩ := sent.laid
  obtain ⟨got, hgot, hunpack⟩ := hksListAliasesUnpack_laid memory sent.length_lt hbuilt hlaid
  refine exchanged_of_pure sent.pos sent.length_lt ?_ (.listAliases hgot) id
  rw [sent.code_eq]
  change hksListAliasesUnpack memory parcel.data >>= _ = _
  rw [hunpack, pure_bind]

-- The service has no list where it did not make an element, whatever it reads behind it.
theorem getKeyInfoList_exchanged (paramSet : Option HksParamSet) {keyInfoList : List KeyInfoRoom}
    (hlen : keyInfoList.length < 2 ^ 32) :
    Packs (hksClientGetKeyInfoList addressOf padding paramSet keyInfoList)
      (Exchanged memory (.getKeyInfoList paramSet keyInfoList)) := by
  refine (hksClientGetKeyInfoList_packs addressOf padding paramSet hlen).weaken
    fun parcel _ ⟨⟨hpos, hmax⟩, s, hs, sent⟩ => ?_
  obtain ⟨j, hlaid⟩ := sent.laid
  have hunpack := hksGetKeyInfoListUnpack_laid memory sent.length_lt hs.1 hpos hmax hlaid
  have hrun : processAttestOrNormalMessage memory parcel.code parcel.outSize parcel.data =
      hksGetKeyInfoListUnpack memory parcel.data >>= fun p => pure (some (.getKeyInfoList p.1 p.2.1 p.2.2)) := by
    rw [sent.code_eq]
    rfl
  by_cases hrefused : ∃ room ∈ keyInfoList, room.Refused
  case neg =>
    have hnone : ∀ room ∈ keyInfoList, ¬room.Refused := fun room hroom h => hrefused ⟨room, hroom, h⟩
    obtain ⟨got, hgot, hunpack⟩ := hunpack.1 hnone
    refine exchanged_of_pure sent.pos sent.length_lt ?_ (.getKeyInfoList (hs.2 ▸ hgot)) hrefused
    rw [hrun, hunpack, pure_bind]
  case pos =>
    refine iff_of_false ?_ fun h => h.2 hrefused
    rintro ⟨request, hrequest, hreceived⟩
    rw [processRemoteRequest_eq sent.pos sent.length_lt] at hrequest
    split at hrequest
    case isTrue => cases hrequest
    case isFalse =>
      rw [hrun] at hrequest
      obtain ⟨⟨got, inputCount, keyInfos⟩, hget, hpure⟩ := ReplyM.bind_eq_pure hrequest
      obtain rfl : keyInfos = none := hunpack.2 hrefused _ hget
      obtain rfl := Option.some.inj (ReplyM.pure_inj hpure)
      cases hreceived

end Calls

-- The calls with a piece of data
section Data

variable (addressOf : BlobData → UInt64) (padding : Nat → UInt32) (memory : UInt64 → BlobData) {s : HksParamSet}
  (key inData outData : Blob)

-- Four of them differ in the code.
theorem once_exchanged {code : HksIpcInterfaceCode} {call : ClientCall} {contents : Contents}
    {request : HksParamSet → ServiceRequest} (hcontains : s.Contains contents) (hcode : code ≠ .verify)
    (hrun : ∀ data got, OnceUnpacked memory data (if isInvalidLength outData.size then throw .invalidArgument
        else pure (key.val, got, inData.val, outData.size)) →
      ∀ outSize, processAttestOrNormalMessage memory code outSize data =
        if isInvalidLength outData.size then throw .invalidArgument else pure (some (request got)))
    (hreceived : ∀ got, got.Contains contents → call.Received (request got))
    (hrefused : isInvalidLength outData.size ↔ call.Refused) :
    Packs (hksSliceDataEntry addressOf padding code key s inData outData) (Exchanged memory call) := by
  refine (hksSliceDataEntry_packs addressOf padding code key hcontains.1 inData outData).weaken
    fun parcel _ ⟨⟨hk, hin, _⟩, sent⟩ => ?_
  rw [lastPart, if_neg hcode, if_neg hcode] at sent
  obtain ⟨j, hlaid⟩ := sent.laid
  obtain ⟨got, hgot, hunpack⟩ := onceUnpack_laid memory sent.length_lt hk hcontains.1 hin hlaid
  have hreceived := hreceived got (hcontains.2 ▸ hgot)
  refine exchanged_iff (c := isInvalidLength outData.size) sent.pos sent.length_lt ?_ hreceived hrefused
  rw [sent.code_eq]
  exact hrun parcel.data got hunpack parcel.outSize

theorem sign_exchanged (hbuilt : s.Built) :
    Packs (hksClientSign addressOf padding key s inData outData) (Exchanged memory (.sign key s inData outData)) := by
  refine .seq (hksCheckBlob3AndParamSet_packs _ _ _ _) fun _ => ?_
  refine once_exchanged addressOf padding memory key inData outData hbuilt.contains nofun ?_
    (fun _ hgot => .sign hgot) Iff.rfl
  intro data got hunpack outSize
  change hksSignUnpack memory data >>= _ = _
  rw [hunpack.sign, ReplyM.refuse_bind]

theorem mac_exchanged (hbuilt : s.Built) :
    Packs (hksClientMac addressOf padding key s inData outData) (Exchanged memory (.mac key s inData outData)) := by
  refine .seq (hksCheckBlob3AndParamSet_packs _ _ _ _) fun _ => ?_
  refine once_exchanged addressOf padding memory key inData outData hbuilt.contains nofun ?_
    (fun _ hgot => .mac hgot) Iff.rfl
  intro data got hunpack outSize
  change hksHmacUnpack memory data >>= _ = _
  rw [hunpack.mac, ReplyM.refuse_bind]

theorem encrypt_exchanged :
    Packs (hksClientEncrypt addressOf padding key s inData outData)
      (Exchanged memory (.encrypt key s inData outData)) := by
  refine .seq (hksCheckBlob3AndParamSet_packs _ _ _ _) fun _ => ?_
  refine .bind (appendCipherTag_packs s inData true) fun t ht => ?_
  refine once_exchanged addressOf padding memory key inData outData ht nofun ?_
    (fun _ hgot => .encrypt hgot) Iff.rfl
  intro data got hunpack outSize
  change hksEncryptDecryptUnpack memory data >>= _ = _
  rw [hunpack.cipher, ReplyM.refuse_bind]

theorem decrypt_exchanged :
    Packs (hksClientDecrypt addressOf padding key s inData outData)
      (Exchanged memory (.decrypt key s inData outData)) := by
  refine .seq (hksCheckBlob3AndParamSet_packs _ _ _ _) fun _ => ?_
  refine .bind (appendCipherTag_packs s inData false) fun t ht => ?_
  refine once_exchanged addressOf padding memory key inData outData ht nofun ?_
    (fun _ hgot => .decrypt hgot) Iff.rfl
  intro data got hunpack outSize
  change hksEncryptDecryptUnpack memory data >>= _ = _
  rw [hunpack.cipher, ReplyM.refuse_bind]

theorem verify_exchanged (hbuilt : s.Built) :
    Packs (hksClientVerify addressOf padding key s inData outData)
      (Exchanged memory (.verify key s inData outData)) := by
  refine .seq (hksCheckBlob3AndParamSet_packs _ _ _ _) fun _ => ?_
  refine (hksSliceDataEntry_packs addressOf padding .verify key hbuilt inData outData).weaken
    fun parcel _ ⟨⟨hk, hin, hsignature⟩, sent⟩ => ?_
  obtain ⟨j, hlaid⟩ := sent.laid
  obtain ⟨got, hgot, hunpack⟩ := hksVerifyUnpack_laid memory sent.length_lt hk hbuilt hin hsignature hlaid
  refine exchanged_of_pure sent.pos sent.length_lt ?_ (.verify hgot) id
  rw [sent.code_eq]
  change hksVerifyUnpack memory parcel.data >>= _ = _
  rw [hunpack, pure_bind]

end Data

-- The calls of a session
section Session

variable (addressOf : BlobData → UInt64) (padding paramsPadding : Nat → UInt32) (memory : UInt64 → BlobData)
  {s : HksParamSet}

-- The handlers of a session return what is large enough.
theorem session_run (outSize : UInt32) {r : Except HksErrorCode ServiceRequest} {request : ServiceRequest}
    (hr : r = .ok request) :
    (if outSize.toNat > maxMallocLen then throw .invalidArgument else MonadExcept.ofExcept (some <$> r) :
        ReplyM (Option ServiceRequest)) =
      if outSize.toNat > maxMallocLen then throw .invalidArgument else pure (some request) := by
  rw [hr]
  rfl

theorem init_exchanged (hbuilt : s.Built) (keyAlias : Blob) :
    Packs (hksClientInit addressOf padding paramsPadding keyAlias s) (Exchanged memory (.init keyAlias s)) := by
  refine (hksClientInit_packs addressOf padding paramsPadding memory hbuilt keyAlias).weaken
    fun parcel _ ⟨_, got, sent, hgot, hrun⟩ => ?_
  refine exchanged_iff (c := (handleSize + tokenSize.toUInt32).toNat > maxMallocLen) sent.pos sent.length_lt ?_
    (.init hgot) (iff_of_false (by decide) id)
  rw [sent.code_eq, sent.outSize_eq]
  exact session_run (handleSize + tokenSize.toUInt32) (hrun _)

theorem update_exchanged (hbuilt : s.Built) (handle inData : Blob) (n : UInt32) :
    Packs (hksClientUpdate addressOf padding paramsPadding handle s inData n)
      (Exchanged memory (.update handle s inData n)) := by
  refine (hksClientUpdOrFin_packs addressOf padding paramsPadding memory hbuilt .update handle inData n).weaken
    fun parcel _ ⟨_, got, sent, hgot, hrun⟩ => ?_
  refine exchanged_iff (c := n.toNat > maxMallocLen) sent.pos sent.length_lt ?_ (.update hgot) Iff.rfl
  rw [sent.code_eq, sent.outSize_eq]
  exact session_run n (hrun n true)

theorem finish_exchanged (hbuilt : s.Built) (handle inData : Blob) (n : UInt32) :
    Packs (hksClientFinish addressOf padding paramsPadding handle s inData n)
      (Exchanged memory (.finish handle s inData n)) := by
  refine (hksClientUpdOrFin_packs addressOf padding paramsPadding memory hbuilt .finish handle inData n).weaken
    fun parcel _ ⟨_, got, sent, hgot, hrun⟩ => ?_
  refine exchanged_iff (c := n.toNat > maxMallocLen) sent.pos sent.length_lt ?_ (.finish hgot) Iff.rfl
  rw [sent.code_eq, sent.outSize_eq]
  exact session_run n (hrun n false)

theorem abort_exchanged (hbuilt : s.Built) (handle : Blob) :
    Packs (hksClientAbort addressOf padding paramsPadding handle s) (Exchanged memory (.abort handle s)) := by
  refine (hksClientAbort_packs addressOf padding paramsPadding memory hbuilt handle).weaken
    fun parcel _ ⟨_, got, sent, hgot, hrun⟩ => ?_
  refine exchanged_iff (c := (0 : UInt32).toNat > maxMallocLen) sent.pos sent.length_lt ?_
    (.abort hgot) (iff_of_false (by decide) id)
  rw [sent.code_eq, sent.outSize_eq]
  exact session_run 0 hrun

theorem exportChipsetPlatformPublicKey_exchanged (salt : Blob) (scene n : UInt32) :
    Packs (hksClientExportChipsetPlatformPublicKey addressOf padding salt scene n)
      (Exchanged memory (.exportChipsetPlatformPublicKey salt scene n)) := by
  refine (hksClientExportChipsetPlatformPublicKey_packs addressOf padding memory salt scene n).weaken
    fun parcel _ ⟨_, sent, hrun⟩ => ?_
  refine exchanged_iff (c := n.toNat > maxMallocLen) sent.pos sent.length_lt ?_
    .exportChipsetPlatformPublicKey Iff.rfl
  rw [sent.code_eq, sent.outSize_eq]
  exact session_run n (hrun n)

end Session

section Request

variable (addressOf : BlobData → UInt64) (padding paramsPadding : Nat → UInt32) (memory : UInt64 → BlobData)
  {call : ClientCall}

theorem send_packs (hwf : call.WellFormed) :
    Packs (call.send addressOf padding paramsPadding) (Exchanged memory call) := by
  cases call
  case generateKey a s n => exact generateKey_exchanged addressOf padding memory hwf a n
  case importKey a s k => exact importKey_exchanged addressOf padding memory hwf a k
  case exportPublicKey a s n => exact exportPublicKey_exchanged addressOf padding memory a s n
  case importWrappedKey a w s d => exact importWrappedKey_exchanged addressOf padding memory hwf a w d
  case deleteKey a s => exact deleteKey_exchanged addressOf padding memory a s
  case getKeyParamSet a s n => exact getKeyParamSet_exchanged addressOf padding memory a s n
  case keyExist a s => exact keyExist_exchanged addressOf padding memory a s
  case generateRandom n => exact generateRandom_exchanged memory n
  case sign k s d o => exact sign_exchanged addressOf padding memory k d o hwf
  case verify k s d o => exact verify_exchanged addressOf padding memory k d o hwf
  case encrypt k s d o => exact encrypt_exchanged addressOf padding memory k d o
  case decrypt k s d o => exact decrypt_exchanged addressOf padding memory k d o
  case agreeKey s k p n => exact agreeKey_exchanged addressOf padding memory hwf k p n
  case deriveKey s k n => exact deriveKey_exchanged addressOf padding memory hwf k n
  case mac k s d o => exact mac_exchanged addressOf padding memory k d o hwf
  case getKeyInfoList s l => exact getKeyInfoList_exchanged addressOf padding memory s hwf
  case attestKey a s c anon => exact attestKey_exchanged addressOf padding memory hwf a c anon
  case listAliases s => exact listAliases_exchanged addressOf padding memory hwf
  case init a s => exact init_exchanged addressOf padding paramsPadding memory hwf a
  case update h s d n => exact update_exchanged addressOf padding paramsPadding memory hwf h d n
  case finish h s d n => exact finish_exchanged addressOf padding paramsPadding memory hwf h d n
  case abort h s => exact abort_exchanged addressOf padding paramsPadding memory hwf h
  case exportChipsetPlatformPublicKey salt scene n =>
    exact exportChipsetPlatformPublicKey_exchanged addressOf padding memory salt scene n

-- A call that is sent is what the service gets, unless the message or what is to be sent back is too large.
theorem request_received (hwf : call.WellFormed) {parcel : HksParcel}
    (h : call.send addressOf padding paramsPadding = .ok parcel) :
    (∃ request, processRemoteRequest memory parcel = pure (some request) ∧ call.Received request) ↔
      parcel.data.length ≤ maxMallocLen ∧ ¬call.Refused :=
  (send_packs addressOf padding paramsPadding memory hwf).2 parcel h

-- The size that the client computes for a message is enough for it.
theorem request_fits (hwf : call.WellFormed) :
    call.send addressOf padding paramsPadding ≠ .error .bufferTooSmall :=
  (send_packs addressOf padding paramsPadding (fun _ => .null) hwf).1

end Request

section Sample

-- Four bytes are encrypted with a key; there is room for them and for the tag.
def encryptCall : ClientCall :=
  .encrypt ⟨[1, 2, 3], by decide⟩ gcmParamSet ⟨[4, 5, 6, 7], by decide⟩ ⟨.replicate 20 0, by decide⟩

theorem request_received_encrypt : ∃ parcel request,
    encryptCall.send (fun _ => 0) (fun _ => 0) (fun _ => 0) = .ok parcel ∧
      processRemoteRequest (fun _ => .null) parcel = pure (some request) ∧ encryptCall.Received request := by
  have hlen : (encryptCall.send (fun _ => 0) (fun _ => 0) (fun _ => 0)).map (·.data.length) = .ok 136 := by
    decide +kernel
  cases hsend : encryptCall.send (fun _ => 0) (fun _ => 0) (fun _ => 0)
  case error =>
    rw [hsend] at hlen
    nomatch hlen
  case ok parcel =>
    rw [hsend] at hlen
    have hshort : parcel.data.length ≤ maxMallocLen := Nat.le_of_eq (Except.ok.inj hlen) |>.trans (by decide)
    have hroom : ¬encryptCall.Refused := by
      rw [encryptCall, ClientCall.Refused]
      decide
    have ⟨request, hrequest⟩ := (request_received (fun _ => 0) (fun _ => 0) (fun _ => 0) (fun _ => .null)
      (show encryptCall.WellFormed from gcmParamSet_built) hsend).mpr ⟨hshort, hroom⟩
    exact ⟨parcel, request, rfl, hrequest⟩

theorem request_fits_encrypt :
    encryptCall.send (fun _ => 0) (fun _ => 0) (fun _ => 0) ≠ .error .bufferTooSmall :=
  request_fits (fun _ => 0) (fun _ => 0) (fun _ => 0) (show encryptCall.WellFormed from gcmParamSet_built)

end Sample

end Huks
