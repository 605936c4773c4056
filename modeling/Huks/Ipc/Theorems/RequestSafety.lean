import Huks.Ipc.Theorems.RequestUnpacking

namespace Huks

-- A param set whose array and blobs lie in a part of the message
def Lodged (data : Bytes) (s : HksParamSet) : Prop := ∃ block : ParamBlock, block.bytes <:+: data ∧ block.Holds s

theorem slice_isInfix {α : Type} (l : List α) (i n : Nat) : slice l i n <:+: l :=
  (List.take_prefix n _).isInfix.trans (List.drop_suffix i l).isInfix

theorem infix_flatMap_of_mem {α β : Type} {f : α → List β} {l : List α} {a : α} (ha : a ∈ l) :
    f a <:+: l.flatMap f := by
  obtain ⟨l₁, l₂, rfl⟩ := List.append_of_mem ha
  refine ⟨l₁.flatMap f, l₂.flatMap f, ?_⟩
  rw [List.flatMap_append, List.flatMap_cons, List.append_assoc]

namespace ServiceRequest

def blobs : ServiceRequest → List Bytes
  | .generateKey a _ _ | .exportPublicKey a _ _ | .deleteKey a _ | .getKeyParamSet a _ _ | .keyExist a _
  | .deriveKey _ a _ | .attestKey a _ _ | .init a _ _ | .abort a _ | .exportChipsetPlatformPublicKey a _ _ => [a]
  | .importKey a _ b | .sign a _ b _ | .encrypt a _ b _ | .decrypt a _ b _ | .agreeKey _ a b _ | .mac a _ b _
  | .update a _ b _ | .finish a _ b _ => [a, b]
  | .importWrappedKey a b _ c | .verify a _ b c => [a, b, c]
  | .generateRandom _ | .getKeyInfoList _ _ _ | .listAliases _ => []

def paramSets : ServiceRequest → List HksParamSet
  | .generateKey _ s _ | .importKey _ s _ | .importWrappedKey _ _ s _ | .sign _ s _ _ | .verify _ s _ _
  | .encrypt _ s _ _ | .decrypt _ s _ _ | .agreeKey s _ _ _ | .deriveKey s _ _ | .mac _ s _ _ | .attestKey _ s _
  | .listAliases s | .init _ s _ | .update _ s _ _ | .finish _ s _ _ | .abort _ s => [s]
  | .exportPublicKey _ s _ | .deleteKey _ s | .getKeyParamSet _ s _ | .keyExist _ s | .getKeyInfoList s _ _ => s.toList
  | .generateRandom _ | .exportChipsetPlatformPublicKey _ _ _ => []

-- The sizes of the memory that is made for what is sent back
def rooms : ServiceRequest → List UInt32
  | .generateKey _ _ n | .generateRandom n | .sign _ _ _ n | .encrypt _ _ _ n | .decrypt _ _ _ n | .agreeKey _ _ _ n
  | .deriveKey _ _ n | .mac _ _ _ n | .attestKey _ _ n | .init _ _ n | .update _ _ _ n | .finish _ _ _ n
  | .exportChipsetPlatformPublicKey _ _ n => [n]
  | .exportPublicKey _ _ n | .getKeyParamSet _ _ n => n.toList
  | .getKeyInfoList _ _ l => (l.getD []).flatMap fun room => [room.aliasSize, room.paramSetSize]
  | .importKey _ _ _ | .importWrappedKey _ _ _ _ | .deleteKey _ _ | .keyExist _ _ | .verify _ _ _ _ | .listAliases _
  | .abort _ _ => []

-- What the handlers are given lies in the message, and the memory that is made has a limit.
structure Inside (data : Bytes) (request : ServiceRequest) : Prop where
  blobs     : ∀ b ∈ request.blobs, b <:+: data
  paramSets : ∀ s ∈ request.paramSets, Lodged data s
  rooms     : ∀ n ∈ request.rooms, n ≤ maxOutBlobSize

end ServiceRequest

-- Whatever a message is, what is read of it lies in it.
section Reading

variable {data : Bytes} {offset : UInt32} (h : data.length < 2 ^ 32) (memory : UInt64 → BlobData)

include h

theorem serviceGetBlob_delivers :
    Delivers (ServiceIpc.getBlobFromBuffer data offset) fun p => p.1 <:+: data := by
  refine .bind (getBlobFromBuffer_delivers h) fun (blob, offset') hwithin => ?_
  dsimp only
  rw [readReply_eq hwithin, pure_bind]
  exact .pure (slice_isInfix _ _ _)

-- The block of a set that is not refused starts with its size.
theorem paramSetSize_ofBytes {i : Nat} {size : UInt32} (hlen : i + 4 ≤ data.length)
    (hsize : le32 (slice data i 4) = size) (hmax : i + size.toNat ≤ data.length) {s : HksParamSet}
    (hs : hksFreshParamSet ((ParamBlock.ofBuffer (slice data i size.toNat)).paramSet memory) false = .ok s) :
    ((ParamBlock.ofBuffer (slice data i size.toNat)).paramSet memory).paramSetSize =
      (ParamBlock.ofBuffer (slice data i size.toNat)).size := by
  have hlength : (slice data i size.toNat).length = size.toNat := length_slice hmax
  have hbytes : (ParamBlock.ofBuffer (slice data i size.toNat)).bytes = slice data i size.toNat :=
    ParamBlock.bytes_ofBuffer (by omega)
  have hblock : (ParamBlock.ofBuffer (slice data i size.toNat)).size = size := by
    rw [← UInt32.toNat_inj, ← (ParamBlock.ofBuffer _).length_eq, hbytes, hlength]
  have hword : slice data i 4 = toBytes32 size := by
    have hfour : (slice data i 4).length = 4 := length_slice hlen
    rw [← hsize, toBytes32_le32_take _ (Nat.le_of_eq hfour.symm), List.take_of_length_le (Nat.le_of_eq hfour)]
  have hhead : ((ParamBlock.ofBuffer (slice data i size.toNat)).paramSet memory).paramSetSize =
      le32 (slice data i size.toNat) := congrArg le32 hbytes
  have ⟨_, hcheck, _⟩ := Except.bind_eq_ok.mp hs
  have hheader := (hksCheckParamSet_iff.mp hcheck).1
  rw [HksParamSet.headerSize, hhead] at hheader
  rw [hblock, hhead]
  by_cases hfour : 4 ≤ size.toNat
  case pos =>
    have htake : (slice data i size.toNat).take 4 = toBytes32 size := by
      rw [← hword, slice, slice, List.take_take, Nat.min_eq_left hfour]
    rw [← List.take_append_drop 4 (slice data i size.toNat), htake, le32_toBytes32_append]
  case neg =>
    -- Of a size below four there are fewer bytes, which are no larger.
    have hsplit : slice data i size.toNat = (toBytes32 size).take size.toNat := by
      rw [← hword, slice, slice, List.take_take, Nat.min_eq_left (by omega)]
    have hsmall : size = 0 ∨ size = 1 ∨ size = 2 ∨ size = 3 := by
      simp only [← UInt32.toNat_inj]
      simp
      omega
    rw [hsplit] at hheader
    rcases hsmall with rfl | rfl | rfl | rfl <;> exact absurd hheader (by decide)

theorem serviceGetParamSet_delivers :
    Delivers (ServiceIpc.getParamSetFromBuffer memory data offset) fun p => Lodged data p.1 := by
  refine .ite (fun _ => .throw) fun hcheck => ?_
  have hroom := Nat.not_lt.mp (mt (reply_short h _).mpr hcheck)
  rw [HksParamSet.headerSize] at hroom
  rw [readReply_eq (by omega), pure_bind]
  generalize hsize : le32 (slice data offset.toNat 4) = size
  refine .ite (fun _ => .throw) fun hsmall => .ite (fun _ => .throw) fun hfits => ?_
  rw [isAdditionOverflow_align] at hsmall
  rw [gt_iff_lt, UInt32.lt_iff_toNat_lt, reply_room h (by omega)] at hfits
  have hle := (alignSize_of_small (Nat.not_le.mp hsmall)).1
  have hwithin : offset.toNat + size.toNat ≤ data.length := by omega
  rw [readReply_eq hwithin, pure_bind]
  split
  case h_1 => exact .throw
  case h_2 s hs =>
    have hhead := paramSetSize_ofBytes h memory (by omega) hsize hwithin hs
    have hlength : (slice data offset.toNat size.toNat).length = size.toNat := length_slice hwithin
    have hin : (ParamBlock.ofBuffer (slice data offset.toNat size.toNat)).bytes <:+: data := by
      rw [ParamBlock.bytes_ofBuffer (by omega)]
      exact slice_isInfix _ _ _
    exact .pure ⟨_, hin, ((hksGetParamSet_block memory _).1 s (.inr ⟨hhead, hs⟩)).1⟩

theorem serviceGetKeyAndParamSet_delivers :
    Delivers (ServiceIpc.getKeyAndParamSetFromBuffer memory data offset) fun p =>
      p.1 <:+: data ∧ Lodged data p.2.1 := by
  refine .bind (serviceGetBlob_delivers h) fun (b, offset) hb => ?_
  exact .bind (serviceGetParamSet_delivers h memory) fun (s, offset) hs => .pure ⟨hb, hs⟩

theorem getLastParamSet_delivers :
    Delivers (ServiceIpc.getLastParamSet memory data offset) fun o => ∀ s ∈ o, Lodged data s := by
  refine .ite (fun _ => .pure nofun) fun _ => ?_
  exact .bind (serviceGetParamSet_delivers h memory) fun (s, offset) hs => .pure fun s' hs' =>
    Option.some.inj hs' ▸ hs

omit memory

theorem malloc_delivers (invalid : UInt32 → Bool) :
    Delivers (ServiceIpc.mallocFromBuffer data invalid offset) fun p =>
      ∀ n, p.1 = .ok n → invalid n = false := by
  obtain ⟨r, hr, _⟩ := @getUint32FromBuffer_delivers data offset h
  have hreturned : (getUint32FromBuffer data offset).returned = pure r := by
    rw [ReplyM.returned, hr]
    rfl
  rw [ServiceIpc.mallocFromBuffer, hreturned, pure_bind]
  cases r
  case error => exact .pure fun n hn => by cases hn
  case ok p =>
    refine .ite (fun _ => .pure fun n hn => by cases hn) fun hvalid => .ite (fun _ => .pure fun n hn => by cases hn)
      fun _ => .pure fun n hn => ?_
    rw [← Except.ok.inj hn]
    exact Bool.eq_false_iff.mpr hvalid

theorem mallocLast_delivers :
    Delivers (ServiceIpc.mallocLastBlob data offset) fun n => isInvalidLength n = false := by
  refine .bind (malloc_delivers h isInvalidLength) fun (size, offset) hsize => ?_
  cases size
  case error => exact .throw
  case ok n => exact .pure (hsize n rfl)

end Reading

theorem le_of_length {n : UInt32} (h : isInvalidLength n = false) : n ≤ maxOutBlobSize := by
  rw [isInvalidLength, decide_eq_false_iff_not, not_or] at h
  exact UInt32.not_lt.mp h.2

-- What the handlers unpack lies in the message.
section Unpack

variable {data : Bytes} (h : data.length < 2 ^ 32) (memory : UInt64 → BlobData)

include h

theorem hksGenerateKeyUnpack_delivers :
    Delivers (hksGenerateKeyUnpack memory data) fun p =>
      p.1 <:+: data ∧ Lodged data p.2.1 ∧ p.2.2 ≤ maxOutBlobSize := by
  refine .bind (serviceGetKeyAndParamSet_delivers h memory) fun (a, s, offset) ⟨ha, hs⟩ => ?_
  refine .bind (getUint32FromBuffer_delivers h) fun (n, offset) _ => ?_
  exact .ite (fun _ => .throw) fun hmax => .ite (fun _ => .throw) fun _ => .pure ⟨ha, hs, UInt32.not_lt.mp hmax⟩

theorem hksImportKeyUnpack_delivers :
    Delivers (hksImportKeyUnpack memory data) fun p => p.1 <:+: data ∧ Lodged data p.2.1 ∧ p.2.2 <:+: data := by
  refine .bind (serviceGetKeyAndParamSet_delivers h memory) fun (a, s, offset) ⟨ha, hs⟩ => ?_
  exact .bind (serviceGetBlob_delivers h) fun (b, offset) hb => .pure ⟨ha, hs, hb⟩

theorem hksImportWrappedKeyUnpack_delivers :
    Delivers (hksImportWrappedKeyUnpack memory data) fun p =>
      p.1 <:+: data ∧ p.2.1 <:+: data ∧ Lodged data p.2.2.1 ∧ p.2.2.2 <:+: data := by
  refine .bind (serviceGetBlob_delivers h) fun (a, offset) ha => ?_
  refine .bind (serviceGetBlob_delivers h) fun (w, offset) hw => ?_
  refine .bind (serviceGetParamSet_delivers h memory) fun (s, offset) hs => ?_
  exact .bind (serviceGetBlob_delivers h) fun (b, offset) hb => .pure ⟨ha, hw, hs, hb⟩

theorem hksDeleteKeyUnpack_delivers :
    Delivers (hksDeleteKeyUnpack memory data) fun p => p.1 <:+: data ∧ ∀ s ∈ p.2, Lodged data s := by
  refine .bind (serviceGetBlob_delivers h) fun (a, offset) ha => ?_
  exact .bind (getLastParamSet_delivers h memory) fun s hs => .pure ⟨ha, hs⟩

theorem hksExportPublicKeyUnpack_delivers :
    Delivers (hksExportPublicKeyUnpack memory data) fun p =>
      p.1 <:+: data ∧ (∀ s ∈ p.2.1, Lodged data s) ∧ ∀ n ∈ p.2.2, n ≤ maxOutBlobSize := by
  refine .bind (serviceGetBlob_delivers h) fun (a, offset) ha => ?_
  refine .bind (malloc_delivers h isInvalidLength) fun (key, offset) hkey => ?_
  refine .bind (getLastParamSet_delivers h memory) fun s hs => .pure ⟨ha, hs, fun n hn => ?_⟩
  cases key
  case error => cases hn
  case ok m => exact Option.some.inj hn ▸ le_of_length (hkey m rfl)

theorem hksGetKeyParamSetUnpack_delivers :
    Delivers (hksGetKeyParamSetUnpack memory data) fun p =>
      p.1 <:+: data ∧ (∀ s ∈ p.2.1, Lodged data s) ∧ ∀ n ∈ p.2.2, n ≤ maxOutBlobSize := by
  refine .bind (serviceGetBlob_delivers h) fun (a, offset) ha => ?_
  refine .bind (malloc_delivers h _) fun (out, offset) hout => ?_
  refine .bind (getLastParamSet_delivers h memory) fun s hs => .pure ⟨ha, hs, fun n hn => ?_⟩
  cases out
  case error => cases hn
  case ok m =>
    have hvalid := hout m rfl
    rw [decide_eq_false_iff_not, not_or, Bool.not_eq_true] at hvalid
    exact Option.some.inj hn ▸ le_of_length hvalid.1

theorem signVerifyMacUnpack_delivers :
    Delivers (signVerifyMacUnpack memory data) fun p => p.1 <:+: data ∧ Lodged data p.2.1 ∧ p.2.2.1 <:+: data := by
  refine .bind (serviceGetKeyAndParamSet_delivers h memory) fun (a, s, offset) ⟨ha, hs⟩ => ?_
  exact .bind (serviceGetBlob_delivers h) fun (b, offset) hb => .pure ⟨ha, hs, hb⟩

theorem hksSignUnpack_delivers :
    Delivers (hksSignUnpack memory data) fun p =>
      p.1 <:+: data ∧ Lodged data p.2.1 ∧ p.2.2.1 <:+: data ∧ p.2.2.2 ≤ maxOutBlobSize := by
  refine .bind (signVerifyMacUnpack_delivers h memory) fun (a, s, b, offset) ⟨ha, hs, hb⟩ => ?_
  exact .bind (mallocLast_delivers h) fun n hn => .pure ⟨ha, hs, hb, le_of_length hn⟩

theorem hksVerifyUnpack_delivers :
    Delivers (hksVerifyUnpack memory data) fun p =>
      p.1 <:+: data ∧ Lodged data p.2.1 ∧ p.2.2.1 <:+: data ∧ p.2.2.2 <:+: data := by
  refine .bind (signVerifyMacUnpack_delivers h memory) fun (a, s, b, offset) ⟨ha, hs, hb⟩ => ?_
  exact .bind (serviceGetBlob_delivers h) fun (b', offset) hb' => .pure ⟨ha, hs, hb, hb'⟩

theorem hksEncryptDecryptUnpack_delivers :
    Delivers (hksEncryptDecryptUnpack memory data) fun p =>
      p.1 <:+: data ∧ Lodged data p.2.1 ∧ p.2.2.1 <:+: data ∧ p.2.2.2 ≤ maxOutBlobSize := by
  refine .bind (serviceGetKeyAndParamSet_delivers h memory) fun (a, s, offset) ⟨ha, hs⟩ => ?_
  refine .bind (serviceGetBlob_delivers h) fun (b, offset) hb => ?_
  exact .bind (mallocLast_delivers h) fun n hn => .pure ⟨ha, hs, hb, le_of_length hn⟩

theorem hksAgreeKeyUnpack_delivers :
    Delivers (hksAgreeKeyUnpack memory data) fun p =>
      Lodged data p.1 ∧ p.2.1 <:+: data ∧ p.2.2.1 <:+: data ∧ p.2.2.2 ≤ maxOutBlobSize := by
  refine .bind (serviceGetParamSet_delivers h memory) fun (s, offset) hs => ?_
  refine .bind (serviceGetBlob_delivers h) fun (k, offset) hk => ?_
  refine .bind (serviceGetBlob_delivers h) fun (p, offset) hp => ?_
  exact .bind (mallocLast_delivers h) fun n hn => .pure ⟨hs, hk, hp, le_of_length hn⟩

theorem hksDeriveKeyUnpack_delivers :
    Delivers (hksDeriveKeyUnpack memory data) fun p =>
      Lodged data p.1 ∧ p.2.1 <:+: data ∧ p.2.2 ≤ maxOutBlobSize := by
  refine .bind (serviceGetParamSet_delivers h memory) fun (s, offset) hs => ?_
  refine .bind (serviceGetBlob_delivers h) fun (k, offset) hk => ?_
  exact .bind (mallocLast_delivers h) fun n hn => .pure ⟨hs, hk, le_of_length hn⟩

theorem hksCertificateChainUnpack_delivers :
    Delivers (hksCertificateChainUnpack memory data) fun p =>
      p.1 <:+: data ∧ Lodged data p.2.1 ∧ p.2.2 ≤ maxOutBlobSize := by
  refine .bind (serviceGetKeyAndParamSet_delivers h memory) fun (a, s, offset) ⟨ha, hs⟩ => ?_
  exact .bind (mallocLast_delivers h) fun n hn => .pure ⟨ha, hs, le_of_length hn⟩

theorem hksListAliasesUnpack_delivers : Delivers (hksListAliasesUnpack memory data) (Lodged data) :=
  .bind (serviceGetParamSet_delivers h memory) fun (_, _) hs => .pure hs

theorem generateRandomSize_delivers : Delivers (generateRandomSize data) (· ≤ maxOutBlobSize) := by
  refine .ite (fun _ => .throw) fun hshort => ?_
  rw [UInt32.lt_iff_toNat_lt, toUInt32_toNat h, Nat.not_lt] at hshort
  rw [readReply_eq (by simpa using hshort), pure_bind]
  refine .ite (fun _ => .throw) fun hvalid => .ite (fun _ => .throw) fun _ => .pure ?_
  exact le_of_length (Bool.eq_false_iff.mpr hvalid)

theorem keyInfoListInit_delivers (count : Nat) (offset : UInt32) :
    Delivers (keyInfoListInit data count offset) fun p => ∀ l, p.1 = .ok l → ∀ room ∈ l,
      room.aliasSize ≤ maxOutBlobSize ∧ room.paramSetSize ≤ maxOutBlobSize := by
  induction count generalizing offset
  case zero => exact .pure fun l hl => Except.ok.inj hl ▸ nofun
  case succ count ih =>
    refine .bind (malloc_delivers h isInvalidLength) fun (aliasSize, offset) halias => ?_
    cases aliasSize
    case error => exact .pure nofun
    case ok aliasSize =>
      refine .bind (malloc_delivers h _) fun (paramSetSize, offset) hparam => ?_
      cases paramSetSize
      case error => exact .pure nofun
      case ok paramSetSize =>
        have hvalid := hparam paramSetSize rfl
        rw [decide_eq_false_iff_not, not_or, Bool.not_eq_true] at hvalid
        refine .bind (ih offset) fun (rest, offset) hrest => .pure fun l hl room hroom => ?_
        cases rest
        case error => cases hl
        case ok rest =>
          obtain rfl := Except.ok.inj hl
          rcases List.mem_cons.mp hroom with rfl | hroom
          · exact ⟨le_of_length (halias aliasSize rfl), le_of_length hvalid.1⟩
          · exact hrest rest rfl room hroom

theorem hksGetKeyInfoListUnpack_delivers :
    Delivers (hksGetKeyInfoListUnpack memory data) fun p =>
      (∀ s ∈ p.1, Lodged data s) ∧ ∀ room ∈ p.2.2.getD [],
        room.aliasSize ≤ maxOutBlobSize ∧ room.paramSetSize ≤ maxOutBlobSize := by
  refine .bind (getUint32FromBuffer_delivers h) fun (count, offset) _ => ?_
  refine .ite (fun _ => .throw) fun _ => .ite (fun _ => .throw) fun _ => .ite (fun _ => .throw) fun _ => ?_
  refine .bind (keyInfoListInit_delivers h _ _) fun (keyInfoList, offset) hlist => ?_
  refine .bind (getLastParamSet_delivers h memory) fun s hs => .pure ⟨hs, fun room hroom => ?_⟩
  cases keyInfoList
  case error => cases hroom
  case ok l => exact hlist l rfl room hroom

end Unpack

-- The handlers of a session
section Session

variable {memory : UInt64 → BlobData} {data : Bytes} (h : data.length < 2 ^ 32)

include h

theorem getParamSetOf_lodged {s : HksParamSet} (hs : getParamSetOf memory data = .ok s) :
    ∃ block : ParamBlock, block.bytes = data ∧ block.Holds s := by
  rw [getParamSetOf] at hs
  split at hs
  case isTrue => cases hs
  case isFalse => exact ⟨_, ParamBlock.bytes_ofBuffer h, ((hksGetParamSet_block memory _).1 s (.inl hs)).1⟩

omit h

-- A buffer of a message lies in it.
theorem paramSetToParam_infix {block : ParamBlock} {s : HksParamSet} (hs : block.Holds s) {tag : UInt32} {b : Bytes}
    (hb : paramSetToParam s tag = .ok (.blob b)) : b <:+: block.bytes := by
  rw [paramSetToParam] at hb
  split at hb
  case h_1 p hp =>
    rw [getNormalParam] at hb
    cases ht : getTagType tag <;> rw [ht] at hb
    case bytes =>
      obtain rfl := HksParamOut.blob.inj (Except.ok.inj hb)
      have htag := (getParam_value hp).1
      have hmem : p ∈ s.blobs := List.mem_filter.mpr ⟨hksGetParam_mem hp, by rw [HksParam.isBytes, htag, ht]; rfl⟩
      have hin := infix_flatMap_of_mem (f := s.blob) hmem
      rw [hs.bytes] at hin
      exact hin.trans (List.drop_suffix _ _).isInfix
    all_goals cases hb
  case h_2 =>
    rw [getNullBlobParam] at hb
    split at hb
    case isTrue => cases hb
    case isFalse =>
      obtain ⟨_, _, hb⟩ := Except.bind_eq_ok.mp hb
      obtain rfl := HksParamOut.blob.inj (Except.ok.inj hb)
      exact List.nil_infix

theorem hksParamSetToParams_infix {block : ParamBlock} {s : HksParamSet} (hs : block.Holds s) {tags : List UInt32}
    {params : List HksParamOut} (hp : hksParamSetToParams s tags = .ok params) :
    ∀ b, .blob b ∈ params → b <:+: block.bytes := by
  induction tags generalizing params
  case nil =>
    obtain rfl := Except.ok.inj hp
    exact fun _ => nofun
  case cons tag tags ih =>
    rw [hksParamSetToParams, List.mapM_cons] at hp
    obtain ⟨param, hparam, hp⟩ := Except.bind_eq_ok.mp hp
    obtain ⟨rest, hrest, hp⟩ := Except.bind_eq_ok.mp hp
    obtain rfl := Except.ok.inj hp
    intro b hb
    rcases List.mem_cons.mp hb with rfl | hb
    · exact paramSetToParam_infix hs hparam
    · exact ih hrest b hb

include h

-- So do the param sets that are got from them.
theorem sessionParams_lodged {s : HksParamSet} (hs : getParamSetOf memory data = .ok s) {tags : List UInt32}
    {params : List HksParamOut} (hp : hksParamSetToParams s tags = .ok params) {b : Bytes} (hb : .blob b ∈ params) :
    b <:+: data ∧ ∀ t, getParamSetOf memory b = .ok t → Lodged data t := by
  obtain ⟨block, hblock, hholds⟩ := getParamSetOf_lodged h hs
  have hin : b <:+: data := hblock ▸ hksParamSetToParams_infix hholds hp b hb
  refine ⟨hin, fun t ht => ?_⟩
  obtain ⟨block', hblock', hholds'⟩ := getParamSetOf_lodged (Nat.lt_of_le_of_lt hin.length_le h) ht
  exact ⟨block', hblock' ▸ hin, hholds'⟩

variable {outSize : UInt32} (hmax : outSize ≤ maxOutBlobSize)

include hmax

theorem hksIpcServiceInit_inside {request : ServiceRequest}
    (hr : hksIpcServiceInit memory data outSize = .ok request) : request.Inside data := by
  obtain ⟨s, hs, hr⟩ := Except.bind_eq_ok.mp hr
  obtain ⟨params, hp, hr⟩ := Except.bind_eq_ok.mp hr
  split at hr
  case h_1 keyAlias paramsBlob =>
    obtain ⟨t, ht, hr⟩ := Except.bind_eq_ok.mp hr
    obtain rfl := Except.ok.inj hr
    have ha := (sessionParams_lodged h hs hp (b := keyAlias) (by simp)).1
    have hlodged := (sessionParams_lodged h hs hp (b := paramsBlob) (by simp)).2 t ht
    exact ⟨List.forall_mem_singleton.mpr ha, List.forall_mem_singleton.mpr hlodged, List.forall_mem_singleton.mpr hmax⟩
  case h_2 => cases hr

theorem hksIpcServiceUpdOrFin_inside {isUpdate : Bool} {request : ServiceRequest}
    (hr : hksIpcServiceUpdOrFin memory data outSize isUpdate = .ok request) : request.Inside data := by
  obtain ⟨s, hs, hr⟩ := Except.bind_eq_ok.mp hr
  obtain ⟨params, hp, hr⟩ := Except.bind_eq_ok.mp hr
  split at hr
  case h_1 paramsBlob handle inData =>
    obtain ⟨t, ht, hr⟩ := Except.bind_eq_ok.mp hr
    have hlodged := (sessionParams_lodged h hs hp (b := paramsBlob) (by simp)).2 t ht
    have hhandle := (sessionParams_lodged h hs hp (b := handle) (by simp)).1
    have hdata := (sessionParams_lodged h hs hp (b := inData) (by simp)).1
    have hblobs : ∀ b ∈ [handle, inData], b <:+: data :=
      List.forall_mem_cons.mpr ⟨hhandle, List.forall_mem_singleton.mpr hdata⟩
    cases isUpdate
    all_goals
      obtain rfl := Except.ok.inj hr
      exact ⟨hblobs, List.forall_mem_singleton.mpr hlodged, List.forall_mem_singleton.mpr hmax⟩
  case h_2 => cases hr

omit hmax in
theorem hksIpcServiceAbort_inside {request : ServiceRequest}
    (hr : hksIpcServiceAbort memory data = .ok request) : request.Inside data := by
  obtain ⟨s, hs, hr⟩ := Except.bind_eq_ok.mp hr
  obtain ⟨params, hp, hr⟩ := Except.bind_eq_ok.mp hr
  split at hr
  case h_1 paramsBlob handle =>
    obtain ⟨t, ht, hr⟩ := Except.bind_eq_ok.mp hr
    obtain rfl := Except.ok.inj hr
    have hlodged := (sessionParams_lodged h hs hp (b := paramsBlob) (by simp)).2 t ht
    have hhandle := (sessionParams_lodged h hs hp (b := handle) (by simp)).1
    exact ⟨List.forall_mem_singleton.mpr hhandle, List.forall_mem_singleton.mpr hlodged, fun _ => nofun⟩
  case h_2 => cases hr

theorem hksIpcServiceExportChipsetPlatformPublicKey_inside {request : ServiceRequest}
    (hr : hksIpcServiceExportChipsetPlatformPublicKey memory data outSize = .ok request) : request.Inside data := by
  obtain ⟨s, hs, hr⟩ := Except.bind_eq_ok.mp hr
  obtain ⟨params, hp, hr⟩ := Except.bind_eq_ok.mp hr
  split at hr
  case h_1 salt scene =>
    obtain rfl := Except.ok.inj hr
    have hsalt := (sessionParams_lodged h hs hp (b := salt) (by simp)).1
    exact ⟨List.forall_mem_singleton.mpr hsalt, fun _ => nofun, List.forall_mem_singleton.mpr hmax⟩
  case h_2 => cases hr

end Session

section Dispatch

variable (memory : UInt64 → BlobData) {data : Bytes} (h : data.length < 2 ^ 32)

open List (forall_mem_singleton)

theorem forall_mem_pair {α : Type} {p : α → Prop} {a b : α} (ha : p a) (hb : p b) : ∀ x ∈ [a, b], p x :=
  List.forall_mem_cons.mpr ⟨ha, forall_mem_singleton.mpr hb⟩

theorem forall_mem_toList {α : Type} {p : α → Prop} {o : Option α} (h : ∀ a ∈ o, p a) : ∀ a ∈ o.toList, p a :=
  fun a ha => h a (Option.mem_toList.mp ha)

-- What the service does with a message is inside it.
def SafeAnswer (data : Bytes) (answer : Option ServiceRequest) : Prop := ∀ request ∈ answer, request.Inside data

theorem SafeAnswer.some {request : ServiceRequest} (hr : request.Inside data) : SafeAnswer data (some request) :=
  fun _ hrequest => Option.some.inj hrequest ▸ hr

theorem Delivers.ofExcept {α β : Type} {r : Except HksErrorCode α} {f : α → β} {good : β → Prop}
    (hr : ∀ a, r = .ok a → good (f a)) : Delivers (MonadExcept.ofExcept (f <$> r) : ReplyM β) good := by
  cases r
  case error => exact .throw
  case ok a => exact .pure (hr a rfl)

include h

theorem processMessage_delivers (code : HksIpcInterfaceCode) (outSize : UInt32) :
    Delivers (processMessage memory code outSize data) (SafeAnswer data) := by
  have hsession {r : Except HksErrorCode ServiceRequest}
      (hr : outSize ≤ maxOutBlobSize → ∀ request, r = .ok request → request.Inside data) :
      Delivers (if outSize.toNat > maxMallocLen then throw .invalidArgument
        else MonadExcept.ofExcept (Option.some <$> r) : ReplyM (Option ServiceRequest)) (SafeAnswer data) := by
    refine .ite (fun _ => .throw) fun hmax => .ofExcept fun request hrequest => .some (hr ?_ request hrequest)
    have hlimit : maxOutBlobSize.toNat = 5 * maxMallocLen := rfl
    rw [UInt32.le_iff_toNat_le]
    omega
  have hnone : Delivers (if outSize.toNat > maxMallocLen then throw .invalidArgument else pure none :
      ReplyM (Option ServiceRequest)) (SafeAnswer data) :=
    .ite (fun _ => .throw) fun _ => .pure nofun
  cases code
  case genKey =>
    refine .bind (hksGenerateKeyUnpack_delivers h memory) fun (a, s, n) ⟨ha, hs, hn⟩ => .pure (.some ?_)
    exact ⟨forall_mem_singleton.mpr ha, forall_mem_singleton.mpr hs, forall_mem_singleton.mpr hn⟩
  case importKey =>
    refine .bind (hksImportKeyUnpack_delivers h memory) fun (a, s, b) ⟨ha, hs, hb⟩ => .pure (.some ?_)
    exact ⟨forall_mem_pair ha hb, forall_mem_singleton.mpr hs, nofun⟩
  case exportPublicKey =>
    refine .bind (hksExportPublicKeyUnpack_delivers h memory) fun (a, s, n) ⟨ha, hs, hn⟩ => .pure (.some ?_)
    exact ⟨forall_mem_singleton.mpr ha, forall_mem_toList hs, forall_mem_toList hn⟩
  case importWrappedKey =>
    refine .bind (hksImportWrappedKeyUnpack_delivers h memory) fun (a, w, s, b) ⟨ha, hw, hs, hb⟩ => .pure (.some ?_)
    exact ⟨List.forall_mem_cons.mpr ⟨ha, forall_mem_pair hw hb⟩, forall_mem_singleton.mpr hs, nofun⟩
  case deleteKey =>
    refine .bind (hksDeleteKeyUnpack_delivers h memory) fun (a, s) ⟨ha, hs⟩ => .pure (.some ?_)
    exact ⟨forall_mem_singleton.mpr ha, forall_mem_toList hs, nofun⟩
  case getKeyParamSet =>
    refine .bind (hksGetKeyParamSetUnpack_delivers h memory) fun (a, s, n) ⟨ha, hs, hn⟩ => .pure (.some ?_)
    exact ⟨forall_mem_singleton.mpr ha, forall_mem_toList hs, forall_mem_toList hn⟩
  case keyExist =>
    refine .bind (hksDeleteKeyUnpack_delivers h memory) fun (a, s) ⟨ha, hs⟩ => .pure (.some ?_)
    exact ⟨forall_mem_singleton.mpr ha, forall_mem_toList hs, nofun⟩
  case generateRandom =>
    refine .bind (generateRandomSize_delivers h) fun n hn => .pure (.some ?_)
    exact ⟨nofun, nofun, forall_mem_singleton.mpr hn⟩
  case sign =>
    refine .bind (hksSignUnpack_delivers h memory) fun (a, s, b, n) ⟨ha, hs, hb, hn⟩ => .pure (.some ?_)
    exact ⟨forall_mem_pair ha hb, forall_mem_singleton.mpr hs, forall_mem_singleton.mpr hn⟩
  case verify =>
    refine .bind (hksVerifyUnpack_delivers h memory) fun (a, s, b, b') ⟨ha, hs, hb, hb'⟩ => .pure (.some ?_)
    exact ⟨List.forall_mem_cons.mpr ⟨ha, forall_mem_pair hb hb'⟩, forall_mem_singleton.mpr hs, nofun⟩
  case encrypt =>
    refine .bind (hksEncryptDecryptUnpack_delivers h memory) fun (a, s, b, n) ⟨ha, hs, hb, hn⟩ => .pure (.some ?_)
    exact ⟨forall_mem_pair ha hb, forall_mem_singleton.mpr hs, forall_mem_singleton.mpr hn⟩
  case decrypt =>
    refine .bind (hksEncryptDecryptUnpack_delivers h memory) fun (a, s, b, n) ⟨ha, hs, hb, hn⟩ => .pure (.some ?_)
    exact ⟨forall_mem_pair ha hb, forall_mem_singleton.mpr hs, forall_mem_singleton.mpr hn⟩
  case agreeKey =>
    refine .bind (hksAgreeKeyUnpack_delivers h memory) fun (s, k, p, n) ⟨hs, hk, hp, hn⟩ => .pure (.some ?_)
    exact ⟨forall_mem_pair hk hp, forall_mem_singleton.mpr hs, forall_mem_singleton.mpr hn⟩
  case deriveKey =>
    refine .bind (hksDeriveKeyUnpack_delivers h memory) fun (s, k, n) ⟨hs, hk, hn⟩ => .pure (.some ?_)
    exact ⟨forall_mem_singleton.mpr hk, forall_mem_singleton.mpr hs, forall_mem_singleton.mpr hn⟩
  case mac =>
    refine .bind (hksSignUnpack_delivers h memory) fun (a, s, b, n) ⟨ha, hs, hb, hn⟩ => .pure (.some ?_)
    exact ⟨forall_mem_pair ha hb, forall_mem_singleton.mpr hs, forall_mem_singleton.mpr hn⟩
  case getKeyInfoList =>
    refine .bind (hksGetKeyInfoListUnpack_delivers h memory) fun (s, count, l) ⟨hs, hl⟩ => .pure (.some ?_)
    refine ⟨nofun, forall_mem_toList hs, fun n hn => ?_⟩
    obtain ⟨room, hroom, hn⟩ := List.mem_flatMap.mp hn
    have hboth : ∀ n ∈ [room.aliasSize, room.paramSetSize], n ≤ maxOutBlobSize :=
      forall_mem_pair (hl room hroom).1 (hl room hroom).2
    exact hboth n hn
  case listAliases =>
    refine .bind (hksListAliasesUnpack_delivers h memory) fun s hs => .pure (.some ?_)
    exact ⟨nofun, forall_mem_singleton.mpr hs, nofun⟩
  case init => exact hsession fun hmax _ hr => hksIpcServiceInit_inside h hmax hr
  case update => exact hsession fun hmax _ hr => hksIpcServiceUpdOrFin_inside h hmax hr
  case finish => exact hsession fun hmax _ hr => hksIpcServiceUpdOrFin_inside h hmax hr
  case abort => exact hsession fun _ _ hr => hksIpcServiceAbort_inside h hr
  case chipsetPlatformDecrypt =>
    exact hsession fun hmax _ hr => hksIpcServiceExportChipsetPlatformPublicKey_inside h hmax hr
  case getCertificateChain => exact hnone
  case attestKey => exact hnone
  case attestKeyAsyncReply => exact hnone

omit h in
-- The service does not read outside a message, whatever it is, and what it makes of it lies in it.
theorem processRemoteRequest_inside {parcel : HksParcel} (h : parcel.data.length < 2 ^ 32) :
    Delivers (processRemoteRequest memory parcel) fun answer => ∀ request ∈ answer, request.Inside parcel.data := by
  refine .ite (fun _ => .throw) fun _ => .ite (fun _ => ?_) fun _ => processMessage_delivers memory h _ _
  refine .bind (hksCertificateChainUnpack_delivers h memory) fun (a, s, n) ⟨ha, hs, hn⟩ => .pure (SafeAnswer.some ?_)
  exact ⟨forall_mem_singleton.mpr ha, forall_mem_singleton.mpr hs, forall_mem_singleton.mpr hn⟩

end Dispatch

-- The size of the alias is more than there is.
def overlongAlias : HksParcel := ⟨.deleteKey, 0, [200, 0, 0, 0, 1, 2, 3, 4]⟩

theorem processRemoteRequest_overlong :
    Delivers (processRemoteRequest (fun _ => .null) overlongAlias) fun answer =>
      ∀ request ∈ answer, request.Inside overlongAlias.data :=
  processRemoteRequest_inside (fun _ => .null) (by decide)

end Huks
