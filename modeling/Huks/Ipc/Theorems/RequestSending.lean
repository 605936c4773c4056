import Huks.Ipc.Theorems.RequestParts
import Huks.Common.Theorems.Construction

namespace Huks

open MessagePart (format)

-- It is not for want of room that a run of the client fails, and what it returns is good.
def Packs {α : Type} (run : Except HksErrorCode α) (good : α → Prop) : Prop :=
  run ≠ .error .bufferTooSmall ∧ ∀ a, run = .ok a → good a

namespace Packs

variable {α β : Type} {run : Except HksErrorCode α} {next : α → Except HksErrorCode β} {good good' : α → Prop}
  {result : β → Prop} {a : α} {e : HksErrorCode} {c : Prop} [Decidable c]

theorem pure (h : good a) : Packs (.ok a) good := ⟨nofun, fun _ ha => Except.ok.inj ha ▸ h⟩

theorem throw (h : e ≠ .bufferTooSmall) : Packs (.error e) good := ⟨fun he => h (Except.error.inj he), nofun⟩

theorem bind (h : Packs run good) (hnext : ∀ a, good a → Packs (next a) result) : Packs (run >>= next) result := by
  cases run
  case error e => exact .throw fun he => h.1 (he ▸ rfl)
  case ok a => exact hnext a (h.2 a rfl)

-- Of the first run nothing is used.
theorem seq (h : Packs run fun _ => True) (hnext : ∀ a, Packs (next a) result) : Packs (run >>= next) result :=
  h.bind fun a _ => hnext a

theorem ite {run' : Except HksErrorCode α} (ht : c → Packs run good) (hf : ¬c → Packs run' good) :
    Packs (if c then run else run') good := by
  split
  case isTrue hc => exact ht hc
  case isFalse hc => exact hf hc

theorem weaken (h : Packs run good) (hg : ∀ a, run = .ok a → good a → good' a) : Packs run good' :=
  ⟨h.1, fun a ha => hg a ha (h.2 a ha)⟩

-- The run is known by its result.
theorem known (h : Packs run good) : Packs run fun a => run = .ok a ∧ good a := h.weaken fun _ ha hg => ⟨ha, hg⟩

-- What the result is known to be besides
theorem and (h : Packs run fun _ => True) (hg : ∀ a, run = .ok a → good a) : Packs run good := ⟨h.1, hg⟩

theorem orError (h : e ≠ .bufferTooSmall) : Packs (run.orError e) fun _ => True := by
  cases run
  case error => exact .throw h
  case ok => exact .pure trivial

theorem foldlM {γ : Type} {f : α → γ → Except HksErrorCode α} {l : List γ}
    (hf : ∀ a, ∀ c ∈ l, Packs (f a c) fun _ => True) : Packs (l.foldlM f a) fun _ => True := by
  induction l generalizing a
  case nil => exact .pure trivial
  case cons c l ih =>
    rw [List.foldlM_cons]
    exact .seq (hf a c List.mem_cons_self) fun b => ih fun b d hd => hf b d (List.mem_cons_of_mem c hd)

end Packs

-- The building of a param set
section Build

theorem hksCheckParamSet_packs (s : HksParamSet) (size : UInt32) :
    Packs (hksCheckParamSet s size) fun _ => True :=
  .ite (fun _ => .throw nofun) fun _ => .pure trivial

theorem hksAddParams_packs (s : HksParamSet) (ps : List HksParam) : Packs (hksAddParams s ps) fun _ => True := by
  refine .seq ?_ fun _ => .foldlM fun t p _ => ?_
  · exact .ite (fun _ => .throw nofun) fun _ => .ite (fun _ => .throw nofun) fun _ => .pure trivial
  · exact .ite (fun _ => .ite (fun _ => .throw nofun) fun _ => .pure trivial) fun _ => .pure trivial

theorem freshParams_packs (base : Nat) (size : UInt32) (isCopy : Bool) (ps : List HksParam) (offset : UInt32)
    (area : Bytes) : Packs (freshParams base size isCopy ps offset area) fun _ => True := by
  have hcopy (p : HksParam) (offset : UInt32) (area : Bytes) :
      Packs (freshParams.copy base size isCopy p offset area) fun _ => True := by
    refine .ite (fun _ => ?_) fun _ => .pure trivial
    split
    case h_1 => exact .throw nofun
    case h_2 => exact .pure trivial
  induction ps generalizing offset area
  case nil => exact .pure trivial
  case cons p ps ih =>
    refine .ite (fun _ => .throw nofun) fun _ => .ite (fun _ => ?_) fun _ => .seq (ih _ _) fun _ => .pure trivial
    refine .ite (fun _ => .throw nofun) fun _ => ?_
    exact .seq (hcopy p offset area) fun _ => .seq (ih _ _) fun _ => .pure trivial

theorem hksBuildParamSet_packs (s : HksParamSet) : Packs (hksBuildParamSet s) fun _ => True := by
  have hfresh (t : HksParamSet) : Packs (hksFreshParamSet t true) fun _ => True :=
    .seq (hksCheckParamSet_packs _ _) fun _ => .seq (freshParams_packs _ _ _ _ _ _) fun _ =>
      .ite (fun _ => .throw nofun) fun _ => .pure trivial
  refine .seq (hksCheckParamSet_packs _ _) fun _ => ?_
  exact .ite (fun _ => .ite (fun _ => .throw nofun) fun _ => hfresh _) fun _ => hfresh _

end Build

section Sent

variable (addressOf : BlobData → UInt64) (padding : Nat → UInt32)

-- A message with these parts, one behind the other
structure Sent (parcel : HksParcel) (code : HksIpcInterfaceCode) (outSize : UInt32) (parts : List MessagePart) :
    Prop where
  code_eq    : parcel.code = code
  outSize_eq : parcel.outSize = outSize
  pos        : 0 < parcel.data.length
  length_lt  : parcel.data.length < 2 ^ 32
  laid       : ∃ j, Laid (format addressOf padding) parcel.data (0 : UInt32).toNat parts j

variable {addressOf padding} {code : HksIpcInterfaceCode} {size outSize : UInt32} {parts : List MessagePart}
  {pack : Bytes → Except HksErrorCode PackBuffer}

-- What is packed part by part is sent.
theorem sendPacked_sent {parcel : HksParcel}
    (hpack : ∀ buffer, pack buffer = parts.foldlM (MessagePart.put addressOf padding) ⟨buffer, 0⟩)
    (h : sendPacked code size outSize pack = .ok parcel) : Sent addressOf padding parcel code outSize parts := by
  rw [sendPacked] at h
  split at h
  case isTrue => cases h
  case isFalse hmalloc =>
    obtain ⟨dest, hdest, h⟩ := Except.bind_eq_ok.mp h
    obtain rfl := Except.ok.inj h
    have v : PackBuffer.Valid ⟨.replicate size.toNat 0, 0⟩ :=
      ⟨by rw [List.length_replicate]; exact size.toNat_lt, Nat.zero_le _⟩
    rw [hpack] at hdest
    obtain ⟨hvalid, hgrow, hlaid⟩ := (put_writes addressOf padding).foldlM v hdest
    have hlen : dest.data.length = size.toNat := by rw [hgrow.length, List.length_replicate]
    refine ⟨rfl, rfl, ?_, hvalid.length_lt, _, hlaid⟩
    rw [hlen]
    exact (mallocOk_iff.mp (not_not.mp hmalloc)).1

-- There is room for parts whose sizes add up to that of the message.
theorem sendPacked_fits
    (hpack : ∀ buffer, pack buffer = parts.foldlM (MessagePart.put addressOf padding) ⟨buffer, 0⟩)
    (hfit : ∀ part ∈ parts, part.Fit) (hsize : (parts.map MessagePart.size).sum = size.toNat) :
    sendPacked code size outSize pack ≠ .error .bufferTooSmall := by
  rw [sendPacked]
  split
  case isTrue => nofun
  case isFalse =>
    have v : PackBuffer.Valid ⟨.replicate size.toNat 0, 0⟩ :=
      ⟨by rw [List.length_replicate]; exact size.toNat_lt, Nat.zero_le _⟩
    obtain ⟨dest, hdest, _⟩ := (put_fills addressOf padding).foldlM (put_writes addressOf padding) v hfit (by
      rw [hsize, List.length_replicate]
      exact Nat.le_of_eq (Nat.zero_add _))
    rw [hpack, hdest]
    nofun

theorem sendPacked_packs
    (hpack : ∀ buffer, pack buffer = parts.foldlM (MessagePart.put addressOf padding) ⟨buffer, 0⟩)
    (hfit : ∀ part ∈ parts, part.Fit) (hsize : (parts.map MessagePart.size).sum = size.toNat) :
    Packs (sendPacked code size outSize pack) (Sent addressOf padding · code outSize parts) :=
  ⟨sendPacked_fits hpack hfit hsize, fun _ => sendPacked_sent hpack⟩

end Sent

-- The param sets that the client makes
section Made

-- What a client that leaves out the param set has asked for
def optContents (paramSet : Option HksParamSet) : Contents := paramSet.elim [] HksParamSet.contents

theorem buildParamSetNotNull_contains {paramSet : Option HksParamSet} {s : HksParamSet}
    (h : buildParamSetNotNull paramSet = .ok s) : s.Contains (optContents paramSet) := by
  cases paramSet
  case none => exact .of_carries (Accumulated.init.carries nofun h)
  case some paramSet =>
    obtain ⟨_, _, h⟩ := Except.bind_eq_ok.mp h
    obtain ⟨fresh, hadd, h⟩ := Except.bind_eq_ok.mp h
    have hcontains := HksParamSet.Contains.of_carries ((Accumulated.init.add hadd).carries (entries_external hadd) h)
    rwa [List.nil_append, contentsOf_entries] at hcontains

-- What the client adds to the params of a cipher: nothing, unless it is an AEAD mode of AES.
def cipherTags (paramSet : HksParamSet) (inText : Blob) (isEncrypt : Bool) : List HksParam :=
  match hksCheckAesAeMode paramSet with
  | .ok (true, true) =>
    let aeTag := slice inText.val (inText.size - hksAeTagLen).toNat hksAeTagLen.toNat
    let payloadLen := .ofUInt32 HksTag.payloadLen inText.size
    if isEncrypt then [payloadLen] else [.ofBytes HksTag.aeTag aeTag, payloadLen]
  | _ => []

theorem cipherTags_external (paramSet : HksParamSet) (inText : Blob) (isEncrypt : Bool) :
    ∀ p ∈ cipherTags paramSet inText isEncrypt, p.External := by
  have htag (bytes : Bytes) : (HksParam.ofBytes HksTag.aeTag bytes).External := .ofBytes _ _
  have hword : getTagType HksTag.payloadLen ≠ .bytes := by decide
  have hlen : (HksParam.ofUInt32 HksTag.payloadLen inText.size).External := .scalar hword
  rw [cipherTags]
  split
  case h_1 =>
    cases isEncrypt
    case true => simpa using hlen
    case false => simpa using ⟨htag _, hlen⟩
  case h_2 => nofun

theorem addAeTag_accumulated {ps : List HksParam} {s t : HksParamSet} {inText : Blob} {isEncrypt : Bool}
    (a : Accumulated ps s) (h : addAeTag s inText isEncrypt = .ok t) {paramSet : HksParamSet}
    (hmode : hksCheckAesAeMode paramSet = .ok (true, true)) :
    Accumulated (ps ++ cipherTags paramSet inText isEncrypt) t := by
  rw [cipherTags, hmode]
  cases isEncrypt
  case true => exact a.add h
  case false =>
    rw [addAeTag, if_neg Bool.false_ne_true] at h
    split at h
    case isTrue => cases h
    case isFalse =>
      obtain ⟨u, hu, h⟩ := Except.bind_eq_ok.mp h
      have hboth := (a.add hu).add h
      rwa [List.append_assoc] at hboth

theorem appendCipherTag_contains {s t : HksParamSet} {inText : Blob} {isEncrypt : Bool}
    (h : appendCipherTag s inText isEncrypt = .ok t) :
    t.Contains (s.contents ++ contentsOf (cipherTags s inText isEncrypt)) := by
  obtain ⟨fresh, hadd, h⟩ := Except.bind_eq_ok.mp h
  obtain ⟨u, hu, hbuild⟩ := Except.bind_eq_ok.mp h
  obtain ⟨⟨isAes, isAeMode⟩, hmode, hu⟩ := Except.bind_eq_ok.mp hu
  have hall : Accumulated (s.entries ++ cipherTags s inText isEncrypt) u := by
    have hfresh : Accumulated s.entries fresh := Accumulated.init.add hadd
    dsimp only at hu
    split at hu
    case isTrue hnot =>
      obtain rfl := Except.ok.inj hu
      have hnone : cipherTags s inText isEncrypt = [] := by
        rw [cipherTags, hmode]
        cases isAes <;> cases isAeMode <;> first | rfl | exact absurd hnot (by decide)
      rwa [hnone, List.append_nil]
    case isFalse hboth =>
      cases isAes <;> cases isAeMode
      case true.true => exact addAeTag_accumulated hfresh hu hmode
      all_goals exact absurd (by decide) hboth
  have hext : ∀ p ∈ s.entries ++ cipherTags s inText isEncrypt, p.External := by
    intro p hp
    rcases List.mem_append.mp hp with hp | hp
    · exact entries_external hadd p hp
    · exact cipherTags_external s inText isEncrypt p hp
  have hcontains := HksParamSet.Contains.of_carries (hall.carries hext hbuild)
  rwa [contentsOf_append, contentsOf_entries] at hcontains

theorem buildParamSetNotNull_packs (paramSet : Option HksParamSet) :
    Packs (buildParamSetNotNull paramSet) (·.Contains (optContents paramSet)) := by
  refine .and ?_ fun _ h => buildParamSetNotNull_contains h
  cases paramSet
  case none => exact hksBuildParamSet_packs _
  case some =>
    exact .seq (hksCheckParamSet_packs _ _) fun _ => .seq (hksAddParams_packs _ _) fun _ => hksBuildParamSet_packs _

theorem appendCipherTag_packs (s : HksParamSet) (inText : Blob) (isEncrypt : Bool) :
    Packs (appendCipherTag s inText isEncrypt)
      (·.Contains (s.contents ++ contentsOf (cipherTags s inText isEncrypt))) := by
  have hmode : Packs (hksCheckAesAeMode s) fun _ => True := by
    refine .seq (.orError nofun) fun _ => .ite (fun _ => .pure trivial) fun _ => ?_
    exact .seq (.orError nofun) fun _ => .pure trivial
  have htag (t : HksParamSet) : Packs (addAeTag t inText isEncrypt) fun _ => True := by
    refine .ite (fun _ => hksAddParams_packs _ _) fun _ => .ite (fun _ => .throw nofun) fun _ => ?_
    exact .seq (hksAddParams_packs _ _) fun _ => hksAddParams_packs _ _
  refine .and ?_ fun _ h => appendCipherTag_contains h
  refine .seq (hksAddParams_packs _ _) fun t => .seq ?_ fun _ => hksBuildParamSet_packs _
  exact .seq hmode fun _ => .ite (fun _ => .pure trivial) fun _ => htag t

end Made

-- The checks in front of a message
section Check

theorem checkBlobs_packs (sizes : List UInt32) : Packs (checkBlobs sizes) fun _ => True :=
  .ite (fun _ => .throw nofun) fun _ => .pure trivial

theorem hksCheckParamSetTag_packs (s : HksParamSet) : Packs (hksCheckParamSetTag s) fun _ => True := by
  rw [hksCheckParamSetTag]
  generalize s.params = ps
  induction ps
  case nil => exact .pure trivial
  case cons p ps ih => exact .ite (fun _ => .throw nofun) fun _ => .ite (fun _ => .throw nofun) fun _ => ih

theorem hksCheckParamSetValidity_packs (s : HksParamSet) : Packs (hksCheckParamSetValidity s) fun _ => True :=
  .seq (.pure trivial) fun _ => .seq (.orError nofun) fun _ => hksCheckParamSetTag_packs _

theorem checkProcessSize_packs (blobs : List Blob) (size : Nat) :
    Packs (checkProcessSize blobs size) fun _ => (∀ b ∈ blobs, b.Aligns) ∧ size < 2 ^ 16 := by
  refine .ite (fun _ => .throw nofun) fun h => .pure ?_
  rw [not_or, Bool.not_eq_true, List.any_eq_false] at h
  have hmax : maxProcessSize = 64512 := rfl
  refine ⟨fun b hb => ?_, by omega⟩
  have hle := h.1 b hb
  rw [decide_eq_true_eq, b.size_toNat] at hle
  rw [Blob.Aligns]
  omega

theorem hksCheckBlobAndParamSet_packs (n : UInt32) (s : HksParamSet) :
    Packs (hksCheckBlobAndParamSet n s) fun _ => True :=
  .seq (checkBlobs_packs _) fun _ => hksCheckParamSetValidity_packs s

theorem hksCheckBlob2AndParamSet_packs (n₁ n₂ : UInt32) (s : HksParamSet) :
    Packs (hksCheckBlob2AndParamSet n₁ n₂ s) fun _ => True :=
  .seq (checkBlobs_packs _) fun _ => hksCheckParamSetValidity_packs s

theorem hksCheckBlob3AndParamSet_packs (n₁ n₂ n₃ : UInt32) (s : HksParamSet) :
    Packs (hksCheckBlob3AndParamSet n₁ n₂ n₃ s) fun _ => True :=
  .seq (checkBlobs_packs _) fun _ => hksCheckParamSetValidity_packs s

theorem addOutSize_packs (size n : UInt32) : Packs (addOutSize size n) fun m => m.toNat = size.toNat + n.toNat := by
  refine .ite (fun _ => .throw nofun) fun h => .pure ?_
  rw [isAdditionOverflow_iff] at h
  rw [UInt32.toNat_add]
  exact Nat.mod_eq_of_lt (Nat.not_le.mp h)

theorem addAlignedOutSize_packs (size n : UInt32) : Packs (addAlignedOutSize size n) fun _ => True :=
  .ite (fun _ => .throw nofun) fun _ => (addOutSize_packs _ _).weaken fun _ _ _ => trivial

end Check

-- The messages of one piece. The sizes that are added up are those of the parts.
section Pack

variable (addressOf : BlobData → UInt64) (padding : Nat → UInt32) {s : HksParamSet}

theorem hksClientGenerateKey_packs (hbuilt : s.Built) (keyAlias : Blob) (n : UInt32) :
    Packs (hksClientGenerateKey addressOf padding keyAlias s n) fun parcel =>
      keyAlias.Aligns ∧ Sent addressOf padding parcel .genKey n [.blob keyAlias, .paramSet s, .uint32 n] := by
  refine .bind (.seq (hksCheckBlobAndParamSet_packs _ s) fun _ => checkProcessSize_packs _ _)
    fun _ ⟨hblobs, hsize⟩ => ?_
  have ha := hblobs keyAlias List.mem_cons_self
  refine (sendPacked_packs (fun _ => ?_) ?_ ?_).weaken fun _ _ h => ⟨ha, h⟩
  · simp only [List.foldlM_cons, List.foldlM_nil, bind_pure]
    rfl
  · simpa [MessagePart.Fit] using ⟨ha, hbuilt⟩
  · simp [MessagePart.size, Blob.room, HksParamSet.room] at hsize ⊢
    omega

theorem hksClientImportKey_packs (hbuilt : s.Built) (keyAlias key : Blob) :
    Packs (hksClientImportKey addressOf padding keyAlias s key) fun parcel =>
      (keyAlias.Aligns ∧ key.Aligns) ∧
        Sent addressOf padding parcel .importKey 0 [.blob keyAlias, .paramSet s, .blob key] := by
  refine .bind (.seq (hksCheckBlob2AndParamSet_packs _ _ s) fun _ => checkProcessSize_packs _ _)
    fun _ ⟨hblobs, hsize⟩ => ?_
  obtain ⟨ha, hk⟩ : keyAlias.Aligns ∧ key.Aligns := by simpa using hblobs
  refine (sendPacked_packs (fun _ => ?_) ?_ ?_).weaken fun _ _ h => ⟨⟨ha, hk⟩, h⟩
  · simp only [List.foldlM_cons, List.foldlM_nil, bind_pure]
    rfl
  · simpa [MessagePart.Fit] using ⟨ha, hbuilt, hk⟩
  · simp [MessagePart.size, Blob.room, HksParamSet.room] at hsize ⊢
    omega

theorem hksClientExportPublicKey_packs (keyAlias : Blob) (paramSet : Option HksParamSet) (n : UInt32) :
    Packs (hksClientExportPublicKey addressOf padding keyAlias paramSet n) fun parcel =>
      keyAlias.Aligns ∧ ∃ s : HksParamSet, s.Contains (optContents paramSet) ∧
        Sent addressOf padding parcel .exportPublicKey n [.blob keyAlias, .uint32 n, .paramSet s] := by
  refine .bind (buildParamSetNotNull_packs paramSet) fun s hs => ?_
  refine .bind (.seq (hksCheckBlob2AndParamSet_packs _ _ s) fun _ => checkProcessSize_packs _ _)
    fun _ ⟨hblobs, hsize⟩ => ?_
  have ha := hblobs keyAlias List.mem_cons_self
  refine (sendPacked_packs (fun _ => ?_) ?_ ?_).weaken fun _ _ h => ⟨ha, s, hs, h⟩
  · simp only [List.foldlM_cons, List.foldlM_nil, bind_pure]
    rfl
  · simpa [MessagePart.Fit] using ⟨ha, hs.1⟩
  · simp [MessagePart.size, Blob.room, HksParamSet.room] at hsize ⊢
    omega

theorem hksClientImportWrappedKey_packs (hbuilt : s.Built) (keyAlias wrappingKeyAlias wrappedKeyData : Blob) :
    Packs (hksClientImportWrappedKey addressOf padding keyAlias wrappingKeyAlias s wrappedKeyData) fun parcel =>
      (keyAlias.Aligns ∧ wrappingKeyAlias.Aligns ∧ wrappedKeyData.Aligns) ∧
        Sent addressOf padding parcel .importWrappedKey 0
          [.blob keyAlias, .blob wrappingKeyAlias, .paramSet s, .blob wrappedKeyData] := by
  refine .bind (.seq (hksCheckBlob3AndParamSet_packs _ _ _ s) fun _ => checkProcessSize_packs _ _)
    fun _ ⟨hblobs, hsize⟩ => ?_
  obtain ⟨ha, hw, hd⟩ : keyAlias.Aligns ∧ wrappingKeyAlias.Aligns ∧ wrappedKeyData.Aligns := by simpa using hblobs
  refine (sendPacked_packs (fun _ => ?_) ?_ ?_).weaken fun _ _ h => ⟨⟨ha, hw, hd⟩, h⟩
  · simp only [List.foldlM_cons, List.foldlM_nil, bind_pure]
    rfl
  · simpa [MessagePart.Fit] using ⟨ha, hw, hbuilt, hd⟩
  · simp [MessagePart.size, Blob.room, HksParamSet.room] at hsize ⊢
    omega

theorem hksClientDeleteKey_packs (keyAlias : Blob) (paramSet : Option HksParamSet) :
    Packs (hksClientDeleteKey addressOf padding keyAlias paramSet) fun parcel =>
      keyAlias.Aligns ∧ ∃ s : HksParamSet, s.Contains (optContents paramSet) ∧
        Sent addressOf padding parcel .deleteKey 0 [.blob keyAlias, .paramSet s] := by
  refine .bind (buildParamSetNotNull_packs paramSet) fun s hs => ?_
  refine .bind (.seq (hksCheckBlobAndParamSet_packs _ s) fun _ => checkProcessSize_packs _ _)
    fun _ ⟨hblobs, hsize⟩ => ?_
  have ha := hblobs keyAlias List.mem_cons_self
  refine (sendPacked_packs (fun _ => ?_) ?_ ?_).weaken fun _ _ h => ⟨ha, s, hs, h⟩
  · simp only [List.foldlM_cons, List.foldlM_nil, bind_pure]
    rfl
  · simpa [MessagePart.Fit] using ⟨ha, hs.1⟩
  · simp [MessagePart.size, Blob.room, HksParamSet.room] at hsize ⊢
    omega

theorem hksClientGetKeyParamSet_packs (keyAlias : Blob) (paramSet : Option HksParamSet) (n : UInt32) :
    Packs (hksClientGetKeyParamSet addressOf padding keyAlias paramSet n) fun parcel =>
      keyAlias.Aligns ∧ ∃ s : HksParamSet, s.Contains (optContents paramSet) ∧
        Sent addressOf padding parcel .getKeyParamSet n [.blob keyAlias, .uint32 n, .paramSet s] := by
  refine .bind (buildParamSetNotNull_packs paramSet) fun s hs => ?_
  refine .bind (.seq (hksCheckBlobAndParamSet_packs _ s) fun _ => .seq (checkBlobs_packs _) fun _ =>
    checkProcessSize_packs _ _) fun _ ⟨hblobs, hsize⟩ => ?_
  have ha := hblobs keyAlias List.mem_cons_self
  refine (sendPacked_packs (fun _ => ?_) ?_ ?_).weaken fun _ _ h => ⟨ha, s, hs, h⟩
  · simp only [List.foldlM_cons, List.foldlM_nil, bind_pure]
    rfl
  · simpa [MessagePart.Fit] using ⟨ha, hs.1⟩
  · simp [MessagePart.size, Blob.room, HksParamSet.room] at hsize ⊢
    omega

theorem hksClientKeyExist_packs (keyAlias : Blob) (paramSet : Option HksParamSet) :
    Packs (hksClientKeyExist addressOf padding keyAlias paramSet) fun parcel =>
      keyAlias.Aligns ∧ ∃ s : HksParamSet, s.Contains (optContents paramSet) ∧
        Sent addressOf padding parcel .keyExist 0 [.blob keyAlias, .paramSet s] := by
  refine .bind (buildParamSetNotNull_packs paramSet) fun s hs => ?_
  refine .bind (.seq (hksCheckBlobAndParamSet_packs _ s) fun _ => checkProcessSize_packs _ _)
    fun _ ⟨hblobs, hsize⟩ => ?_
  have ha := hblobs keyAlias List.mem_cons_self
  refine (sendPacked_packs (fun _ => ?_) ?_ ?_).weaken fun _ _ h => ⟨ha, s, hs, h⟩
  · simp only [List.foldlM_cons, List.foldlM_nil, bind_pure]
    rfl
  · simpa [MessagePart.Fit] using ⟨ha, hs.1⟩
  · simp [MessagePart.size, Blob.room, HksParamSet.room] at hsize ⊢
    omega

theorem hksClientGenerateRandom_packs (n : UInt32) :
    Packs (hksClientGenerateRandom n) fun parcel => parcel = ⟨.generateRandom, n, toBytes32 n⟩ :=
  .seq (checkBlobs_packs _) fun _ => .pure rfl

theorem hksClientAgreeKey_packs (hbuilt : s.Built) (privateKey peerPublicKey : Blob) (n : UInt32) :
    Packs (hksClientAgreeKey addressOf padding s privateKey peerPublicKey n) fun parcel =>
      (privateKey.Aligns ∧ peerPublicKey.Aligns) ∧ Sent addressOf padding parcel .agreeKey n
        [.paramSet s, .blob privateKey, .blob peerPublicKey, .uint32 n] := by
  refine .bind (.seq (hksCheckBlob3AndParamSet_packs _ _ _ s) fun _ => checkProcessSize_packs _ _)
    fun _ ⟨hblobs, hsize⟩ => ?_
  obtain ⟨hk, hp⟩ : privateKey.Aligns ∧ peerPublicKey.Aligns := by simpa using hblobs
  refine (sendPacked_packs (fun _ => ?_) ?_ ?_).weaken fun _ _ h => ⟨⟨hk, hp⟩, h⟩
  · simp only [List.foldlM_cons, List.foldlM_nil, bind_pure]
    rfl
  · simpa [MessagePart.Fit] using ⟨hbuilt, hk, hp⟩
  · simp [MessagePart.size, Blob.room, HksParamSet.room] at hsize ⊢
    omega

theorem hksClientDeriveKey_packs (hbuilt : s.Built) (mainKey : Blob) (n : UInt32) :
    Packs (hksClientDeriveKey addressOf padding s mainKey n) fun parcel =>
      mainKey.Aligns ∧ Sent addressOf padding parcel .deriveKey n [.paramSet s, .blob mainKey, .uint32 n] := by
  refine .bind (.seq (hksCheckBlob2AndParamSet_packs _ _ s) fun _ => checkProcessSize_packs _ _)
    fun _ ⟨hblobs, hsize⟩ => ?_
  have hk := hblobs mainKey List.mem_cons_self
  refine (sendPacked_packs (fun _ => ?_) ?_ ?_).weaken fun _ _ h => ⟨hk, h⟩
  · simp only [List.foldlM_cons, List.foldlM_nil, bind_pure]
    rfl
  · simpa [MessagePart.Fit] using ⟨hbuilt, hk⟩
  · simp [MessagePart.size, Blob.room, HksParamSet.room] at hsize ⊢
    omega

theorem hksClientListAliases_packs (hbuilt : s.Built) :
    Packs (hksClientListAliases addressOf padding s) fun parcel =>
      Sent addressOf padding parcel .listAliases parcel.outSize [.paramSet s] := by
  refine .seq (.seq (.orError nofun) fun _ => (checkProcessSize_packs _ _).weaken fun _ _ _ => trivial) fun _ => ?_
  refine (sendPacked_packs (fun _ => ?_) ?_ ?_).weaken fun _ _ h => { h with outSize_eq := rfl }
  · simp only [List.foldlM_cons, List.foldlM_nil, bind_pure]
    rfl
  · simpa [MessagePart.Fit] using hbuilt
  · simp [MessagePart.size, HksParamSet.room]

theorem hksCheckIpcCertificateChain_packs (keyAlias : Blob) (s : HksParamSet) (certs : List UInt32) :
    Packs (hksCheckIpcCertificateChain keyAlias s certs) fun _ =>
      keyAlias.Aligns ∧ keyAlias.room + s.room < 2 ^ 16 := by
  refine .ite (fun _ => .throw nofun) fun _ => .seq (.orError nofun) fun _ => ?_
  refine .bind (checkProcessSize_packs _ _) fun _ ⟨hblobs, hsize⟩ => ?_
  refine .seq (.foldlM fun size cert _ => ?_) fun _ => .pure ⟨hblobs keyAlias List.mem_cons_self, hsize⟩
  exact .seq ((addOutSize_packs _ _).weaken fun _ _ _ => trivial) fun _ => addAlignedOutSize_packs _ _

-- The room for a chain of certificates
def certBufSize (certs : List UInt32) : UInt32 := certs.foldl (fun size cert => size + (4 + alignSize cert)) 4

theorem hksClientAttestKey_packs (hbuilt : s.Built) (keyAlias : Blob) (certs : List UInt32)
    (needAnonCertChain : Bool) :
    Packs (hksClientAttestKey addressOf padding keyAlias s certs needAnonCertChain) fun parcel =>
      keyAlias.Aligns ∧
        Sent addressOf padding parcel (if needAnonCertChain then .attestKeyAsyncReply else .attestKey)
          (certBufSize certs) [.blob keyAlias, .paramSet s, .uint32 (certBufSize certs)] := by
  refine .bind (hksCheckIpcCertificateChain_packs keyAlias s certs) fun _ ⟨ha, hsize⟩ => ?_
  refine .ite (fun _ => .throw nofun) fun _ => ?_
  refine (sendPacked_packs (fun _ => ?_) ?_ ?_).weaken fun _ _ h => ⟨ha, h⟩
  · simp only [List.foldlM_cons, List.foldlM_nil, bind_pure]
    rfl
  · simpa [MessagePart.Fit] using ⟨ha, hbuilt⟩
  · simp [MessagePart.size, Blob.room, HksParamSet.room] at hsize ⊢
    omega

theorem hksCheckIpcGetKeyInfoList_packs (keyInfoList : List KeyInfoRoom) (s : HksParamSet) (n : UInt32) :
    Packs (hksCheckIpcGetKeyInfoList keyInfoList s n) fun _ => n ≠ 0 ∧ n.toNat ≤ hksGetKeyListMaxCount := by
  refine .seq (.orError nofun) fun _ => .ite (fun _ => .throw nofun) fun hcount => ?_
  refine .ite (fun _ => .throw nofun) fun _ => .ite (fun _ => .throw nofun) fun _ => ?_
  rw [not_or] at hcount
  refine .seq (.foldlM fun size keyInfo _ => ?_) fun _ => .pure ⟨hcount.1, Nat.not_lt.mp hcount.2⟩
  refine .seq ((addOutSize_packs _ _).weaken fun _ _ _ => trivial) fun _ => ?_
  exact .seq (addAlignedOutSize_packs _ _) fun _ => addAlignedOutSize_packs _ _

theorem foldlM_keyInfoParts (keyInfoList : List KeyInfoRoom) (dest : PackBuffer) :
    keyInfoList.foldlM (fun dest keyInfo => do
        let dest ← ClientIpc.copyUint32ToBuffer keyInfo.aliasSize dest
        ClientIpc.copyUint32ToBuffer keyInfo.paramSetSize dest) dest =
      (keyInfoList.flatMap KeyInfoRoom.parts).foldlM (MessagePart.put addressOf padding) dest := by
  induction keyInfoList generalizing dest
  case nil => rfl
  case cons room keyInfoList ih =>
    rw [List.foldlM_cons, List.flatMap_cons, List.foldlM_append]
    simp only [ih, KeyInfoRoom.parts, List.foldlM_cons, List.foldlM_nil, bind_pure]
    rfl

theorem sum_keyInfoParts (keyInfoList : List KeyInfoRoom) :
    ((keyInfoList.flatMap KeyInfoRoom.parts).map MessagePart.size).sum = 8 * keyInfoList.length := by
  induction keyInfoList
  case nil => rfl
  case cons room keyInfoList ih =>
    rw [List.flatMap_cons, List.map_append, List.sum_append, ih, List.length_cons, Nat.mul_succ, Nat.add_comm]
    rfl

theorem hksClientGetKeyInfoList_packs (paramSet : Option HksParamSet) {keyInfoList : List KeyInfoRoom}
    (hlen : keyInfoList.length < 2 ^ 32) :
    Packs (hksClientGetKeyInfoList addressOf padding paramSet keyInfoList) fun parcel =>
      (0 < keyInfoList.length ∧ keyInfoList.length ≤ hksGetKeyListMaxCount) ∧
        ∃ s : HksParamSet, s.Contains (optContents paramSet) ∧
          Sent addressOf padding parcel .getKeyInfoList parcel.outSize
            (.uint32 keyInfoList.length.toUInt32 :: (keyInfoList.flatMap KeyInfoRoom.parts ++ [.paramSet s])) := by
  refine .bind (buildParamSetNotNull_packs paramSet) fun s hs => ?_
  refine .bind (hksCheckIpcGetKeyInfoList_packs _ _ _) fun _ ⟨hzero, hmax⟩ => ?_
  rw [ne_eq, ← UInt32.toNat_inj, toUInt32_toNat hlen] at hzero
  rw [toUInt32_toNat hlen] at hmax
  refine .ite (fun _ => .throw nofun) fun _ => ?_
  refine (sendPacked_packs (fun _ => ?_) ?_ ?_).weaken fun _ _ h =>
    ⟨⟨Nat.pos_of_ne_zero hzero, hmax⟩, s, hs, h.outSize_eq ▸ h⟩
  · simp only [List.foldlM_cons, List.foldlM_append, List.foldlM_nil, bind_pure, ← foldlM_keyInfoParts]
    rfl
  · intro part hpart
    simp only [List.mem_cons, List.mem_append, List.mem_flatMap, KeyInfoRoom.parts, List.not_mem_nil, or_false] at hpart
    obtain rfl | ⟨room, _, rfl | rfl⟩ | rfl := hpart
    · trivial
    · trivial
    · trivial
    · exact hs.1
  · have hroom := hs.1.room_bounds
    have hbounds := hs.1.bounds
    rw [List.map_cons, List.sum_cons, List.map_append, List.sum_append, sum_keyInfoParts]
    rw [hksGetKeyListMaxCount] at hmax
    rw [HksParamSet.maxSize] at hbounds
    rw [HksParamSet.room] at hroom
    simp only [MessagePart.size, List.map_cons, List.map_nil, List.sum_cons, List.sum_nil, HksParamSet.room,
      UInt32.toNat_add, UInt32.toNat_mul, toUInt32_toNat hlen, UInt32.toNat_ofNat]
    omega

end Pack

-- The messages with a piece of data
section Slice

variable (addressOf : BlobData → UInt64) (padding : Nat → UInt32) {s : HksParamSet}

theorem getBlobBufSize_packs (b : Blob) : Packs (getBlobBufSize b.size) fun n => b.Aligns ∧ n.toNat = b.room := by
  refine .ite (fun _ => .throw nofun) fun halign => .ite (fun _ => .throw nofun) fun hsum => .pure ?_
  rw [isAdditionOverflow_align, b.size_toNat] at halign
  rw [isAdditionOverflow_iff] at hsum
  have hfour : (4 : UInt32).toNat = 4 := rfl
  refine ⟨Nat.not_le.mp halign, ?_⟩
  rw [UInt32.toNat_add, Blob.room, hfour]
  omega

theorem getParamSize_packs (key : Blob) (hbuilt : s.Built) :
    Packs (getParamSize key s) fun n => key.Aligns ∧ n.toNat = key.room + s.room := by
  refine .ite (fun _ => .throw nofun) fun h => .pure ?_
  have hmax : maxProcessSize = 64512 := rfl
  rw [not_or, key.size_toNat] at h
  have ha : key.Aligns := by
    rw [Blob.Aligns]
    omega
  have hkey := @alignSize_of_small key.size (by rw [key.size_toNat]; omega)
  have hparam := hbuilt.room_bounds
  rw [key.size_toNat] at hkey
  rw [HksParamSet.room] at hparam
  refine ⟨ha, ?_⟩
  simp only [UInt32.toNat_add, Blob.room, HksParamSet.room, UInt32.toNat_ofNat]
  omega

-- What is behind the data: the signature to verify, or the room for what is returned
def lastPart (cmdId : HksIpcInterfaceCode) (outData : Blob) : MessagePart :=
  if cmdId = .verify then .blob outData else .uint32 outData.size

theorem getDataSize_packs (cmdId : HksIpcInterfaceCode) (inData outData : Blob) :
    Packs (getDataSize cmdId inData outData) fun n =>
      (inData.Aligns ∧ (lastPart cmdId outData).Fit) ∧ n.toNat = inData.room + (lastPart cmdId outData).size := by
  refine .bind (getBlobBufSize_packs inData) fun n ⟨hin, hn⟩ => ?_
  have hlast : Packs (if cmdId = .verify then getBlobBufSize outData.size else pure 4) fun m =>
      (lastPart cmdId outData).Fit ∧ m.toNat = (lastPart cmdId outData).size := by
    rw [lastPart]
    split
    case isTrue => exact getBlobBufSize_packs outData
    case isFalse => exact .pure ⟨trivial, rfl⟩
  split at hlast
  case isTrue hcmd =>
    rw [if_pos hcmd]
    refine .bind hlast fun m ⟨hfit, hm⟩ => (addOutSize_packs n m).weaken fun _ _ hsum => ⟨⟨hin, hfit⟩, ?_⟩
    rw [hsum, hn, hm]
  case isFalse hcmd =>
    rw [if_neg hcmd]
    refine .bind hlast fun m ⟨hfit, hm⟩ => (addOutSize_packs n m).weaken fun _ _ hsum => ⟨⟨hin, hfit⟩, ?_⟩
    rw [hsum, hn, hm]

theorem hksSliceDataEntry_packs (cmdId : HksIpcInterfaceCode) (key : Blob) (hbuilt : s.Built)
    (inData outData : Blob) :
    Packs (hksSliceDataEntry addressOf padding cmdId key s inData outData) fun parcel =>
      (key.Aligns ∧ inData.Aligns ∧ (lastPart cmdId outData).Fit) ∧
        Sent addressOf padding parcel cmdId (if cmdId = .verify then 0 else outData.size)
          [.blob key, .paramSet s, .blob inData, lastPart cmdId outData] := by
  refine .ite (fun _ => .throw nofun) fun _ => ?_
  refine .bind (getParamSize_packs key hbuilt).known fun n ⟨hparam, hk, hn⟩ => ?_
  refine .bind (getDataSize_packs cmdId inData outData).known fun m ⟨hdata, ⟨hin, hlast⟩, hm⟩ => ?_
  refine .bind (addOutSize_packs n m) fun total htotal => .ite (fun _ => ?_) fun _ => .throw nofun
  -- The sizes are computed once more.
  rw [processDataOnce, hparam, hdata]
  refine .bind (.pure rfl) fun _ hn' => .bind (.pure rfl) fun _ hm' => ?_
  subst hn' hm'
  refine (sendPacked_packs (fun _ => ?_) ?_ ?_).weaken fun _ _ h => ⟨⟨hk, hin, hlast⟩, h⟩
  · rw [lastPart, hksOnceParamPack]
    split
    case isTrue =>
      simp only [hksOnceDataPack, List.foldlM_cons, List.foldlM_nil, bind_pure, bind_assoc]
      rfl
    case isFalse =>
      simp only [hksOnceDataPack, List.foldlM_cons, List.foldlM_nil, bind_pure, bind_assoc, pure_bind]
      rfl
  · simpa [MessagePart.Fit] using ⟨hk, hbuilt, hin, hlast⟩
  · have hlt := total.toNat_lt
    rw [UInt32.toNat_add, ← htotal, Nat.mod_eq_of_lt hlt, htotal, hn, hm]
    simp only [List.map_cons, List.map_nil, List.sum_cons, List.sum_nil, MessagePart.size]
    omega

end Slice

end Huks
