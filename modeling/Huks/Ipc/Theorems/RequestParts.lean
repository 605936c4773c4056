import Huks.Ipc.ServiceRequest
import Huks.Ipc.Theorems.KeyInfoList

namespace Huks

-- A param set that was built and says what is in the list
def HksParamSet.Contains (s : HksParamSet) (contents : Contents) : Prop := s.Built ∧ s.contents = contents

namespace HksParamSet.Contains

variable {s : HksParamSet} {contents : Contents}

theorem of_carries {ps : List HksParam} (c : Carries ps s) : s.Contains (contentsOf ps) := ⟨⟨ps, c⟩, c.contents⟩

end HksParamSet.Contains

theorem HksParamSet.Built.contains {s : HksParamSet} (h : s.Built) : s.Contains s.contents := ⟨h, rfl⟩

theorem HksParamSet.Built.bounds {s : HksParamSet} (h : s.Built) :
    HksParamSet.headerSize ≤ s.paramSetSize.toNat ∧ s.paramSetSize.toNat ≤ HksParamSet.maxSize := by
  obtain ⟨ps, c⟩ := h
  rw [c.size]
  exact ⟨Nat.le_trans (Nat.le_add_right _ _) (Nat.le_add_right _ _), c.max⟩

theorem HksParamSet.Built.room_bounds {s : HksParamSet} (h : s.Built) :
    s.paramSetSize.toNat ≤ s.room ∧ s.room ≤ s.paramSetSize.toNat + 3 := by
  have hmax := h.bounds.2
  apply alignSize_of_small
  simp only [HksParamSet.maxSize] at hmax
  omega

-- What a message of the client is made of
inductive MessagePart
  | blob (b : Blob)
  | paramSet (s : HksParamSet)
  | uint32 (n : UInt32)

namespace MessagePart

def size : MessagePart → Nat
  | .blob b     => b.room
  | .paramSet s => s.room
  | .uint32 _   => 4

-- The size is enough for it.
def Fit : MessagePart → Prop
  | .blob b     => b.Aligns
  | .paramSet s => s.Built
  | .uint32 _   => True

variable (addressOf : BlobData → UInt64) (padding : Nat → UInt32)

def put (dest : PackBuffer) : MessagePart → Except HksErrorCode PackBuffer
  | .blob b     => ClientIpc.copyBlobToBuffer b dest
  | .paramSet s => copyParamSetToBuffer addressOf padding s dest
  | .uint32 n   => ClientIpc.copyUint32ToBuffer n dest

-- `bytes` at `i`, if they fit in `n`
def Lies (b : Bytes) (i : Nat) (bytes : Bytes) (n j : Nat) : Prop :=
  j = i + n ∧ j ≤ b.length ∧ (bytes.length ≤ n → slice b i bytes.length = bytes)

theorem Lies.front {b b' bytes : Bytes} {i n j : Nat} (h : Lies b i bytes n j) (hfront : b.take j = b'.take j) :
    Lies b' i bytes n j := by
  obtain ⟨hj, hlen, hbytes⟩ := h
  have hlen' : j ≤ b'.length := by
    have := congrArg List.length hfront
    rw [List.length_take, List.length_take] at this
    omega
  refine ⟨hj, hlen', fun hle => ?_⟩
  rw [← slice_congr hfront (by omega)]
  exact hbytes hle

theorem Lies.le {b bytes : Bytes} {i n j : Nat} (h : Lies b i bytes n j) : i ≤ j ∧ j ≤ b.length :=
  ⟨h.1 ▸ Nat.le_add_right _ _, h.2.1⟩

-- A part in a message
def format : Format UInt8 MessagePart where
  item b i part j :=
    match part with
    | .blob b'   => blobFormat.item b i b' j
    | .paramSet s => Lies b i (s.image addressOf padding) s.room j
    | .uint32 n   => Lies b i (toBytes32 n) 4 j
  front := by
    intro b b' i part j h hfront
    cases part
    case blob => exact blobFormat.front h hfront
    case paramSet => exact Lies.front h hfront
    case uint32 => exact Lies.front h hfront
  le := by
    intro b i part j h
    cases part
    case blob => exact blobFormat.le h
    case paramSet => exact Lies.le h
    case uint32 => exact Lies.le h

end MessagePart

-- The room for an element of a list of key infos, as the client sends it
namespace KeyInfoRoom

def parts (room : KeyInfoRoom) : List MessagePart := [.uint32 room.aliasSize, .uint32 room.paramSetSize]

-- The service does not make such an element.
def Refused (room : KeyInfoRoom) : Prop :=
  isInvalidLength room.aliasSize ∨ isInvalidLength room.paramSetSize ∨
    room.paramSetSize.toNat < HksParamSet.headerSize

instance (room : KeyInfoRoom) : Decidable room.Refused := inferInstanceAs (Decidable (_ ∨ _ ∨ _))

end KeyInfoRoom

section Put

variable (addressOf : BlobData → UInt64) (padding : Nat → UInt32) {dest dest' : PackBuffer}

theorem clientCopyUint32_put {n : UInt32} (v : dest.Valid) (h : ClientIpc.copyUint32ToBuffer n dest = .ok dest') :
    dest.Put dest' (toBytes32 n) 4 := by
  rw [ClientIpc.copyUint32ToBuffer] at h
  split at h
  case isTrue => cases h
  case isFalse hroom =>
    have hfour : (4 : UInt32).toNat = 4 := rfl
    have hwithin := v.within
    rw [not_or, UInt32.lt_iff_toNat_lt, v.room_toNat] at hroom
    exact Except.ok.inj h ▸ v.put (Nat.le_refl 4) (by omega)

theorem clientCopyUint32_room (v : dest.Valid) (h : dest.offset.toNat + 4 ≤ dest.data.length) (n : UInt32) :
    ∃ dest', ClientIpc.copyUint32ToBuffer n dest = .ok dest' := by
  refine ⟨_, if_neg ?_⟩
  rw [not_or, UInt32.lt_iff_toNat_lt (b := 4), v.room_toNat]
  exact ⟨v.offset_le, Nat.not_lt.mpr (Nat.le_sub_of_add_le' h)⟩

theorem clientCopyBlob_put {blob : Blob} (v : dest.Valid) (h : ClientIpc.copyBlobToBuffer blob dest = .ok dest') :
    dest'.Valid ∧ Grows dest.data dest'.data dest.offset.toNat dest'.offset.toNat ∧
      blobFormat.item dest'.data dest.offset.toNat blob dest'.offset.toNat := by
  rw [ClientIpc.copyBlobToBuffer] at h
  split at h
  case isTrue => cases h
  case isFalse hroom =>
    have hwithin := v.within
    rw [v.room_toNat, not_or] at hroom
    exact Except.ok.inj h ▸ v.putBlob (by omega)

theorem clientCopyBlob_room (v : dest.Valid) {blob : Blob} (h : dest.offset.toNat + blob.room ≤ dest.data.length) :
    ∃ dest', ClientIpc.copyBlobToBuffer blob dest = .ok dest' := by
  rw [Blob.room] at h
  refine ⟨_, if_neg ?_⟩
  rw [not_or, v.room_toNat]
  exact ⟨v.offset_le, by omega⟩

theorem copyParamSet_room (v : dest.Valid) {s : HksParamSet} (hbuilt : s.Built)
    (h : dest.offset.toNat + s.room ≤ dest.data.length) :
    ∃ dest', copyParamSetToBuffer addressOf padding s dest = .ok dest' := by
  have hroom := hbuilt.room_bounds
  have hsize := hbuilt.bounds.1
  obtain ⟨ps, c⟩ := hbuilt
  rw [HksParamSet.room] at h hroom
  rw [HksParamSet.headerSize] at hsize
  have hcopy := @PackBuffer.Valid.memcpyS_eq _ (s.image addressOf padding) v
  rw [c.length_image, if_pos ⟨by omega, by omega⟩] at hcopy
  have hcheck : ¬(dest.offset > dest.size ∨ dest.size - dest.offset < alignSize s.paramSetSize) := by
    rw [not_or, UInt32.lt_iff_toNat_lt (b := alignSize _), v.room_toNat]
    exact ⟨v.offset_le, by omega⟩
  rw [copyParamSetToBuffer, if_neg hcheck, hcopy]
  exact ⟨_, rfl⟩

theorem put_writes : Writes (MessagePart.format addressOf padding) PackBuffer.data (·.offset.toNat) PackBuffer.Valid
    (MessagePart.put addressOf padding) where
  place v := v.within
  step {s s' part} v h := by
    cases part
    case blob => exact clientCopyBlob_put v h
    case paramSet =>
      have hput := copyParamSetToBuffer_put addressOf padding v h
      exact ⟨hput.valid, hput.grows, hput.offset, hput.grows.within, fun _ => hput.bytes⟩
    case uint32 =>
      have hput := clientCopyUint32_put v h
      exact ⟨hput.valid, hput.grows, hput.offset, hput.grows.within, fun _ => hput.bytes⟩

-- A part that fits goes wherever there is room for its size.
theorem put_fills : FillsRoom MessagePart.size MessagePart.Fit PackBuffer.data (·.offset.toNat) PackBuffer.Valid
    (MessagePart.put addressOf padding) where
  step {dest part} v hfit hroom := by
    have hput : ∃ dest', MessagePart.put addressOf padding dest part = .ok dest' := by
      cases part
      case blob => exact clientCopyBlob_room v hroom
      case paramSet => exact copyParamSet_room addressOf padding v hfit hroom
      case uint32 n => exact clientCopyUint32_room v hroom n
    obtain ⟨dest', hput⟩ := hput
    refine ⟨dest', hput, ?_⟩
    have hitem := ((put_writes addressOf padding).step v hput).2.2
    cases part
    case blob => exact hitem.1.trans (Nat.add_assoc _ _ _)
    case paramSet => exact hitem.1
    case uint32 => exact hitem.1

end Put

end Huks
