import Huks.DeviceCert.Asn1
import Huks.Lib.Der

namespace Huks

open EStateM ByteMemory

def HksAsn1Blob.bytes (mem : ByteMemory) (blob : HksAsn1Blob) : Bytes := mem.read blob.data blob.size.toNat

section Encode

variable {mem : ByteMemory} {tlv value : HksAsn1Blob}

-- What the loop leaves of a value.
structure SkipsZeros (mem : ByteMemory) (tlv value : HksAsn1Blob) : Prop where
  type  : value.type = tlv.type
  pos   : 0 < value.size.toNat
  le    : value.size.toNat ≤ tlv.size.toNat
  bytes : value.bytes mem = stripZeros (tlv.bytes mem)

theorem asn1SkipZeros_go {n : Nat} (hpos : 0 < tlv.size.toNat) (hn : tlv.size.toNat ≤ n) :
    SkipsZeros mem tlv (asn1SkipZeros.go mem n tlv) := by
  induction n generalizing tlv
  case zero => omega
  case succ n ih =>
    rw [asn1SkipZeros.go]
    split
    case isTrue h =>
      obtain ⟨hsize, hzero⟩ := h
      have hsize : 1 < tlv.size.toNat := hsize
      have hsub : (tlv.size - 1).toNat = tlv.size.toNat - 1 := UInt32.toNat_sub_of_le _ _ hpos
      have hk : tlv.size.toNat = tlv.size.toNat - 2 + 2 := (Nat.sub_add_cancel hsize).symm
      generalize tlv.size.toNat - 2 = k at hk
      have hbytes : tlv.bytes mem = 0 :: mem (tlv.data + 1) :: mem.read (tlv.data + 2) k := by
        rw [HksAsn1Blob.bytes, hk, ByteMemory.read, ByteMemory.read, hzero]
      have hnext : mem.read (tlv.data + 1) (tlv.size - 1).toNat =
          mem (tlv.data + 1) :: mem.read (tlv.data + 2) k := by
        rw [hsub, hk]
        rfl
      have hrest := @ih { tlv with data := tlv.data + 1, size := tlv.size - 1 }
        (by simp only [hsub]; omega) (by simp only [hsub]; omega)
      refine ⟨hrest.type, hrest.pos, hrest.le.trans (by simp only [hsub]; omega), ?_⟩
      rw [hrest.bytes, hbytes, stripZeros, HksAsn1Blob.bytes, hnext]
    case isFalse h =>
      refine ⟨rfl, hpos, Nat.le_refl _, ((stripZeros_eq_self_iff _).mpr ?_).symm⟩
      rw [HksAsn1Blob.bytes, length_read]
      refine (Nat.lt_or_ge 1 tlv.size.toNat).symm.imp id fun hsize => ?_
      have hne : mem tlv.data ≠ 0 := fun hzero => h ⟨hsize, hzero⟩
      obtain ⟨k, hk⟩ := Nat.exists_eq_add_of_lt hpos
      rw [hk, ByteMemory.read, List.head?_cons]
      exact fun hzero => hne (Option.some.inj hzero)

theorem asn1SkipZeros_spec (mem : ByteMemory) (h : 0 < tlv.size.toNat) :
    SkipsZeros mem tlv (asn1SkipZeros mem tlv) :=
  asn1SkipZeros_go h (Nat.le_refl _)

-- The content of an object: a bit string has no unused bits, an integer no sign.
def asn1Content (type : UInt32) (bytes : Bytes) : Bytes :=
  if type = Asn1Tag.bitStr then 0 :: bytes else if type = Asn1Tag.int then padInteger bytes else bytes

theorem derLength_of_lt {len : UInt32} (h : len.toNat < 0x10000) :
    derLength len.toNat =
      if len < asn1MinVal1ExtraLenByte then [len.toUInt8]
      else if len < asn1MinVal2ExtraLenByte then [asn1TagType1ByteLen, len.toUInt8]
      else [asn1TagType2ByteLen, (len >>> 8).toUInt8, len.toUInt8] := by
  split
  case isTrue hlt => exact derLength_short hlt
  case isFalse hge =>
    have hge : 0x80 ≤ len.toNat := Nat.le_of_not_lt hge
    split
    case isTrue hlt => exact derLength_one hge hlt
    case isFalse hge =>
      have hge : 0x100 ≤ len.toNat := Nat.le_of_not_lt hge
      rw [derLength_two hge h]
      have hhigh : (len.toNat / 0x100).toUInt8 = (len >>> 8).toUInt8 := by
        apply UInt8.toNat.inj
        simp [Nat.toUInt8, Nat.shiftRight_eq_div_pow]
      have hlow : (len.toNat % 0x100).toUInt8 = len.toUInt8 := by
        apply UInt8.toNat.inj
        simp [Nat.toUInt8]
      rw [hhigh, hlow]
      rfl

theorem asn1Content_eq (hpos : 0 < value.size.toNat) :
    asn1Content value.type (value.bytes mem) =
      if value.type = Asn1Tag.bitStr ∨
          (value.type = Asn1Tag.int ∧ mem value.data > asn1MaxValNoExtraLenByte) then
        0 :: value.bytes mem
      else
        value.bytes mem := by
  have ⟨k, hk⟩ := Nat.exists_eq_add_of_lt hpos
  have hbytes : value.bytes mem = mem value.data :: mem.read (value.data + 1) (0 + k) := by
    rw [HksAsn1Blob.bytes, hk, ByteMemory.read]
  rw [asn1Content, hbytes, padInteger]
  by_cases hbit : value.type = Asn1Tag.bitStr
  case pos => rw [if_pos hbit, if_pos (.inl hbit)]
  case neg =>
    rw [if_neg hbit]
    by_cases hint : value.type = Asn1Tag.int
    case pos =>
      have hne : Asn1Tag.int ≠ Asn1Tag.bitStr := by decide
      simp only [hint, if_true, hne, false_or, true_and, asn1MaxValNoExtraLenByte]
    case neg => rw [if_neg hint, if_neg (by simp [hbit, hint])]

theorem buildTlvHeader_append (hpos : 0 < value.size.toNat) (hlt : value.size.toNat < 0xFFFF) :
    buildTlvHeader mem value ++ value.bytes mem =
      derTlv value.type.toUInt8 (asn1Content value.type (value.bytes mem)) := by
  have hlen : (value.bytes mem).length = value.size.toNat := length_read mem _ _
  rw [asn1Content_eq hpos, buildTlvHeader, derTlv]
  split
  case isTrue h =>
    have hadd : (value.size + 1).toNat = value.size.toNat + 1 := by
      rw [UInt32.toNat_add]
      exact Nat.mod_eq_of_lt (by simp; omega)
    rw [List.length_cons, hlen, ← hadd, derLength_of_lt (by omega)]
    split
    case isTrue => rfl
    case isFalse => split <;> rfl
  case isFalse h =>
    rw [hlen, derLength_of_lt (by omega)]
    split
    case isTrue => rfl
    case isFalse => split <;> rfl

-- The content that `Asn1InsertValue` makes of a value, and the object.
def asn1Inserted (type : UInt32) (bytes : Bytes) : Bytes :=
  asn1Content type (if type ≠ Asn1Tag.octStr ∧ type ≠ Asn1Tag.bitStr then stripZeros bytes else bytes)

def asn1Bytes (type : UInt32) (bytes : Bytes) : Bytes := derTlv type.toUInt8 (asn1Inserted type bytes)

-- The bytes are at the front of the buffer, and nothing else was written.
structure Asn1Written (mem mem' : ByteMemory) (buf buf' : HksBlob) (written : Bytes) : Prop where
  holds : mem'.Holds buf.data written
  frame : ∀ i, i < buf.data ∨ buf.data + written.length ≤ i → mem' i = mem i
  size  : buf.size.toNat = written.length + buf'.size.toNat
  data  : buf'.data = buf.data + written.length

theorem length_buildTlvHeader (mem : ByteMemory) (tlv : HksAsn1Blob) :
    2 ≤ (buildTlvHeader mem tlv).length ∧ (buildTlvHeader mem tlv).length ≤ 5 := by
  simp only [buildTlvHeader]
  repeat' split
  all_goals simp

theorem asn1Stripped_append (hpos : 0 < tlv.size.toNat) (hlt : tlv.size.toNat < 0xFFFF) :
    let value := asn1Stripped mem tlv
    0 < value.size.toNat ∧ value.size.toNat ≤ tlv.size.toNat ∧
      buildTlvHeader mem value ++ value.bytes mem = asn1Bytes tlv.type (tlv.bytes mem) := by
  simp only [asn1Stripped, asn1Bytes, asn1Inserted]
  split
  case isTrue =>
    have hskip := asn1SkipZeros_spec mem hpos
    refine ⟨hskip.pos, hskip.le, ?_⟩
    rw [buildTlvHeader_append hskip.pos (Nat.lt_of_le_of_lt hskip.le hlt), hskip.type, hskip.bytes]
  case isFalse => exact ⟨hpos, Nat.le_refl _, buildTlvHeader_append hpos hlt⟩

variable {mem' : ByteMemory} {buf buf' : HksBlob} {obj : Bool} {o : Option HksAsn1Obj}

theorem memmoveS_eq_ok {dest src : Nat} {destMax count : UInt32} {u : Unit} :
    (memmoveS dest destMax src count).run mem = .ok u mem' ↔
      count ≤ destMax ∧ mem' = mem.move dest src count.toNat := by
  simp only [memmoveS]
  split
  case isTrue h => simp [run_bind, UInt32.not_le.mpr h]
  case isFalse h => simp [UInt32.not_lt.mp h, eq_comm]

theorem asn1InsertValue_written (hpos : 0 < tlv.size.toNat) (hlt : tlv.size.toNat < 0xFFFF)
    (h : (asn1InsertValue buf obj tlv).run mem = .ok (buf', o) mem') :
    Asn1Written mem mem' buf buf' (asn1Bytes tlv.type (tlv.bytes mem)) ∧
      o.isSome = obj ∧ ∀ written ∈ o, written.header.data = buf'.data := by
  have ⟨hpos', hle, hbytes⟩ := @asn1Stripped_append mem _ hpos hlt
  have ⟨_, hfive⟩ := length_buildTlvHeader mem (asn1Stripped mem tlv)
  simp only [asn1InsertValue, run_bind, run_get] at h
  generalize asn1Stripped mem tlv = value at *
  generalize buildTlvHeader mem value = header at *
  have hheader : header.length.toUInt32.toNat = header.length := 
    UInt32.toNat_ofNat_of_lt' (Nat.lt_of_le_of_lt hfive (by decide))
  have hout : (header.length.toUInt32 + value.size).toNat = header.length + value.size.toNat := by
    rw [UInt32.toNat_add, hheader]
    exact Nat.mod_eq_of_lt (by simp; omega)
  have hlen : (asn1Bytes tlv.type (tlv.bytes mem)).length = header.length + value.size.toNat := by
    rw [← hbytes, List.length_append, HksAsn1Blob.bytes, length_read]
  split at h
  case isTrue => cases h
  case isFalse hge =>
    have hge : (header.length.toUInt32 + value.size).toNat ≤ buf.size.toNat := Nat.le_of_not_lt hge
    have ⟨_, moved, hmove, h⟩ := run_bind_eq_ok.mp h
    have ⟨_, hmove⟩ := memmoveS_eq_ok.mp hmove
    have hholds : (moved.write buf.data header).Holds buf.data (asn1Bytes tlv.type (tlv.bytes mem)) := by
      rw [← hbytes, holds_append, hmove, hheader]
      refine ⟨holds_write _ _ _, (holds_write mem _ _).write (.inr (Nat.le_refl _))⟩
    cases h
    refine ⟨⟨hholds, fun i hi => ?_, ?_, ?_⟩, ?_, ?_⟩
    · rw [hlen] at hi
      change (moved.write buf.data header) i = mem i
      rw [write_frame (by omega), hmove, move, write_frame (by rw [length_read]; omega)]
    · simp only [hlen, UInt32.toNat_sub_of_le _ _ hge, hout]
      omega
    · simp only [hlen, hout]
    · cases obj <;> rfl
    · intro written hwritten
      cases obj
      case false => cases hwritten
      case true =>
        cases hwritten
        rfl

theorem dcmAsn1InsertValue_written (hraw : tlv.type ≠ Asn1Tag.raw)
    (h : (dcmAsn1InsertValue buf obj tlv).run mem = .ok (buf', o) mem') :
    buf.data ≠ 0 ∧ 0 < tlv.size.toNat ∧ tlv.size.toNat ≤ 0xFF00 ∧
      Asn1Written mem mem' buf buf' (asn1Bytes tlv.type (tlv.bytes mem)) ∧
      o.isSome = obj ∧ ∀ written ∈ o, written.header.data = buf'.data := by
  simp only [dcmAsn1InsertValue] at h
  split at h
  case isTrue => cases h
  case isFalse hcheck =>
    simp only [not_or, not_not, UInt32.not_lt] at hcheck
    have ⟨hbuf, htlv, hmax⟩ := hcheck
    have hmax : tlv.size.toNat ≤ 0xFF00 := hmax
    have hdata : buf.data ≠ 0 := (of_decide_eq_true hbuf).1
    have hpos : 0 < tlv.size.toNat :=
      Nat.pos_of_ne_zero fun h => (of_decide_eq_true htlv).2 (UInt32.toNat.inj h)
    exact ⟨hdata, hpos, hmax, asn1InsertValue_written hpos (by omega) h⟩

end Encode

section Decode

variable {mem : ByteMemory} {data : HksBlob} {tag : UInt8} {content : Bytes}

theorem toUInt8_toUInt32 {n : Nat} (h : n < 0x100) : n.toUInt8.toUInt32 = n.toUInt32 := by
  apply UInt32.toNat.inj
  simp [Nat.toUInt8, Nat.toUInt32]
  omega

theorem shiftLeft_or_toUInt32 {n : Nat} (h : n < 0x10000) :
    (n / 0x100).toUInt8.toUInt32 <<< 8 ||| (n % 0x100).toUInt8.toUInt32 = n.toUInt32 := by
  have hdiv : n / 0x100 < 0x100 := by omega
  have hmod : n % 0x100 < 0x100 := Nat.mod_lt _ (by decide)
  rw [toUInt8_toUInt32 hdiv, toUInt8_toUInt32 hmod]
  apply UInt32.toNat.inj
  have hor := Nat.shiftLeft_add_eq_or_of_lt (i := 8) hmod (n / 0x100)
  rw [Nat.shiftLeft_eq] at hor
  have hshift : n / 0x100 * 2 ^ (8 % 32) < 2 ^ 32 := by
    change n / 0x100 * 2 ^ 8 < 2 ^ 32
    omega
  simp only [Nat.toUInt32, UInt32.toNat_or, UInt32.toNat_shiftLeft, UInt32.toNat_ofNat', UInt32.reduceToNat,
    Nat.shiftLeft_eq]
  rw [Nat.mod_eq_of_lt (by omega : n / 0x100 < 2 ^ 32), Nat.mod_eq_of_lt hshift,
    Nat.mod_eq_of_lt (by omega : n % 0x100 < 2 ^ 32), Nat.mod_eq_of_lt (by omega : n < 2 ^ 32)]
  exact hor.symm.trans (by omega)

theorem asn1DecodeLength_eq {n : Nat} (hlt : n < 0x10000) (hsize : 2 + n ≤ data.size.toNat)
    (h : mem.Holds (data.data + 1) (derLength n)) :
    asn1DecodeLength mem data = .ok (n.toUInt32, (1 + (derLength n).length).toUInt32) := by
  simp only [asn1DecodeLength]
  rcases Nat.lt_or_ge n 0x80 with hshort | hge
  case inl =>
    have hlt : n.toUInt32 < asn1MinVal1ExtraLenByte := by
      change n.toUInt32.toNat < 0x80
      rw [Nat.toUInt32, UInt32.toNat_ofNat_of_lt' (Nat.lt_trans hshort (by decide))]
      exact hshort
    rw [derLength_short hshort, holds_cons] at h
    rw [h.1, derLength_short hshort, toUInt8_toUInt32 (by omega), if_pos hlt]
    rfl
  case inr =>
    rcases Nat.lt_or_ge n 0x100 with hone | hge'
    case inl =>
      rw [derLength_one hge hone, holds_cons, holds_cons] at h
      rw [h.1, h.2.1, derLength_one hge hone, if_neg (by decide), if_pos (by decide),
        toUInt8_toUInt32 hone]
      rfl
    case inr =>
      have hfour : ¬data.size < asn1MinHeaderLen + 1 := by
        have hle : (4 : Nat) ≤ data.size.toNat := by omega
        exact Nat.not_lt_of_le hle
      rw [derLength_two hge' hlt, holds_cons, holds_cons, holds_cons] at h
      rw [h.1, h.2.1, h.2.2.1, derLength_two hge' hlt, if_neg (by decide), if_neg (by decide),
        if_pos (by decide), if_neg hfour, shiftLeft_or_toUInt32 hlt]
      rfl

theorem length_derLength {n : Nat} (h : n < 0x10000) :
    1 ≤ (derLength n).length ∧ (derLength n).length ≤ 3 := by
  have hn : (UInt32.ofNat n).toNat = n := UInt32.toNat_ofNat_of_lt' (Nat.lt_trans h (by decide))
  rw [← hn, derLength_of_lt (by omega)]
  repeat' split
  all_goals simp

theorem length_derTlv (tag : UInt8) (h : content.length < 0x10000) :
    0 < (derTlv tag content).length ∧ (derTlv tag content).length < 0x10004 := by
  have ⟨_, hthree⟩ := length_derLength h
  rw [derTlv, List.length_cons, List.length_append]
  omega

-- Whatever is behind it, an object is taken from the front of the data.
theorem dcmAsn1ExtractTag_holds (hne : data.data ≠ 0) (hpos : 0 < content.length)
    (hlt : content.length < 0x10000) (h : mem.Holds data.data (derTlv tag content))
    (hsize : (derTlv tag content).length ≤ data.size.toNat) :
    ∃ next obj, dcmAsn1ExtractTag mem data tag.toUInt32 = .ok (next, obj) ∧
      next.size.toNat = data.size.toNat - (derTlv tag content).length ∧
      next.data = data.data + (derTlv tag content).length ∧
      obj.header = ⟨tag.toUInt32, (1 + (derLength content.length).length).toUInt32, data.data⟩ ∧
      obj.value.type = tag.toUInt32 ∧ obj.value.bytes mem = content := by
  have ⟨hone, hthree⟩ := length_derLength hlt
  have hlen : (derTlv tag content).length = 1 + (derLength content.length).length + content.length := by
    rw [derTlv, List.length_cons, List.length_append]
    omega
  rw [derTlv, holds_cons, holds_append] at h
  have ⟨htag, hlength, hcontent⟩ := h
  rw [hlen] at hsize ⊢
  have hdecode := asn1DecodeLength_eq hlt (by omega) hlength
  generalize (derLength content.length).length = k at *
  have hheader : (1 + k).toUInt32.toNat = 1 + k := 
    UInt32.toNat_ofNat_of_lt' (Nat.lt_of_le_of_lt (Nat.add_le_add_left hthree 1) (by decide))
  have hvalue : content.length.toUInt32.toNat = content.length :=
    UInt32.toNat_ofNat_of_lt' (Nat.lt_trans hlt (by decide))
  have hrest : (data.size - (1 + k).toUInt32).toNat = data.size.toNat - (1 + k) := by
    rw [UInt32.toNat_sub_of_le _ _ (by rw [UInt32.le_iff_toNat_le, hheader]; omega), hheader]
  have hthree : ¬data.size < asn1MinHeaderLen := by
    have hle : (3 : Nat) ≤ data.size.toNat := by omega
    exact Nat.not_lt_of_le hle
  have hfits : ¬content.length.toUInt32 > data.size - (1 + k).toUInt32 := by
    rw [gt_iff_lt, UInt32.lt_iff_toNat_lt, hrest, hvalue]
    omega
  have hobj : asn1GetObj mem data = .ok
      (⟨data.size - (1 + k).toUInt32 - content.length.toUInt32,
          data.data + (1 + k).toUInt32.toNat + content.length.toUInt32.toNat⟩,
        ⟨⟨tag.toUInt32, (1 + k).toUInt32, data.data⟩,
          ⟨tag.toUInt32, content.length.toUInt32, data.data + (1 + k).toUInt32.toNat⟩⟩) := by
    simp only [asn1GetObj, hdecode, htag]
    rw [if_neg hne]
    simp only [bind, Except.bind, pure, Except.pure]
    rw [if_neg hfits]
  have hextract : dcmAsn1ExtractTag mem data tag.toUInt32 = asn1GetObj mem data := by
    rw [dcmAsn1ExtractTag, if_neg hthree, hobj]
    simp only [bind, Except.bind, pure, Except.pure, ne_eq, not_true_eq_false, if_false]
  refine ⟨_, _, hextract.trans hobj, ?_, ?_, rfl, rfl, ?_⟩
  · rw [UInt32.toNat_sub_of_le _ _ (UInt32.not_lt.mp hfits), hrest, hvalue]
    omega
  · rw [hheader, hvalue, Nat.add_assoc]
  · rw [HksAsn1Blob.bytes, hheader, hvalue, ← Nat.add_assoc, hcontent]

end Decode

section Codec

-- What a value is to be as the content of an object.
def Asn1Faithful (type : UInt32) (bytes content : Bytes) : Prop :=
  if type = Asn1Tag.bitStr then
    content = 0 :: bytes
  else if type = Asn1Tag.int then
    twosComplement content = ofBigEndian bytes ∧ IsShortest content
  else
    content = bytes

-- The object lies between `buf` and `buf'`.
structure HksAsn1Obj.Describes (obj : HksAsn1Obj) (type : UInt32) (buf buf' : HksBlob) : Prop where
  types  : obj.header.type = type ∧ obj.value.type = type
  header : obj.header.data = buf.data
  value  : obj.value.data = buf.data + obj.header.size.toNat
  size   : obj.value.data + obj.value.size.toNat = buf'.data

-- What was written from `buf` to `buf'` is an object with the content; the decoder gets it back.
structure Asn1Sound (mem' : ByteMemory) (buf buf' : HksBlob) (type : UInt32) (bytes content : Bytes)
    (obj : Option HksAsn1Obj) : Prop where
  written  : mem'.read buf.data (buf'.data - buf.data) = derTlv type.toUInt8 content
  extract  : ∃ parsed, dcmAsn1ExtractTag mem' ⟨(buf'.data - buf.data).toUInt32, buf.data⟩ type =
    .ok (⟨0, buf'.data⟩, parsed) ∧ parsed.header.type = type ∧ parsed.value.bytes mem' = content
  faithful : Asn1Faithful type bytes content
  filled   : ∀ described ∈ obj, described.Describes type buf buf'

variable {mem mem' : ByteMemory} {buf buf' : HksBlob} {tlv : HksAsn1Blob} {obj : Bool}
  {o : Option HksAsn1Obj}

-- The types that lose no zeros that they need, and the values that have none.
def HksAsn1Blob.KeepsZeros (mem : ByteMemory) (tlv : HksAsn1Blob) : Prop :=
  tlv.type = Asn1Tag.int ∨ tlv.type = Asn1Tag.bitStr ∨ tlv.type = Asn1Tag.octStr ∨
    tlv.size ≤ 1 ∨ mem tlv.data ≠ 0

instance (mem : ByteMemory) (tlv : HksAsn1Blob) : Decidable (tlv.KeepsZeros mem) :=
  inferInstanceAs (Decidable (_ ∨ _ ∨ _ ∨ _ ∨ _))

theorem length_asn1Inserted (type : UInt32) {bytes : Bytes} (h : bytes ≠ []) :
    0 < (asn1Inserted type bytes).length ∧ (asn1Inserted type bytes).length ≤ bytes.length + 1 := by
  have hcontent : ∀ bs : Bytes, bs ≠ [] → bs.length ≤ bytes.length →
      0 < (asn1Content type bs).length ∧ (asn1Content type bs).length ≤ bytes.length + 1 := by
    intro bs hne hle
    have hpos := List.length_pos_iff.mpr hne
    rw [asn1Content]
    split
    case isTrue => exact ⟨Nat.succ_pos _, Nat.succ_le_succ hle⟩
    case isFalse =>
      split
      case isFalse => omega
      case isTrue =>
        match bs, hne with
        | b :: bs, _ =>
          rw [padInteger]
          split <;> simp only [List.length_cons] at hle ⊢ <;> omega
  rw [asn1Inserted]
  split
  case isTrue => exact hcontent _ (stripZeros_ne_nil h) (length_stripZeros_le bytes)
  case isFalse => exact hcontent _ h (Nat.le_refl _)

theorem bytes_ne_nil (hpos : 0 < tlv.size.toNat) : tlv.bytes mem ≠ [] := by
  apply List.ne_nil_of_length_pos
  rwa [HksAsn1Blob.bytes, length_read]

theorem head?_bytes (hpos : 0 < tlv.size.toNat) : (tlv.bytes mem).head? = some (mem tlv.data) := by
  rw [HksAsn1Blob.bytes, ← Nat.sub_add_cancel hpos]
  rfl

theorem asn1Faithful_iff (hpos : 0 < tlv.size.toNat) :
    Asn1Faithful tlv.type (tlv.bytes mem) (asn1Inserted tlv.type (tlv.bytes mem)) ↔ tlv.KeepsZeros mem := by
  rw [Asn1Faithful, asn1Inserted, asn1Content, HksAsn1Blob.KeepsZeros]
  by_cases hbit : tlv.type = Asn1Tag.bitStr
  case pos => simp [hbit]
  case neg =>
    by_cases hint : tlv.type = Asn1Tag.int
    case pos =>
      have hstripped : tlv.type ≠ Asn1Tag.octStr ∧ tlv.type ≠ Asn1Tag.bitStr := by
        rw [hint]
        decide
      rw [if_neg hbit, if_pos hint, if_neg hbit, if_pos hint, if_pos hstripped]
      have hne := @bytes_ne_nil mem _ hpos
      exact iff_of_true ⟨twosComplement_derInteger hne, derInteger_isShortest hne⟩ (.inl hint)
    case neg =>
      by_cases hoct : tlv.type = Asn1Tag.octStr
      case pos => simp [hoct, Asn1Tag.octStr, Asn1Tag.bitStr, Asn1Tag.int]
      case neg =>
        have hsize : tlv.size ≤ 1 ↔ tlv.size.toNat ≤ 1 := UInt32.le_iff_toNat_le
        rw [if_neg hbit, if_neg hint, if_neg hbit, if_neg hint, if_pos ⟨hoct, hbit⟩,
          stripZeros_eq_self_iff, head?_bytes hpos, HksAsn1Blob.bytes, length_read, ne_eq,
          Option.some.injEq, hsize]
        simp only [hbit, hint, hoct, false_or, ne_eq]

theorem asn1Sound_iff (htype : tlv.type < 256)
    (h : (dcmAsn1InsertValue buf obj tlv).run mem = .ok (buf', o) mem') :
    (∃ content, Asn1Sound mem' buf buf' tlv.type (tlv.bytes mem) content o) ↔
      obj = false ∧ tlv.KeepsZeros mem := by
  have htype : tlv.type.toNat < 256 := htype
  have hraw : tlv.type ≠ Asn1Tag.raw := fun h => by
    rw [h] at htype
    exact absurd htype (by decide)
  have htag : tlv.type.toUInt8.toUInt32 = tlv.type := by
    apply UInt32.toNat.inj
    simp
    omega
  have ⟨hne, hpos, hmax, hw, hsome, hobj⟩ := dcmAsn1InsertValue_written hraw h
  have ⟨hcpos, hcle⟩ := length_asn1Inserted tlv.type (@bytes_ne_nil mem _ hpos)
  have hcle : (asn1Inserted tlv.type (tlv.bytes mem)).length < 0x10000 := by
    rw [HksAsn1Blob.bytes, length_read] at hcle
    rw [HksAsn1Blob.bytes]
    omega
  have hfaithful := @asn1Faithful_iff mem _ hpos
  have hholds := hw.holds
  have hdata := hw.data
  simp only [asn1Bytes] at hholds hdata
  generalize asn1Inserted tlv.type (tlv.bytes mem) = content at *
  have ⟨hlow, hlt⟩ := length_derTlv tlv.type.toUInt8 hcle
  have hn : buf'.data - buf.data = (derTlv tlv.type.toUInt8 content).length := by omega
  have hsize : (buf'.data - buf.data).toUInt32.toNat = (derTlv tlv.type.toUInt8 content).length := by
    rw [hn]
    exact UInt32.toNat_ofNat_of_lt' (Nat.lt_trans hlt (by decide))
  have ⟨next, parsed, hextract, hnext, hnext', hheader, hvtype, hvalue⟩ :=
    @dcmAsn1ExtractTag_holds _ ⟨(buf'.data - buf.data).toUInt32, buf.data⟩ _ _ hne hcpos hcle hholds
      (Nat.le_of_eq hsize.symm)
  rw [htag] at hextract hheader hvtype
  have hnext : next = ⟨0, buf'.data⟩ := by
    have hzero : next.size = 0 := UInt32.toNat.inj (by rw [hnext, hsize, Nat.sub_self]; rfl)
    rw [← hzero, hdata]
    exact congrArg (HksBlob.mk next.size) hnext'
  rw [hnext] at hextract
  constructor
  case mp =>
    intro ⟨content', hs⟩
    have ⟨parsed', hextract', _, hvalue'⟩ := hs.extract
    cases hextract.symm.trans hextract'
    rw [hvalue.symm.trans hvalue'] at hfaithful
    refine ⟨?_, hfaithful.mp hs.faithful⟩
    match o, obj, hsome with
    | none, false, _     => rfl
    | some described, true, _ =>
      -- the object is described only after `buf` has moved on
      have hmoved := hobj described rfl
      rw [(hs.filled described rfl).header] at hmoved
      omega
  case mpr =>
    intro ⟨hnull, hkeeps⟩
    refine ⟨content, ?_, ⟨parsed, hextract, by rw [hheader], hvalue⟩, hfaithful.mpr hkeeps, ?_⟩
    · rw [hn, hholds]
    · match o, hnull ▸ hsome with
      | none, _ => exact fun _ h => nomatch h

-- An octet string with a description, and a UTF8 string with a leading zero.
theorem asn1Sound_fails :
    (∃ mem' buf' o, (dcmAsn1InsertValue ⟨16, 0x10⟩ true ⟨Asn1Tag.octStr, 1, 0x100⟩).run (fun _ => 0x41) =
        .ok (buf', o) mem' ∧
      ¬∃ content, Asn1Sound mem' ⟨16, 0x10⟩ buf' Asn1Tag.octStr [0x41] content o) ∧
    (∃ mem' buf' o, (dcmAsn1InsertValue ⟨16, 0x10⟩ false ⟨0x0C, 2, 0x100⟩).run
        (fun i => if i = 0x100 then 0 else 0x41) = .ok (buf', o) mem' ∧
      ¬∃ content, Asn1Sound mem' ⟨16, 0x10⟩ buf' 0x0C [0, 0x41] content o) := by
  constructor
  · obtain ⟨mem', buf', o, hrun⟩ : ∃ mem' buf' o, (dcmAsn1InsertValue ⟨16, 0x10⟩ true
      ⟨Asn1Tag.octStr, 1, 0x100⟩).run (fun _ => 0x41) = .ok (buf', o) mem' := ⟨_, _, _, rfl⟩
    refine ⟨mem', buf', o, hrun, fun hs => ?_⟩
    exact absurd ((asn1Sound_iff (by decide) hrun).mp hs).1 (by decide)
  · obtain ⟨mem', buf', o, hrun⟩ : ∃ mem' buf' o, (dcmAsn1InsertValue ⟨16, 0x10⟩ false
      ⟨0x0C, 2, 0x100⟩).run (fun i => if i = 0x100 then 0 else 0x41) = .ok (buf', o) mem' :=
        ⟨_, _, _, rfl⟩
    refine ⟨mem', buf', o, hrun, fun hs => ?_⟩
    have hkeeps := ((asn1Sound_iff (by decide) hrun).mp hs).2
    revert hkeeps
    decide

-- The bytes written are right unless they lose zeros, but no description of them is.
theorem dcmAsn1InsertValue_exact (mem mem' : ByteMemory) (buf buf' : HksBlob) (obj : Bool)
    (tlv : HksAsn1Blob) (o : Option HksAsn1Obj) (htype : tlv.type < 256)
    (h : (dcmAsn1InsertValue buf obj tlv).run mem = .ok (buf', o) mem') :
    (∃ content, Asn1Sound mem' buf buf' tlv.type (tlv.bytes mem) content o) ↔
      obj = false ∧ tlv.KeepsZeros mem :=
  asn1Sound_iff htype h

theorem dcmAsn1InsertValue_exact_octStr : ∃ mem' buf' o content,
    Asn1Sound mem' ⟨16, 0x10⟩ buf' Asn1Tag.octStr [0x41] content o := by
  obtain ⟨mem', buf', o, hrun⟩ : ∃ mem' buf' o, (dcmAsn1InsertValue ⟨16, 0x10⟩ false
    ⟨Asn1Tag.octStr, 1, 0x100⟩).run (fun _ => 0x41) = .ok (buf', o) mem' := ⟨_, _, _, rfl⟩
  exact ⟨mem', buf', o,
    (dcmAsn1InsertValue_exact _ _ _ _ _ _ _ (by decide) hrun).mpr ⟨rfl, .inr (.inr (.inl rfl))⟩⟩

end Codec

end Huks
