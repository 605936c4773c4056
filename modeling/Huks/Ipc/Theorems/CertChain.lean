import Huks.Ipc.CertChain
import Huks.Ipc.Serialization
import Huks.Common.Theorems.Words
import Huks.Lib.Base64

namespace Huks.InPlace

open EStateM OutBuffer
open Base64 (symbol number pad)

variable {srcData : Bytes} {srcDataSize i j : UInt32} {s : OutBuffer} {rest : Bytes}

-- The four symbols of a group
def symbols (n : Nat) : Bytes := [symbol (n / 262144), symbol (n / 4096), symbol (n / 64), symbol n]

-- What the loop writes: the last group too has four symbols.
def groups : Bytes → Bytes
  | a :: b :: c :: bytes => symbols (number a b c) ++ groups bytes
  | [a, b]               => symbols (number a b 0)
  | [a]                  => symbols (number a 0 0)
  | []                   => []

theorem groups_cons (a b c : UInt8) (bytes : Bytes) :
    groups (a :: b :: c :: bytes) = symbols (number a b c) ++ groups bytes := rfl

theorem encode_cons (a b c : UInt8) (bytes : Bytes) :
    Base64.encode (a :: b :: c :: bytes) = symbols (number a b c) ++ Base64.encode bytes := rfl

theorem groups_eq (h : rest ≠ []) :
    groups rest = symbols (number (rest.getD 0 0) (rest.getD 1 0) (rest.getD 2 0)) ++ groups (rest.drop 3) := by
  match rest, h with
  | _ :: _ :: _ :: _, _ => rfl
  | [_, _], _           => rfl
  | [_], _              => rfl

theorem length_groups (bytes : Bytes) : (groups bytes).length = 4 * ((bytes.length + 2) / 3) := by
  induction bytes using groups.induct
  case case1 a b c bytes ih =>
    simp only [groups_cons, symbols, List.length_append, List.length_cons, List.length_nil, ih]
    omega
  case case2 => simp [groups, symbols]
  case case3 => simp [groups, symbols]
  case case4 => rfl

theorem splice_append_front {front m : Bytes} {k : Nat} :
    splice (front ++ rest) (front.length + k) m = front ++ splice rest k m := by
  rw [splice, splice, List.take_length_add_append, Nat.add_assoc, List.drop_length_add_append, List.append_assoc,
    List.append_assoc, List.append_assoc]

-- The padding

theorem encode_whole {bytes : Bytes} (h : bytes.length % 3 = 0) : Base64.encode bytes = groups bytes := by
  induction bytes using groups.induct
  case case1 a b c bytes ih =>
    simp only [List.length_cons] at h
    rw [encode_cons, groups_cons, ih (by omega)]
  case case2 => simp at h
  case case3 => simp at h
  case case4 => rfl

theorem encode_two {bytes : Bytes} (h : bytes.length % 3 = 2) :
    Base64.encode bytes = splice (groups bytes) ((groups bytes).length - 1) [pad] := by
  induction bytes using groups.induct
  case case1 a b c bytes ih =>
    simp only [List.length_cons] at h
    have hlen := length_groups bytes
    have hplace : (symbols (number a b c) ++ groups bytes).length - 1 =
        (symbols (number a b c)).length + ((groups bytes).length - 1) := by
      rw [List.length_append]
      omega
    rw [encode_cons, groups_cons, hplace, splice_append_front, ih (by omega)]
  case case2 => rfl
  case case3 => simp at h
  case case4 => simp at h

theorem encode_one {bytes : Bytes} (h : bytes.length % 3 = 1) : Base64.encode bytes =
    splice (splice (groups bytes) ((groups bytes).length - 1) [pad]) ((groups bytes).length - 2) [pad] := by
  induction bytes using groups.induct
  case case1 a b c bytes ih =>
    simp only [List.length_cons] at h
    have hlen := length_groups bytes
    have hplace : (symbols (number a b c) ++ groups bytes).length - 1 =
        (symbols (number a b c)).length + ((groups bytes).length - 1) := by
      rw [List.length_append]
      omega
    have hplace' : (symbols (number a b c) ++ groups bytes).length - 2 =
        (symbols (number a b c)).length + ((groups bytes).length - 2) := by
      rw [List.length_append]
      omega
    rw [encode_cons, groups_cons, hplace, hplace', splice_append_front, splice_append_front, ih (by omega)]
  case case2 => simp at h
  case case3 => rfl
  case case4 => simp at h

-- The arithmetic of a group

theorem base64Symbol_eq (n : UInt32) : base64Symbol n = .ok (symbol n.toNat) := by
  have hand : (n &&& 0b00111111).toNat = n.toNat % 64 := by
    rw [UInt32.toNat_and]
    exact Nat.and_two_pow_sub_one_eq_mod n.toNat 6
  have hlen : n.toNat % 64 < base64Table.length := by
    rw [show base64Table.length = 64 from Base64.length_alphabet]
    exact Nat.mod_lt _ (by decide)
  rw [base64Symbol, hand, elemAt_eq hlen]
  exact congrArg _ (List.getElem_eq_getD 0)

theorem toNat_group (a b c : UInt8) :
    ((a.toUInt32 <<< 16) + (b.toUInt32 <<< 8) + c.toUInt32).toNat = number a b c := by
  have ha : a.toNat < 256 := a.toNat_lt
  have hb : b.toNat < 256 := b.toNat_lt
  have hc : c.toNat < 256 := c.toNat_lt
  simp only [UInt32.toNat_add, UInt32.toNat_shiftLeft, UInt8.toNat_toUInt32, Nat.shiftLeft_eq, number]
  simp
  omega

-- The loop reads the bytes that are left.
theorem base64Input_eq (hsrc : srcDataSize.toNat ≤ srcData.length) {k : UInt32}
    (hk : i.toNat + k.toNat < UInt32.size) : base64Input srcData srcDataSize (i + k) =
      .ok (((srcData.take srcDataSize.toNat).drop i.toNat).getD k.toNat 0).toUInt32 := by
  have hadd : (i + k).toNat = i.toNat + k.toNat := toNat_add_of_lt hk
  have hiff : i + k < srcDataSize ↔ i.toNat + k.toNat < srcDataSize.toNat := by rw [UInt32.lt_iff_toNat_lt, hadd]
  rw [base64Input, hadd, List.getD_eq_getElem?_getD, List.getElem?_drop]
  by_cases hlt : i.toNat + k.toNat < srcDataSize.toNat
  case pos =>
    rw [if_pos (hiff.mpr hlt), elemAt_eq (by omega), List.getElem?_take_of_lt hlt, List.getElem?_eq_getElem (by omega)]
    rfl
  case neg =>
    rw [if_neg (mt hiff.mp hlt), List.getElem?_eq_none (by rw [List.length_take]; omega)]
    rfl

theorem writeSymbols_run {outData : Nat} {n : UInt32} {r : OutM HksErrorCode PUnit} {s' : OutBuffer}
    (hsmall : j.toNat + 4 < UInt32.size) (hroom : outData + j.toNat + 4 ≤ s.room.length)
    (hrest : r.run { s with room := splice s.room (outData + j.toNat) (symbols n.toNat) } = .ok ⟨⟩ s') :
    (do writeAt (outData + j.toNat) [← reading (base64Symbol (n >>> 18))]
        writeAt (outData + (j + 1).toNat) [← reading (base64Symbol (n >>> 12))]
        writeAt (outData + (j + 2).toNat) [← reading (base64Symbol (n >>> 6))]
        writeAt (outData + (j + 3).toNat) [← reading (base64Symbol n)]
        r).run s = .ok ⟨⟩ s' := by
  have h1 : (j + 1).toNat = j.toNat + 1 := toNat_add_of_lt (by change _ + 1 < _; omega)
  have h2 : (j + 2).toNat = j.toNat + 2 := toNat_add_of_lt (by change _ + 2 < _; omega)
  have h3 : (j + 3).toNat = j.toNat + 3 := toNat_add_of_lt (by change _ + 3 < _; omega)
  have h18 : (n >>> 18).toNat = n.toNat / 262144 := by simp [Nat.shiftRight_eq_div_pow]
  have h12 : (n >>> 12).toNat = n.toNat / 4096 := by simp [Nat.shiftRight_eq_div_pow]
  have h6 : (n >>> 6).toNat = n.toNat / 64 := by simp [Nat.shiftRight_eq_div_pow]
  generalize h : outData + j.toNat = at' at hroom hrest ⊢
  have hwrite2 (x y : UInt8) : (writeAt (at' + 1) [y] : OutM HksErrorCode PUnit).run
      { s with room := splice s.room at' [x] } = .ok ⟨⟩ { s with room := splice s.room at' [x, y] } :=
    writeAt_behind rfl (by rw [List.length_singleton]; omega)
  have hwrite3 (x y z : UInt8) : (writeAt (at' + 2) [z] : OutM HksErrorCode PUnit).run
      { s with room := splice s.room at' [x, y] } = .ok ⟨⟩ { s with room := splice s.room at' [x, y, z] } :=
    writeAt_behind rfl (by rw [List.length_singleton]; omega)
  have hwrite4 (w x y z : UInt8) : (writeAt (at' + 3) [z] : OutM HksErrorCode PUnit).run
      { s with room := splice s.room at' [w, x, y] } = .ok ⟨⟩ { s with room := splice s.room at' [w, x, y, z] } :=
    writeAt_behind rfl (by rw [List.length_singleton]; omega)
  simp only [base64Symbol_eq, reading_ok_bind, h18, h12, h6, h1, h2, h3, ← Nat.add_assoc, h]
  rw [run_bind, writeAt_run (.inr (by rw [List.length_singleton]; omega))]
  dsimp only
  rw [run_bind, hwrite2]
  dsimp only
  rw [run_bind, hwrite3]
  dsimp only
  rw [run_bind, hwrite4]
  exact hrest

theorem base64Groups_run (outData : Nat) {n : Nat} (hsrc : srcDataSize.toNat ≤ srcData.length)
    (hsize : srcDataSize.toNat + 2 < UInt32.size) (hi : i.toNat ≤ srcDataSize.toNat + 2)
    (hrest : (srcData.take srcDataSize.toNat).drop i.toNat = rest) (hn : rest.length ≤ n)
    (hj : j.toNat + (groups rest).length < UInt32.size)
    (hroom : outData + j.toNat + (groups rest).length ≤ s.room.length) :
    (base64Groups srcData srcDataSize outData n i j).run s =
      .ok ⟨⟩ { s with room := splice s.room (outData + j.toNat) (groups rest) } := by
  induction n generalizing i j s rest
  case zero =>
    obtain rfl := List.eq_nil_of_length_eq_zero (Nat.le_zero.mp hn)
    rw [groups, splice_nil]
    rfl
  case succ n ih =>
    have hlen : rest.length = srcDataSize.toNat - i.toNat := by
      rw [← hrest, List.length_drop, List.length_take]
      omega
    rw [base64Groups]
    by_cases hlt : i < srcDataSize
    case neg =>
      have hge := Nat.le_of_not_lt fun h => hlt (UInt32.lt_iff_toNat_lt.mpr h)
      obtain rfl := List.eq_nil_of_length_eq_zero (hlen.trans (by omega))
      rw [if_neg hlt, groups, splice_nil]
      rfl
    case pos =>
      have hlt' := UInt32.lt_iff_toNat_lt.mp hlt
      have hne : rest ≠ [] := List.ne_nil_of_length_pos (by omega)
      have hgroups := groups_eq hne
      have ha : base64Input srcData srcDataSize i = .ok (rest.getD 0 0).toUInt32 := by
        have h := base64Input_eq hsrc (i := i) (k := 0) (by change _ + 0 < _; omega)
        rwa [UInt32.add_zero, hrest] at h
      have hb : base64Input srcData srcDataSize (i + 1) = .ok (rest.getD 1 0).toUInt32 :=
        hrest ▸ base64Input_eq hsrc (by change _ + 1 < _; omega)
      have hc : base64Input srcData srcDataSize (i + 2) = .ok (rest.getD 2 0).toUInt32 :=
        hrest ▸ base64Input_eq hsrc (by change _ + 2 < _; omega)
      have hsym (n : Nat) : (symbols n).length = 4 := rfl
      have hlen4 : (groups rest).length = 4 + (groups (rest.drop 3)).length := by
        rw [hgroups, List.length_append, hsym]
      have hnext : (j + 4).toNat = j.toNat + 4 := toNat_add_of_lt (by change _ + 4 < _; omega)
      have hi3 : (i + 3).toNat = i.toNat + 3 := toNat_add_of_lt (by change _ + 3 < _; omega)
      rw [if_pos hlt]
      simp only [ha, hb, hc, reading_ok_bind]
      generalize rest.getD 0 0 = a, rest.getD 1 0 = b, rest.getD 2 0 = c at hgroups ⊢
      refine writeSymbols_run (by omega) (by omega) ?_
      rw [toNat_group]
      have hdrop : (srcData.take srcDataSize.toNat).drop (i + 3).toNat = rest.drop 3 := by
        rw [hi3, ← hrest, List.drop_drop]
      have hroom' : (splice s.room (outData + j.toNat) (symbols (number a b c))).length = s.room.length :=
        length_splice (by rw [hsym]; omega)
      rw [ih (by omega) hdrop (by rw [List.length_drop]; omega) (by omega) (by dsimp only; rw [hroom']; omega)]
      dsimp only
      rw [hnext, ← Nat.add_assoc, hgroups]
      have happend := @splice_append _ s.room (symbols (number a b c)) (outData + j.toNat) (groups (rest.drop 3))
        (by rw [hsym]; omega)
      rw [hsym] at happend
      rw [happend]

theorem base64Encode_run {outData : Nat} {outDataSize : UInt32} {cert : Bytes}
    (hsrc : srcDataSize.toNat ≤ srcData.length) (hcert : srcData.take srcDataSize.toNat = cert)
    (hsize : srcDataSize.toNat + 2 < UInt32.size) (hout : outDataSize.toNat = (groups cert).length)
    (hroom : outData + (groups cert).length ≤ s.room.length) :
    (base64Encode srcData srcDataSize outData outDataSize).run s =
      .ok ⟨⟩ { s with room := splice s.room outData (Base64.encode cert) } := by
  have hlen : cert.length = srcDataSize.toNat := by
    rw [← hcert, List.length_take, Nat.min_eq_left hsrc]
  have hgroups := length_groups cert
  have hrun := base64Groups_run (i := 0) (j := 0) (s := s) outData hsrc hsize (Nat.zero_le _) hcert
    (Nat.le_of_eq hlen) (by rw [← hout]; exact (Nat.zero_add _).symm ▸ outDataSize.toNat_lt) hroom
  have hpadding : (srcDataSize % 3).toNat = cert.length % 3 := by
    rw [UInt32.toNat_mod, hlen]
    rfl
  have hpadded {n : UInt32} : srcDataSize % 3 = n ↔ cert.length % 3 = n.toNat := by
    rw [← UInt32.toNat_inj, hpadding]
  rw [UInt32.toNat_zero, Nat.add_zero] at hrun
  rw [base64Encode, run_bind, hrun]
  dsimp only
  by_cases hzero : srcDataSize % 3 = 0
  case pos =>
    rw [if_pos hzero, encode_whole (hpadded.mp hzero)]
    rfl
  case neg =>
    have hpos : 0 < cert.length := by
      have := mt hpadded.mpr hzero
      rw [UInt32.toNat_zero] at this
      omega
    have h1 : (outDataSize - 1).toNat = (groups cert).length - 1 := by
      rw [UInt32.toNat_sub_of_le _ _ (UInt32.le_iff_toNat_le.mpr (by change 1 ≤ _; omega)), hout]
      rfl
    have h2 : (outDataSize - 2).toNat = (groups cert).length - 2 := by
      rw [UInt32.toNat_sub_of_le _ _ (UInt32.le_iff_toNat_le.mpr (by change 2 ≤ _; omega)), hout]
      rfl
    have hlast : (splice (groups cert) ((groups cert).length - 1) [pad]).length = (groups cert).length :=
      length_splice (by rw [List.length_singleton]; omega)
    have hpad : '='.toUInt8 = pad := rfl
    rw [if_neg hzero, run_bind, h1, h2, hpad, writeAt_within hroom (by rw [List.length_singleton]; omega)]
    dsimp only
    by_cases hone : srcDataSize % 3 = 1
    case pos =>
      rw [if_pos hone, writeAt_within (by rw [hlast]; exact hroom) (by rw [List.length_singleton]; omega),
        encode_one (hpadded.mp hone)]
    case neg =>
      have htwo : cert.length % 3 = 2 := by
        have hzero := mt hpadded.mpr hzero
        have hone := mt hpadded.mpr hone
        change ¬cert.length % 3 = 0 at hzero
        change ¬cert.length % 3 = 1 at hone
        omega
      rw [if_neg hone, encode_two htwo]
      rfl

-- The size is exact.
theorem checkAndCalculateSize_ok {inSize extraSize outSize : UInt32}
    (h : checkAndCalculateSize inSize extraSize = .ok outSize) :
    inSize.toNat + 2 < UInt32.size ∧ outSize.toNat = 4 * ((inSize.toNat + 2) / 3) + extraSize.toNat := by
  have hextra : extraSize.toNat < UInt32.size := extraSize.toNat_lt
  rw [checkAndCalculateSize] at h
  by_cases h1 : inSize > 0xffffffff - 2
  case pos =>
    rw [if_pos h1] at h
    cases h
  rw [if_neg h1] at h
  have hin : inSize.toNat ≤ 0xffffffff - 2 := Nat.le_of_not_lt fun hlt => h1 (UInt32.lt_iff_toNat_lt.mpr hlt)
  have hdiv : ((inSize + 2) / 3).toNat = (inSize.toNat + 2) / 3 := by
    rw [UInt32.toNat_div, toNat_add_of_lt (by change _ + 2 < _; rw [UInt32.size]; omega)]
    rfl
  by_cases h2 : (inSize + 2) / 3 > 0xffffffff / 4
  case pos =>
    rw [if_pos h2] at h
    cases h
  rw [if_neg h2] at h
  have hfour : (inSize.toNat + 2) / 3 ≤ 0xffffffff / 4 :=
    hdiv ▸ Nat.le_of_not_lt fun hlt => h2 (UInt32.lt_iff_toNat_lt.mpr hlt)
  have hmul : ((inSize + 2) / 3 * 4).toNat = 4 * ((inSize.toNat + 2) / 3) := by
    rw [UInt32.toNat_mul, hdiv, Nat.mul_comm]
    exact Nat.mod_eq_of_lt (by change 4 * _ < UInt32.size; rw [UInt32.size]; omega)
  by_cases h3 : (inSize + 2) / 3 * 4 > 0xffffffff - extraSize
  case pos =>
    rw [if_pos h3] at h
    cases h
  rw [if_neg h3] at h
  have hleft : (0xffffffff - extraSize).toNat = 0xffffffff - extraSize.toNat :=
    UInt32.toNat_sub_of_le _ _ (UInt32.le_iff_toNat_le.mpr
      (by change _ ≤ 0xffffffff; rw [UInt32.size] at hextra; omega))
  have hfits : 4 * ((inSize.toNat + 2) / 3) ≤ 0xffffffff - extraSize.toNat :=
    hmul ▸ hleft ▸ Nat.le_of_not_lt fun hlt => h3 (UInt32.lt_iff_toNat_lt.mpr hlt)
  cases h
  rw [UInt32.size] at *
  exact ⟨by omega, by rw [toNat_add_of_lt (by rw [hmul, UInt32.size]; omega), hmul]⟩

theorem checkAndCalculateSize_fits (inSize extraSize : UInt32)
    (h : 4 * ((inSize.toNat + 2) / 3) + extraSize.toNat < UInt32.size) :
    ∃ outSize, checkAndCalculateSize inSize extraSize = .ok outSize := by
  rw [UInt32.size] at h
  have hin : inSize.toNat + 2 < UInt32.size := by rw [UInt32.size]; omega
  have hdiv : ((inSize + 2) / 3).toNat = (inSize.toNat + 2) / 3 := by
    rw [UInt32.toNat_div, toNat_add_of_lt hin]
    rfl
  have hmul : ((inSize + 2) / 3 * 4).toNat = 4 * ((inSize.toNat + 2) / 3) := by
    rw [UInt32.toNat_mul, hdiv, Nat.mul_comm]
    exact Nat.mod_eq_of_lt (by change 4 * _ < UInt32.size; rw [UInt32.size]; omega)
  have hleft : (0xffffffff - extraSize).toNat = 0xffffffff - extraSize.toNat :=
    UInt32.toNat_sub_of_le _ _ (UInt32.le_iff_toNat_le.mpr (by change _ ≤ 0xffffffff; omega))
  have h1 : ¬inSize > 0xffffffff - 2 := by
    rw [gt_iff_lt, UInt32.lt_iff_toNat_lt]
    change ¬0xffffffff - 2 < inSize.toNat
    rw [UInt32.size] at hin
    omega
  have h2 : ¬(inSize + 2) / 3 > 0xffffffff / 4 := by
    rw [gt_iff_lt, UInt32.lt_iff_toNat_lt, hdiv]
    change ¬0xffffffff / 4 < _
    omega
  have h3 : ¬(inSize + 2) / 3 * 4 > 0xffffffff - extraSize := by
    rw [gt_iff_lt, UInt32.lt_iff_toNat_lt, hmul, hleft]
    omega
  exact ⟨_, by rw [checkAndCalculateSize, if_neg h1, if_neg h2, if_neg h3]⟩

-- The text of a certificate
def pem (cert : Bytes) : Bytes := certBegin ++ Base64.encode cert ++ certEnd

theorem length_certBegin : certBegin.length = 28 := by rfl

theorem length_certEnd : certEnd.length = 26 := by rfl

theorem toNat_beginLen : beginLen.toNat = certBegin.length := by
  rw [beginLen, length_certBegin]
  rfl

theorem toNat_endLen : endLen.toNat = certEnd.length := by
  rw [endLen, length_certEnd]
  rfl

theorem length_pem (cert : Bytes) : (pem cert).length = 4 * ((cert.length + 2) / 3) + 54 := by
  rw [pem, List.length_append, List.length_append, Base64.length_encode, length_certBegin, length_certEnd]
  omega

theorem encodeCert_run {inData cert : Bytes} {inSize tmpSize : UInt32} (size : UInt32)
    (hin : inSize.toNat ≤ inData.length) (hcert : inData.take inSize.toNat = cert)
    (hsize : inSize.toNat + 2 < UInt32.size)
    (htmp : tmpSize.toNat = (pem cert).length) (hmax : tmpSize.toNat ≤ 0x800000) :
    (encodeCert inData inSize tmpSize).run ⟨.replicate tmpSize.toNat 0, size⟩ = .ok ⟨⟩ ⟨pem cert, size⟩ := by
  have hlen := length_pem cert
  have hgroups := length_groups cert
  have hb := length_certBegin
  have he := length_certEnd
  have hmid : (tmpSize - endLen).toNat = certBegin.length + (groups cert).length := by
    rw [UInt32.toNat_sub_of_le _ _ (UInt32.le_iff_toNat_le.mpr (by rw [toNat_endLen]; omega)), toNat_endLen]
    omega
  have hout : (tmpSize - beginLen - endLen).toNat = (groups cert).length := by
    have hsub : (tmpSize - beginLen).toNat = tmpSize.toNat - certBegin.length := by
      rw [UInt32.toNat_sub_of_le _ _ (UInt32.le_iff_toNat_le.mpr (by rw [toNat_beginLen]; omega)), toNat_beginLen]
    rw [UInt32.toNat_sub_of_le _ _ (UInt32.le_iff_toNat_le.mpr (by rw [toNat_endLen]; omega)), toNat_endLen, hsub]
    omega
  -- The block as it fills up
  have hfirst : splice (.replicate tmpSize.toNat 0) 0 certBegin =
      certBegin ++ .replicate (groups cert).length 0 ++ .replicate certEnd.length 0 := by
    rw [List.append_assoc, List.replicate_append_replicate, splice, List.take_zero, List.nil_append,
      List.drop_replicate]
    congr 2
    omega
  have hlast : splice (certBegin ++ .replicate (groups cert).length 0 ++ .replicate certEnd.length 0)
      (certBegin.length + (groups cert).length) certEnd = certBegin ++
        .replicate (groups cert).length 0 ++ certEnd := by
    have h := @splice_middle _ (certBegin ++ .replicate (groups cert).length 0) (.replicate certEnd.length 0) certEnd []
      List.length_replicate.symm
    rwa [List.append_nil, List.append_nil, List.length_append, List.length_replicate] at h
  have hbetween : splice (certBegin ++ .replicate (groups cert).length 0 ++ certEnd) certBegin.length
      (Base64.encode cert) = pem cert :=
    splice_middle (by rw [List.length_replicate, hgroups, Base64.length_encode])
  have hfilled : (certBegin ++ List.replicate (groups cert).length (0 : UInt8) ++ .replicate certEnd.length 0).length =
      (pem cert).length := by
    rw [List.length_append, List.length_append, List.length_replicate, List.length_replicate]
    omega
  rw [encodeCert, run_bind, memcpyInto_run (by rw [secureMemMaxLen]; omega) (by omega)
    (.inr (by dsimp only; rw [List.length_replicate]; omega)), hfirst]
  dsimp only
  rw [if_neg (by decide), run_bind, toNat_endLen, hmid, memcpyInto_run (by rw [secureMemMaxLen]; omega)
    (Nat.le_refl _) (.inr (by dsimp only; omega)), hlast]
  dsimp only
  rw [if_neg (by decide), base64Encode_run hin hcert hsize hout, toNat_beginLen, hbetween]
  rw [toNat_beginLen, List.length_append, List.length_append, List.length_replicate]
  omega

-- What `EncodeCertChain` leaves of a certificate in the output buffer.
structure Encoded (cert : Bytes) (s t : OutBuffer) : Prop where
  room    : t.room = pem cert ++ s.room.drop (pem cert).length
  size    : t.size.toNat = (pem cert).length
  counted : checkAndCalculateSize cert.length.toUInt32 (beginLen + endLen) = .ok t.size
  decodes : Base64.decode (slice t.room certBegin.length (t.size.toNat - certBegin.length - certEnd.length)) = some cert

theorem decode_pem (cert rest : Bytes) : Base64.decode (slice (pem cert ++ rest) certBegin.length
    ((pem cert).length - certBegin.length - certEnd.length)) = some cert := by
  have hlen : (pem cert).length - certBegin.length - certEnd.length = (Base64.encode cert).length := by
    simp only [pem, List.length_append]
    omega
  rw [hlen, slice, pem, List.append_assoc, List.append_assoc, List.drop_left, List.take_left, Base64.decode_encode]

theorem encodeCertChain_contained (dest : Destination) {inData : Option Bytes} {inSize : UInt32} {cert : Bytes}
    (hin : inSize.toNat ≤ (inData.getD dest.out.room).length)
    (hcert : (inData.getD dest.out.room).take inSize.toNat = cert) :
    Contained (fun _ t => Encoded cert dest.out t) (encodeCertChain inData inSize) dest.out := by
  have hlen : cert.length = inSize.toNat := by
    rw [← hcert, List.length_take, Nat.min_eq_left hin]
  rw [encodeCertChain, contained_bind, contained_reading, confined_checked]
  intro tmpSize htmp
  rw [contained_ite]
  refine ⟨fun _ => contained_refuse _, fun hm => ?_⟩
  have hmalloc := mallocOk_iff.mp (not_not.mp hm)
  obtain ⟨hsize, hvalue⟩ := checkAndCalculateSize_ok htmp
  have hpem : tmpSize.toNat = (pem cert).length := by
    rw [hvalue, length_pem, hlen]
    rfl
  have hrun := encodeCert_run (List.replicate tmpSize.toNat (0 : UInt8)).length.toUInt32
    hin hcert hsize hpem hmalloc.2
  rw [contained_bind, contained_get, contained_bind, contained_onBlock, Contained, hrun]
  dsimp only
  rw [contained_bind, contained_get, contained_bind]
  refine contained_memcpyInto_room dest.room (fun _ => ?_) fun t _ _ => ?_
  · rw [if_neg (by decide), contained_setSize]
    have hroom : splice dest.out.room 0 (pem cert) = pem cert ++ dest.out.room.drop (pem cert).length := by
      rw [splice, List.take_zero, List.nil_append, Nat.zero_add]
    have hcounted : cert.length.toUInt32 = inSize := by
      rw [hlen]
      exact UInt32.ofNat_toNat
    exact ⟨hroom, hpem, hcounted ▸ htmp, by
      dsimp only
      rw [hpem, hroom, decode_pem]⟩
  · rw [if_pos (by decide)]
    exact contained_refuse _

-- Where the buffers are large enough there is a text.
theorem encodeCertChain_ok (dest : Destination) {inData : Option Bytes} {inSize : UInt32} (cert : Bytes)
    (hin : inSize.toNat ≤ (inData.getD dest.out.room).length)
    (hcert : (inData.getD dest.out.room).take inSize.toNat = cert) (hmalloc : (pem cert).length ≤ 0x800000)
    (hfits : (pem cert).length ≤ dest.out.size.toNat) (hmax : dest.out.size.toNat ≤ secureMemMaxLen) :
    ∃ t, (encodeCertChain inData inSize).run dest.out = .ok ⟨⟩ t := by
  have hlen : cert.length = inSize.toNat := by
    rw [← hcert, List.length_take, Nat.min_eq_left hin]
  have hpem := length_pem cert
  rw [hlen] at hpem
  have hextra : (beginLen + endLen).toNat = 54 := by
    rw [beginLen, endLen, length_certBegin, length_certEnd]
    rfl
  obtain ⟨tmpSize, htmp⟩ := checkAndCalculateSize_fits inSize (beginLen + endLen)
    (by rw [hextra, UInt32.size]; omega)
  obtain ⟨hsize, hvalue⟩ := checkAndCalculateSize_ok htmp
  rw [hextra, ← hpem] at hvalue
  have hrun := encodeCert_run (List.replicate tmpSize.toNat (0 : UInt8)).length.toUInt32
    hin hcert hsize hvalue (by omega)
  have hm : mallocOk tmpSize.toNat := decide_eq_true (by omega)
  have hroom := dest.room
  refine ⟨⟨splice dest.out.room 0 (pem cert), tmpSize⟩, ?_⟩
  rw [encodeCertChain, htmp]
  change (reading (.ok tmpSize) >>= _).run dest.out = _
  rw [reading_ok_bind, if_neg (not_not.mpr hm), run_bind, run_get]
  dsimp only
  rw [run_bind, onBlock_run hrun]
  dsimp only
  rw [run_bind, run_get]
  dsimp only
  rw [run_bind, memcpyInto_run (by omega) hfits (.inr (by omega))]
  rfl

-- A certificate, in a buffer of its own or at the front of the output buffer, becomes its text, or the
-- call is refused; nothing is written elsewhere. It is not refused where the text has its room.
theorem encodeCertChain_encodes (dest : Destination) :
    (∀ cert : Blob, Contained (fun _ t => Encoded cert.val dest.out t)
      (encodeCertChain (some cert.val) cert.size) dest.out) ∧
    (∀ inSize : UInt32, inSize ≤ dest.out.size → Contained
      (fun _ t => Encoded (dest.out.room.take inSize.toNat) dest.out t) (encodeCertChain none inSize) dest.out) ∧
    (∀ cert : Blob, (pem cert.val).length ≤ 0x800000 → (pem cert.val).length ≤ dest.out.size.toNat →
      dest.out.size.toNat ≤ secureMemMaxLen →
      (∃ t, (encodeCertChain (some cert.val) cert.size).run dest.out = .ok ⟨⟩ t) ∧
      (dest.out.room.take cert.val.length = cert.val →
        ∃ t, (encodeCertChain none cert.size).run dest.out = .ok ⟨⟩ t)) ∧
    ∀ inSize extraSize outSize : UInt32, checkAndCalculateSize inSize extraSize = .ok outSize →
      outSize.toNat = 4 * ((inSize.toNat + 2) / 3) + extraSize.toNat := by
  have hsize (cert : Blob) : cert.size.toNat = cert.val.length := Nat.mod_eq_of_lt cert.property
  have hin (cert : Blob) : cert.size.toNat ≤ cert.val.length := Nat.le_of_eq (hsize cert)
  have htake (cert : Blob) : cert.val.take cert.size.toNat = cert.val := by rw [hsize, List.take_length]
  refine ⟨fun cert => ?_, fun inSize hle => ?_, fun cert hmalloc hfits hmax => ⟨?_, fun hfront => ?_⟩,
    fun _ _ _ h => (checkAndCalculateSize_ok h).2⟩
  · exact encodeCertChain_contained dest (hin cert) (htake cert)
  · exact encodeCertChain_contained dest (dest.room ▸ UInt32.le_iff_toNat_le.mp hle) rfl
  · exact encodeCertChain_ok dest _ (hin cert) (htake cert) hmalloc hfits hmax
  · have hle := length_pem cert.val
    refine encodeCertChain_ok dest cert.val ?_ ?_ hmalloc hfits hmax
    · rw [Option.getD_none, dest.room, hsize]
      omega
    · rw [Option.getD_none, hsize, hfront]

end Huks.InPlace
