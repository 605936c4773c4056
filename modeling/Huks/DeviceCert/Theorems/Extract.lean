import Huks.Common.Theorems.Words
import Huks.DeviceCert.Extract
import Huks.Lib.Triple

namespace Huks.InPlace

open EStateM

variable {input : Input} {data next : HksBlob} {obj : HksAsn1Obj} {a n : Nat} {tag : UInt32}

-- The range lies inside the input.
def Within (input : Input) (blob : HksBlob) : Prop :=
  input.base ≤ blob.data ∧ blob.data + blob.size.toNat ≤ input.base + input.bytes.length

-- What a variable holds that a successful call has set, or none
def Sound (input : Input) (blob : HksBlob) : Prop := blob = ⟨0, 0⟩ ∨ Within input blob

-- Header, value and the rest are side by side, and they are all of the data.
structure Partition (data next : HksBlob) (obj : HksAsn1Obj) : Prop where
  header : obj.header.data = data.data
  value  : obj.value.data = obj.header.data + obj.header.size.toNat
  rest   : next.data = obj.value.data + obj.value.size.toNat
  size   : obj.header.size.toNat + obj.value.size.toNat + next.size.toNat = data.size.toNat

namespace Within

theorem ne_zero (h : Within input data) : data.data ≠ 0 := by
  have := input.base_ne
  have := h.1
  omega

theorem load (h : Within input data) (hn : n < data.size.toNat) : ∃ b, input.load (data.data + n) = .ok b := by
  have ⟨hbase, hend⟩ := h
  rw [Input.load, if_pos (by omega), elemAt_eq (by omega)]
  exact ⟨_, rfl⟩

theorem loadRange (h : Within input data) (hn : n ≤ data.size.toNat) :
    ∃ bytes, input.loadRange data.data n = .ok bytes := by
  have ⟨hbase, hend⟩ := h
  rw [Input.loadRange, if_pos (.inr hbase)]
  exact ⟨_, readAt_eq_ok.mpr ⟨.inr (by omega), rfl⟩⟩

end Within

theorem Partition.within (p : Partition data next obj) (h : Within input data) :
    Within input next ∧ Within input (contentOf obj) := by
  have ⟨hbase, hend⟩ := h
  have ⟨hheader, hvalue, hnext, hsize⟩ := p
  exact ⟨⟨by omega, by omega⟩, ⟨by rw [contentOf]; dsimp only; omega, by rw [contentOf]; dsimp only; omega⟩⟩

-- A length takes two to four bytes with the type in front of it, and they are there.
theorem asn1DecodeLength_ok (h : Within input data) (hmin : 3 ≤ data.size.toNat) :
    ∃ decoded, asn1DecodeLength input data = .ok decoded ∧
      ∀ length headerSize, decoded = .ok (length, headerSize) → headerSize.toNat ≤ data.size.toNat := by
  obtain ⟨first, hfirst⟩ := h.load (n := 1) (by omega)
  obtain ⟨second, hsecond⟩ := h.load (n := 2) (by omega)
  rw [asn1DecodeLength, hfirst, hsecond]
  change ∃ decoded, (if first.toUInt32 < asn1MinVal1ExtraLenByte then _ else _) = _ ∧ _
  split
  case isTrue =>
    refine ⟨_, rfl, fun length headerSize hr => ?_⟩
    cases hr
    change 2 ≤ _
    omega
  case isFalse =>
    split
    case isTrue =>
      refine ⟨_, rfl, fun length headerSize hr => ?_⟩
      cases hr
      exact hmin
    case isFalse =>
      split
      case isFalse => exact ⟨_, rfl, fun length headerSize hr => (by cases hr)⟩
      case isTrue =>
        split
        case isTrue => exact ⟨_, rfl, fun length headerSize hr => (by cases hr)⟩
        case isFalse hsize =>
          have hfour : 4 ≤ data.size.toNat := Nat.le_of_not_lt fun hlt => hsize (UInt32.lt_iff_toNat_lt.mpr hlt)
          obtain ⟨third, hthird⟩ := h.load (n := 3) (by omega)
          rw [hthird]
          refine ⟨_, rfl, fun length headerSize hr => ?_⟩
          cases hr
          exact hfour

-- A call that succeeds divides the data; one that fails sets neither `next` nor the value.
structure Extracts (data next : HksBlob) (obj : HksAsn1Obj) (r : Extracted) : Prop where
  ok    : r.ret = .ok () → Partition data r.next r.obj
  error : r.ret ≠ .ok () → r.next = next ∧ contentOf r.obj = contentOf obj

theorem asn1GetObj_ok (h : Within input data) (hmin : 3 ≤ data.size.toNat) :
    ∃ r, asn1GetObj input next obj data = .ok r ∧ Extracts data next obj r := by
  obtain ⟨type, htype⟩ := h.load (n := 0) (by omega)
  obtain ⟨decoded, hdecoded, hsize⟩ := asn1DecodeLength_ok h hmin
  rw [Nat.add_zero] at htype
  rw [asn1GetObj, if_neg h.ne_zero, htype, hdecoded]
  match decoded, hsize with
  | .error e, _                     => exact ⟨_, rfl, fun hr => (by cases hr), fun _ => ⟨rfl, rfl⟩⟩
  | .ok (length, headerSize), hsize =>
    have hheader := hsize length headerSize rfl
    have hleft : (data.size - headerSize).toNat = data.size.toNat - headerSize.toNat :=
      UInt32.toNat_sub_of_le _ _ (UInt32.le_iff_toNat_le.mpr hheader)
    change ∃ r, (if length > data.size - headerSize then _ else _) = _ ∧ _
    split
    case isTrue => exact ⟨_, rfl, fun hr => (by cases hr), fun _ => ⟨rfl, rfl⟩⟩
    case isFalse hle =>
      have hlength : length.toNat ≤ data.size.toNat - headerSize.toNat :=
        hleft ▸ Nat.le_of_not_lt fun hlt => hle (UInt32.lt_iff_toNat_lt.mpr hlt)
      have hnext : (data.size - headerSize - length).toNat = data.size.toNat - headerSize.toNat - length.toNat := by
        rw [UInt32.toNat_sub_of_le _ _ (UInt32.le_iff_toNat_le.mpr (by rw [hleft]; exact hlength)), hleft]
      refine ⟨_, rfl, fun _ => ⟨rfl, rfl, rfl, ?_⟩, fun hr => absurd rfl hr⟩
      dsimp only
      rw [hnext]
      omega

-- In a memory that holds the input the decoder that does not look at its bounds finds the same.
section Memory

variable {mem : ByteMemory} (hmem : ∀ i (h : i < input.bytes.length), mem (input.base + i) = input.bytes[i])

include hmem

theorem load_mem {b : UInt8} (h : input.load a = .ok b) : mem a = b := by
  rw [Input.load] at h
  split at h
  case isFalse => cases h
  case isTrue hbase =>
    rw [elemAt] at h
    split at h
    case isFalse => cases h
    case isTrue hlt =>
      have hb : input.bytes[a - input.base] = b := Except.ok.inj h
      rw [← hb, ← hmem _ hlt, Nat.add_sub_cancel' hbase]

theorem asn1DecodeLength_mem (h : Within input data) (hmin : 3 ≤ data.size.toNat) :
    asn1DecodeLength input data = .ok (Huks.asn1DecodeLength mem data) := by
  obtain ⟨first, hfirst⟩ := h.load (n := 1) (by omega)
  obtain ⟨second, hsecond⟩ := h.load (n := 2) (by omega)
  rw [asn1DecodeLength, Huks.asn1DecodeLength, hfirst, hsecond, load_mem hmem hfirst,
    show data.data + 1 + 1 = data.data + 2 from rfl, load_mem hmem hsecond]
  change (if first.toUInt32 < asn1MinVal1ExtraLenByte then _ else _) = _
  by_cases h1 : first.toUInt32 < asn1MinVal1ExtraLenByte
  case pos =>
    rw [if_pos h1, if_pos h1]
    rfl
  case neg =>
    rw [if_neg h1, if_neg h1]
    by_cases h2 : first = asn1TagType1ByteLen
    case pos =>
      rw [if_pos h2, if_pos h2]
      rfl
    case neg =>
      rw [if_neg h2, if_neg h2]
      by_cases h3 : first = asn1TagType2ByteLen
      case neg =>
        rw [if_neg h3, if_neg h3]
        rfl
      case pos =>
        rw [if_pos h3, if_pos h3]
        by_cases h4 : data.size < asn1MinHeaderLen + 1
        case pos =>
          rw [if_pos h4, if_pos h4]
          rfl
        case neg =>
          have hfour : 4 ≤ data.size.toNat := Nat.le_of_not_lt fun hlt => h4 (UInt32.lt_iff_toNat_lt.mpr hlt)
          obtain ⟨third, hthird⟩ := h.load (n := 3) (by omega)
          rw [if_neg h4, if_neg h4, hthird, show data.data + 1 + 2 = data.data + 3 from rfl, load_mem hmem hthird]
          rfl

theorem asn1GetObj_mem {r : Extracted} (h : Within input data) (hmin : 3 ≤ data.size.toNat)
    (hr : asn1GetObj input next obj data = .ok r) :
    Huks.asn1GetObj mem data = r.ret.map fun _ => (r.next, r.obj) := by
  obtain ⟨type, htype⟩ := h.load (n := 0) (by omega)
  rw [Nat.add_zero] at htype
  rw [asn1GetObj, if_neg h.ne_zero, htype, asn1DecodeLength_mem hmem h hmin] at hr
  rw [Huks.asn1GetObj, if_neg h.ne_zero, load_mem hmem htype]
  change (Huks.asn1DecodeLength mem data >>= _) = _
  cases hdecoded : Huks.asn1DecodeLength mem data
  case error e =>
    rw [hdecoded] at hr
    obtain rfl := Except.ok.inj hr
    rfl
  case ok decoded =>
    rw [hdecoded] at hr
    change (if decoded.1 > data.size - decoded.2 then _ else _) = _ at hr
    change (if decoded.1 > data.size - decoded.2 then _ else _) = _
    by_cases hlong : decoded.1 > data.size - decoded.2
    case pos =>
      rw [if_pos hlong] at hr ⊢
      obtain rfl := Except.ok.inj hr
      rfl
    case neg =>
      rw [if_neg hlong] at hr ⊢
      obtain rfl := Except.ok.inj hr
      rfl

theorem dcmAsn1ExtractTag_mem {r : Extracted} {calls calls' : List HksBlob} (h : Within input data)
    (hr : (dcmAsn1ExtractTag input next obj data tag).run calls = .ok r calls') :
    Huks.dcmAsn1ExtractTag mem data tag = r.ret.map fun _ => (r.next, r.obj) := by
  rw [dcmAsn1ExtractTag, run_bind, run_modify] at hr
  dsimp only at hr
  rw [Huks.dcmAsn1ExtractTag]
  by_cases hmin : data.size < asn1MinHeaderLen
  case pos =>
    rw [if_pos hmin] at hr ⊢
    cases hr
    rfl
  case neg =>
    have hmin' : 3 ≤ data.size.toNat := Nat.le_of_not_lt fun hlt => hmin (UInt32.lt_iff_toNat_lt.mpr hlt)
    obtain ⟨got, hget, _⟩ := @asn1GetObj_ok _ _ next obj h hmin'
    rw [if_neg hmin, hget, loading, ofExcept_ok_bind] at hr
    rw [if_neg hmin]
    dsimp only
    rw [asn1GetObj_mem hmem h hmin' hget]
    cases hret : got.ret
    case error e =>
      rw [hret] at hr
      cases hr
      rw [hret]
      rfl
    case ok =>
      rw [hret] at hr
      dsimp only at hr
      change (if got.obj.header.type ≠ tag then _ else _) = _
      by_cases htag : got.obj.header.type ≠ tag
      case pos =>
        rw [if_pos htag] at hr ⊢
        cases hr
        rfl
      case neg =>
        rw [if_neg htag] at hr ⊢
        cases hr
        rw [hret]
        rfl

end Memory

-- What a call leaves is sound, whether it has succeeded or not.
def SoundResult (input : Input) (r : Extracted) : Prop := Sound input r.next ∧ Sound input (contentOf r.obj)

theorem Extracts.sound {r : Extracted} (e : Extracts data next obj r) (h : Within input data) (hnext : Sound input next)
    (hobj : Sound input (contentOf obj)) : SoundResult input r := by
  by_cases hr : r.ret = .ok ()
  case pos =>
    obtain ⟨hrest, hcontent⟩ := (e.ok hr).within h
    exact ⟨.inr hrest, .inr hcontent⟩
  case neg =>
    obtain ⟨hsame, hcontent⟩ := e.error hr
    exact ⟨hsame ▸ hnext, hcontent ▸ hobj⟩

-- A call on fewer bytes returns before it reads.
def Served (input : Input) (call : HksBlob) : Prop := call.size < asn1MinHeaderLen ∨ Within input call

def AllServed (input : Input) (calls : List HksBlob) : Prop := ∀ call ∈ calls, Served input call

theorem Sound.served (h : Sound input data) : Served input data := by
  obtain rfl | h := h
  · exact .inl (by decide)
  · exact .inr h

-- No run of `x` leaves the input, and every call in it is served.
def Keeps {α : Type} (input : Input) (x : ParseM α) (Q : α → Prop) : Prop :=
  Triple (AllServed input) x (fun a calls => Q a ∧ AllServed input calls)
    fun e calls => e ≠ .outside ∧ AllServed input calls

namespace Keeps

variable {α β : Type} {x : ParseM α} {f : α → ParseM β} {Q : α → Prop} {R : β → Prop}

theorem bind (hx : Keeps input x Q) (hf : ∀ a, Q a → Keeps input (f a) R) : Keeps input (x >>= f) R :=
  Triple.bind hx fun a => Triple.of_pure fun ha => hf a ha

theorem pure {a : α} (h : Q a) : Keeps input (Pure.pure a : ParseM α) Q := Triple.pure fun _ hs => ⟨h, hs⟩

theorem throw {e : HksErrorCode} : Keeps input (MonadExcept.throw (Stop.error e) : ParseM α) Q :=
  Triple.throw fun _ hs => ⟨fun h => (by cases h), hs⟩

theorem discard (hx : Keeps input x Q) : Keeps input (Functor.discard x) fun _ => True := by
  rw [Functor.discard, LawfulFunctor.map_const, Function.comp_apply, ← bind_pure_comp]
  exact hx.bind fun _ _ => Keeps.pure trivial

theorem anything (hx : Keeps input x Q) : Keeps input x fun _ => True :=
  Triple.weaken_post hx fun _ _ h => ⟨trivial, h.2⟩

theorem loading {y : Except (Stop HksErrorCode) α} (h : Confined Q y) : Keeps input (InPlace.loading y) Q := by
  match y, h with
  | .ok a, h             => exact Keeps.pure h
  | .error (.error e), _ => exact Keeps.throw

end Keeps

theorem dcmAsn1ExtractTag_keeps (hdata : Sound input data) (hnext : Sound input next)
    (hobj : Sound input (contentOf obj)) :
    Keeps input (dcmAsn1ExtractTag input next obj data tag) (SoundResult input) := by
  have hlog : Keeps input (modify fun calls => calls ++ [data]) fun _ => True :=
    Triple.modify fun calls hcalls => ⟨trivial, List.forall_mem_append.mpr ⟨hcalls, by simpa using hdata.served⟩⟩
  rw [dcmAsn1ExtractTag]
  refine hlog.bind fun _ _ => ?_
  split
  case isTrue => exact Keeps.pure ⟨hnext, hobj⟩
  case isFalse hmin =>
    have hmin' : 3 ≤ data.size.toNat := Nat.le_of_not_lt fun hlt => hmin (UInt32.lt_iff_toNat_lt.mpr hlt)
    obtain rfl | hwithin := hdata
    · exact absurd hmin' (by decide)
    · obtain ⟨r, hget, hr⟩ := @asn1GetObj_ok _ _ next obj hwithin hmin'
      have hr := hr.sound hwithin hnext hobj
      rw [hget, InPlace.loading, ofExcept_ok_bind]
      split
      · exact Keeps.pure hr
      · split
        · exact Keeps.pure hr
        · exact Keeps.pure hr

theorem extractNext_keeps (hval : Sound input data) (hobj : Sound input (contentOf obj)) :
    Keeps input (extractNext input obj data tag) (SoundResult input) :=
  dcmAsn1ExtractTag_keeps hval hval hobj

theorem sound_zeroObj : Sound input (contentOf zeroObj) := .inl rfl

-- `DcmAsn1ExtractTag` at the head of a chain
theorem extractOuter_keeps (hdata : Sound input data) :
    Keeps input (dcmAsn1ExtractTag input ⟨0, 0⟩ zeroObj data tag) (SoundResult input) :=
  dcmAsn1ExtractTag_keeps hdata (.inl rfl) sound_zeroObj

theorem Sound.loadRange (h : Sound input data) (hn : n ≤ data.size.toNat) :
    Inside (input.loadRange data.data n) := by
  obtain rfl | h := h
  · obtain rfl : n = 0 := Nat.le_zero.mp hn
    rw [Input.loadRange, if_pos (.inl rfl)]
    exact inside_readAt.mpr (.inl rfl)
  · obtain ⟨bytes, hbytes⟩ := h.loadRange hn
    rw [hbytes]
    exact inside_ok _

structure SoundCert (input : Input) (cert : HksAttestCert) : Prop where
  tbsSignature : Sound input (contentOf cert.tbs.signature)
  signAlg      : Sound input (contentOf cert.signAlg)

theorem isValidAttestCert_inside {cert : HksAttestCert} (h : SoundCert input cert) :
    Inside (isValidAttestCert input cert) := by
  rw [isValidAttestCert, inside_ite, inside_ite]
  refine ⟨fun _ => inside_pure _, fun _ => ⟨fun _ => inside_pure _, fun hsize => ?_⟩⟩
  have hsame : cert.signAlg.value.size = cert.tbs.signature.value.size := not_not.mp hsize
  rw [inside_bind]
  refine ⟨h.signAlg.loadRange (Nat.le_refl _), fun _ _ => ?_⟩
  rw [inside_bind, hsame]
  exact ⟨h.tbsSignature.loadRange (Nat.le_refl _), fun _ _ => inside_pure _⟩

theorem parseAttestTbs_keeps (hdata : Sound input data) : Keeps input (parseAttestTbs input data {})
    fun tbs => Sound input (contentOf tbs.signature) := by
  rw [parseAttestTbs]
  refine (extractOuter_keeps hdata).bind fun outer houter => ?_
  refine (extractNext_keeps houter.2 sound_zeroObj).bind fun version hversion => ?_
  refine (extractNext_keeps hversion.1 sound_zeroObj).bind fun serial hserial => ?_
  refine (extractNext_keeps hserial.1 sound_zeroObj).bind fun signature hsignature => ?_
  refine (extractNext_keeps hsignature.1 sound_zeroObj).bind fun issuer hissuer => ?_
  refine (extractNext_keeps hissuer.1 sound_zeroObj).bind fun validity hvalidity => ?_
  refine (extractNext_keeps hvalidity.1 sound_zeroObj).bind fun subject hsubject => ?_
  refine (extractNext_keeps hsubject.1 sound_zeroObj).bind fun spki hspki => ?_
  refine (extractNext_keeps hspki.1 sound_zeroObj).bind fun extensions _ => ?_
  exact Keeps.pure hsignature.2

theorem parseAttestCert_keeps (hdata : Sound input data) : Keeps input (parseAttestCert input data {})
    fun cert => SoundCert input cert := by
  rw [parseAttestCert]
  refine (extractOuter_keeps hdata).bind fun outer houter => ?_
  refine (parseAttestTbs_keeps houter.2).bind fun tbs htbs => ?_
  refine (extractNext_keeps houter.2 sound_zeroObj).bind fun skip hskip => ?_
  refine (extractNext_keeps hskip.1 sound_zeroObj).bind fun signAlg hsignAlg => ?_
  refine (extractNext_keeps hsignAlg.1 sound_zeroObj).bind fun signature _ => ?_
  have hcert : SoundCert input ⟨tbs, signAlg.obj, signature.obj⟩ := ⟨htbs, hsignAlg.2⟩
  have hvalid := (isValidAttestCert_inside hcert).confined (Q := fun _ => True) fun _ => trivial
  exact (Keeps.loading hvalid).discard.bind fun _ _ => Keeps.pure hcert

theorem parseAttestExtension_keeps (hdata : Sound input data) :
    Keeps input (parseAttestExtension input data {}) fun _ => True := by
  rw [parseAttestExtension]
  refine (extractNext_keeps hdata sound_zeroObj).bind fun seq hseq => ?_
  refine (extractNext_keeps hseq.2 sound_zeroObj).bind fun keyUsage hkeyUsage => ?_
  refine (extractNext_keeps hkeyUsage.1 sound_zeroObj).bind fun crl hcrl => ?_
  refine (extractNext_keeps hcrl.1 sound_zeroObj).bind fun claims _ => ?_
  exact Keeps.pure trivial

theorem succeeded_keeps {r : Extracted} (h : SoundResult input r) :
    Keeps input (succeeded r) (SoundResult input) := by
  rw [succeeded]
  split
  · exact Keeps.pure h
  · exact Keeps.throw

theorem stepIntoPrivateKey_keeps (hdata : Sound input data) :
    Keeps input (stepIntoPrivateKey input data) (Sound input) := by
  rw [stepIntoPrivateKey]
  refine (extractOuter_keeps hdata).bind fun _ h => (succeeded_keeps h).bind fun outer houter => ?_
  refine (extractNext_keeps houter.2 houter.2).bind fun _ h => (succeeded_keeps h).bind fun version hversion => ?_
  exact Keeps.pure hversion.1

theorem getPrivateKeyComponent_keeps {materialSize offset : UInt32} (hval : Sound input data)
    (hobj : Sound input (contentOf obj)) : Keeps input (getPrivateKeyComponent input obj data materialSize offset)
      fun r => SoundResult input r.1 := by
  rw [getPrivateKeyComponent]
  refine (extractNext_keeps hval hobj).bind fun _ h => (succeeded_keeps h).bind fun component hcomponent => ?_
  dsimp only
  split
  · exact Keeps.throw
  · have hread := (hcomponent.2.loadRange (Nat.le_refl _)).confined (Q := fun _ => True) fun _ => trivial
    exact (Keeps.loading hread).bind fun _ _ => Keeps.pure hcomponent

theorem getPrivateKeyMaterial_keeps {materialSize : UInt32} (hval : Sound input data) :
    Keeps input (getPrivateKeyMaterial input data materialSize) fun _ => True := by
  rw [getPrivateKeyMaterial]
  refine (getPrivateKeyComponent_keeps hval sound_zeroObj).bind fun first hfirst => ?_
  refine (getPrivateKeyComponent_keeps hfirst.1 hfirst.2).bind fun second hsecond => ?_
  refine (getPrivateKeyComponent_keeps hsecond.1 hsecond.2).bind fun third _ => ?_
  exact Keeps.pure trivial

theorem hksGetDevicePrivateKey_keeps (hdata : Sound input data) :
    Keeps input (hksGetDevicePrivateKey input data) fun _ => True :=
  (stepIntoPrivateKey_keeps hdata).bind fun _ hval => getPrivateKeyMaterial_keeps hval

-- Where a call succeeds there are at least the bytes of the shortest header, all of which belong to
-- the header, the value or the rest. It finds what is found in any memory that holds the input. No chain
-- of calls leaves the input.
theorem dcmAsn1ExtractTag_inside (input : Input) :
    (∀ next obj data tag calls, Within input data → asn1MinHeaderLen ≤ data.size →
      ∃ r, (dcmAsn1ExtractTag input next obj data tag).run calls = .ok r (calls ++ [data]) ∧
        (r.ret = .ok () → Partition data r.next r.obj) ∧
        ∀ mem : ByteMemory, (∀ i (h : i < input.bytes.length), mem (input.base + i) = input.bytes[i]) →
          Huks.dcmAsn1ExtractTag mem data tag = r.ret.map fun _ => (r.next, r.obj)) ∧
    (∀ data, Within input data →
      Keeps input (parseAttestCert input data {}) (fun _ => True) ∧
      Keeps input (parseAttestTbs input data {}) (fun _ => True) ∧
      Keeps input (parseAttestExtension input data {}) (fun _ => True) ∧
      Keeps input (stepIntoPrivateKey input data) (fun _ => True) ∧
      (∀ materialSize, Keeps input (getPrivateKeyMaterial input data materialSize) fun _ => True) ∧
      Keeps input (hksGetDevicePrivateKey input data) fun _ => True) := by
  refine ⟨fun next obj data tag calls hdata hmin => ?_, fun data hdata => ?_⟩
  · have hmin' : 3 ≤ data.size.toNat := UInt32.le_iff_toNat_le.mp hmin
    obtain ⟨r, hget, hr⟩ := @asn1GetObj_ok _ _ next obj hdata hmin'
    have hlong : ¬data.size < asn1MinHeaderLen := fun hlt => Nat.not_le_of_lt (UInt32.lt_iff_toNat_lt.mp hlt) hmin'
    have hrun : ∃ r, (dcmAsn1ExtractTag input next obj data tag).run calls = .ok r (calls ++ [data]) ∧
        (r.ret = .ok () → Partition data r.next r.obj) := by
      rw [dcmAsn1ExtractTag, run_bind, run_modify]
      dsimp only
      rw [if_neg hlong, hget, loading, ofExcept_ok_bind]
      split
      · exact ⟨r, rfl, hr.ok⟩
      · split
        · exact ⟨_, rfl, fun hret => by cases hret⟩
        · exact ⟨r, rfl, hr.ok⟩
    obtain ⟨r, hrun, hpartition⟩ := hrun
    exact ⟨r, hrun, hpartition, fun mem hmem => dcmAsn1ExtractTag_mem hmem hdata hrun⟩
  · have hsound : Sound input data := .inr hdata
    exact ⟨(parseAttestCert_keeps hsound).anything, (parseAttestTbs_keeps hsound).anything,
      parseAttestExtension_keeps hsound, (stepIntoPrivateKey_keeps hsound).anything,
      fun _ => getPrivateKeyMaterial_keeps hsound, hksGetDevicePrivateKey_keeps hsound⟩

end Huks.InPlace
