import Huks.Common.Theorems.Words
import Huks.DeviceCert.FormatChain
import Huks.Ipc.Theorems.Packing

namespace Huks.InPlace

open EStateM OutBuffer

variable {blob attestCert devCert : Blob} {cert caCert rootCert : Except HksErrorCode Blob} {buf : ChainRest}
  {s : OutBuffer}

-- What is left of the chain ends where the chain ends: nothing has been taken off that was not there.
def ChainRest.Exact (buf : ChainRest) (s : OutBuffer) : Prop := buf.data + buf.size.toNat = s.room.length

-- What a blob takes of the chain
def chainEntry (blob : Blob) : Nat := 4 + (alignSize blob.size).toNat

theorem contained_orBadState {α : Type} {Q : α → OutBuffer → Prop} {x : OutM HksErrorCode α} :
    Contained Q (orBadState x) s ↔ Contained Q x s := by
  simp only [Contained, orBadState, EStateM.run, EStateM.adaptExcept]
  cases x s
  case ok => exact Iff.rfl
  case error e t => cases e <;> exact Iff.rfl

-- One certificate takes its entry, and nothing else is written.
theorem copyBlobToBuffer_contained (hexact : buf.Exact s) : Contained (fun rest t =>
      rest.Exact t ∧ rest.data = buf.data + chainEntry blob ∧ t.room.length = s.room.length ∧ t.size = s.size)
    (copyBlobToBuffer blob buf) s := by
  rw [ChainRest.Exact] at hexact
  rw [copyBlobToBuffer, contained_ite]
  refine ⟨fun _ => contained_refuse _, fun hfits => ?_⟩
  have hfour : (buf.size - 4).toNat = buf.size.toNat - 4 :=
    UInt32.toNat_sub_of_le _ _ (UInt32.le_iff_toNat_le.mpr (by change 4 ≤ _; omega))
  have hrest : (buf.size - 4 - alignSize blob.size).toNat = buf.size.toNat - 4 - (alignSize blob.size).toNat := by
    rw [UInt32.toNat_sub_of_le _ _ (UInt32.le_iff_toNat_le.mpr (by omega)), hfour]
  rw [contained_bind]
  refine contained_memcpyInto_any (fun _ => by omega) fun t ht hsize => ?_
  dsimp only
  rw [contained_bind, hfour]
  refine contained_memcpyInto_any (fun _ => by omega) fun u hu hsize' => ?_
  rw [contained_pure, ChainRest.Exact, chainEntry]
  dsimp only
  rw [hrest]
  exact ⟨by omega, by omega, hu.trans ht, hsize'.trans hsize⟩

theorem formatCertToBuf_contained (hexact : buf.Exact s) : Contained (fun rest t =>
      ∃ blob, cert = .ok blob ∧
        rest.Exact t ∧ rest.data = buf.data + chainEntry blob ∧ t.room.length = s.room.length ∧ t.size = s.size)
    (orBadState (formatCertToBuf cert buf)) s := by
  rw [contained_orBadState]
  cases cert
  case error e => exact contained_refuse _
  case ok blob => exact (copyBlobToBuffer_contained hexact).mono fun _ _ h => ⟨blob, rfl, h⟩

theorem formatAttestChain_contained (dest : Destination) (hsize : 4 ≤ dest.out.size.toNat) :
    Contained (fun _ t => ∃ ca root, caCert = .ok ca ∧ rootCert = .ok root ∧
        t.room.length = dest.out.room.length ∧
        t.size.toNat = 4 + chainEntry attestCert + chainEntry devCert + chainEntry ca + chainEntry root)
      (formatAttestChain attestCert devCert caCert rootCert) dest.out := by
  have hroom := dest.room
  have hcount : (splice dest.out.room 0 (toBytes32 hksAttestCertCount)).length = dest.out.room.length :=
    length_splice (by rw [length_toBytes32]; omega)
  have hfour : (dest.out.size - 4).toNat = dest.out.size.toNat - 4 :=
    UInt32.toNat_sub_of_le _ _ (UInt32.le_iff_toNat_le.mpr hsize)
  rw [formatAttestChain, contained_bind, contained_writeAt]
  refine ⟨.inr (by rw [length_toBytes32]; omega), ?_⟩
  rw [contained_bind, contained_get]
  dsimp only
  rw [contained_bind]
  refine (copyBlobToBuffer_contained (by rw [ChainRest.Exact, hcount]; dsimp only; omega)).mono ?_
  rintro rest₁ t₁ ⟨hexact₁, hdata₁, hroom₁, _⟩
  rw [contained_bind]
  refine (copyBlobToBuffer_contained hexact₁).mono ?_
  rintro rest₂ t₂ ⟨hexact₂, hdata₂, hroom₂, _⟩
  rw [contained_bind]
  refine (formatCertToBuf_contained hexact₂).mono ?_
  rintro rest₃ t₃ ⟨ca, hca, hexact₃, hdata₃, hroom₃, _⟩
  rw [contained_bind]
  refine (formatCertToBuf_contained hexact₃).mono ?_
  rintro rest₄ t₄ ⟨root, hroot, hexact₄, hdata₄, hroom₄, _⟩
  rw [contained_setSize]
  rw [ChainRest.Exact] at hexact₄
  dsimp only at hdata₁ hroom₁
  have hsmall := dest.out.size.toNat_lt
  have hword : rest₄.data.toUInt32.toNat = rest₄.data := toUInt32_toNat (by omega)
  refine ⟨ca, root, hca, hroot, by dsimp only; omega, ?_⟩
  dsimp only
  omega

-- The model that computes the chain as a value finds the same bytes.
section Values

variable {b b' : PackBuffer} {src : Bytes}

theorem memcpyInto_memcpyS (src : Bytes) (v : b.Valid) (hmax : b.data.length ≤ secureMemMaxLen)
    (hsrc : b.offset.toNat + src.length ≤ b.data.length) (size : UInt32) :
    (discard (memcpyInto b.offset.toNat (b.data.length - b.offset.toNat) src) : OutM HksErrorCode PUnit).run
      ⟨b.data, size⟩ = .ok ⟨⟩ ⟨((b.memcpyS src).getD b).data, size⟩ := by
  have hwithin := v.within
  rw [v.memcpyS_eq, run_discard]
  by_cases hfull : b.offset.toNat = b.data.length
  case pos =>
    rw [if_neg (by omega), memcpyInto, if_pos (.inl (by omega))]
    rfl
  case neg =>
    rw [if_pos ⟨hsrc, hfull⟩, memcpyInto_run (by omega) (by omega) (.inr hsrc)]
    rfl

def ChainRest.ofPackBuffer (b : PackBuffer) : ChainRest := ⟨(b.data.length - b.offset.toNat).toUInt32, b.offset.toNat⟩

theorem copyBlobToBuffer_run (v : b.Valid) (hmax : b.data.length ≤ secureMemMaxLen) (ha : blob.Aligns)
    (h : copyCertToBuffer blob b = .ok b') (size : UInt32) :
    (copyBlobToBuffer blob (.ofPackBuffer b)).run ⟨b.data, size⟩ = .ok (.ofPackBuffer b') ⟨b'.data, size⟩ ∧
      b'.Valid ∧ b'.data.length = b.data.length := by
  have hwithin := v.within
  have hlt := v.length_lt
  have hleft : (ChainRest.ofPackBuffer b).size.toNat = b.data.length - b.offset.toNat := toUInt32_toNat (by omega)
  rw [copyCertToBuffer, v.room_toNat] at h
  by_cases hfits : b.data.length - b.offset.toNat < 4 + (alignSize blob.size).toNat
  case pos =>
    rw [if_pos hfits] at h
    cases h
  rw [if_neg hfits] at h
  obtain rfl := Except.ok.inj h
  have hle := ha.le
  have hput := @PackBuffer.Valid.put _ (toBytes32 blob.size) 4 v (Nat.le_refl 4) (by change _ + 4 ≤ _; omega)
  have hfirst := memcpyInto_memcpyS (toBytes32 blob.size) v hmax (by rw [length_toBytes32]; omega) size
  have hdata : (ChainRest.ofPackBuffer b).data = b.offset.toNat := rfl
  rw [copyBlobToBuffer, hleft, if_neg hfits, run_bind, hdata, hfirst, PackBuffer.putBlob]
  generalize hc : ((b.memcpyS (toBytes32 blob.size)).getD b).advance 4 = c at hput ⊢
  have hcdata : ((b.memcpyS (toBytes32 blob.size)).getD b).data = c.data := by
    rw [← hc]
    rfl
  have hclen : c.data.length = b.data.length := hput.grows.length
  have hcoff : c.offset.toNat = b.offset.toNat + 4 := hput.offset
  have hcsize : ((ChainRest.ofPackBuffer b).size - 4).toNat = c.data.length - c.offset.toNat := by
    rw [UInt32.toNat_sub_of_le _ _ (UInt32.le_iff_toNat_le.mpr (by rw [hleft]; change 4 ≤ _; omega)), hleft]
    change b.data.length - b.offset.toNat - 4 = _
    omega
  have hsecond := memcpyInto_memcpyS blob.val hput.valid (hclen ▸ hmax) (by omega) size
  have hput' := hput.valid.put hle (by omega)
  dsimp only
  rw [run_bind, hcsize, ← hcoff, hcdata, hsecond]
  have hlen' := hput'.grows.length
  have hoff' := hput'.offset
  refine ⟨?_, hput'.valid, hlen'.trans hclen⟩
  have hsize : (ChainRest.ofPackBuffer b).size - 4 - alignSize blob.size =
      (ChainRest.ofPackBuffer (((c.memcpyS blob.val).getD c).advance (alignSize blob.size))).size := by
    have halign : (alignSize blob.size).toNat ≤ ((ChainRest.ofPackBuffer b).size - 4).toNat := by omega
    rw [← UInt32.toNat_inj, UInt32.toNat_sub_of_le _ _ (UInt32.le_iff_toNat_le.mpr halign), hcsize,
      ChainRest.ofPackBuffer, toUInt32_toNat (by omega)]
    omega
  rw [hsize, ← hoff']
  rfl

theorem formatCertToBuf_run (v : b.Valid) (hmax : b.data.length ≤ secureMemMaxLen)
    (ha : ∀ blob, cert = .ok blob → blob.Aligns)
    (h : (Huks.formatCertToBuf cert b).orError .badState = .ok b') (size : UInt32) :
    (orBadState (formatCertToBuf cert (.ofPackBuffer b))).run ⟨b.data, size⟩ =
        .ok (.ofPackBuffer b') ⟨b'.data, size⟩ ∧ b'.Valid ∧ b'.data.length = b.data.length := by
  obtain ⟨blob, rfl, hcopy⟩ := formatCertToBuf_ok (Except.orError_eq_ok.mp h)
  obtain ⟨hrun, hrest⟩ := copyBlobToBuffer_run v hmax (ha blob rfl) hcopy size
  refine ⟨?_, hrest⟩
  simp only [EStateM.run] at hrun
  simp only [orBadState, EStateM.run, EStateM.adaptExcept, formatCertToBuf, hrun]

theorem formatAttestChain_run {certChain reply : Bytes} (hmin : 4 ≤ certChain.length)
    (hmax : certChain.length ≤ secureMemMaxLen) (hattest : attestCert.Aligns) (hdev : devCert.Aligns)
    (hca : ∀ blob, caCert = .ok blob → blob.Aligns) (hroot : ∀ blob, rootCert = .ok blob → blob.Aligns)
    (h : Huks.formatAttestChain attestCert devCert caCert rootCert certChain = .ok reply) :
    ∃ t, (formatAttestChain attestCert devCert caCert rootCert).run ⟨certChain, certChain.length.toUInt32⟩ = .ok ⟨⟩ t ∧
      t.room.take t.size.toNat = reply := by
  obtain ⟨attested, hattested, h⟩ := Except.bind_eq_ok.mp h
  obtain ⟨device, hdevice, h⟩ := Except.bind_eq_ok.mp h
  obtain ⟨withCa, hwithCa, h⟩ := Except.bind_eq_ok.mp h
  obtain ⟨tmp, htmp, h⟩ := Except.bind_eq_ok.mp h
  obtain rfl := Except.ok.inj h
  have hword : certChain.length.toUInt32.toNat = certChain.length :=
    toUInt32_toNat (by rw [secureMemMaxLen] at hmax; omega)
  have hlen : (splice certChain 0 (toBytes32 hksAttestCertCount)).length = certChain.length :=
    length_splice (by rw [length_toBytes32]; omega)
  have v : PackBuffer.Valid ⟨splice certChain 0 (toBytes32 hksAttestCertCount), 4⟩ :=
    ⟨by rw [hlen, ← hword]; exact certChain.length.toUInt32.toNat_lt, by rw [hlen]; exact hmin⟩
  have hstart : (⟨certChain.length.toUInt32 - 4, 4⟩ : ChainRest) =
      .ofPackBuffer ⟨splice certChain 0 (toBytes32 hksAttestCertCount), 4⟩ := by
    rw [ChainRest.ofPackBuffer, ChainRest.mk.injEq]
    refine ⟨?_, rfl⟩
    rw [← UInt32.toNat_inj, UInt32.toNat_sub_of_le _ _ (UInt32.le_iff_toNat_le.mpr (by rw [hword]; exact hmin)), hword,
      hlen]
    refine (toUInt32_toNat ?_).symm
    rw [secureMemMaxLen] at hmax
    change certChain.length - 4 < _
    omega
  obtain ⟨hrun₁, v₁, hlen₁⟩ := copyBlobToBuffer_run v (by rw [hlen]; exact hmax) hattest hattested
    certChain.length.toUInt32
  obtain ⟨hrun₂, v₂, hlen₂⟩ := copyBlobToBuffer_run v₁ (by rw [hlen₁, hlen]; exact hmax) hdev hdevice
    certChain.length.toUInt32
  obtain ⟨hrun₃, v₃, hlen₃⟩ := formatCertToBuf_run v₂ (by rw [hlen₂, hlen₁, hlen]; exact hmax) hca hwithCa
    certChain.length.toUInt32
  obtain ⟨hrun₄, v₄, _⟩ := formatCertToBuf_run v₃ (by rw [hlen₃, hlen₂, hlen₁, hlen]; exact hmax) hroot htmp
    certChain.length.toUInt32
  refine ⟨⟨tmp.data, tmp.offset.toNat.toUInt32⟩, ?_, ?_⟩
  · rw [formatAttestChain, run_bind, writeAt_run (.inr (by rw [length_toBytes32]; dsimp only; omega))]
    dsimp only
    rw [run_bind, run_get]
    dsimp only
    rw [hstart, run_bind, hrun₁]
    dsimp only
    rw [run_bind, hrun₂]
    dsimp only
    rw [run_bind, hrun₃]
    dsimp only
    rw [run_bind, hrun₄]
    rfl
  · dsimp only
    rw [toUInt32_toNat tmp.offset.toNat_lt]

end Values

-- `HksMalloc` has no block of 4 GiB for a certificate.
abbrev Certificate := { blob : Blob // blob.Aligns }

def paddedLength (cert : Certificate) : Nat := 4 + (cert.val.val.length + 3) / 4 * 4

theorem chainEntry_certificate (cert : Certificate) : chainEntry cert.val = paddedLength cert := by
  have ha : cert.val.val.length + 3 < 2 ^ 32 := cert.property
  rw [chainEntry, alignSize_toNat, cert.val.size_toNat, Nat.mod_eq_of_lt ha, paddedLength]

-- The chain is written inside its buffer from four bytes on, nothing is taken off that is not there, and
-- the size is that of the four entries behind the count.
theorem attestChain_contained (attestCert devCert : Certificate) (caCert rootCert : Except HksErrorCode Certificate)
    (dest : Destination) (hsize : 4 ≤ dest.out.size.toNat) :
    Contained (fun _ t => ∃ ca root, caCert = .ok ca ∧ rootCert = .ok root ∧ t.room.length = dest.out.room.length ∧
        t.size.toNat = 4 + paddedLength attestCert + paddedLength devCert + paddedLength ca + paddedLength root)
      (formatAttestChain attestCert.val devCert.val (caCert.map Subtype.val) (rootCert.map Subtype.val)) dest.out ∧
    ChainRest.Exact ⟨dest.out.size - 4, 4⟩ dest.out ∧
    ∀ (cert : Certificate) (buf : ChainRest) (s : OutBuffer), buf.Exact s →
      Contained (fun rest t => rest.Exact t ∧ rest.data = buf.data + paddedLength cert)
        (copyBlobToBuffer cert.val buf) s := by
  refine ⟨(formatAttestChain_contained dest hsize).mono ?_, ?_, fun cert buf s hexact => ?_⟩
  · rintro _ t ⟨ca, root, hca, hroot, hroom, ht⟩
    obtain ⟨ca, rfl, rfl⟩ := Except.map_eq_ok.mp hca
    obtain ⟨root, rfl, rfl⟩ := Except.map_eq_ok.mp hroot
    simp only [chainEntry_certificate] at ht
    exact ⟨ca, root, rfl, rfl, hroom, ht⟩
  · rw [ChainRest.Exact, dest.room]
    dsimp only
    rw [UInt32.toNat_sub_of_le _ _ (show (4 : UInt32) ≤ _ from UInt32.le_iff_toNat_le.mpr hsize)]
    exact Nat.add_sub_cancel' hsize
  · refine (copyBlobToBuffer_contained hexact).mono fun _ _ h => ⟨h.1, ?_⟩
    rw [h.2.1, chainEntry_certificate]

def oneByteCert : Certificate := ⟨⟨[1], by decide⟩, by decide⟩

-- A chain of certificates of one byte
theorem attestChain_oneByte :
    Contained (fun _ t => t.size.toNat = 36)
      (formatAttestChain oneByteCert.val oneByteCert.val (.ok oneByteCert.val) (.ok oneByteCert.val))
      ⟨.replicate 36 0, 36⟩ := by
  refine (attestChain_contained oneByteCert oneByteCert (.ok oneByteCert) (.ok oneByteCert)
    ⟨⟨.replicate 36 0, 36⟩, rfl⟩ (by decide)).1.mono ?_
  rintro _ t ⟨ca, root, hca, hroot, _, ht⟩
  cases hca
  cases hroot
  exact ht

-- A buffer of one byte has no place for the count.
theorem attestChain_count_outside :
    ¬Contained (fun _ _ => True)
      (formatAttestChain oneByteCert.val oneByteCert.val (.ok oneByteCert.val) (.ok oneByteCert.val)) ⟨[0], 1⟩ := by
  rw [formatAttestChain, contained_bind, contained_writeAt]
  exact fun h => absurd h.1 (by decide)

end Huks.InPlace
