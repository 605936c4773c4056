import Huks.Common.Theorems.Contents
import Huks.Common.Theorems.Tags
import Huks.Common.Theorems.AddParams
import Huks.Common.Theorems.ParamImage

namespace Huks

open HksParamSet

-- A set that was built ends with a blob that is not empty: `memcpy_s` refuses to copy to its end.
theorem freshParams_last {base : Nat} {size : UInt32} {ps : List HksParam} :
    ∀ {offset : UInt32} {area : Bytes} {r : List HksParam × UInt32 × Bytes},
      freshParams base size true ps offset area = .ok r →
      size.toNat = offset.toNat + blobTotal ps → LastBlobNonempty ps := by
  induction ps
  case nil =>
    rintro _ _ _ _ _ q hq
    cases hq
  case cons p ps ih =>
    intro offset area r h hsize
    rw [blobTotal_cons] at hsize
    unfold freshParams at h
    split at h
    case isTrue => cases h
    case isFalse =>
      split at h
      case isFalse hb =>
        have hlen : p.blobLength = 0 := by simp [HksParam.blobLength, hb]
        obtain ⟨_, h, _⟩ := Except.bind_eq_ok.mp h
        have hlast := ih h (by omega)
        simpa [LastBlobNonempty, hb] using hlast
      case isTrue hb =>
        have hlen : p.blobLength = p.blobSize.toNat := by simp [HksParam.blobLength, hb]
        split at h
        case isTrue => cases h
        case isFalse hover =>
          obtain ⟨area', hcopy, h⟩ := Except.bind_eq_ok.mp h
          obtain ⟨_, h, _⟩ := Except.bind_eq_ok.mp h
          have hoffset : (offset + p.blobSize).toNat = offset.toNat + p.blobSize.toNat := by
            have := size.toNat_lt
            rw [UInt32.toNat_add]
            omega
          have hlast := ih h (by omega)
          cases hps : (ps.filter HksParam.isBytes).getLast?
          case some q =>
            intro q' hq'
            apply hlast
            simpa [List.filter_cons, hb, List.getLast?_cons, hps] using hq'
          case none =>
            -- `p` is the last blob.
            have hnone : ps.filter HksParam.isBytes = [] := List.getLast?_eq_none_iff.mp hps
            rintro q hq hz
            have heq : p = q := by simpa [List.filter_cons, hb, hnone] using hq
            subst heq
            have htotal : blobTotal ps = 0 := by
              refine List.sum_eq_zero fun n hn => ?_
              obtain ⟨q, hq, hqn⟩ := List.mem_map.mp hn
              have hqb : q.isBytes = false := by
                simpa using List.filter_eq_nil_iff.mp hnone q hq
              simp [← hqn, HksParam.blobLength, hqb]
            have hfull : size = offset := by
              apply UInt32.toNat_inj.mp
              rw [hsize, hlen, hz, htotal]
              rfl
            unfold freshParams.copy at hcopy
            cases hread : p.read base area
            case none => simp [hread] at hcopy
            case some => simp [hread, hfull, memcpyS] at hcopy

theorem Accumulated.lastBlobNonempty {ps : List HksParam} {s t : HksParamSet} (a : Accumulated ps s)
    (h : hksBuildParamSet s = .ok t) : LastBlobNonempty ps := by
  have ⟨_, hcheck, hbuild⟩ := Except.bind_eq_ok.mp h
  have last_of_fresh (u : HksParamSet) (hparams : u.params = ps)
      (hfresh : hksFreshParamSet u true = .ok t) : LastBlobNonempty ps := by
    have hsize := hksFreshParamSet_size hfresh
    have ⟨_, _, hfresh⟩ := Except.bind_eq_ok.mp hfresh
    have ⟨_, hparams', _⟩ := Except.bind_eq_ok.mp hfresh
    exact hparams ▸ freshParams_last hparams' hsize
  simp only [buildParamSet] at hbuild
  split at hbuild
  case isFalse => exact last_of_fresh s a.params hbuild
  case isTrue =>
    split at hbuild
    case isTrue => cases hbuild
    case isFalse =>
      exact last_of_fresh { s with area := .replicate (s.paramSetSize.toNat - s.base) 0 } a.params
        hbuild

-- So a set that was built has the blobs that were added.
theorem Accumulated.carries {ps : List HksParam} {s t : HksParamSet} (a : Accumulated ps s)
    (hext : ∀ p ∈ ps, p.External) (h : hksBuildParamSet s = .ok t) : Carries ps t := by
  have ⟨hmax, b⟩ := a.built hext (a.lastBlobNonempty h) h
  exact b.carries hext hmax

theorem HksParam.External.ofBytes (tag : UInt32) (bytes : Bytes) : (HksParam.ofBytes tag bytes).External :=
  fun _ => ⟨bytes, rfl⟩

theorem HksParam.External.scalar {p : HksParam} (h : getTagType p.tag ≠ .bytes) : p.External := by
  intro hb
  exact absurd (by simpa [HksParam.isBytes] using hb) h

namespace Carries

variable {ps : List HksParam} {t : HksParamSet}

theorem words (c : Carries ps t) : t.words = paramWords ps := by
  have ⟨qs, hwords, hparams⟩ := c.params
  rw [HksParamSet.words, hparams, paramWords_relocate, hwords]

-- What the first entry with a tag holds.
theorem word (c : Carries ps t) {tag : UInt32} (ht : getTagType tag ≠ .bytes) {p : HksParam}
    (hp : ps.find? (·.tag = tag) = some p) : (hksGetParam t tag).map HksParam.word = .ok p.word := by
  rw [hksGetParam_word c.check ht, c.words, find?_paramWords, hp]
  rfl

theorem uint32 (c : Carries ps t) {tag : UInt32} (ht : getTagType tag ≠ .bytes) {p : HksParam}
    (hp : ps.find? (·.tag = tag) = some p) : getUInt32 t tag = .ok p.uint32Param := by
  rw [getUInt32_word, c.word ht hp]
  rfl

theorem blob (c : Carries ps t) {tag : UInt32} (ht : getTagType tag = .bytes) {bytes : Bytes}
    (hlen : bytes.length < 2 ^ 32) (hne : bytes ≠ [])
    (hp : ps.find? (·.tag = tag) = some (.ofBytes tag bytes)) : getBlob t tag = .ok bytes := by
  have hfind : (contentsOf ps).find? (·.1 = tag) = some (tag, .blob bytes) := by
    rw [contentsOf, List.find?_map]
    change Option.map _ (ps.find? fun p => decide (p.tag = tag)) = _
    rw [hp, Option.map_some, HksParam.content_ofBytes ht hlen]
  rw [getBlob_value t ht, c.getParam, Contents.get_of_find hfind (by simpa using hne)]
  rfl

end Carries

section Building

variable {ps qs : List HksParam} {p : HksParam} {s : HksParamSet}

-- Params find their place where the count and the size allow it.
theorem Accumulated.add_fits (a : Accumulated ps s) (hext : ∀ q ∈ qs, q.External)
    (hcnt : (ps ++ qs).length ≤ defaultParamCnt) (hmax : buildSize (ps ++ qs) ≤ maxSize) :
    ∃ t, hksAddParams s qs = .ok t ∧ Accumulated (ps ++ qs) t := by
  rw [List.length_append] at hcnt
  simp only [buildSize, List.length_append, blobTotal_append, Nat.mul_add] at hmax
  have hsize : s.paramSetSize.toNat = buildSize ps := a.size_toNat (by simp only [buildSize]; omega)
  rw [buildSize] at hsize
  have hcheck : checkBeforeAddParams s qs = .ok () := by
    rw [checkBeforeAddParams, if_neg, if_neg]
    · simp only [List.any_eq_true, decide_eq_true_eq, not_exists, not_and]
      intro q hq hb hnull
      obtain ⟨bytes, hdata⟩ := hext q hq hb
      rw [hdata] at hnull
      cases hnull
    · rw [a.params]
      omega
  have hwrap : maxSize < UInt32.size := by decide
  obtain ⟨t, ht, _⟩ := @InPlace.foldlM_addParam_fits s qs (by omega)
  have hadd : hksAddParams s qs = .ok t := Except.bind_eq_ok.mpr ⟨(), hcheck, ht⟩
  exact ⟨t, hadd, a.add hadd⟩

theorem Accumulated.build_carries (a : Accumulated ps s) (hext : ∀ p ∈ ps, p.External) (hlast : LastBlobNonempty ps)
    (hmax : buildSize ps ≤ maxSize) : ∃ t, hksBuildParamSet s = .ok t ∧ Carries ps t := by
  obtain ⟨t, hbuild, b⟩ := a.build hext hlast hmax
  exact ⟨t, hbuild, b.carries hext hmax⟩

theorem LastBlobNonempty.append_blob (hb : p.isBytes) (hne : p.blobSize ≠ 0) : LastBlobNonempty (ps ++ [p]) := by
  intro q hq
  rw [List.filter_append, List.filter_cons_of_pos hb, List.filter_nil, List.getLast?_append] at hq
  cases hq
  exact hne

theorem buildSize_le_append (ps qs : List HksParam) : buildSize ps ≤ buildSize (ps ++ qs) := by
  rw [buildSize, buildSize, List.length_append, blobTotal_append, Nat.mul_add]
  omega

theorem HksParam.blobLength_ofBytes {tag : UInt32} {bytes : Bytes} (ht : getTagType tag = .bytes)
    (h : bytes.length < 2 ^ 32) : (HksParam.ofBytes tag bytes).blobLength = bytes.length := by
  rw [HksParam.blobLength, if_pos (HksParam.isBytes_ofBytes ht bytes), HksParam.blobSize_ofBytes h]

-- A blob that was not added is not found.
theorem Carries.blob_none {t : HksParamSet} (c : Carries ps t) {tag : UInt32} (ht : getTagType tag = .bytes)
    (hp : ps.find? (·.tag = tag) = none) : getBlob t tag = .error .paramNotExist := by
  have hfind : (contentsOf ps).find? (·.1 = tag) = none := by
    rw [contentsOf, List.find?_map]
    change Option.map _ (ps.find? fun p => decide (p.tag = tag)) = _
    rw [hp, Option.map_none]
  rw [getBlob_value t ht, c.getParam, Contents.get, hfind]
  rfl

theorem Scalars.external (h : Scalars ps) : ∀ p ∈ ps, p.External := by
  intro p hp hb
  rw [h p hp] at hb
  cases hb

end Building

end Huks
