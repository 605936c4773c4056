import Huks.Common.Theorems.Param
import Huks.Lib.Triple
import Huks.Storage.Theorems.LiteImage

namespace Huks.StorageLite

open EStateM

-- The system and the engine never fail.
structure LiteEnv.Quiet (env : LiteEnv) : Prop where
  malloc         : ∀ tick, env.malloc tick = true
  stat           : ∀ tick, env.stat tick = true
  openFile       : ∀ tick, env.openFile tick = true
  read           : ∀ tick, env.read tick = .done
  write          : ∀ tick, env.write tick = .done
  generateRandom : ∀ tick e, env.generateRandom tick ≠ .error e
  calcHeaderMac  : ∀ tick, env.calcHeaderMac tick = none

-- A state, but for the calls that were made.
def At (image file : Option Bytes) (s : LiteStore) : Prop := s.image = image ∧ s.file = file

-- The header says what its HMAC is to be.
def Sealed (env : LiteEnv) (head : HksStoreHeaderInfo) : Prop :=
  head.hmac = env.mac head.salt ((HksStoreHeaderInfo.codec.encode head).take macSize)

section Rules

variable {α β : Type} {image image' file file' : Option Bytes} {x : LiteM α} {f : α → LiteM β} {a : α}
  {P : LiteStore → Prop} {Q : α → LiteStore → Prop} {R : β → LiteStore → Prop}
  {E : Stop HksErrorCode → LiteStore → Prop}

-- A part whose run is known.
theorem bind_at (hx : ∀ tick, x.run ⟨image, file, tick⟩ = .ok a ⟨image', file', tick⟩)
    (hf : Triple (At image' file') (f a) R E) : Triple (At image file) (x >>= f) R E := by
  rintro ⟨_, _, tick⟩ ⟨rfl, rfl⟩
  rw [run_bind_of_ok (hx tick)]
  exact hf _ ⟨rfl, rfl⟩

theorem bind_error_at {e : Stop HksErrorCode}
    (hx : ∀ tick, x.run ⟨image, file, tick⟩ = .error e ⟨image', file', tick⟩) (hE : ∀ s, At image' file' s → E e s) :
    Triple (At image file) (x >>= f) R E := by
  rintro ⟨_, _, tick⟩ ⟨rfl, rfl⟩
  rw [run_bind_of_error (hx tick)]
  exact hE _ ⟨rfl, rfl⟩

theorem triple_at (hx : ∀ tick, x.run ⟨image, file, tick⟩ = .ok a ⟨image', file', tick⟩)
    (hQ : ∀ s, At image' file' s → Q a s) : Triple (At image file) x Q E := by
  rintro ⟨_, _, tick⟩ ⟨rfl, rfl⟩
  rw [hx tick]
  exact hQ _ ⟨rfl, rfl⟩

theorem guard_refuse {c : Prop} [Decidable c] {e : HksErrorCode} {g : PUnit → LiteM β}
    (hrefuse : c → ∀ s, P s → E (.error e) s) (hg : ¬c → Triple P (g ⟨⟩) R E) :
    Triple P (if c then refuse e >>= g else g ⟨⟩) R E := .guard hrefuse hg

theorem nextCall_bind {g : Nat → LiteM β} (h : ∀ tick, Triple (At image file) (g tick) R E) :
    Triple (At image file) (nextCall >>= g) R E := by
  rintro s hs
  exact h s.tick { s with tick := s.tick + 1 } hs

theorem get_bind_at {g : LiteStore → LiteM β} (h : ∀ tick, Triple (At image file) (g ⟨image, file, tick⟩) R E) :
    Triple (At image file) (MonadState.get >>= g) R E := by
  rintro ⟨_, _, tick⟩ ⟨rfl, rfl⟩
  exact h tick ⟨_, _, tick⟩ ⟨rfl, rfl⟩

theorem hksMalloc_bind {env : LiteEnv} {size : Nat} {g : Bool → LiteM β}
    (h : ∀ b, (mallocOk size → env.Quiet → b = true) → Triple (At image file) (g b) R E) :
    Triple (At image file) (hksMalloc env size >>= g) R E := by
  refine nextCall_bind (g := fun tick => pure (mallocOk size && env.malloc tick) >>= g) fun tick => ?_
  refine h _ fun hok hquiet => ?_
  rw [hok, hquiet.malloc, Bool.true_and]

end Rules

section Search

variable {file : Option Bytes} {tick : Nat} {head : HksStoreHeaderInfo} {seen rs : List KeyRecord} {r : KeyRecord}
  {rest keyAlias : Bytes} {offset totalLen : UInt32}

-- Where a record lies in the image.
theorem imageOf_split : imageOf head (seen ++ r :: rs) rest =
    HksStoreHeaderInfo.codec.encode head ++ pack seen ++ (r.bytes ++ (pack rs ++ rest)) := by
  simp only [imageOf, pack_append, pack_cons, List.append_assoc]

theorem length_front : (HksStoreHeaderInfo.codec.encode head ++ pack seen).length =
    headerSize + (pack seen).length := by
  rw [List.length_append, length_encode_header]

theorem keyInfoAt_record (hoffset : offset.toNat = headerSize + (pack seen).length) :
    (keyInfoAt offset).run ⟨some (imageOf head (seen ++ r :: rs) rest), file, tick⟩ =
      .ok r.info ⟨some (imageOf head (seen ++ r :: rs) rest), file, tick⟩ :=
  keyInfoAt_run imageOf_split (by rw [hoffset, length_front])

theorem isKeyAliasAt_record (hoffset : offset.toNat = headerSize + (pack seen).length) :
    (isKeyAliasAt offset r.info keyAlias).run ⟨some (imageOf head (seen ++ r :: rs) rest), file, tick⟩ =
      .ok (decide (r.keyAlias = keyAlias)) ⟨some (imageOf head (seen ++ r :: rs) rest), file, tick⟩ := by
  rw [isKeyAliasAt]
  by_cases hsize : r.info.aliasSize.toNat = keyAlias.length
  case neg =>
    have hne : r.keyAlias ≠ keyAlias := fun h => hsize (by rw [← h, r.length_keyAlias])
    rw [if_neg hsize, decide_eq_false hne]
    rfl
  case pos =>
    have hle := r.keyInfoSize_le
    have hlen : offset.toNat + keyInfoSize + keyAlias.length ≤ (imageOf head (seen ++ r :: rs) rest).length := by
      rw [imageOf_split, List.length_append, length_front, List.length_append, ← hsize]
      omega
    have hslice : slice (imageOf head (seen ++ r :: rs) rest) (offset.toNat + keyInfoSize) keyAlias.length =
        r.keyAlias := by
      rw [slice, imageOf_split, hoffset, ← @length_front head, ← List.drop_drop, List.drop_left,
        List.drop_append_of_le_length (by omega), List.take_append_of_le_length (by rw [List.length_drop]; omega),
        KeyRecord.keyAlias, slice, hsize]
    rw [if_pos hsize, run_bind_of_ok (readImage_run hlen), hslice]
    rfl

-- One round of the search
theorem findKeyAlias_cons (hoffset : offset.toNat = headerSize + (pack seen).length)
    (htotal : totalLen.toNat = headerSize + (pack (seen ++ r :: rs)).length) :
    (findKeyAlias keyAlias totalLen (rs.length + 1) offset).run
        ⟨some (imageOf head (seen ++ r :: rs) rest), file, tick⟩ =
      if r.keyAlias = keyAlias then .ok offset ⟨some (imageOf head (seen ++ r :: rs) rest), file, tick⟩
      else (findKeyAlias keyAlias totalLen rs.length (offset + r.info.keyInfoLen.toUInt32)).run
        ⟨some (imageOf head (seen ++ r :: rs) rest), file, tick⟩ := by
  have hle := r.keyInfoSize_le
  have hkeyInfoLen := r.toNat_keyInfoLen
  rw [pack_append, pack_cons, List.length_append, List.length_append] at htotal
  have hnot : ¬totalLen < offset := by
    rw [UInt32.lt_iff_toNat_lt]
    omega
  have hsub : (totalLen - offset).toNat = r.bytes.length + (pack rs).length := by
    rw [UInt32.toNat_sub_of_le _ _ (by rw [UInt32.le_iff_toNat_le]; omega)]
    omega
  have hfit : ¬(hksIsKeyInfoLenInvalid r.info = true ∨ r.info.keyInfoLen.toUInt32 > totalLen - offset) := by
    rw [not_or, Bool.not_eq_true, gt_iff_lt, UInt32.lt_iff_toNat_lt, hkeyInfoLen, hsub]
    exact ⟨r.valid, by omega⟩
  rw [findKeyAlias]
  simp only
  rw [if_neg (by rw [not_or]; exact ⟨hnot, by omega⟩), run_bind_of_ok (keyInfoAt_record hoffset), if_neg hfit,
    run_bind_of_ok (isKeyAliasAt_record hoffset)]
  simp only [decide_eq_true_eq]
  split
  case isTrue => rfl
  case isFalse => rfl

theorem toNat_next (hoffset : offset.toNat = headerSize + (pack seen).length)
    (hfits : headerSize + (pack (seen ++ r :: rs)).length < 2 ^ 32) :
    (offset + r.info.keyInfoLen.toUInt32).toNat = headerSize + (pack (seen ++ [r])).length := by
  rw [pack_append, pack_cons, List.length_append, List.length_append] at hfits
  rw [UInt32.toNat_add, r.toNat_keyInfoLen, hoffset, pack_append, pack_cons, pack_nil, List.append_nil,
    List.length_append]
  omega

-- The rounds for records of other aliases
theorem findKeyAlias_skip (left rs : List KeyRecord) (hoffset : offset.toNat = headerSize + (pack seen).length)
    (htotal : totalLen.toNat = headerSize + (pack (seen ++ left ++ rs)).length)
    (hleft : ∀ r ∈ left, r.keyAlias ≠ keyAlias) :
    ∃ offset' : UInt32, offset'.toNat = headerSize + (pack (seen ++ left)).length ∧ ∀ tick,
      (findKeyAlias keyAlias totalLen (left ++ rs).length offset).run
          ⟨some (imageOf head (seen ++ left ++ rs) rest), file, tick⟩ =
        (findKeyAlias keyAlias totalLen rs.length offset').run
          ⟨some (imageOf head (seen ++ left ++ rs) rest), file, tick⟩ := by
  induction left generalizing seen offset
  case nil =>
    rw [List.append_nil, List.nil_append]
    exact ⟨offset, hoffset, fun _ => rfl⟩
  case cons r left ih =>
    have hlist : seen ++ r :: left ++ rs = seen ++ r :: (left ++ rs) := by simp
    have hlist' : seen ++ r :: left ++ rs = seen ++ [r] ++ left ++ rs := by simp
    have hfits : headerSize + (pack (seen ++ r :: (left ++ rs))).length < 2 ^ 32 := by
      rw [← hlist, ← htotal]
      exact totalLen.toNat_lt
    have hnext := toNat_next hoffset hfits
    obtain ⟨offset', hoffset', hrun⟩ := ih hnext (hlist' ▸ htotal) fun b hb => hleft b (.tail r hb)
    refine ⟨offset', by simpa using hoffset', fun tick => ?_⟩
    rw [← hlist'] at hrun
    rw [← hrun, hlist, List.cons_append, List.length_cons, findKeyAlias_cons hoffset (hlist ▸ htotal),
      if_neg (hleft r (.head left))]

end Search

section Lookup

variable {image file : Option Bytes} {tick : Nat} {head : HksStoreHeaderInfo} {records pre post : List KeyRecord}
  {r : KeyRecord} {rest keyAlias : Bytes}

theorem Counts.keyCount_eq_zero (h : Counts head records) : head.keyCount = 0 ↔ records = [] := by
  rw [← UInt16.toNat_inj, h.keyCount]
  exact List.length_eq_zero_iff

-- The search starts behind the header.
theorem getKeyOffsetByKeyAlias_eq (hcounts : Counts head records) (hne : records ≠ []) :
    (getKeyOffsetByKeyAlias keyAlias).run ⟨some (imageOf head records rest), file, tick⟩ =
      (findKeyAlias keyAlias head.totalLen records.length headerSize.toUInt32).run
        ⟨some (imageOf head records rest), file, tick⟩ := by
  have hlen := length_imageOf head records rest
  have htotal := hcounts.totalLen
  rw [getKeyOffsetByKeyAlias, run_bind_of_ok hksGetImageBuffer_run]
  simp only
  rw [if_neg (by omega), run_bind_of_ok getHeader_imageOf, if_neg (by rwa [hcounts.keyCount_eq_zero]),
    if_neg (by omega), hcounts.keyCount]

theorem toNat_headerSize : headerSize.toUInt32.toNat = headerSize + (pack []).length := rfl

theorem getKeyOffsetByKeyAlias_found (hcounts : Counts head (pre ++ r :: post))
    (hpre : ∀ b ∈ pre, b.keyAlias ≠ r.keyAlias) :
    ∃ offset : UInt32, offset.toNat = headerSize + (pack pre).length ∧ ∀ tick,
      (getKeyOffsetByKeyAlias r.keyAlias).run ⟨some (imageOf head (pre ++ r :: post) rest), file, tick⟩ =
        .ok offset ⟨some (imageOf head (pre ++ r :: post) rest), file, tick⟩ := by
  obtain ⟨offset, hoffset, hrun⟩ := findKeyAlias_skip pre (r :: post) toNat_headerSize hcounts.totalLen hpre
  refine ⟨offset, hoffset, fun tick => ?_⟩
  rw [List.nil_append] at hrun hoffset
  rw [getKeyOffsetByKeyAlias_eq hcounts (by simp), hrun, List.length_cons,
    findKeyAlias_cons hoffset hcounts.totalLen, if_pos rfl]

theorem getKeyOffsetByKeyAlias_missing (hcounts : Counts head records)
    (hmissing : ∀ b ∈ records, b.keyAlias ≠ keyAlias) :
    (getKeyOffsetByKeyAlias keyAlias).run ⟨some (imageOf head records rest), file, tick⟩ =
      .error (.error .notExist) ⟨some (imageOf head records rest), file, tick⟩ := by
  by_cases hne : records = []
  case pos =>
    have hlen := length_imageOf head records rest
    rw [getKeyOffsetByKeyAlias, run_bind_of_ok hksGetImageBuffer_run]
    simp only
    rw [if_neg (by omega), run_bind_of_ok getHeader_imageOf, if_pos (hcounts.keyCount_eq_zero.mpr hne)]
    rfl
  case neg =>
    obtain ⟨offset, _, hrun⟩ := findKeyAlias_skip records [] toNat_headerSize
      (by simpa using hcounts.totalLen) hmissing
    simp only [List.nil_append, List.append_nil] at hrun
    rw [getKeyOffsetByKeyAlias_eq hcounts hne, hrun]
    rfl

end Lookup

section Delete

variable {file : Option Bytes} {tick : Nat} {head : HksStoreHeaderInfo} {pre post : List KeyRecord} {r : KeyRecord}
  {rest : Bytes} {offset : UInt32}

-- The header once a record is gone
def without (head : HksStoreHeaderInfo) (r : KeyRecord) : HksStoreHeaderInfo :=
  { head with keyCount := head.keyCount - 1, totalLen := head.totalLen - r.info.keyInfoLen.toUInt32 }

theorem length_pack_split : (pack (pre ++ r :: post)).length =
    (pack pre).length + (r.bytes.length + (pack post).length) := by
  rw [pack_append, pack_cons, List.length_append, List.length_append]

theorem toNat_totalLen_sub (hcounts : Counts head (pre ++ r :: post)) :
    (head.totalLen - r.info.keyInfoLen.toUInt32).toNat = headerSize + (pack (pre ++ post)).length := by
  have htotal := hcounts.totalLen
  rw [length_pack_split] at htotal
  rw [UInt32.toNat_sub_of_le _ _ (by rw [UInt32.le_iff_toNat_le, r.toNat_keyInfoLen]; omega), r.toNat_keyInfoLen,
    pack_append, List.length_append]
  omega

theorem Counts.without (hcounts : Counts head (pre ++ r :: post)) : Counts (without head r) (pre ++ post) where
  keyCount := by
    have hcount := hcounts.keyCount
    rw [List.length_append, List.length_cons] at hcount
    have hle : (1 : UInt16) ≤ head.keyCount := by
      rw [UInt16.le_iff_toNat_le]
      show 1 ≤ head.keyCount.toNat
      omega
    rw [StorageLite.without, UInt16.toNat_sub_of_le _ _ hle, List.length_append]
    show head.keyCount.toNat - 1 = _
    omega
  totalLen := toNat_totalLen_sub hcounts

theorem imageOf_gap {gap : Bytes} : imageOf head (pre ++ post) (gap ++ rest) =
    HksStoreHeaderInfo.codec.encode head ++ pack pre ++ pack post ++ gap ++ rest := by
  simp only [imageOf, pack_append, List.append_assoc]

theorem copyOk_iff {destMax count : UInt32} :
    copyOk destMax count ↔ destMax.toNat ≠ 0 ∧ destMax.toNat ≤ 0x7fffffff ∧ count.toNat ≤ destMax.toNat := by
  rw [copyOk, decide_eq_true_iff, ne_eq, ← UInt32.toNat_inj, UInt32.le_iff_toNat_le, UInt32.le_iff_toNat_le]
  rfl

-- The records behind the deleted one move up, and zeros are left behind them.
theorem deleteKey_run (hcounts : Counts head (pre ++ r :: post)) (hsize : head.totalLen.toNat ≤ 0x7fffffff)
    (hoffset : offset.toNat = headerSize + (pack pre).length) :
    (deleteKey offset).run ⟨some (imageOf head (pre ++ r :: post) rest), file, tick⟩ =
      .ok ⟨⟩ ⟨some (imageOf (without head r) (pre ++ post) (.replicate r.bytes.length 0 ++ rest)), file, tick⟩ := by
  obtain ⟨front, hdef⟩ : ∃ front, front = HksStoreHeaderInfo.codec.encode head ++ pack pre := ⟨_, rfl⟩
  obtain ⟨zeros, hzeros⟩ : ∃ zeros, zeros = List.replicate r.bytes.length (0 : UInt8) := ⟨_, rfl⟩
  have hlen : zeros.length = r.bytes.length := by rw [hzeros, List.length_replicate]
  have hnext := toNat_next hoffset (by rw [← hcounts.totalLen]; exact head.totalLen.toNat_lt)
  have hkeyInfoLen := r.toNat_keyInfoLen
  have hfront : offset.toNat = front.length := by rw [hoffset, hdef, length_front]
  have htotal := hcounts.totalLen
  rw [length_pack_split] at htotal
  rw [pack_append, pack_cons, pack_nil, List.append_nil, List.length_append] at hnext
  have himage : imageOf head (pre ++ r :: post) rest = front ++ r.bytes ++ (pack post ++ rest) := by
    rw [imageOf_split, ← List.append_assoc, hdef]
  have hclear : splice (imageOf head (pre ++ r :: post) rest) offset.toNat zeros =
      front ++ zeros ++ pack post ++ rest := by
    rw [himage, hfront, splice_middle hlen, List.append_assoc _ (pack post)]
  have hroom : offset.toNat + zeros.length ≤ (imageOf head (pre ++ r :: post) rest).length := by
    rw [himage, hfront, hlen, List.length_append, List.length_append]
    omega
  rw [deleteKey, run_bind_of_ok getHeader_imageOf, run_bind_of_ok (keyInfoAt_record hoffset)]
  simp only
  rw [if_neg (by rw [gt_iff_lt, UInt32.lt_iff_toNat_lt]; omega), hkeyInfoLen, ← hzeros,
    run_bind_of_ok (writeImage_run hroom), hclear]
  by_cases hlast : offset + r.info.keyInfoLen.toUInt32 < head.totalLen
  case neg =>
    have hpost : pack post = [] := by
      rw [UInt32.lt_iff_toNat_lt] at hlast
      rw [← List.length_eq_zero_iff]
      omega
    have hgap : front ++ zeros ++ pack post ++ rest = imageOf head (pre ++ post) (zeros ++ rest) := by
      rw [imageOf_gap, hpost, List.append_nil, List.append_nil, hdef]
    rw [if_neg hlast, hgap, run_bind_of_ok getHeader_imageOf, setHeader_imageOf]
    rfl
  case pos =>
    have hlength : (front ++ zeros ++ pack post ++ rest).length =
        front.length + r.bytes.length + (pack post).length + rest.length := by
      simp only [List.length_append, hlen]
    have hbehind : (head.totalLen - (offset + r.info.keyInfoLen.toUInt32)).toNat = (pack post).length := by
      rw [UInt32.toNat_sub_of_le _ _ (UInt32.le_of_lt hlast)]
      omega
    have hfrom : (head.totalLen - offset).toNat = r.bytes.length + (pack post).length := by
      rw [UInt32.toNat_sub_of_le _ _ (by rw [UInt32.le_iff_toNat_le]; omega)]
      omega
    have hmoved : (head.totalLen - r.info.keyInfoLen.toUInt32).toNat = front.length + (pack post).length := by
      rw [toNat_totalLen_sub hcounts, pack_append, List.length_append]
      omega
    have hcopy : copyOk (head.totalLen - offset) (head.totalLen - (offset + r.info.keyInfoLen.toUInt32)) := by
      have hle := r.keyInfoSize_le
      rw [copyOk_iff, hfrom, hbehind]
      omega
    have hread : (readImage (offset + r.info.keyInfoLen.toUInt32).toNat (pack post).length).run
          ⟨some (front ++ zeros ++ pack post ++ rest), file, tick⟩ =
        .ok (pack post) ⟨some (front ++ zeros ++ pack post ++ rest), file, tick⟩ := by
      have hslice : slice (front ++ zeros ++ pack post ++ rest) (offset + r.info.keyInfoLen.toUInt32).toNat
          (pack post).length = pack post := by
        have hpos : (offset + r.info.keyInfoLen.toUInt32).toNat = (front ++ zeros).length := by
          rw [List.length_append]
          omega
        rw [hpos, slice, List.append_assoc (front ++ zeros), List.drop_left, List.take_left]
      rw [readImage_run (by omega), hslice]
    have hwrite : offset.toNat + (pack post).length ≤ (front ++ zeros ++ pack post ++ rest).length := by omega
    have hfill : front.length + (pack post).length + zeros.length ≤
        (splice (front ++ zeros ++ pack post ++ rest) offset.toNat (pack post)).length := by
      rw [length_splice hwrite]
      omega
    have hgap : splice (splice (front ++ zeros ++ pack post ++ rest) offset.toNat (pack post))
        (front.length + (pack post).length) zeros = imageOf head (pre ++ post) (zeros ++ rest) := by
      rw [hfront, splice_gap rfl, imageOf_gap, ← hdef]
    rw [if_pos hlast, if_neg (not_not_intro hcopy), hbehind, hmoved, run_bind_of_ok hread,
      run_bind_of_ok (writeImage_run hwrite), run_bind_of_ok (writeImage_run hfill), hgap,
      run_bind_of_ok getHeader_imageOf, setHeader_imageOf]
    rfl

end Delete

end Huks.StorageLite
