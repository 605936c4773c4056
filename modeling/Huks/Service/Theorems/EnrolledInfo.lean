import Huks.Common.Theorems.Construction
import Huks.Service.EnrolledInfo

namespace Huks.InPlace

open EStateM OutBuffer

variable {infos : List EnrolledInfoWrap} {index : UInt32} {s : OutBuffer} {info rest : Bytes} {n : Nat}
  {authType : UInt32} {enrolledId : UInt64}

-- What the writer and the reader share: twelve bytes for each entry
def EnrolledInfoWrap.entry (info : EnrolledInfoWrap) : UInt32 × UInt64 := (info.authType, info.enrolledId)

def entryBytes (info : EnrolledInfoWrap) : Bytes := toBytes32 info.authType ++ toBytes64 info.enrolledId

def enrolledBytes (secInfo : SecInfoWrap) : Bytes :=
  toBytes32 secInfo.enrolledInfoLen ++ secInfo.enrolledInfo.flatMap entryBytes

-- At most `n` entries that are there as a whole
def entriesFrom : Nat → Bytes → List (UInt32 × UInt64)
  | 0, _        => []
  | n + 1, info =>
    if 12 ≤ info.length then
      (le32 info, le64 (slice info 4 8)) :: entriesFrom n (info.drop 12)
    else
      []

def completeEntries (info : Bytes) : List (UInt32 × UInt64) := entriesFrom (le32 info).toNat (info.drop 4)

theorem length_entryBytes (info : EnrolledInfoWrap) : (entryBytes info).length = 12 := by
  rw [entryBytes, List.length_append, length_toBytes32, length_toBytes64]

theorem length_flatMap_entryBytes (infos : List EnrolledInfoWrap) :
    (infos.flatMap entryBytes).length = 12 * infos.length := by
  induction infos
  case nil => rfl
  case cons info infos ih =>
    rw [List.flatMap_cons, List.length_append, length_entryBytes, ih, List.length_cons]
    omega

theorem length_enrolledBytes (secInfo : SecInfoWrap) :
    (enrolledBytes secInfo).length = 4 + 12 * secInfo.enrolledInfo.length := by
  rw [enrolledBytes, List.length_append, length_toBytes32, length_flatMap_entryBytes]

-- The reader finds the entries of the writer.

theorem entriesFrom_entryBytes (infos : List EnrolledInfoWrap) :
    entriesFrom infos.length (infos.flatMap entryBytes) = infos.map EnrolledInfoWrap.entry := by
  induction infos
  case nil => rfl
  case cons info infos ih =>
    have hid : slice (entryBytes info ++ infos.flatMap entryBytes) 4 8 = toBytes64 info.enrolledId := by
      rw [entryBytes, slice, List.append_assoc, List.drop_left' (length_toBytes32 _),
        List.take_left' (length_toBytes64 _)]
    rw [List.flatMap_cons, List.length_cons, entriesFrom, if_pos (by simp [length_entryBytes]), hid,
      List.drop_left' (length_entryBytes info), ih, entryBytes, List.append_assoc, le32_toBytes32_append,
      le64_toBytes64]
    rfl

theorem completeEntries_enrolledBytes (secInfo : SecInfoWrap) :
    completeEntries (enrolledBytes secInfo) = secInfo.enrolledInfo.map EnrolledInfoWrap.entry := by
  rw [completeEntries, enrolledBytes, le32_toBytes32_append, List.drop_left' (length_toBytes32 _),
    ← secInfo.length_eq, entriesFrom_entryBytes]

-- The writer

theorem copyEnrolled_run (index : UInt32) (bytes : Bytes) (hroom : s.room.length = s.size.toNat)
    (hmax : s.size.toNat ≤ secureMemMaxLen) (hne : bytes ≠ [])
    (hfits : index.toNat + bytes.length ≤ s.room.length) :
    (copyEnrolled index bytes).run s = .ok ⟨⟩ { s with room := splice s.room index.toNat bytes } := by
  have hpos := List.length_pos_iff.mpr hne
  have hleft : (s.size - index).toNat = s.size.toNat - index.toNat :=
    UInt32.toNat_sub_of_le _ _ (UInt32.le_iff_toNat_le.mpr (by omega))
  rw [copyEnrolled, run_bind, run_get]
  dsimp only
  rw [run_bind, memcpyInto_run (by omega) (by omega) (.inr hfits)]
  rfl

theorem constructEntries_run (infos : List EnrolledInfoWrap) (index : UInt32)
    (hroom : s.room.length = s.size.toNat) (hmax : s.size.toNat ≤ secureMemMaxLen)
    (hfits : index.toNat + 12 * infos.length ≤ s.room.length) : (constructEntries infos index).run s =
      .ok ⟨⟩ { s with room := splice s.room index.toNat (infos.flatMap entryBytes) } := by
  have hsmall : s.size.toNat < UInt32.size := s.size.toNat_lt
  induction infos generalizing index s
  case nil =>
    rw [List.flatMap_nil, splice_nil]
    rfl
  case cons info infos ih =>
    rw [List.length_cons] at hfits
    have hid : (index + 4).toNat = index.toNat + 4 := toNat_add_of_lt (by change _ + 4 < _; omega)
    have hnext : (index + 4 + 8).toNat = index.toNat + 12 := by
      rw [toNat_add_of_lt (by rw [hid]; change _ + 4 + 8 < _; omega), hid]
      rfl
    have hlen : (splice s.room index.toNat (toBytes32 info.authType)).length = s.room.length :=
      length_splice (by rw [length_toBytes32]; omega)
    have hentry : splice (splice s.room index.toNat (toBytes32 info.authType)) (index.toNat + 4)
        (toBytes64 info.enrolledId) = splice s.room index.toNat (entryBytes info) :=
      @splice_append _ s.room (toBytes32 info.authType) _ _ (by rw [length_toBytes32]; omega)
    have hlen' : (splice s.room index.toNat (entryBytes info)).length = s.room.length :=
      length_splice (by rw [length_entryBytes]; omega)
    have hrun := copyEnrolled_run (index + 4) (toBytes64 info.enrolledId)
      (s := { s with room := splice s.room index.toNat (toBytes32 info.authType) })
      (hlen.trans hroom) hmax (by simp [toBytes64, toBytes64.go])
      (by rw [hid, length_toBytes64]; dsimp only; omega)
    rw [constructEntries, run_bind,
      copyEnrolled_run _ _ hroom hmax (by simp [toBytes32]) (by rw [length_toBytes32]; omega)]
    dsimp only at hrun ⊢
    rw [run_bind, hrun]
    dsimp only
    rw [hid, hentry, ih _ (s := ⟨splice s.room index.toNat (entryBytes info), s.size⟩) (hlen'.trans hroom)
      hmax (by dsimp only; omega) hsmall]
    dsimp only
    have happend := @splice_append _ s.room (entryBytes info) index.toNat (infos.flatMap entryBytes)
      (by rw [length_entryBytes]; omega)
    rw [length_entryBytes] at happend
    rw [hnext, happend, List.flatMap_cons]

theorem constructEnrolledInfoBlob_run {secInfo : SecInfoWrap} (hroom : s.room.length = s.size.toNat)
    (hmax : s.size.toNat ≤ secureMemMaxLen) (hlen : s.room.length = (enrolledBytes secInfo).length) :
    (constructEnrolledInfoBlob secInfo).run s = .ok ⟨⟩ { s with room := enrolledBytes secInfo } := by
  have hsize := length_enrolledBytes secInfo
  have hzero : (List.replicate s.size.toNat (0 : UInt8)).length = s.room.length :=
    List.length_replicate.trans hroom.symm
  have hclear : splice s.room 0 (.replicate s.size.toNat 0) = .replicate s.size.toNat 0 := by
    simp [splice, hroom]
  have hcount := copyEnrolled_run 0 (toBytes32 secInfo.enrolledInfoLen)
    (s := { s with room := .replicate s.size.toNat 0 })
    (hzero.trans hroom) hmax (by simp [toBytes32])
    (by rw [length_toBytes32]; dsimp only; rw [UInt32.toNat_zero]; omega)
  have hcounted : (splice (.replicate s.size.toNat 0) 0 (toBytes32 secInfo.enrolledInfoLen)).length =
      s.room.length := by
    rw [length_splice (by rw [length_toBytes32]; omega), hzero]
  have hentries := constructEntries_run secInfo.enrolledInfo 4
    (s := { s with room := splice (.replicate s.size.toNat 0) 0 (toBytes32 secInfo.enrolledInfoLen) })
    (hcounted.trans hroom) hmax (by dsimp only; change 4 + _ ≤ _; omega)
  have hall : splice (splice (.replicate s.size.toNat 0) 0 (toBytes32 secInfo.enrolledInfoLen)) 4
      (secInfo.enrolledInfo.flatMap entryBytes) = enrolledBytes secInfo := by
    have happend := @splice_append _ (.replicate s.size.toNat 0) (toBytes32 secInfo.enrolledInfoLen) 0
      (secInfo.enrolledInfo.flatMap entryBytes) (by rw [length_toBytes32]; omega)
    rw [length_toBytes32] at happend
    rw [happend, ← enrolledBytes, splice, List.drop_of_length_le (by omega)]
    simp
  rw [constructEnrolledInfoBlob, run_bind, run_get]
  dsimp only
  rw [run_bind, run_discard, memsetZero, memcpyInto_run (by omega) (Nat.le_of_eq List.length_replicate)
    (.inr (by omega)), hclear]
  dsimp only
  rw [run_bind, hcount]
  dsimp only at hentries ⊢
  rw [UInt32.toNat_zero, hentries]
  exact congrArg (fun room => Result.ok PUnit.unit (OutBuffer.mk room s.size)) hall

-- `memcpy_s` does not copy into a blob of more than 2 GiB.
theorem constructEnrolledInfoBlob_ok {secInfo : SecInfoWrap} {t : OutBuffer}
    (h : (constructEnrolledInfoBlob secInfo).run s = .ok ⟨⟩ t) : s.size.toNat ≤ secureMemMaxLen := by
  by_contra hmax
  have hclear : (memsetZero s.size.toNat : OutM HksErrorCode Bool).run s = .ok false s := by
    rw [memsetZero, memcpyInto, if_pos (by omega)]
    rfl
  have hcopy : (memcpyInto 0 s.size.toNat (toBytes32 secInfo.enrolledInfoLen) : OutM HksErrorCode Bool).run s =
      .ok false s := by
    rw [memcpyInto, if_pos (by omega)]
    rfl
  rw [constructEnrolledInfoBlob, run_bind, run_get] at h
  dsimp only at h
  rw [run_bind, run_discard, hclear] at h
  dsimp only at h
  rw [run_bind, copyEnrolled, run_bind, run_get] at h
  dsimp only at h
  rw [UInt32.sub_zero, UInt32.toNat_zero, run_bind, hcopy] at h
  cases h

-- The reader

theorem le32_slice (info : Bytes) (i : Nat) : le32 (slice info i 4) = le32 (info.drop i) := by
  rw [le32, le32, slice, List.take_take, Nat.min_self]

theorem entriesFrom_short (h : rest.length < 12) : entriesFrom n rest = [] := by
  cases n
  case zero => rfl
  case succ n => rw [entriesFrom, if_neg (by omega)]

-- A pair that is not in an entry is looked for in everything that the count announces.
theorem confined_matchEnrolledId {Q : Unit → Prop} (hsmall : info.length < UInt32.size)
    (hi : index.toNat ≤ info.length) : Confined Q (matchEnrolledId info authType enrolledId n index) ↔
      ((authType, enrolledId) ∈ entriesFrom n (info.drop index.toNat) → Q ⟨⟩) ∧
      ((authType, enrolledId) ∉ entriesFrom n (info.drop index.toNat) →
        (info.length - index.toNat) % 12 = 0 ∨ n ≤ (info.length - index.toNat) / 12) := by
  induction n generalizing index
  case zero =>
    rw [matchEnrolledId, entriesFrom]
    exact iff_of_true (confined_throw _) ⟨fun h => absurd h List.not_mem_nil, fun _ => .inr (Nat.zero_le _)⟩
  case succ n ih =>
    have hlt : index < info.length.toUInt32 ↔ index.toNat < info.length := by
      rw [UInt32.lt_iff_toNat_lt, Nat.toUInt32, UInt32.toNat_ofNat_of_lt' hsmall]
    rw [matchEnrolledId, confined_ite, hlt]
    by_cases hend : index.toNat < info.length
    case neg =>
      rw [entriesFrom_short (by rw [List.length_drop]; omega)]
      exact iff_of_true ⟨fun h => absurd h hend, fun _ => confined_throw _⟩
        ⟨fun h => absurd h List.not_mem_nil, fun _ => .inl (by omega)⟩
    case pos =>
      rw [and_iff_left fun h => absurd hend h, forall_prop_of_true hend, confined_bind, confined_readAt,
        confined_bind, confined_readAt, confined_ite]
      by_cases hwhole : 12 ≤ info.length - index.toNat
      case neg =>
        -- The rest of an entry lies behind the blob.
        rw [entriesFrom_short (by rw [List.length_drop]; omega)]
        refine iff_of_false (fun h => ?_) fun h => ?_
        · have hid : (index + 4).toNat = index.toNat + 4 := toNat_add_of_lt (by change _ + 4 < _; omega)
          omega
        · have := h.2 List.not_mem_nil
          omega
      case pos =>
        have hid : (index + 4).toNat = index.toNat + 4 := toNat_add_of_lt (by change _ + 4 < _; omega)
        have hnext : (index + 4 + 8).toNat = index.toNat + 12 := by
          rw [toNat_add_of_lt (by rw [hid]; change _ + 4 + 8 < _; omega), hid]
          rfl
        have hentries : entriesFrom (n + 1) (info.drop index.toNat) =
            (le32 (info.drop index.toNat), le64 (slice info (index.toNat + 4) 8)) ::
              entriesFrom n (info.drop (index.toNat + 12)) := by
          rw [entriesFrom, if_pos (by rw [List.length_drop]; omega), slice, List.drop_drop, List.drop_drop, slice]
        rw [and_iff_right (.inr (by omega)), and_iff_right (.inr (by omega)), hid, le32_slice, hentries,
          List.mem_cons, Prod.mk.injEq, ih (by omega), hnext]
        by_cases hmatch : le32 (info.drop index.toNat) = authType ∧ le64 (slice info (index.toNat + 4) 8) = enrolledId
        case pos =>
          rw [and_iff_left fun h => absurd hmatch h, confined_pure]
          exact ⟨fun h => ⟨fun _ => h hmatch, fun h => absurd (.inl ⟨hmatch.1.symm, hmatch.2.symm⟩) h⟩,
            fun h _ => h.1 (.inl ⟨hmatch.1.symm, hmatch.2.symm⟩)⟩
        case neg =>
          have hother : ¬(authType = le32 (info.drop index.toNat) ∧
              enrolledId = le64 (slice info (index.toNat + 4) 8)) :=
            fun h => hmatch ⟨h.1.symm, h.2.symm⟩
          rw [and_iff_right fun h => absurd h hmatch, forall_prop_of_true hmatch, or_iff_right hother]
          have hrest : ((info.length - (index.toNat + 12)) % 12 = 0 ∨ n ≤ (info.length - (index.toNat + 12)) / 12) ↔
              ((info.length - index.toNat) % 12 = 0 ∨ n + 1 ≤ (info.length - index.toNat) / 12) := by
            omega
          rw [hrest]

-- The model over values finds the same pairs.

theorem toNat_le64_lt (bytes : Bytes) (h : bytes.length ≤ 8) : (le64 bytes).toNat < 256 ^ bytes.length := by
  induction bytes
  case nil => decide
  case cons b bytes ih =>
    rw [List.length_cons] at h
    have hlt := ih (by omega)
    have hb : b.toNat < 256 := b.toNat_lt
    have hle : 256 ^ (bytes.length + 1) ≤ 2 ^ 64 := Nat.pow_le_pow_right (by decide : 0 < 256) h
    rw [toNat_le64_cons, List.length_cons]
    rw [Nat.pow_succ] at hle ⊢
    omega

theorem le64_injOn {a b : Bytes} (ha : a.length = 8) (hb : b.length = 8) (h : le64 a = le64 b) : a = b := by
  have hle : a.length ≤ 8 := Nat.le_of_eq ha
  have hlen : a.length = b.length := ha.trans hb.symm
  clear ha hb
  induction a generalizing b
  case nil => exact (List.eq_nil_of_length_eq_zero hlen.symm).symm
  case cons x a ih =>
    match b, hlen with
    | y :: b, hlen =>
      rw [List.length_cons, List.length_cons] at hlen
      rw [List.length_cons] at hle
      have hx : x.toNat < 256 := x.toNat_lt
      have hy : y.toNat < 256 := y.toNat_lt
      have ha := toNat_le64_lt a (by omega)
      have hb := toNat_le64_lt b (by omega)
      have hpow : 256 ^ (a.length + 1) ≤ 2 ^ 64 := Nat.pow_le_pow_right (by decide : 0 < 256) hle
      rw [Nat.pow_succ] at hpow
      have hlen' : b.length = a.length := by omega
      rw [hlen'] at hb
      have hval := congrArg UInt64.toNat h
      rw [toNat_le64_cons, toNat_le64_cons, Nat.mod_eq_of_lt (by omega), Nat.mod_eq_of_lt (by omega)] at hval
      obtain rfl : x = y := UInt8.toNat_inj.mp (by omega)
      have hrest : le64 a = le64 b := UInt64.toNat_inj.mp (by omega)
      rw [ih hrest (by omega) (by omega)]

theorem matchEnrolledId_iff {id : Bytes} {num : UInt32} {fuel : Nat} (hid : id.length = 8)
    (hfuel : rest.length ≤ fuel) :
    Huks.matchEnrolledId authType id fuel num rest = true ↔ (authType, le64 id) ∈ entriesFrom num.toNat rest := by
  induction fuel generalizing num rest
  case zero =>
    rw [entriesFrom_short (by omega)]
    exact iff_of_false Bool.false_ne_true List.not_mem_nil
  case succ fuel ih =>
    rw [Huks.matchEnrolledId]
    by_cases hend : num = 0 ∨ rest = []
    case pos =>
      have hnil : entriesFrom num.toNat rest = [] := by
        obtain rfl | rfl := hend
        · rfl
        · exact entriesFrom_short (by decide)
      rw [if_pos hend, hnil]
      exact iff_of_false Bool.false_ne_true List.not_mem_nil
    case neg =>
      obtain ⟨hnum, hne⟩ := not_or.mp hend
      have hpos := List.length_pos_iff.mpr hne
      have hone : (1 : UInt32).toNat ≤ num.toNat :=
        Nat.one_le_iff_ne_zero.mpr fun h => hnum (UInt32.toNat_inj.mp h)
      have hpred : num.toNat = (num - 1).toNat + 1 := by
        rw [UInt32.toNat_sub_of_le _ _ (UInt32.le_iff_toNat_le.mpr hone)]
        exact (Nat.sub_add_cancel hone).symm
      rw [if_neg hend, hpred, entriesFrom]
      by_cases hwhole : 12 ≤ rest.length
      case neg =>
        -- An entry that is cut has too few bytes for the id.
        have hcut : ¬(le32 rest = authType ∧ (rest.drop 4).take 8 = id) := by
          rintro ⟨_, h⟩
          have := congrArg List.length h
          rw [List.length_take, List.length_drop, hid] at this
          omega
        rw [if_neg hcut, if_neg hwhole, ih (by rw [List.length_drop]; omega),
          entriesFrom_short (by rw [List.length_drop]; omega)]
      case pos =>
        have hlen : (slice rest 4 8).length = 8 := length_slice (by omega)
        rw [if_pos hwhole, List.mem_cons, Prod.mk.injEq, ← ih (by rw [List.length_drop]; omega)]
        change (if le32 rest = authType ∧ slice rest 4 8 = id then _ else _) = true ↔ _
        by_cases hmatch : le32 rest = authType ∧ slice rest 4 8 = id
        case pos =>
          rw [if_pos hmatch, hmatch.1, hmatch.2]
          exact iff_of_true rfl (.inl ⟨rfl, rfl⟩)
        case neg =>
          have hother : ¬(authType = le32 rest ∧ le64 id = le64 (slice rest 4 8)) :=
            fun h => hmatch ⟨h.1.symm, (le64_injOn hid hlen h.2).symm⟩
          rw [if_neg hmatch, or_iff_right hother]

-- The check looks at the entries.
def NeedsEnrolledId (blobAuthType authAccessType : UInt32) : Prop :=
  blobAuthType &&& (HksUserAuthType.face ||| HksUserAuthType.fingerprint) ≠ 0 ∧
    authAccessType &&& HksAuthAccessType.invalidNewBioEnroll ≠ 0

theorem length_getBlobOf {paramSet : Option HksParamSet} {tag : UInt32} (h : getBlobOf paramSet tag = .ok info) :
    info.length < UInt32.size := by
  match paramSet, h with
  | none, h    => cases h
  | some t, h  =>
    obtain ⟨p, _, rfl⟩ := Except.map_eq_ok.mp h
    rw [HksParamSet.blob]
    cases hread : p.read t.base t.area
    case none => exact Nat.succ_pos _
    case some => exact HksParam.length_read hread ▸ p.blobSize.toNat_lt

section

variable {keyBlobParamSet : Option HksParamSet} {authToken : HksUserAuthToken}
  {blobAuthType authAccessType authTokenAuthType : UInt32}

-- What the token says of itself
def tokenPair (authToken : HksUserAuthToken) (authTokenAuthType : UInt32) : UInt32 × UInt64 :=
  (authTokenAuthType, le64 authToken.enrolledId)

theorem confined_verifyEnrolledIdInfoIfNeed {Q : Unit → Prop} (hneed : NeedsEnrolledId blobAuthType authAccessType)
    (hinfo : getBlobOf keyBlobParamSet HksTag.userAuthEnrollIdInfo = .ok info) :
    Confined Q (verifyEnrolledIdInfoIfNeed keyBlobParamSet authToken blobAuthType authAccessType authTokenAuthType) ↔
      (16 ≤ info.length →
        (tokenPair authToken authTokenAuthType ∈ completeEntries info → Q ⟨⟩) ∧
        (tokenPair authToken authTokenAuthType ∉ completeEntries info →
          info.length % 12 = 4 ∨ (le32 info).toNat ≤ (info.length - 4) / 12)) := by
  rw [verifyEnrolledIdInfoIfNeed, if_neg (not_or.mpr hneed), hinfo]
  change Confined Q (if info.length < 16 then _ else _) ↔ _
  rw [confined_ite]
  by_cases hmin : 16 ≤ info.length
  case neg =>
    exact iff_of_true ⟨fun _ => confined_throw _, fun h => absurd (Nat.lt_of_not_le hmin) h⟩ fun h => absurd h hmin
  case pos =>
    rw [and_iff_right fun h => absurd hmin (Nat.not_le_of_lt h), forall_prop_of_true (Nat.not_lt_of_le hmin),
      forall_prop_of_true hmin, confined_bind, confined_readAt, and_iff_right (.inr (by omega)),
      confined_matchEnrolledId (length_getBlobOf hinfo) (by change 4 ≤ _; omega), le32_slice, List.drop_zero]
    have hwhole : (info.length - (4 : UInt32).toNat) % 12 = 0 ↔ info.length % 12 = 4 := by
      change (info.length - 4) % 12 = 0 ↔ _
      omega
    rw [hwhole]
    rfl

-- Where the writer's blob is in the key, the tokens of the list pass.
theorem verifyEnrolledIdInfoIfNeed_enrolled {secInfo : SecInfoWrap}
    (hneed : NeedsEnrolledId blobAuthType authAccessType)
    (hinfo : getBlobOf keyBlobParamSet HksTag.userAuthEnrollIdInfo = .ok (enrolledBytes secInfo))
    (hne : secInfo.enrolledInfo ≠ []) :
    verifyEnrolledIdInfoIfNeed keyBlobParamSet authToken blobAuthType authAccessType authTokenAuthType = .ok ⟨⟩ ↔
      tokenPair authToken authTokenAuthType ∈ secInfo.enrolledInfo.map EnrolledInfoWrap.entry := by
  have hpos := List.length_pos_iff.mpr hne
  refine eq_ok_iff fun S => ?_
  rw [confined_verifyEnrolledIdInfoIfNeed hneed hinfo, completeEntries_enrolledBytes, length_enrolledBytes,
    forall_prop_of_true (by omega)]
  exact and_iff_left fun _ => .inl (by omega)

-- The stored bytes end with an entry, or the count does not go beyond the entries that are there as a
-- whole, or the pair of the token is in one of these.
def ReadsWhole (info : Bytes) (pair : UInt32 × UInt64) : Prop :=
  16 ≤ info.length → info.length % 12 = 4 ∨ (le32 info).toNat ≤ (info.length - 4) / 12 ∨ pair ∈ completeEntries info

theorem verifyEnrolledIdInfoIfNeed_inside (hneed : NeedsEnrolledId blobAuthType authAccessType)
    (hinfo : getBlobOf keyBlobParamSet HksTag.userAuthEnrollIdInfo = .ok info) :
    Confined (fun _ => tokenPair authToken authTokenAuthType ∈ completeEntries info)
        (verifyEnrolledIdInfoIfNeed keyBlobParamSet authToken blobAuthType authAccessType authTokenAuthType) ↔
      ReadsWhole info (tokenPair authToken authTokenAuthType) := by
  rw [confined_verifyEnrolledIdInfoIfNeed hneed hinfo, ReadsWhole, and_iff_right id]
  by_cases hmem : tokenPair authToken authTokenAuthType ∈ completeEntries info
  case pos => simp [hmem]
  case neg => simp [hmem]

-- A check that stays inside finds what the model over values finds.
theorem verifyEnrolledIdInfoIfNeed_accepts (hneed : NeedsEnrolledId blobAuthType authAccessType)
    (hinfo : getBlobOf keyBlobParamSet HksTag.userAuthEnrollIdInfo = .ok info)
    (htoken : authToken.length = HksUserAuthToken.sizeOf)
    (hwhole : ReadsWhole info (tokenPair authToken authTokenAuthType)) :
    verifyEnrolledIdInfoIfNeed keyBlobParamSet authToken blobAuthType authAccessType authTokenAuthType = .ok ⟨⟩ ↔
      Huks.verifyEnrolledIdInfoIfNeed keyBlobParamSet authToken blobAuthType authAccessType authTokenAuthType =
        .ok ⟨⟩ := by
  have hid : authToken.enrolledId.length = 8 := by
    rw [HksUserAuthToken.enrolledId, List.length_take, List.length_drop, htoken]
    rfl
  have hmatch : Huks.matchEnrolledId authTokenAuthType authToken.enrolledId info.length (le32 info)
      (info.drop 4) = true ↔ tokenPair authToken authTokenAuthType ∈ completeEntries info :=
    matchEnrolledId_iff hid (by rw [List.length_drop]; omega)
  have hvalues : Huks.verifyEnrolledIdInfoIfNeed keyBlobParamSet authToken blobAuthType authAccessType
      authTokenAuthType = .ok ⟨⟩ ↔ 16 ≤ info.length ∧ tokenPair authToken authTokenAuthType ∈ completeEntries info := by
    rw [Huks.verifyEnrolledIdInfoIfNeed, if_neg (not_or.mpr hneed), hinfo, ← hmatch]
    change (if info.length < 16 then _ else _) = _ ↔ _
    by_cases hmin : info.length < 16
    case pos =>
      rw [if_pos hmin]
      exact iff_of_false (fun h => by cases h) fun h => absurd h.1 (Nat.not_le_of_lt hmin)
    case neg =>
      rw [if_neg hmin, and_iff_right (Nat.le_of_not_lt hmin)]
      by_cases hm : Huks.matchEnrolledId authTokenAuthType authToken.enrolledId info.length (le32 info)
          (info.drop 4) = true
      case pos =>
        rw [if_neg (not_not.mpr hm)]
        exact iff_of_true rfl hm
      case neg =>
        rw [if_pos hm]
        exact iff_of_false (fun h => by cases h) hm
  rw [hvalues]
  refine eq_ok_iff fun S => ?_
  rw [confined_verifyEnrolledIdInfoIfNeed hneed hinfo, and_imp]
  refine imp_congr_right fun hmin => and_iff_left fun hout => ?_
  exact or_assoc.mpr (hwhole hmin) |>.resolve_right hout

-- The blob of a list, as `AddEnrolledInfoInParamSet` asks for it
theorem toNat_computeEnrolledInfoLen {secInfo : SecInfoWrap}
    (hsize : (enrolledBytes secInfo).length < UInt32.size) :
    (computeEnrolledInfoLen secInfo.enrolledInfoLen).toNat = (enrolledBytes secInfo).length := by
  rw [length_enrolledBytes, secInfo.length_eq] at hsize ⊢
  have hmul : ((4 + 8) * secInfo.enrolledInfoLen).toNat = 12 * secInfo.enrolledInfoLen.toNat := by
    rw [UInt32.toNat_mul]
    exact Nat.mod_eq_of_lt (by change 12 * _ < UInt32.size; omega)
  rw [computeEnrolledInfoLen, toNat_add_of_lt (by rw [hmul]; exact hsize), hmul]
  rfl

-- The set that is built has the blob of the list.
theorem addEnrolledInfoInParamSet_blob {secInfo : SecInfoWrap} {paramSet t : HksParamSet} {ps : List HksParam}
    (a : Accumulated ps paramSet) (hext : ∀ p ∈ ps, p.External)
    (hnew : ∀ p ∈ ps, p.tag ≠ HksTag.userAuthEnrollIdInfo)
    (hsize : (enrolledBytes secInfo).length < UInt32.size)
    (h : addEnrolledInfoInParamSet secInfo paramSet = .ok t) :
    getBlobOf (some t) HksTag.userAuthEnrollIdInfo = .ok (enrolledBytes secInfo) := by
  have hlen := toNat_computeEnrolledInfoLen hsize
  rw [addEnrolledInfoInParamSet, hlen] at h
  by_cases hm : mallocOk (enrolledBytes secInfo).length
  case neg =>
    rw [if_pos hm] at h
    cases h
  case pos =>
    have hmalloc := mallocOk_iff.mp hm
    have hblock : (List.replicate (enrolledBytes secInfo).length (0 : UInt8)).length = (enrolledBytes secInfo).length :=
      List.length_replicate
    have hword : (List.replicate (enrolledBytes secInfo).length (0 : UInt8)).length.toUInt32.toNat =
        (enrolledBytes secInfo).length := by
      rw [hblock, Nat.toUInt32, UInt32.toNat_ofNat_of_lt' hsize]
    have hmax : (List.replicate (enrolledBytes secInfo).length (0 : UInt8)).length.toUInt32.toNat ≤
        secureMemMaxLen := by
      rw [hword, secureMemMaxLen]
      omega
    have hrun := constructEnrolledInfoBlob_run (s := ⟨.replicate (enrolledBytes secInfo).length 0,
      (List.replicate (enrolledBytes secInfo).length (0 : UInt8)).length.toUInt32⟩)
      (hblock.trans hword.symm) hmax hblock
    rw [if_neg (not_not.mpr hm), inBlock_run hrun] at h
    obtain ⟨_, hblob, h⟩ := Except.bind_eq_ok.mp h
    obtain rfl := Except.ok.inj hblob
    obtain ⟨u, hadd, hbuild⟩ := Except.bind_eq_ok.mp h
    rw [checked_eq_ok] at hadd hbuild
    have hext' : ∀ p ∈ ps ++ [HksParam.ofBytes HksTag.userAuthEnrollIdInfo (enrolledBytes secInfo)], p.External :=
      List.forall_mem_append.mpr ⟨hext, by simpa using HksParam.External.ofBytes _ _⟩
    refine ((a.add hadd).carries hext' hbuild).blob (by decide) hsize
      (List.ne_nil_of_length_pos hmalloc.1) ?_
    rw [List.find?_append, List.find?_eq_none.mpr (by simpa using hnew)]
    rfl

end

-- The blob of the writer lets just the tokens of its list pass, also as a part of the set that the service
-- builds. Other bytes are read inside just where an incomplete entry is not reached, and then the check
-- finds what the model over values finds.
theorem enrolledIdInfo_iff {blobAuthType authAccessType : UInt32} (keyBlobParamSet : Option HksParamSet)
    (authToken : HksUserAuthToken) (authTokenAuthType : UInt32) (info : Bytes)
    (hneed : NeedsEnrolledId blobAuthType authAccessType)
    (hinfo : getBlobOf keyBlobParamSet HksTag.userAuthEnrollIdInfo = .ok info) :
    (∀ (secInfo : SecInfoWrap) (s : OutBuffer), secInfo.enrolledInfo ≠ [] →
      4 + 12 * secInfo.enrolledInfo.length < UInt32.size →
      s.size = computeEnrolledInfoLen secInfo.enrolledInfoLen → s.room.length = s.size.toNat →
      (s.size.toNat ≤ secureMemMaxLen → ∃ t, (constructEnrolledInfoBlob secInfo).run s = .ok ⟨⟩ t) ∧
      ∀ t, (constructEnrolledInfoBlob secInfo).run s = .ok ⟨⟩ t → t.room = info →
        (verifyEnrolledIdInfoIfNeed keyBlobParamSet authToken blobAuthType authAccessType authTokenAuthType = .ok ⟨⟩ ↔
          tokenPair authToken authTokenAuthType ∈ secInfo.enrolledInfo.map EnrolledInfoWrap.entry)) ∧
    (∀ (secInfo : SecInfoWrap) (ps : List HksParam) (paramSet t : HksParamSet), secInfo.enrolledInfo ≠ [] →
      4 + 12 * secInfo.enrolledInfo.length < UInt32.size → Accumulated ps paramSet →
      (∀ p ∈ ps, p.External ∧ p.tag ≠ HksTag.userAuthEnrollIdInfo) →
      addEnrolledInfoInParamSet secInfo paramSet = .ok t →
      (verifyEnrolledIdInfoIfNeed (some t) authToken blobAuthType authAccessType authTokenAuthType = .ok ⟨⟩ ↔
        tokenPair authToken authTokenAuthType ∈ secInfo.enrolledInfo.map EnrolledInfoWrap.entry)) ∧
    (Confined (fun _ => tokenPair authToken authTokenAuthType ∈ completeEntries info)
        (verifyEnrolledIdInfoIfNeed keyBlobParamSet authToken blobAuthType authAccessType authTokenAuthType) ↔
      ReadsWhole info (tokenPair authToken authTokenAuthType)) ∧
    (authToken.length = HksUserAuthToken.sizeOf → ReadsWhole info (tokenPair authToken authTokenAuthType) →
      (verifyEnrolledIdInfoIfNeed keyBlobParamSet authToken blobAuthType authAccessType authTokenAuthType = .ok ⟨⟩ ↔
        Huks.verifyEnrolledIdInfoIfNeed keyBlobParamSet authToken blobAuthType authAccessType authTokenAuthType =
          .ok ⟨⟩)) := by
  refine ⟨fun secInfo s hne hsize hs hroom => ?alone, fun secInfo ps paramSet t hne hsize a hps hadd => ?inSet,
    verifyEnrolledIdInfoIfNeed_inside hneed hinfo, verifyEnrolledIdInfoIfNeed_accepts hneed hinfo⟩
  case alone =>
    rw [← length_enrolledBytes] at hsize
    have hlen : s.room.length = (enrolledBytes secInfo).length := by
      rw [hroom, hs, toNat_computeEnrolledInfoLen hsize]
    refine ⟨fun hmax => ⟨_, constructEnrolledInfoBlob_run hroom hmax hlen⟩, fun t hrun ht => ?_⟩
    rw [constructEnrolledInfoBlob_run hroom (constructEnrolledInfoBlob_ok hrun) hlen] at hrun
    cases hrun
    obtain rfl : enrolledBytes secInfo = info := ht
    exact verifyEnrolledIdInfoIfNeed_enrolled hneed hinfo hne
  case inSet =>
    rw [← length_enrolledBytes] at hsize
    have hblob := addEnrolledInfoInParamSet_blob a (fun p hp => (hps p hp).1) (fun p hp => (hps p hp).2) hsize hadd
    exact verifyEnrolledIdInfoIfNeed_enrolled hneed hblob hne

-- The token of a fingerprint that was enrolled under the id 9
def fingerprintToken : HksUserAuthToken :=
  .replicate 48 0 ++ toBytes32 HksUserAuthType.fingerprint ++ .replicate 24 0 ++ toBytes64 9 ++ .replicate 196 0

example : fingerprintToken.length = HksUserAuthToken.sizeOf := by decide +kernel

def fingerprintEntry (enrolledId : UInt64) : Bytes := toBytes32 HksUserAuthType.fingerprint ++ toBytes64 enrolledId

-- A count of two in front of one entry and a byte
def cutInfo : Bytes := toBytes32 2 ++ fingerprintEntry 3 ++ [1]

-- The same count in front of two entries
def wholeInfo : Bytes := toBytes32 2 ++ fingerprintEntry 3 ++ fingerprintEntry 9

def infoParamSet (info : Bytes) : HksParamSet where
  paramSetSize := 32 + info.length.toUInt32
  params       := [.ofBytes HksTag.userAuthEnrollIdInfo info]
  area         := []

theorem getBlobOf_cutInfo : getBlobOf (some (infoParamSet cutInfo)) HksTag.userAuthEnrollIdInfo = .ok cutInfo := by
  decide

theorem getBlobOf_wholeInfo :
    getBlobOf (some (infoParamSet wholeInfo)) HksTag.userAuthEnrollIdInfo = .ok wholeInfo := by
  decide

theorem needsEnrolledId_fingerprint :
    NeedsEnrolledId HksUserAuthType.fingerprint HksAuthAccessType.invalidNewBioEnroll := by
  unfold NeedsEnrolledId
  decide

theorem enrolledIdInfo_whole :
    Confined (fun _ => tokenPair fingerprintToken HksUserAuthType.fingerprint ∈ completeEntries wholeInfo)
      (verifyEnrolledIdInfoIfNeed (some (infoParamSet wholeInfo)) fingerprintToken HksUserAuthType.fingerprint
        HksAuthAccessType.invalidNewBioEnroll HksUserAuthType.fingerprint) :=
  (enrolledIdInfo_iff (some (infoParamSet wholeInfo)) fingerprintToken HksUserAuthType.fingerprint _
    needsEnrolledId_fingerprint getBlobOf_wholeInfo).2.2.1.mpr fun _ => .inl (by decide)

-- The second entry is read behind the blob.
theorem enrolledIdInfo_outside :
    ¬Confined (fun _ => tokenPair fingerprintToken HksUserAuthType.fingerprint ∈ completeEntries cutInfo)
      (verifyEnrolledIdInfoIfNeed (some (infoParamSet cutInfo)) fingerprintToken HksUserAuthType.fingerprint
        HksAuthAccessType.invalidNewBioEnroll HksUserAuthType.fingerprint) := by
  rw [verifyEnrolledIdInfoIfNeed_inside needsEnrolledId_fingerprint getBlobOf_cutInfo]
  unfold ReadsWhole
  decide

end Huks.InPlace
