import Huks.Common.Theorems.Param

namespace Huks

open HksParamSet

-- The entries of a set without what their blobs point at.
def paramWords (ps : List HksParam) : List (UInt32 × UInt64) := ps.map fun p => (p.tag, p.word)

def HksParamSet.words (s : HksParamSet) : List (UInt32 × UInt64) := paramWords s.params

@[simp]
theorem paramWords_nil : paramWords [] = [] := rfl

@[simp]
theorem paramWords_cons (p ps) : paramWords (p :: ps) = (p.tag, p.word) :: paramWords ps := rfl

@[simp]
theorem paramWords_append (ps qs) : paramWords (ps ++ qs) = paramWords ps ++ paramWords qs :=
  List.map_append

@[simp]
theorem length_paramWords (ps) : (paramWords ps).length = ps.length := List.length_map ..

@[simp]
theorem paramWords_relocate (offset : UInt32) (ps : List HksParam) :
    paramWords (relocate offset ps) = paramWords ps := by
  induction ps generalizing offset
  case nil => rfl
  case cons p ps ih =>
    rw [relocate]
    split <;> simp [ih, HksParam.setData]

theorem tags_words {ps qs : List HksParam} (h : paramWords qs = paramWords ps) :
    qs.map HksParam.tag = ps.map HksParam.tag := by
  have h := congrArg (List.map Prod.fst) h
  rw [paramWords, paramWords, List.map_map, List.map_map] at h
  exact h

theorem find?_paramWords (tag : UInt32) (ps : List HksParam) :
    (paramWords ps).find? (·.1 = tag) = (ps.find? (·.tag = tag)).map fun p => (p.tag, p.word) := by
  rw [paramWords, List.find?_map]
  rfl

@[simp]
theorem words_hksInitParamSet : hksInitParamSet.words = [] := rfl

theorem words_entries (s : HksParamSet) : paramWords s.entries = s.words := by
  simp only [HksParamSet.entries, HksParamSet.words, paramWords, List.map_map]
  congr 1
  funext p
  simp only [Function.comp_apply]
  split <;> rfl

theorem hksAddParams_words {s t : HksParamSet} {ps : List HksParam} (h : hksAddParams s ps = .ok t) :
    t.words = s.words ++ paramWords ps := by
  have ⟨_, _, h⟩ := Except.bind_eq_ok.mp h
  have ⟨hparams, _⟩ := addParams_ok h
  rw [HksParamSet.words, hparams, paramWords_append]
  rfl

-- Adding the params one by one gives the same entries.
theorem foldlM_hksAddParams_words {ps : List HksParam} {s t : HksParamSet}
    (h : ps.foldlM (fun s p => hksAddParams s [p]) s = .ok t) : t.words = s.words ++ paramWords ps := by
  induction ps generalizing s
  case nil =>
    cases h
    simp
  case cons p ps ih =>
    have ⟨u, hp, h⟩ := Except.foldlM_cons_eq_ok.mp h
    simp [ih h, hksAddParams_words hp]

theorem freshParams_words {base : Nat} {size : UInt32} {isCopy : Bool} {ps : List HksParam} :
    ∀ {offset offset' : UInt32} {area area' : Bytes} {qs : List HksParam},
      freshParams base size isCopy ps offset area = .ok (qs, offset', area') →
      paramWords qs = paramWords ps := by
  induction ps
  case nil =>
    intro offset offset' area area' qs h
    cases h
    rfl
  case cons p ps ih =>
    intro offset offset' area area' qs h
    rw [freshParams] at h
    split at h
    case isTrue => cases h
    case isFalse =>
      split at h
      case isFalse =>
        obtain ⟨⟨qs', o, a⟩, hrest, h⟩ := Except.bind_eq_ok.mp h
        cases h
        simp [ih hrest]
      case isTrue =>
        split at h
        case isTrue => cases h
        case isFalse =>
          obtain ⟨_, _, h⟩ := Except.bind_eq_ok.mp h
          obtain ⟨⟨qs', o, a⟩, hrest, h⟩ := Except.bind_eq_ok.mp h
          cases h
          simp [ih hrest, HksParam.setData]

theorem freshParamSet_words {s t : HksParamSet} {isCopy : Bool} (h : freshParamSet s isCopy = .ok t) :
    t.words = s.words ∧ t.paramSetSize = s.paramSetSize := by
  have ⟨⟨ps, o, a⟩, hfresh, h⟩ := Except.bind_eq_ok.mp h
  simp only at h
  split at h <;> cases h
  exact ⟨freshParams_words hfresh, rfl⟩

theorem hksFreshParamSet_words {s t : HksParamSet} {isCopy : Bool}
    (h : hksFreshParamSet s isCopy = .ok t) :
    t.words = s.words ∧ t.paramSetSize = s.paramSetSize := by
  have ⟨_, _, h⟩ := Except.bind_eq_ok.mp h
  exact freshParamSet_words h

-- The check reads the size and the number of the entries only.
theorem hksCheckParamSet_congr {s t : HksParamSet} (hsize : t.paramSetSize = s.paramSetSize)
    (hwords : t.words = s.words) :
    hksCheckParamSet t t.paramSetSize = hksCheckParamSet s s.paramSetSize := by
  have hlen : t.params.length = s.params.length := by
    simpa [HksParamSet.words] using congrArg List.length hwords
  simp only [hksCheckParamSet, hsize, hlen]

-- A built set is valid and has the entries that were added.
theorem hksBuildParamSet_words {s t : HksParamSet} (h : hksBuildParamSet s = .ok t) :
    t.words = s.words ∧ hksCheckParamSet t t.paramSetSize = .ok () := by
  have ⟨⟨⟩, hcheck, h⟩ := Except.bind_eq_ok.mp h
  have ⟨hwords, hsize⟩ : t.words = s.words ∧ t.paramSetSize = s.paramSetSize := by
    simp only [buildParamSet] at h
    split at h
    case isFalse => exact hksFreshParamSet_words h
    case isTrue =>
      split at h
      case isTrue => cases h
      case isFalse =>
        exact hksFreshParamSet_words
          (s := { s with area := .replicate (s.paramSetSize.toNat - s.base) 0 }) h
  exact ⟨hwords, hcheck ▸ hksCheckParamSet_congr hsize hwords⟩

theorem hksGetParam_check {s : HksParamSet} {tag : UInt32} {p : HksParam}
    (h : hksGetParam s tag = .ok p) : hksCheckParamSet s s.paramSetSize = .ok () := by
  unfold hksGetParam at h
  cases hc : hksCheckParamSet s s.paramSetSize
  case ok => rfl
  case error => simp [hc] at h

theorem getUInt32_eq_ok {s : HksParamSet} {tag value : UInt32} :
    getUInt32 s tag = .ok value ↔ ∃ p, hksGetParam s tag = .ok p ∧ p.uint32Param = value := by
  unfold getUInt32
  cases hksGetParam s tag <;> simp [Except.map]

-- What a valid set has for a tag whose entries are no blobs.
theorem hksGetParam_word {s : HksParamSet} (h : hksCheckParamSet s s.paramSetSize = .ok ())
    {tag : UInt32} (ht : getTagType tag ≠ .bytes) :
    (hksGetParam s tag).map HksParam.word =
      (s.words.find? (·.1 = tag)).elim (.error .paramNotExist) fun w => .ok w.2 := by
  unfold hksGetParam
  rw [h, HksParamSet.words, find?_paramWords]
  cases s.params.find? (·.tag = tag)
  case none => rfl
  case some p => simp [ht, Except.map]

theorem getUInt32_word (s : HksParamSet) (tag : UInt32) :
    getUInt32 s tag = ((hksGetParam s tag).map HksParam.word).map UInt64.toUInt32 := by
  unfold getUInt32
  cases hksGetParam s tag <;> rfl

theorem toNat_le64_cons (b : UInt8) (bs : Bytes) :
    (le64 (b :: bs)).toNat = (b.toNat + 256 * (le64 bs).toNat) % 2 ^ 64 := by
  have h : (le64 (b :: bs)).toNat = ((le64 bs).toNat <<< 8 % 2 ^ 64) ||| b.toNat := by
    simp [le64]
  have hmod : (le64 bs).toNat <<< 8 % 2 ^ 64 = ((le64 bs).toNat % 2 ^ 56) <<< 8 := by
    rw [Nat.shiftLeft_eq, Nat.shiftLeft_eq]
    omega
  have hb : b.toNat < 2 ^ 8 := b.toNat_lt
  rw [h, hmod, ← Nat.shiftLeft_add_eq_or_of_lt hb, Nat.shiftLeft_eq]
  omega

-- The first `k` bytes of a word that has no more.
theorem toNat_le64_go (k : Nat) {n : UInt64} (h : n.toNat < 256 ^ k) :
    (le64 (toBytes64.go k n)).toNat = n.toNat := by
  induction k generalizing n
  case zero =>
    simp at h
    simp [toBytes64.go, le64, h]
  case succ k ih =>
    have hs : (n >>> 8).toNat = n.toNat / 256 := by
      simp [Nat.shiftRight_eq_div_pow]
    have hk : (n >>> 8).toNat < 256 ^ k := by
      rw [hs, Nat.div_lt_iff_lt_mul (by decide)]
      exact h
    have hn : n.toNat < 2 ^ 64 := n.toNat_lt
    have hb : n.toUInt8.toNat = n.toNat % 256 := by simp
    rw [toBytes64.go, toNat_le64_cons, ih hk, hs, hb]
    omega

theorem le64_toBytes64 (n : UInt64) : le64 (toBytes64 n) = n :=
  UInt64.toNat_inj.mp <| toNat_le64_go 8 n.toNat_lt

@[simp]
theorem length_toBytes64 (n : UInt64) : (toBytes64 n).length = 8 := rfl

@[simp]
theorem length_toBytes32 (n : UInt32) : (toBytes32 n).length = 4 := rfl

theorem toBytes32_eq (n : UInt32) : toBytes32 n = toBytes64.go 4 n.toUInt64 := by
  have hn : n.toNat < 2 ^ 32 := n.toNat_lt
  simp only [toBytes32, toBytes64.go, ← UInt8.toNat_inj, List.cons.injEq, and_true]
  simp [Nat.shiftRight_eq_div_pow]
  omega

-- The word at the head of some bytes.
theorem le32_toBytes32_append (n : UInt32) (bytes : Bytes) : le32 (toBytes32 n ++ bytes) = n := by
  have htake : (toBytes32 n ++ bytes).take 4 = toBytes32 n := List.take_left' rfl
  have hn : n.toUInt64.toNat < 256 ^ 4 := by
    have := n.toNat_lt
    rw [UInt32.toNat_toUInt64]
    omega
  rw [le32, htake, toBytes32_eq, UInt64.toNat_inj.mp (toNat_le64_go 4 hn)]
  simp

theorem toBytes32_le32 (a b c d : UInt8) (bytes : Bytes) :
    toBytes32 (le32 (a :: b :: c :: d :: bytes)) = [a, b, c, d] := by
  have ha := a.toNat_lt
  have hb := b.toNat_lt
  have hc := c.toNat_lt
  have hd := d.toNat_lt
  have hn : (le32 (a :: b :: c :: d :: bytes)).toNat =
      a.toNat + 256 * (b.toNat + 256 * (c.toNat + 256 * d.toNat)) := by
    have hnil : (le64 []).toNat = 0 := rfl
    simp only [le32, List.take_succ_cons, List.take_zero, UInt64.toNat_toUInt32, toNat_le64_cons, hnil]
    omega
  simp only [toBytes32, ← UInt8.toNat_inj, List.cons.injEq, and_true]
  simp only [UInt32.toNat_toUInt8, UInt32.toNat_shiftRight, Nat.shiftRight_eq_div_pow, hn]
  simp
  omega

theorem toBytes32_le32_take (bytes : Bytes) (h : 4 ≤ bytes.length) :
    toBytes32 (le32 bytes) = bytes.take 4 := by
  match bytes, h with
  | a :: b :: c :: d :: bytes, _ => exact toBytes32_le32 a b c d bytes

theorem le64_take_toBytes64_append (n : UInt64) (bytes : Bytes) :
    le64 ((toBytes64 n ++ bytes).take 8) = n := by
  have htake : (toBytes64 n ++ bytes).take 8 = toBytes64 n := List.take_left' rfl
  rw [htake, le64_toBytes64]

-- A sum of sizes that does not leave the 32 bits.
theorem toNat_add_of_lt {a b : UInt32} (h : a.toNat + b.toNat < UInt32.size) : (a + b).toNat = a.toNat + b.toNat := by
  rw [UInt32.toNat_add]
  exact Nat.mod_eq_of_lt h

end Huks
