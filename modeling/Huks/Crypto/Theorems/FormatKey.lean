import Huks.Crypto.Theorems.X509Reading

namespace Huks.InPlace

open OutBuffer

-- The helpers that take a key apart
inductive KeyFormatter
  | rsa | dsa | ecc | dh | curve25519 | fromCurve25519 (isPubKey : Bool) | setCurve25519 (isPubKey : Bool)
  | dsaPubKeyParam
  deriving DecidableEq

-- Parts that lie one behind the other from `start` on
def partsFrom (start : Nat) : List Nat → List (Nat × Nat)
  | []            => []
  | size :: sizes => (start, size) :: partsFrom (start + size) sizes

-- The part lies among the first `n` bytes. Of an empty part nothing is read.
def LiesIn (n : Nat) (part : Nat × Nat) : Prop := part.2 = 0 ∨ part.1 + part.2 ≤ n

theorem partsFrom_liesIn {n start : Nat} {sizes : List Nat} :
    (∀ part ∈ partsFrom start sizes, LiesIn n part) ↔ sizes.sum = 0 ∨ start + sizes.sum ≤ n := by
  induction sizes generalizing start
  case nil => simp [partsFrom]
  case cons size sizes ih =>
    rw [partsFrom, List.forall_mem_cons, ih, LiesIn, List.sum_cons]
    dsimp only
    omega

-- The sizes in the words of the header
def sizesIn (key : Bytes) (words : List Nat) : List Nat := words.map fun i => (keyWord key i).toNat

namespace KeyFormatter

def headerSize : KeyFormatter → Nat
  | dsa | dsaPubKeyParam => 28
  | setCurve25519 _      => 0
  | _                    => 20

-- The words of the header that are added, and whose sum is compared with the size of the input
def sizeWords : KeyFormatter → List Nat
  | rsa | ecc | curve25519 | fromCurve25519 _ => [2, 3]
  | dh                                        => [2]
  | dsa                                       => [3, 4, 5, 6]
  | dsaPubKeyParam                            => [2, 3, 4, 5, 6]
  | setCurve25519 _                           => []

-- The size of the range that is checked. What becomes a key is the input itself.
def checkedSize (key : Bytes) : KeyFormatter → Nat
  | setCurve25519 _ => key.length
  | f               => f.headerSize + (sizesIn key f.sizeWords).sum

variable (word : SizeT) (key : Bytes)

-- The sum that is compared does not wrap in the type in which it is computed.
def SumExact : KeyFormatter → Prop
  | setCurve25519 _               => True
  | curve25519 | fromCurve25519 _ =>
    word.add (word.add 20 (keyWord key 2).toNat) (keyWord key 3).toNat = curve25519.checkedSize key
  | f                             =>
    Confined (fun sum => sum.toNat = f.checkedSize key) (sumSize key f.headerSize.toUInt32 f.sizeWords)

def run (outSize : UInt32) : KeyFormatter → Except (Stop HksErrorCode) Unit
  | rsa                     => discard (formatRsaKey key outSize)
  | dsa                     => discard (formatDsaKey key outSize)
  | ecc                     => discard (formatEccKey key outSize)
  | dh                      => discard (formatDhKey key outSize)
  | curve25519              => discard (formatCurve25519Key word key outSize)
  | fromCurve25519 isPubKey => discard (getCurve25519FromKeyMaterial word isPubKey key)
  | setCurve25519 isPubKey  => discard (setCurve25519KeyMaterial isPubKey key)
  | dsaPubKeyParam          => discard (getDsaPubKeyParam key)

-- The parts that are copied or handed on where the helper comes that far: where each lies in the input,
-- and its size
def copied (outSize : UInt32) : KeyFormatter → Except (Stop HksErrorCode) (List (Nat × Nat))
  | rsa | ecc => do
    discard <| copyPublicKey [2, 3] 4 key
    return partsFrom 20 (sizesIn key [2, 3])
  | dh => do
    discard <| copyPublicKey [2] 3 key
    return partsFrom 20 (sizesIn key [2])
  | dsa => do
    discard <| copyDsaPublicKey key
    return partsFrom (28 + keyWord key 2).toNat (sizesIn key [3, 4, 5, 6])
  | curve25519 => do
    checkFormatCurve25519Key word key outSize
    return partsFrom 20 (sizesIn key [2, 3])
  | fromCurve25519 isPubKey => do
    discard <| getCurve25519FromKeyMaterial word isPubKey key
    return if isPubKey then partsFrom 20 (sizesIn key [2])
      else partsFrom (20 + (keyWord key 2).toNat) (sizesIn key [3])
  | setCurve25519 isPubKey => do
    discard <| setCurve25519KeyMaterial isPubKey key
    return partsFrom 0 [key.length]
  | dsaPubKeyParam => do
    return (← getDsaPubKeyParam key).map fun part => (part.offset.toNat, part.size.toNat)

-- The sum does not wrap, the helper touches nothing but its input and the block that it allocates, and
-- what it copies lies in the range that it has checked.
def StaysInRange (f : KeyFormatter) (outSize : UInt32) : Prop :=
  f.SumExact word key ∧ Inside (f.run word key outSize) ∧
    Confined (fun parts => ∀ part ∈ parts, LiesIn (f.checkedSize key) part) (f.copied word key outSize)

-- The bits of the sum
def width : KeyFormatter → Nat
  | curve25519 | fromCurve25519 _ => word.bits
  | _                             => 32

def NoWrap : KeyFormatter → Prop
  | setCurve25519 _ => True
  | f               => f.checkedSize key < 2 ^ f.width word

end KeyFormatter

section Sums

variable {key : Bytes} {word : SizeT} {words : List Nat} {header : UInt32}

-- The sum as the code has it
theorem sumSize_ok (hwords : ∀ i ∈ words, 4 * i + 4 ≤ key.length) : ∃ sum, sumSize key header words = .ok sum ∧
    sum.toNat = (header.toNat + (sizesIn key words).sum) % 2 ^ 32 := by
  refine ⟨(words.map (keyWord key)).foldl (· + ·) header, ?_, ?_⟩
  · rw [sumSize, mapM_readWord hwords]
    rfl
  · rw [toNat_foldl_add_mod, List.map_map]
    rfl

theorem add_add_eq_iff {a b c : Nat} : word.add (word.add a b) c = a + b + c ↔ a + b + c < 2 ^ word.bits := by
  rw [SizeT.add, SizeT.add, Nat.mod_add_mod]
  exact ⟨fun h => h ▸ Nat.mod_lt _ (Nat.two_pow_pos _), Nat.mod_eq_of_lt⟩

end Sums

section Copies

variable {key : Bytes} {word : SizeT} {words : List Nat} {cleared : Nat}

theorem inside_copyPublicKey (hlen : 20 ≤ key.length) (hwords : ∀ i ∈ words, i < 5) (hcleared : cleared < 5)
    (hwrap : 20 + (sizesIn key words).sum < 2 ^ 32) : Inside (copyPublicKey words cleared key) := by
  obtain ⟨sum, hsum, heq⟩ := @sumSize_ok key words 20 fun i hi => by
    have := hwords i hi
    omega
  have hle : 20 ≤ sum.toNat := by
    rw [heq]
    change 20 ≤ (20 + _) % _
    omega
  rw [inside_iff_confined, copyPublicKey, if_neg (by omega), hsum]
  change Confined _ (if key.length < sum.toNat then _ else _)
  simp only [confined_ite, confined_throw, implies_true, true_and]
  intro hin hm
  have hmax := (mallocOk_iff.mp (not_not.mp hm)).2
  rw [confined_inBlock, contained_bind, contained_discard,
    contained_memcpyFrom ⟨by omega, by rw [secureMemMaxLen]; omega⟩ (Nat.le_refl _)]
  have hslice : (slice key 0 sum.toNat).length = sum.toNat := length_slice (by omega)
  have hroom := freshZeros_size sum.toNat
  refine ⟨.inr (by omega), .inr (by dsimp only; omega), ?_⟩
  rw [writeWord, contained_writeAt]
  refine ⟨.inr ?_, trivial⟩
  dsimp only
  rw [length_splice (by omega), length_toBytes32]
  omega

-- A copy of all that there is room for, where there may be nothing
theorem contained_memcpyFrom_all {S : Prop} {i n j : Nat} {src : Bytes} {s : OutBuffer}
    {rest : OutM HksErrorCode PUnit} (hn : n ≤ secureMemMaxLen) (hroom : i + n ≤ s.room.length)
    (hrest : ∀ t : OutBuffer, t.room.length = s.room.length → (Contained (fun _ _ => S) rest t ↔ S)) :
    Contained (fun _ _ => S) (do discard <| memcpyFrom i n src j n; rest) s ↔ (n = 0 ∨ j + n ≤ src.length) ∧ S := by
  rw [contained_bind, contained_discard]
  by_cases h0 : n = 0
  case pos =>
    rw [memcpyFrom, if_pos (.inl h0), contained_pure, hrest s rfl]
    exact (and_iff_right (.inl h0)).symm
  case neg =>
    rw [contained_memcpyFrom ⟨h0, hn⟩ (Nat.le_refl _)]
    refine and_congr_right fun hsrc => ?_
    have hslice : (slice src j n).length = n := length_slice (by omega)
    rw [hslice, hrest _ (length_splice (by omega))]
    exact and_iff_right (.inr hroom)

-- The second copy begins behind the part that is left out, and nothing relates its end to the input.
theorem confined_copyDsaPublicKey {S : Prop} {total : Nat} (hlen : 28 ≤ key.length)
    (htotal : 28 + (sizesIn key [3, 4, 5, 6]).sum = total) (hwrap : total < 2 ^ 32) :
    Confined (fun _ => S) (copyDsaPublicKey key) ↔ (total ≤ key.length → mallocOk total →
      ((sizesIn key [3, 4, 5, 6]).sum = 0 ∨
        (28 + keyWord key 2).toNat + (sizesIn key [3, 4, 5, 6]).sum ≤ key.length) ∧ S) := by
  obtain ⟨sum, hsum, heq⟩ := @sumSize_ok key [3, 4, 5, 6] 28 (by simp; omega)
  have hvalue : sum.toNat = total := by
    rw [heq, ← htotal]
    exact Nat.mod_eq_of_lt (htotal ▸ hwrap)
  have hparts : (sum - 28).toNat = (sizesIn key [3, 4, 5, 6]).sum := by
    have h28 : (28 : UInt32) ≤ sum := UInt32.le_iff_toNat_le.mpr (by change 28 ≤ _; omega)
    rw [UInt32.toNat_sub_of_le _ _ h28]
    change sum.toNat - 28 = _
    omega
  rw [copyDsaPublicKey, if_neg (by omega), hsum]
  change Confined _ (if key.length < sum.toNat then _ else _) ↔ _
  simp only [confined_ite, confined_throw, implies_true, true_and]
  rw [hvalue, Nat.not_lt, not_not]
  refine imp_congr_right fun hin => imp_congr_right fun hm => ?_
  have hmax := (mallocOk_iff.mp hm).2
  rw [readWord_ok (by omega)]
  change Confined _ (inBlock _ _) ↔ _
  have hheader : (slice key 0 28).length = 28 := length_slice (by omega)
  have hroom := freshZeros_size total
  have hfilled : (splice (.replicate total 0) 0 (slice key 0 28)).length = total := by
    rw [length_splice (by omega), hroom]
  rw [confined_inBlock, hparts, contained_bind, contained_discard,
    contained_memcpyFrom ⟨by omega, by rw [secureMemMaxLen]; omega⟩ (by omega),
    contained_memcpyFrom_all (by rw [secureMemMaxLen]; omega) (by dsimp only; omega)]
  · rw [and_iff_right (.inr (by omega)), and_iff_right (.inr (by dsimp only; omega))]
  · intro t ht
    rw [writeWord, contained_writeAt]
    refine and_iff_right (.inr ?_)
    rw [ht, hfilled, length_toBytes32]
    omega

end Copies

theorem inside_buildParamSetOut (params : List HksParam) (outSize : UInt32) :
    Inside (buildParamSetOut params outSize) := by
  simp only [buildParamSetOut, inside_bind, inside_checked, inside_ite, inside_throw, implies_true, and_self]

section Curve25519

variable {key : Bytes} {word : SizeT} {outSize : UInt32} (hlen : 20 ≤ key.length)
  (hwrap : 20 + (keyWord key 2).toNat + (keyWord key 3).toNat < 2 ^ word.bits)

include hlen hwrap

theorem confined_checkCurve25519KeySize {S : Prop} : Confined (fun _ => S) (checkCurve25519KeySize word key) ↔
    (20 + (keyWord key 2).toNat + (keyWord key 3).toNat ≤ key.length → S) := by
  rw [checkCurve25519KeySize, if_neg (by omega)]
  simp only [confined_bind, confined_readWord, confined_ite, confined_throw, confined_pure, add_add_eq_iff.mpr hwrap,
    Nat.not_lt, implies_true, true_and]
  exact ⟨fun h => h.2.2, fun h => ⟨by omega, by omega, h⟩⟩

theorem confined_checkFormatCurve25519Key {S : Prop}
    (h : 20 + (keyWord key 2).toNat + (keyWord key 3).toNat ≤ key.length → S) :
    Confined (fun _ => S) (checkFormatCurve25519Key word key outSize) := by
  rw [checkFormatCurve25519Key, confined_bind, confined_checkCurve25519KeySize hlen hwrap]
  intro hin
  simp only [confined_bind, confined_readWord, confined_ite, confined_throw, confined_pure, implies_true, true_and]
  exact ⟨by omega, by omega, fun _ _ => h hin⟩

theorem inside_formatCurve25519Key : Inside (formatCurve25519Key word key outSize) := by
  rw [inside_iff_confined, formatCurve25519Key, confined_bind]
  refine confined_checkFormatCurve25519Key hlen hwrap fun hin => ?_
  simp only [confined_bind, confined_readWord, confined_readAt]
  exact ⟨by omega, by omega, .inr (by omega), .inr (by omega),
    inside_iff_confined.mp (inside_buildParamSetOut _ outSize)⟩

theorem inside_getCurve25519FromKeyMaterial (isPubKey : Bool) :
    Inside (getCurve25519FromKeyMaterial word isPubKey key) := by
  rw [inside_iff_confined, getCurve25519FromKeyMaterial, confined_bind, confined_checkCurve25519KeySize hlen hwrap]
  intro hin
  simp only [confined_bind, confined_readWord, confined_ite, confined_throw, implies_true, true_and, confined_inBlock,
    contained_discard, not_not]
  refine ⟨by omega, by omega, fun _ hm => ?_⟩
  have hmax := mallocOk_iff.mp hm
  rw [contained_memcpyFrom ⟨by omega, by rw [secureMemMaxLen]; omega⟩ (Nat.le_refl _)]
  have hsrc : (if isPubKey then 20 else 20 + (keyWord key 2).toNat) +
      (if isPubKey then keyWord key 2 else keyWord key 3).toNat ≤ key.length := by
    cases isPubKey
    case false => exact hin
    case true => exact Nat.le_trans (Nat.le_add_right _ _) hin
  refine ⟨.inr hsrc, .inr ?_, trivial⟩
  rw [length_slice hsrc, freshZeros_size, Nat.zero_add]

end Curve25519

-- A size that wraps makes a block too small for the header, and both copies are refused.
theorem inside_setCurve25519KeyMaterial {key : Bytes} (isPubKey : Bool) :
    Inside (setCurve25519KeyMaterial isPubKey key) := by
  have hsize : 20 + (if isPubKey then key.size else 0) + (if isPubKey then 0 else key.size) = 20 + key.size := by
    cases isPubKey <;> simp
  rw [inside_iff_confined, setCurve25519KeyMaterial]
  simp only [hsize, confined_ite, confined_throw, implies_true, true_and, confined_inBlock, not_not]
  intro hm
  have hmax := (mallocOk_iff.mp hm).2
  have hroom := freshZeros_size (20 + key.size).toNat
  rw [contained_bind]
  refine contained_memcpyInto_any (fun _ => by dsimp only; omega) fun t ht _ => ?_
  refine contained_memcpyInto_any (fun hle => ?_) fun _ _ _ => trivial
  have hbehind : 20 + key.size - 20 = key.size := by rw [UInt32.add_comm, UInt32.add_sub_cancel]
  rw [hbehind, secureMemMaxLen] at hle
  have hadd : (20 + key.size).toNat = 20 + key.size.toNat := toNat_add_of_lt (by change 20 + _ < 2 ^ 32; omega)
  rw [hbehind, ht, hroom, hadd]

section Formatters

variable {key : Bytes} {word : SizeT} {outSize : UInt32} {f : KeyFormatter}

theorem sumSize_exact {words : List Nat} {header : UInt32} {n : Nat} (hwords : ∀ i ∈ words, 4 * i + 4 ≤ key.length)
    (hheader : header.toNat = n) : Confined (fun sum => sum.toNat = n + (sizesIn key words).sum)
      (sumSize key header words) ↔ n + (sizesIn key words).sum < 2 ^ 32 := by
  obtain ⟨sum, hsum, heq⟩ := @sumSize_ok key words header hwords
  rw [hsum, confined_ok, heq, hheader]
  omega

-- The header holds the words that are read of it.
theorem sizeWords_inside (hheader : f.headerSize ≤ key.length) : ∀ i ∈ f.sizeWords, 4 * i + 4 ≤ key.length := by
  have hwords : ∀ i ∈ f.sizeWords, 4 * i + 4 ≤ f.headerSize := by
    cases f <;> simp [KeyFormatter.sizeWords, KeyFormatter.headerSize]
  exact fun i hi => Nat.le_trans (hwords i hi) hheader

theorem checkedSize_curve25519 (key : Bytes) :
    KeyFormatter.curve25519.checkedSize key = 20 + (keyWord key 2).toNat + (keyWord key 3).toNat :=
  (Nat.add_assoc _ _ _).symm

theorem sumExact_iff (hheader : f.headerSize ≤ key.length) : f.SumExact word key ↔ f.NoWrap word key := by
  have hwords := sizeWords_inside hheader
  have hcurve : word.add (word.add 20 (keyWord key 2).toNat) (keyWord key 3).toNat =
      KeyFormatter.curve25519.checkedSize key ↔ KeyFormatter.curve25519.checkedSize key < 2 ^ word.bits := by
    rw [checkedSize_curve25519]
    exact add_add_eq_iff
  cases f
  case curve25519 => exact hcurve
  case fromCurve25519 => exact hcurve
  case setCurve25519 => exact Iff.rfl
  all_goals exact sumSize_exact hwords rfl

theorem noWrap_curve25519 (h : KeyFormatter.curve25519.checkedSize key < 2 ^ word.bits) :
    20 + (keyWord key 2).toNat + (keyWord key 3).toNat < 2 ^ word.bits := by
  rwa [checkedSize_curve25519] at h

theorem inside_discard_iff {α : Type} {x : Except (Stop HksErrorCode) α} : Inside (discard x) ↔ Inside x := by
  rw [inside_iff_confined, inside_iff_confined, confined_discard]

-- A helper that copies from the place that it has checked
theorem covered_of_inside {α : Type} {x : Except (Stop HksErrorCode) α} {start n : Nat} {sizes : List Nat}
    (hin : Inside x) (h : start + sizes.sum ≤ n) :
    Confined (fun parts => ∀ part ∈ parts, LiesIn n part) (do let _ ← x; return partsFrom start sizes) := by
  rw [confined_bind]
  exact hin.confined fun _ => partsFrom_liesIn.mpr (.inr h)

-- The parts of a key for DSA, with offsets that are sums of 32 bits
def keyPartsFrom (start : UInt32) : List UInt32 → List KeyPart
  | []            => []
  | size :: sizes => ⟨start, size⟩ :: keyPartsFrom (start + size) sizes

theorem keyPartsFrom_toNat {start : UInt32} {sizes : List UInt32}
    (h : start.toNat + (sizes.map UInt32.toNat).sum < 2 ^ 32) :
    (keyPartsFrom start sizes).map (fun part => (part.offset.toNat, part.size.toNat)) =
      partsFrom start.toNat (sizes.map UInt32.toNat) := by
  induction sizes generalizing start
  case nil => rfl
  case cons size sizes ih =>
    rw [List.map_cons, List.sum_cons] at h
    have hadd : (start + size).toNat = start.toNat + size.toNat := toNat_add_of_lt (by change _ < 2 ^ 32; omega)
    rw [keyPartsFrom, List.map_cons, ih (by rw [hadd]; omega), List.map_cons, partsFrom, hadd]

-- The public parts lie behind the private one, and all of them were counted.
theorem covered_dsaPubKeyParam (hwrap : KeyFormatter.dsaPubKeyParam.checkedSize key < 2 ^ 32) :
    Confined (fun parts => ∀ part ∈ parts, LiesIn (KeyFormatter.dsaPubKeyParam.checkedSize key) part)
      (KeyFormatter.dsaPubKeyParam.copied word key outSize) := by
  have hsum : KeyFormatter.dsaPubKeyParam.checkedSize key =
      28 + (keyWord key 2).toNat + (sizesIn key [3, 4, 5, 6]).sum := (Nat.add_assoc _ _ _).symm
  have hx : (28 + keyWord key 2).toNat = 28 + (keyWord key 2).toNat :=
    toNat_add_of_lt (by change 28 + _ < 2 ^ 32; omega)
  rw [KeyFormatter.copied, confined_bind, confined_getDsaPubKeyParam]
  intro _
  have hparts : (dsaParts key).map (fun part => (part.offset.toNat, part.size.toNat)) =
      partsFrom (28 + keyWord key 2).toNat (sizesIn key [3, 4, 5, 6]) :=
    @keyPartsFrom_toNat (28 + keyWord key 2) ([3, 4, 5, 6].map (keyWord key)) (by rw [hx]; exact hsum ▸ hwrap)
  change ∀ part ∈ (dsaParts key).map _, _
  rw [hparts, partsFrom_liesIn, hx, hsum]
  exact .inr (Nat.le_refl _)

theorem staysInRange_copyPublicKey {words : List Nat} {cleared : Nat} {x : Except (Stop HksErrorCode) HksParamSet}
    (hx : x = (copyPublicKey words cleared key >>= fun publicKey => formatKeyInner publicKey key outSize))
    (hlen : 20 ≤ key.length) (hwords : ∀ i ∈ words, i < 5) (hcleared : cleared < 5)
    (hwrap : 20 + (sizesIn key words).sum < 2 ^ 32) : Inside (discard x) ∧
      Confined (fun parts => ∀ part ∈ parts, LiesIn (20 + (sizesIn key words).sum) part)
        (do discard <| copyPublicKey words cleared key; return partsFrom 20 (sizesIn key words)) := by
  have hcopy := inside_copyPublicKey hlen hwords hcleared hwrap
  rw [hx, inside_discard_iff, inside_bind]
  exact ⟨⟨hcopy, fun _ _ => inside_buildParamSetOut _ _⟩,
    covered_of_inside (inside_discard_iff.mpr hcopy) (Nat.le_refl _)⟩

-- Where the sum does not wrap, all but one stay in the range.
theorem staysInRange_of_noWrap (hheader : f.headerSize ≤ key.length) (hdsa : f ≠ .dsa) (h : f.NoWrap word key) :
    f.StaysInRange word key outSize := by
  refine ⟨(sumExact_iff hheader).mpr h, ?_⟩
  cases f
  case dsa => exact absurd rfl hdsa
  case rsa => exact staysInRange_copyPublicKey rfl hheader (by decide) (by decide) h
  case ecc => exact staysInRange_copyPublicKey rfl hheader (by decide) (by decide) h
  case dh => exact staysInRange_copyPublicKey rfl hheader (by decide) (by decide) h
  case curve25519 =>
    have hwrap := noWrap_curve25519 h
    have hcheck := inside_iff_confined.mpr
      (@confined_checkFormatCurve25519Key key word outSize hheader hwrap True fun _ => trivial)
    exact ⟨inside_discard_iff.mpr (inside_formatCurve25519Key hheader hwrap),
      covered_of_inside hcheck (Nat.le_refl _)⟩
  case fromCurve25519 isPubKey =>
    have hget := inside_getCurve25519FromKeyMaterial hheader (noWrap_curve25519 h) isPubKey
    refine ⟨inside_discard_iff.mpr hget, ?_⟩
    cases isPubKey
    case false => exact covered_of_inside (inside_discard_iff.mpr hget) (checkedSize_curve25519 key ▸ Nat.le_refl _)
    case true =>
      exact covered_of_inside (inside_discard_iff.mpr hget) (checkedSize_curve25519 key ▸ Nat.le_add_right _ _)
  case setCurve25519 isPubKey =>
    have hset := inside_discard_iff.mpr (@inside_setCurve25519KeyMaterial key isPubKey)
    exact ⟨hset, covered_of_inside hset (by rw [List.sum_singleton, Nat.zero_add]; exact Nat.le_refl _)⟩
  case dsaPubKeyParam =>
    refine ⟨?_, covered_dsaPubKeyParam h⟩
    exact inside_discard_iff.mpr (inside_iff_confined.mpr (confined_getDsaPubKeyParam.mpr fun _ => trivial))

-- Behind the header `FormatDsaKey` copies as many bytes as the public parts have, from the place behind
-- the private part: that is in the range only where there is no such part, or its size wraps the offset
-- back into the header.
def DsaCopyInRange (key : Bytes) : Prop :=
  KeyFormatter.dsa.checkedSize key ≤ key.length → mallocOk (KeyFormatter.dsa.checkedSize key) →
    (sizesIn key [3, 4, 5, 6]).sum = 0 ∨ (28 + keyWord key 2).toNat ≤ 28

theorem staysInRange_dsa (hheader : 28 ≤ key.length) : KeyFormatter.dsa.StaysInRange word key outSize ↔
    KeyFormatter.dsa.NoWrap word key ∧ DsaCopyInRange key := by
  rw [KeyFormatter.StaysInRange, @sumExact_iff key word .dsa hheader]
  refine and_congr_right fun hwrap => ?_
  have hcopy (S : Prop) := @confined_copyDsaPublicKey key S _ hheader rfl hwrap
  have hrun : Inside (KeyFormatter.dsa.run word key outSize) ↔ Confined (fun _ => True) (copyDsaPublicKey key) := by
    rw [KeyFormatter.run, inside_discard_iff, formatDsaKey, inside_bind, inside_iff_confined]
    exact and_iff_left fun _ _ => inside_buildParamSetOut _ _
  rw [hrun, hcopy, KeyFormatter.copied, confined_bind, confined_discard]
  simp only [confined_pure]
  rw [hcopy, partsFrom_liesIn, DsaCopyInRange]
  have hsize : KeyFormatter.dsa.checkedSize key = 28 + (sizesIn key [3, 4, 5, 6]).sum := rfl
  rw [hsize]
  constructor
  case mp =>
    intro h hin hm
    have hcovered := (h.2 hin hm).2
    omega
  case mpr =>
    intro h
    refine ⟨fun hin hm => ⟨?_, trivial⟩, fun hin hm => ⟨?_, ?_⟩⟩
    all_goals
      have hfront := h hin hm
      omega

-- The input of a helper holds the header of its format.
structure FormatInput (f : KeyFormatter) where
  key    : Bytes
  header : f.headerSize ≤ key.length

-- A helper stays in the range that it has checked exactly where the sum of the sizes does not wrap; the
-- one for DSA besides has to copy from the front of the key.
theorem staysInRange_iff (f : KeyFormatter) (word : SizeT) (input : FormatInput f) (outSize : UInt32) :
    f.StaysInRange word input.key outSize ↔
      f.NoWrap word input.key ∧ (f = .dsa → DsaCopyInRange input.key) := by
  by_cases hdsa : f = .dsa
  case pos =>
    subst hdsa
    rw [staysInRange_dsa input.header, forall_prop_of_true rfl]
  case neg =>
    rw [and_iff_left fun h => absurd h hdsa]
    exact ⟨fun h => (sumExact_iff input.header).mp h.1, staysInRange_of_noWrap input.header hdsa⟩

end Formatters

-- The header of a key for DSA with parts of 4 bytes behind a private one of 20, and the 16 bytes that the
-- helper has counted
def dsaKeyMaterial : Bytes :=
  [HksKeyAlg.dsa, 1024, 20, 4, 4, 4, 4].flatMap toBytes32 ++ .replicate 16 1

-- The sizes of this key for RSA have the sum `2 ^ 32 - 16`.
def wrappingRsaMaterial : Bytes := [HksKeyAlg.rsa, 2048, 0xFFFFFFF0, 0, 0].flatMap toBytes32

-- Of the first key the helper reads 16 bytes behind the end, and of the second one it clears a size in a
-- block of four bytes.
theorem staysInRange_dsaKeyMaterial :
    formatDsaKey dsaKeyMaterial 4096 = .error .outside ∧ ¬KeyFormatter.dsa.StaysInRange .bits64 dsaKeyMaterial 4096 ∧
      formatRsaKey wrappingRsaMaterial 4096 = .error .outside ∧
      ¬KeyFormatter.rsa.StaysInRange .bits64 wrappingRsaMaterial 4096 := by
  have hdsa : formatDsaKey dsaKeyMaterial 4096 = .error .outside := rfl
  have hrsa : formatRsaKey wrappingRsaMaterial 4096 = .error .outside := rfl
  refine ⟨hdsa, fun h => ?_, hrsa, fun h => ?_⟩
  · exact inside_discard_iff.mp h.2.1 hdsa
  · exact inside_discard_iff.mp h.2.1 hrsa

end Huks.InPlace
