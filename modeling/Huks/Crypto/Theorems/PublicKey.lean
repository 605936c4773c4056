import Huks.Crypto.PublicKey
import Huks.Crypto.Theorems.KeyMaterial

namespace Huks

open EStateM OutBuffer

-- A key as the service keeps it: its algorithm is known, and all its parts are there.
structure StoredKey where
  bytes   : Bytes
  format  : KeyFormat
  alg_eq  : KeyFormat.ofAlg (keyWord bytes 0) = some format
  fits    : format.Fits bytes
  small   : bytes.length ≤ secureMemMaxLen

section Save

theorem toBytes32_ne_nil (w : UInt32) : toBytes32 w ≠ [] := List.cons_ne_nil _ _

variable {s : OutBuffer} {ws : List UInt32} {i : Nat}

theorem writeWords_run (h : 4 * (i + ws.length) ≤ s.room.length) :
    (writeWords i ws).run s = .ok ⟨⟩ { s with room := splice s.room (4 * i) (ws.flatMap toBytes32) } := by
  induction ws generalizing i s
  case nil =>
    rw [List.flatMap_nil, splice_nil]
    rfl
  case cons w ws ih =>
    rw [List.length_cons] at h
    have hroom : 4 * i + (toBytes32 w).length ≤ s.room.length := by
      rw [length_toBytes32]
      omega
    have hnext : 4 * (i + 1 + ws.length) ≤ (splice s.room (4 * i) (toBytes32 w)).length := by
      rw [length_splice hroom]
      omega
    have hoffset : 4 * (i + 1) = 4 * i + (toBytes32 w).length := by
      rw [length_toBytes32]
      omega
    rw [writeWords, run_bind, writeWord, writeAt_run (.inr hroom)]
    change (writeWords (i + 1) ws).run { s with room := splice s.room (4 * i) (toBytes32 w) } = _
    rw [ih hnext, List.flatMap_cons, hoffset, splice_append hroom]

theorem writeWords_outside (h : s.room.length < 4 * (i + ws.length)) (hne : ws ≠ []) :
    ∃ t, (writeWords i ws).run s = .error .outside t := by
  induction ws generalizing i s
  case nil => exact absurd rfl hne
  case cons w ws ih =>
    rw [List.length_cons] at h
    by_cases hroom : 4 * i + (toBytes32 w).length ≤ s.room.length
    case pos =>
      have hlen := length_splice hroom
      rw [length_toBytes32] at hroom
      cases hws : ws
      case nil =>
        rw [hws] at h
        simp at h
        omega
      case cons w' ws' =>
        have ⟨t, ht⟩ := ih (i := i + 1) (s := { s with room := splice s.room (4 * i) (toBytes32 w) })
          (by rw [hlen]; omega) (by rw [hws]; nofun)
        refine ⟨t, ?_⟩
        rw [writeWords, run_bind, writeWord, writeAt_run (.inr hroom), ← hws]
        exact ht
    case neg =>
      refine ⟨s, ?_⟩
      rw [writeWords, run_bind, writeWord, writeAt_outside (toBytes32_ne_nil w) (by omega)]

theorem length_flatMap_toBytes32 (ws : List UInt32) : (ws.flatMap toBytes32).length = 4 * ws.length := by
  induction ws
  case nil => rfl
  case cons w ws ih =>
    rw [List.flatMap_cons, List.length_append, length_toBytes32, ih, List.length_cons]
    omega

theorem run_reading {α : Type} (x : Except (Stop HksErrorCode) α) (s : OutBuffer) :
    (reading x).run s = match x with
      | .ok a    => .ok a s
      | .error e => .error e s := by
  cases x <;> rfl

variable {input : Bytes} {headerSize src : Nat} {size count : UInt32}

theorem sizeSub_eq {a b : Nat} (hb : b ≤ a) (ha : a < 2 ^ 64) : sizeSub a b = a - b := by
  rw [sizeSub]
  omega

theorem savePublicParts_run (hhead : headerSize = 4 * ws.length) (hsize : size.toNat = headerSize + count.toNat)
    (hread : src + count.toNat ≤ input.length) (hsmall : input.length ≤ secureMemMaxLen)
    (hroom : size.toNat ≤ s.room.length) :
    (savePublicParts input headerSize size ws src count).run s = .ok (count ≠ 0)
      ⟨splice s.room 0 (ws.flatMap toBytes32 ++ slice input src count.toNat), size⟩ := by
  have hwords : (ws.flatMap toBytes32).length = headerSize := by rw [length_flatMap_toBytes32, hhead]
  have hslice : (slice input src count.toNat).length = count.toNat := length_slice hread
  have hfirst : 0 + (ws.flatMap toBytes32).length ≤ s.room.length := by omega
  have hmax : sizeSub size.toNat headerSize = count.toNat := by
    rw [sizeSub_eq (by omega) (lt_trans size.toNat_lt (by decide)), hsize, Nat.add_sub_cancel_left]
  rw [savePublicParts, run_bind, setSize_run]
  change (writeWords 0 ws >>= _).run { s with size } = _
  rw [run_bind, writeWords_run (by dsimp only; omega)]
  change (reading (readAt input src count.toNat) >>= _).run _ = _
  rw [run_bind, run_reading, readAt, if_pos (.inr hread)]
  change (memcpyInto headerSize (sizeSub size.toNat headerSize) (slice input src count.toNat)).run _ = _
  rw [hmax]
  by_cases hcount : count.toNat = 0
  case pos =>
    have hzero : count = 0 := UInt32.toNat_inj.mp hcount
    rw [memcpyInto, if_pos (.inl hcount), hzero]
    simp [slice]
  case neg =>
    have hne : count ≠ 0 := fun h => hcount (by rw [h]; rfl)
    have hplace : headerSize = 0 + (ws.flatMap toBytes32).length := by omega
    rw [memcpyInto_run ⟨hcount, by omega⟩ (by omega) (.inr (by rw [length_splice hfirst]; omega)), Nat.mul_zero]
    dsimp only
    rw [hplace, splice_append hfirst, decide_eq_true hne]

theorem savePublicParts_outside (hhead : headerSize = 4 * ws.length) (hne : ws ≠ [])
    (hsize : size.toNat = headerSize + count.toNat) (hread : src + count.toNat ≤ input.length)
    (hsmall : input.length ≤ secureMemMaxLen) (hroom : s.room.length < size.toNat) :
    ∃ t, (savePublicParts input headerSize size ws src count).run s = .error .outside t := by
  have hmax : sizeSub size.toNat headerSize = count.toNat := by
    rw [sizeSub_eq (by omega) (lt_trans size.toNat_lt (by decide)), hsize, Nat.add_sub_cancel_left]
  have hslice : (slice input src count.toNat).length = count.toNat := length_slice hread
  rw [savePublicParts, run_bind, setSize_run]
  change ∃ t, (writeWords 0 ws >>= _).run { s with size } = _
  by_cases hfirst : headerSize ≤ s.room.length
  case pos =>
    have hwords : 0 + (ws.flatMap toBytes32).length ≤ s.room.length := by
      rw [length_flatMap_toBytes32]
      omega
    rw [run_bind, writeWords_run (by dsimp only; omega)]
    change ∃ t, (reading (readAt input src count.toNat) >>= _).run _ = _
    rw [run_bind, run_reading, readAt, if_pos (.inr hread)]
    change ∃ t, (memcpyInto headerSize (sizeSub size.toNat headerSize) (slice input src count.toNat)).run _ = _
    have hparts : slice input src count.toNat ≠ [] := List.ne_nil_of_length_pos (by omega)
    rw [hmax, memcpyInto_outside ⟨by omega, by omega⟩ (by omega) hparts
      (by rw [Nat.mul_zero, length_splice hwords]; omega)]
    exact ⟨_, rfl⟩
  case neg =>
    obtain ⟨t, ht⟩ := writeWords_outside (s := { s with size }) (i := 0) (by dsimp only; omega) hne
    rw [run_bind, ht]
    exact ⟨t, rfl⟩

end Save

namespace KeyFormat

variable (format : KeyFormat) (key : Bytes)

-- The header of the public key: what is not public is 0.
def publicHeader : List UInt32 :=
  let word := keyWord key
  match format with
  | rsa | ecc  => [word 0, word 1, word 2, word 3, 0]
  | dsa        => [word 0, word 1, 0, word 3, word 4, word 5, word 6]
  | dh         => [word 0, word 1, word 2, 0, 0]
  | curve25519 => [word 0, word 1, word 2, 0, word 4]

-- Where the public parts lie in the key, and how many bytes they are.
def publicStart : Nat :=
  match format with
  | dsa => 28 + (keyWord key 2).toNat
  | _   => 20

def publicCount : Nat :=
  let word i := (keyWord key i).toNat
  match format with
  | rsa | ecc       => word 2 + word 3
  | dsa             => word 3 + word 4 + word 5 + word 6
  | dh | curve25519 => word 2

def publicKey : Bytes :=
  (format.publicHeader key).flatMap toBytes32 ++ slice key (format.publicStart key) (format.publicCount key)

def publicSize : Nat := format.headerSize + format.publicCount key

theorem length_publicHeader : 4 * (format.publicHeader key).length = format.headerSize := by
  cases format <;> rfl

theorem publicParts_fit (h : format.Fits key) :
    format.publicStart key + format.publicCount key ≤ key.length := by
  have hfits := h.2
  cases format <;> simp [declaredSize, headerSize, sizeWords, publicStart, publicCount] at hfits ⊢ <;> omega

end KeyFormat

-- How the export of a key to a room of its caller has to end.
def ExportEnds (key : StoredKey) (room : Bytes) : Result (Stop HksErrorCode) OutBuffer PUnit → Prop
  | .ok _ out                 => key.format.publicSize key.bytes ≤ room.length ∧
    out.room = splice room 0 (key.format.publicKey key.bytes) ∧
    out.size.toNat = key.format.publicSize key.bytes
  | .error .outside _         => False
  | .error (.error _) out     => room.length < key.format.publicSize key.bytes → out.room = room

-- The room is large enough, or the routine refuses before it writes.
def ExportSafe (key : StoredKey) (size : UInt32) : Prop :=
  key.format.publicSize key.bytes ≤ size.toNat ∨ key.format = .dh ∨
    (key.format = .ecc ∧ (keyWord key.bytes 2 = 0 ∨ keyWord key.bytes 3 = 0))

section Export

variable {key : StoredKey}

theorem StoredKey.word (i : Nat) (h : 4 * i + 4 ≤ key.format.headerSize) (s : OutBuffer) :
    (reading (readWord key.bytes i)).run s = .ok (keyWord key.bytes i) s := by
  have hfits := key.fits.1
  rw [run_reading, readWord_ok (by omega)]

theorem StoredKey.publicSize_lt : key.format.publicSize key.bytes < UInt32.size := by
  have hfits := KeyFormat.publicParts_fit key.format key.bytes key.fits
  have hsmall := key.small
  have hstart : key.format.headerSize ≤ key.format.publicStart key.bytes := by
    cases key.format <;> simp [KeyFormat.headerSize, KeyFormat.publicStart]
  rw [secureMemMaxLen] at hsmall
  rw [KeyFormat.publicSize, UInt32.size]
  omega

section Saved

variable {s : OutBuffer} {size count : UInt32}
  (hsize : size.toNat = key.format.publicSize key.bytes)
  (hcount : count.toNat = key.format.publicCount key.bytes)
include hsize hcount

theorem StoredKey.save_run (hroom : key.format.publicSize key.bytes ≤ s.room.length) :
    (savePublicParts key.bytes key.format.headerSize size (key.format.publicHeader key.bytes)
      (key.format.publicStart key.bytes) count).run s =
      .ok (count ≠ 0) ⟨splice s.room 0 (key.format.publicKey key.bytes), size⟩ := by
  have hfits := KeyFormat.publicParts_fit key.format key.bytes key.fits
  rw [KeyFormat.publicKey, ← hcount]
  exact savePublicParts_run (KeyFormat.length_publicHeader _ _).symm (by rw [hsize, hcount]; rfl)
    (by rwa [hcount]) key.small (by rwa [hsize])

theorem StoredKey.save_outside (hroom : s.room.length < key.format.publicSize key.bytes) :
    ∃ t, (savePublicParts key.bytes key.format.headerSize size (key.format.publicHeader key.bytes)
      (key.format.publicStart key.bytes) count).run s = .error .outside t := by
  have hfits := KeyFormat.publicParts_fit key.format key.bytes key.fits
  have hne : key.format.publicHeader key.bytes ≠ [] := by
    cases key.format <;> exact List.cons_ne_nil _ _
  exact savePublicParts_outside (KeyFormat.length_publicHeader _ _).symm hne (by rw [hsize, hcount]; rfl)
    (by rwa [hcount]) key.small (by rwa [hsize])

end Saved

variable {room : Bytes} {size : UInt32}

-- The end of an export whose result is that of saving the parts.
theorem save_ends {x : OutM HksErrorCode PUnit} {size' count : UInt32}
    (hsize : size'.toNat = key.format.publicSize key.bytes)
    (hcount : count.toNat = key.format.publicCount key.bytes)
    (hok : ∀ saved t, (savePublicParts key.bytes key.format.headerSize size' (key.format.publicHeader key.bytes)
      (key.format.publicStart key.bytes) count).run ⟨room, size⟩ = .ok saved t →
      x.run ⟨room, size⟩ = .ok ⟨⟩ t ∨ ∃ e, x.run ⟨room, size⟩ = .error (.error e) t)
    (hoff : ∀ t, (savePublicParts key.bytes key.format.headerSize size' (key.format.publicHeader key.bytes)
      (key.format.publicStart key.bytes) count).run ⟨room, size⟩ = .error .outside t →
      x.run ⟨room, size⟩ = .error .outside t) :
    ExportEnds key room (x.run ⟨room, size⟩) ↔ key.format.publicSize key.bytes ≤ room.length := by
  by_cases hroom : key.format.publicSize key.bytes ≤ room.length
  case pos =>
    refine iff_of_true ?_ hroom
    obtain hx | ⟨e, hx⟩ := hok _ _ (key.save_run hsize hcount hroom)
    · rw [hx]
      exact ⟨hroom, rfl, hsize⟩
    · rw [hx]
      exact fun hlt => absurd hroom (by omega)
  case neg =>
    have ⟨t, ht⟩ := key.save_outside (s := ⟨room, size⟩) hsize hcount (Nat.lt_of_not_le hroom)
    rw [hoff t ht]
    exact iff_of_false id hroom

theorem rsa_ends (hformat : key.format = .rsa) :
    ExportEnds key room ((hksOpensslGetRsaPubKey key.bytes).run ⟨room, size⟩) ↔
      key.format.publicSize key.bytes ≤ room.length := by
  have hword (i : Nat) (h : i < 5) (s : OutBuffer) :=
    key.word i (by rw [hformat]; exact (by omega : 4 * i + 4 ≤ 20)) s
  have hlt := key.publicSize_lt
  have hrun : (hksOpensslGetRsaPubKey key.bytes).run ⟨room, size⟩ =
      (discard <| savePublicParts key.bytes key.format.headerSize (20 + keyWord key.bytes 2 + keyWord key.bytes 3)
        (key.format.publicHeader key.bytes) (key.format.publicStart key.bytes)
        (keyWord key.bytes 2 + keyWord key.bytes 3)).run ⟨room, size⟩ := by
    simp only [hksOpensslGetRsaPubKey, run_bind, hword 2 (by decide), hword 3 (by decide), hword 0 (by decide),
      hword 1 (by decide), hformat]
    rfl
  simp only [hformat, KeyFormat.publicSize, KeyFormat.headerSize, KeyFormat.publicCount, UInt32.size] at hlt
  have hcount : (keyWord key.bytes 2 + keyWord key.bytes 3).toNat = key.format.publicCount key.bytes := by
    rw [hformat, toNat_add_of_lt (by rw [UInt32.size]; omega)]
    rfl
  have hsize : (20 + keyWord key.bytes 2 + keyWord key.bytes 3).toNat = key.format.publicSize key.bytes := by
    rw [UInt32.add_assoc, toNat_add_of_lt (by rw [hcount, hformat]; exact hlt), hcount, hformat]
    rfl
  refine save_ends hsize hcount (fun saved t h => .inl ?_) fun t h => ?_
  · rw [hrun, run_discard, h]
  · rw [hrun, run_discard, h]

theorem ecc_ends (hformat : key.format = .ecc) :
    ExportEnds key room ((hksOpensslGetEccPubKey key.bytes).run ⟨room, size⟩) ↔
      key.format.publicSize key.bytes ≤ room.length ∨ keyWord key.bytes 2 = 0 ∨ keyWord key.bytes 3 = 0 := by
  have hword (i : Nat) (h : i < 5) (s : OutBuffer) :=
    key.word i (by rw [hformat]; exact (by omega : 4 * i + 4 ≤ 20)) s
  have hlt := key.publicSize_lt
  by_cases hzero : keyWord key.bytes 2 = 0 ∨ keyWord key.bytes 3 = 0
  case pos =>
    refine iff_of_true ?_ (.inr hzero)
    simp only [hksOpensslGetEccPubKey, run_bind, hword 2 (by decide), hword 3 (by decide), hzero, if_true]
    exact fun _ => rfl
  case neg =>
    have hrun : (hksOpensslGetEccPubKey key.bytes).run ⟨room, size⟩ =
        (discard <| savePublicParts key.bytes key.format.headerSize (20 + keyWord key.bytes 2 + keyWord key.bytes 3)
          (key.format.publicHeader key.bytes) (key.format.publicStart key.bytes)
          (keyWord key.bytes 2 + keyWord key.bytes 3)).run ⟨room, size⟩ := by
      simp only [hksOpensslGetEccPubKey, run_bind, hword 2 (by decide), hword 3 (by decide), hzero, if_false,
        hword 0 (by decide), hword 1 (by decide), hformat]
      rfl
    simp only [hformat, KeyFormat.publicSize, KeyFormat.headerSize, KeyFormat.publicCount, UInt32.size] at hlt
    have hcount : (keyWord key.bytes 2 + keyWord key.bytes 3).toNat = key.format.publicCount key.bytes := by
      rw [hformat, toNat_add_of_lt (by rw [UInt32.size]; omega)]
      rfl
    have hsize : (20 + keyWord key.bytes 2 + keyWord key.bytes 3).toNat = key.format.publicSize key.bytes := by
      rw [UInt32.add_assoc, toNat_add_of_lt (by rw [hcount, hformat]; exact hlt), hcount, hformat]
      rfl
    rw [or_iff_left hzero]
    refine save_ends hsize hcount (fun saved t h => .inl ?_) fun t h => ?_
    · rw [hrun, run_discard, h]
    · rw [hrun, run_discard, h]

theorem dsa_ends (hformat : key.format = .dsa) :
    ExportEnds key room ((hksOpensslGetDsaPubKey key.bytes).run ⟨room, size⟩) ↔
      key.format.publicSize key.bytes ≤ room.length := by
  have hword (i : Nat) (h : i < 7) (s : OutBuffer) :=
    key.word i (by rw [hformat]; exact (by omega : 4 * i + 4 ≤ 28)) s
  have hlt := key.publicSize_lt
  let count := keyWord key.bytes 3 + keyWord key.bytes 4 + keyWord key.bytes 5 + keyWord key.bytes 6
  let outSize := 28 + keyWord key.bytes 3 + keyWord key.bytes 4 + keyWord key.bytes 5 + keyWord key.bytes 6
  have hrun : (hksOpensslGetDsaPubKey key.bytes).run ⟨room, size⟩ =
      (savePublicParts key.bytes key.format.headerSize outSize (key.format.publicHeader key.bytes)
        (key.format.publicStart key.bytes) count >>= fun saved =>
          if ¬saved then refuse .insufficientMemory else pure ⟨⟩).run ⟨room, size⟩ := by
    simp only [hksOpensslGetDsaPubKey, run_bind, hword 2 (by decide), hword 3 (by decide), hword 4 (by decide),
      hword 5 (by decide), hword 6 (by decide), hword 0 (by decide), hword 1 (by decide), hformat]
    rfl
  simp only [hformat, KeyFormat.publicSize, KeyFormat.headerSize, KeyFormat.publicCount, UInt32.size] at hlt
  have hcount : count.toNat = key.format.publicCount key.bytes := by
    have h₃ : (keyWord key.bytes 3 + keyWord key.bytes 4).toNat = _ := toNat_add_of_lt (by rw [UInt32.size]; omega)
    have h₄ : (keyWord key.bytes 3 + keyWord key.bytes 4 + keyWord key.bytes 5).toNat = _ :=
      toNat_add_of_lt (by rw [h₃, UInt32.size]; omega)
    rw [hformat, toNat_add_of_lt (by rw [h₄, h₃, UInt32.size]; omega), h₄, h₃]
    rfl
  have hassoc : outSize = 28 + count := by
    simp only [outSize, count, UInt32.add_assoc]
  have hsize : outSize.toNat = key.format.publicSize key.bytes := by
    rw [hassoc, toNat_add_of_lt (by rw [hcount, hformat]; exact hlt), hcount, hformat]
    rfl
  refine save_ends hsize hcount (fun saved t h => ?_) fun t h => ?_
  · rw [hrun, run_bind, h]
    cases saved
    case true => exact .inl rfl
    case false => exact .inr ⟨_, rfl⟩
  · rw [hrun, run_bind, h]

-- A word that is written into a header.
theorem splice_words (ws : List UInt32) {i : Nat} (h : i < ws.length) (w : UInt32) (rest : Bytes) :
    splice (ws.flatMap toBytes32 ++ rest) (4 * i) (toBytes32 w) = (ws.set i w).flatMap toBytes32 ++ rest := by
  have hfront : ((ws.take i).flatMap toBytes32).length = 4 * i := by
    rw [length_flatMap_toBytes32, List.length_take]
    omega
  have hws : ws = ws.take i ++ ws[i] :: ws.drop (i + 1) := by
    rw [List.cons_getElem_drop_succ, List.take_append_drop]
  have hbytes (v : UInt32) : (ws.take i ++ v :: ws.drop (i + 1)).flatMap toBytes32 ++ rest =
      (ws.take i).flatMap toBytes32 ++ toBytes32 v ++ ((ws.drop (i + 1)).flatMap toBytes32 ++ rest) := by
    simp only [List.flatMap_append, List.flatMap_cons, List.append_assoc]
  have hbytes' := hbytes ws[i]
  rw [← hws] at hbytes'
  rw [List.set_eq_take_append_cons_drop, if_pos h, hbytes, hbytes', ← hfront]
  exact splice_middle rfl

-- The header and the public parts as they lie in the key.
theorem take_publicKey (hhead : key.format.headerSize = 20) (hstart : key.format.publicStart key.bytes = 20) :
    slice key.bytes 0 (key.format.publicSize key.bytes) =
      ((List.range 5).map (keyWord key.bytes)).flatMap toBytes32 ++
        slice key.bytes (key.format.publicStart key.bytes) (key.format.publicCount key.bytes) := by
  have hfits := key.fits.1
  have hwords := take_words key.bytes 5 (by omega)
  rw [KeyFormat.publicSize, hhead, hstart, slice, List.drop_zero, List.take_add, hwords, slice, List.flatMap_map]

theorem writeWord_run {s : OutBuffer} {i : Nat} (h : 4 * i + 4 ≤ s.room.length) (w : UInt32) :
    (writeWord i w).run s = .ok ⟨⟩ { s with room := splice s.room (4 * i) (toBytes32 w) } :=
  writeAt_run (.inr h)

theorem readAt_public (h : key.format.publicStart key.bytes = key.format.headerSize) (s : OutBuffer) :
    (reading (readAt key.bytes 0 (key.format.publicSize key.bytes)) : OutM HksErrorCode Bytes).run s =
      .ok (slice key.bytes 0 (key.format.publicSize key.bytes)) s := by
  have hfits := KeyFormat.publicParts_fit key.format key.bytes key.fits
  rw [run_reading, readAt, if_pos (.inr (by rw [KeyFormat.publicSize, ← h, Nat.zero_add]; exact hfits))]

theorem dh_ends (hformat : key.format = .dh) (hroom : mallocOk room.length) (hlen : room.length = size.toNat) :
    ExportEnds key room ((hksOpensslGetDhPubKey key.bytes).run ⟨room, size⟩) := by
  have hword (i : Nat) (h : i < 5) (s : OutBuffer) :=
    key.word i (by rw [hformat]; exact (by omega : 4 * i + 4 ≤ 20)) s
  have hlt := key.publicSize_lt
  have hfits := KeyFormat.publicParts_fit key.format key.bytes key.fits
  have hsize : key.format.publicSize key.bytes = 20 + (keyWord key.bytes 2).toNat := by rw [hformat]; rfl
  have hin : ¬key.bytes.length < key.format.publicSize key.bytes := by
    rw [hsize]
    rw [hformat] at hfits
    exact Nat.not_lt.mpr hfits
  have hget (s : OutBuffer) : (get : OutM HksErrorCode OutBuffer).run s = .ok s s := rfl
  simp only [hksOpensslGetDhPubKey, run_bind, hword 2 (by decide), ← hsize]
  rw [if_neg hin, run_bind, hget]
  dsimp only
  by_cases hsmall : size.toNat < key.format.publicSize key.bytes
  case pos =>
    rw [if_pos hsmall]
    exact fun _ => rfl
  case neg =>
    rw [mallocOk_iff] at hroom
    have hlength : (slice key.bytes 0 (key.format.publicSize key.bytes)).length = key.format.publicSize key.bytes :=
      length_slice (by rw [Nat.zero_add, hsize]; omega)
    have hmax : size.toNat ≠ 0 ∧ size.toNat ≤ secureMemMaxLen := by
      rw [secureMemMaxLen]
      omega
    have hfit : 0 + (slice key.bytes 0 (key.format.publicSize key.bytes)).length ≤ room.length := by omega
    have hhead : key.format.headerSize = 20 := by rw [hformat]; rfl
    have hstart : key.format.publicStart key.bytes = 20 := by rw [hformat]; rfl
    have hroom₁ := length_splice hfit
    rw [if_neg hsmall]
    simp only [run_bind, readAt_public (hstart.trans hhead.symm), run_discard]
    rw [memcpyInto_run hmax (by omega) (.inr hfit)]
    dsimp only
    rw [writeWord_run (by dsimp only; omega)]
    dsimp only
    rw [writeWord_run (by dsimp only; rw [length_splice (by rw [length_toBytes32]; omega)]; omega)]
    refine ⟨by omega, ?_, ?_⟩
    case refine_1 =>
      have hpublic := take_publicKey hhead hstart
      have hfirst : 12 + (toBytes32 0).length ≤ (slice key.bytes 0 (key.format.publicSize key.bytes)).length := by
        rw [hlength, length_toBytes32]
        omega
      have hsecond := length_splice hfirst
      have hat₃ := splice_splice hfit hfirst
      have hat₄ : splice (splice room 0 (splice (slice key.bytes 0 (key.format.publicSize key.bytes)) 12
          (toBytes32 0))) (0 + 16) (toBytes32 0) = splice room 0 (splice (splice (slice key.bytes 0
            (key.format.publicSize key.bytes)) 12 (toBytes32 0)) 16 (toBytes32 0)) :=
        splice_splice (by omega) (by rw [hsecond, length_toBytes32]; omega)
      rw [Nat.zero_add] at hat₃ hat₄
      change splice (splice (splice room 0 _) 12 (toBytes32 0)) 16 (toBytes32 0) = _
      have hwords₃ := splice_words ((List.range 5).map (keyWord key.bytes)) (i := 3) (by simp) 0
        (slice key.bytes (key.format.publicStart key.bytes) (key.format.publicCount key.bytes))
      have hwords₄ := splice_words (((List.range 5).map (keyWord key.bytes)).set 3 0) (i := 4) (by simp) 0
        (slice key.bytes (key.format.publicStart key.bytes) (key.format.publicCount key.bytes))
      rw [hat₃, hat₄, hpublic, hwords₃, hwords₄, KeyFormat.publicKey, hformat]
      rfl
    case refine_2 => exact UInt32.toNat_ofNat_of_lt' hlt

theorem toNat_outLen (hformat : key.format = .curve25519) :
    (20 + keyWord key.bytes 2).toNat = key.format.publicSize key.bytes := by
  have hlt := key.publicSize_lt
  rw [hformat] at hlt ⊢
  exact toNat_add_of_lt hlt

theorem curve25519_ends (hformat : key.format = .curve25519) (hroom : mallocOk room.length)
    (hlen : room.length = size.toNat) (hfit : key.format.publicSize key.bytes ≤ room.length) :
    ExportEnds key room ((hksOpensslGetEd25519PubKey key.bytes).run ⟨room, size⟩) := by
  have hword (i : Nat) (h : i < 5) (s : OutBuffer) :=
    key.word i (by rw [hformat]; exact (by omega : 4 * i + 4 ≤ 20)) s
  have hlt := key.publicSize_lt
  have hfits := KeyFormat.publicParts_fit key.format key.bytes key.fits
  have hcount := toNat_outLen hformat
  have hhead : key.format.headerSize = 20 := by rw [hformat]; rfl
  have hstart : key.format.publicStart key.bytes = 20 := by rw [hformat]; rfl
  have hsize : 20 ≤ key.format.publicSize key.bytes := by rw [KeyFormat.publicSize, hhead]; omega
  have hlength : (slice key.bytes 0 (key.format.publicSize key.bytes)).length = key.format.publicSize key.bytes :=
    length_slice (by rw [KeyFormat.publicSize, hhead]; omega)
  have hget (s : OutBuffer) : (get : OutM HksErrorCode OutBuffer).run s = .ok s s := rfl
  rw [mallocOk_iff] at hroom
  have hmax : size.toNat ≠ 0 ∧ size.toNat ≤ secureMemMaxLen := by
    rw [secureMemMaxLen]
    omega
  have hin : 0 + (slice key.bytes 0 (key.format.publicSize key.bytes)).length ≤ room.length := by omega
  have hroom₁ := length_splice hin
  simp only [hksOpensslGetEd25519PubKey, run_bind, hword 2 (by decide), hcount,
    readAt_public (hstart.trans hhead.symm), hget]
  rw [memcpyInto_run hmax (by omega) (.inr hin)]
  simp only [if_true, run_bind]
  rw [writeWord_run (by dsimp only; omega)]
  refine ⟨hfit, ?_, hcount⟩
  have hfirst : 12 + (toBytes32 0).length ≤ (slice key.bytes 0 (key.format.publicSize key.bytes)).length := by
    rw [hlength, length_toBytes32]
    omega
  have hat₃ := splice_splice hin hfirst
  have hwords₃ := splice_words ((List.range 5).map (keyWord key.bytes)) (i := 3) (by simp) 0
    (slice key.bytes (key.format.publicStart key.bytes) (key.format.publicCount key.bytes))
  rw [Nat.zero_add] at hat₃
  change splice (splice room 0 _) 12 (toBytes32 0) = _
  rw [hat₃, take_publicKey hhead hstart, hwords₃, KeyFormat.publicKey, hformat]
  rfl

-- With less room than the public key the room is filled with zeros.
theorem curve25519_small (hformat : key.format = .curve25519) (hroom : mallocOk room.length)
    (hlen : room.length = size.toNat) (hsmall : room.length < key.format.publicSize key.bytes) :
    (hksOpensslGetEd25519PubKey key.bytes).run ⟨room, size⟩ =
      .error (.error .insufficientMemory) ⟨splice room 0 (.replicate size.toNat 0), size⟩ := by
  have hword (i : Nat) (h : i < 5) (s : OutBuffer) :=
    key.word i (by rw [hformat]; exact (by omega : 4 * i + 4 ≤ 20)) s
  have hlt := key.publicSize_lt
  have hfits := KeyFormat.publicParts_fit key.format key.bytes key.fits
  have hcount := toNat_outLen hformat
  have hhead : key.format.headerSize = 20 := by rw [hformat]; rfl
  have hstart : key.format.publicStart key.bytes = 20 := by rw [hformat]; rfl
  have hlength : (slice key.bytes 0 (key.format.publicSize key.bytes)).length = key.format.publicSize key.bytes :=
    length_slice (by rw [KeyFormat.publicSize, hhead]; omega)
  have hget (s : OutBuffer) : (get : OutM HksErrorCode OutBuffer).run s = .ok s s := rfl
  rw [mallocOk_iff] at hroom
  have hmax : size.toNat ≠ 0 ∧ size.toNat ≤ secureMemMaxLen := by
    rw [secureMemMaxLen]
    omega
  simp only [hksOpensslGetEd25519PubKey, run_bind, hword 2 (by decide), hcount,
    readAt_public (hstart.trans hhead.symm), hget]
  rw [memcpyInto_refused hmax (by omega) (by dsimp only; omega)]
  rfl

theorem getPubKey_eq (input : Bytes) (keyAlg : UInt32) : getPubKey input keyAlg =
    match KeyFormat.ofAlg keyAlg with
    | some .rsa        => hksOpensslGetRsaPubKey input
    | some .ecc        => hksOpensslGetEccPubKey input
    | some .dsa        => hksOpensslGetDsaPubKey input
    | some .dh         => hksOpensslGetDhPubKey input
    | some .curve25519 => hksOpensslGetEd25519PubKey input
    | none             => refuse .invalidArgument := by
  rw [getPubKey, KeyFormat.ofAlg]
  repeat' split
  all_goals first | rfl | simp_all

theorem coreExportPublicKey_run (hroom : mallocOk room.length) (hlen : room.length = size.toNat) :
    (coreExportPublicKey (.ok key.bytes)).run ⟨room, size⟩ =
      (getPubKey key.bytes (keyWord key.bytes 0)).run ⟨room, size⟩ := by
  have hfits := key.fits.1
  have hhead : 20 ≤ key.format.headerSize := by cases key.format <;> decide
  have hget (s : OutBuffer) : (get : OutM HksErrorCode OutBuffer).run s = .ok s s := rfl
  have hsize : size ≠ 0 := by
    rintro rfl
    rw [hlen] at hroom
    exact absurd hroom (by decide)
  have hne : key.bytes ≠ [] := List.ne_nil_of_length_pos (by omega)
  rw [coreExportPublicKey, run_bind, hget]
  dsimp only
  rw [if_neg hsize]
  change (hksCryptoHalGetPubKey key.bytes).run ⟨room, size⟩ = _
  rw [hksCryptoHalGetPubKey, run_bind, hget]
  dsimp only
  rw [if_neg (by simp [hsize, hne]), if_neg (by omega), run_bind, key.word 0 (by omega)]

-- The export ends well for all contents of the room exactly where the room is large enough, or the
-- routine refuses before it writes.
theorem exportPublicKey_iff (key : StoredKey) (size : UInt32) (hsize : mallocOk size.toNat) :
    (∀ room : Bytes, room.length = size.toNat →
      ExportEnds key room ((coreExportPublicKey (.ok key.bytes)).run ⟨room, size⟩)) ↔ ExportSafe key size := by
  have hones : (List.replicate size.toNat (1 : UInt8)).length = size.toNat := List.length_replicate
  have hall {p : Bytes → Prop} {c : Prop} (h : ∀ room, room.length = size.toNat → (p room ↔ c)) :
      (∀ room, room.length = size.toNat → p room) ↔ c :=
    ⟨fun hp => (h _ hones).mp (hp _ hones), fun hc room hlen => (h room hlen).mpr hc⟩
  have hrun {x : OutM HksErrorCode PUnit} (hx : getPubKey key.bytes (keyWord key.bytes 0) = x) (room : Bytes)
      (hlen : room.length = size.toNat) : (coreExportPublicKey (.ok key.bytes)).run ⟨room, size⟩ =
        x.run ⟨room, size⟩ := by
    rw [← hx]
    exact coreExportPublicKey_run (by rwa [hlen]) hlen
  have halg := key.alg_eq
  cases hformat : key.format
  all_goals
    rw [hformat] at halg
    have hroutine := getPubKey_eq key.bytes (keyWord key.bytes 0)
    rw [halg] at hroutine
  case rsa =>
    have hsafe : ExportSafe key size ↔ key.format.publicSize key.bytes ≤ size.toNat := by
      simp [ExportSafe, hformat]
    rw [hsafe]
    exact hall fun room hlen => by rw [hrun hroutine room hlen, rsa_ends hformat, hlen]
  case ecc =>
    have hsafe : ExportSafe key size ↔ key.format.publicSize key.bytes ≤ size.toNat ∨
        keyWord key.bytes 2 = 0 ∨ keyWord key.bytes 3 = 0 := by
      simp [ExportSafe, hformat]
    rw [hsafe]
    exact hall fun room hlen => by rw [hrun hroutine room hlen, ecc_ends hformat, hlen]
  case dsa =>
    have hsafe : ExportSafe key size ↔ key.format.publicSize key.bytes ≤ size.toNat := by
      simp [ExportSafe, hformat]
    rw [hsafe]
    exact hall fun room hlen => by rw [hrun hroutine room hlen, dsa_ends hformat, hlen]
  case dh =>
    refine iff_of_true (fun room hlen => ?_) (.inr (.inl hformat))
    rw [hrun hroutine room hlen]
    exact dh_ends hformat (by rwa [hlen]) hlen
  case curve25519 =>
    have hsafe : ExportSafe key size ↔ key.format.publicSize key.bytes ≤ size.toNat := by
      simp [ExportSafe, hformat]
    rw [hsafe]
    constructor
    case mp =>
      intro h
      by_contra hsmall
      have hends := h _ hones
      rw [hrun hroutine _ hones, curve25519_small hformat (by rwa [hones]) hones (by omega)] at hends
      have hzeros : splice (List.replicate size.toNat (1 : UInt8)) 0 (.replicate size.toNat 0) =
          .replicate size.toNat 1 := hends (by omega)
      have hpos : size.toNat ≠ 0 := by
        rintro hzero
        rw [hzero] at hsize
        exact absurd hsize (by decide)
      obtain ⟨n, hn⟩ := Nat.exists_eq_succ_of_ne_zero hpos
      rw [hn, splice] at hzeros
      simp [List.replicate_succ] at hzeros
    case mpr =>
      intro hfit room hlen
      rw [hrun hroutine room hlen]
      exact curve25519_ends hformat (by rwa [hlen]) hlen (by omega)

-- An RSA key with one byte in each of its parts.
def tinyRsaKey : StoredKey where
  bytes  := ([HksKeyAlg.rsa, 2048, 1, 1, 1].flatMap toBytes32) ++ [7, 3, 5]
  format := .rsa
  alg_eq := by decide
  fits   := by decide
  small  := by decide

theorem exportPublicKey_iff_tiny :
    (∀ room : Bytes, room.length = (22 : UInt32).toNat →
      ExportEnds tinyRsaKey room ((coreExportPublicKey (.ok tinyRsaKey.bytes)).run ⟨room, 22⟩)) ↔
        ExportSafe tinyRsaKey 22 :=
  exportPublicKey_iff tinyRsaKey 22 (by decide)

-- The header of the public key alone does not fit into a room of one byte.
theorem exportPublicKey_overruns :
    ¬ExportEnds tinyRsaKey [0] ((coreExportPublicKey (.ok tinyRsaKey.bytes)).run ⟨[0], 1⟩) := by
  have hoff : ∃ t, (coreExportPublicKey (.ok tinyRsaKey.bytes)).run ⟨[0], 1⟩ = .error .outside t := ⟨_, rfl⟩
  have ⟨t, ht⟩ := hoff
  rw [ht]
  exact id

end Export

end Huks
