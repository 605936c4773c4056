import Huks.Lib.Access
import Huks.Lib.Triple

namespace Huks

open EStateM

-- The room behind the pointer of a caller, and the size that goes with it. The size is a variable of
-- its own: what it says need not be the room.
structure OutBuffer where
  room : List UInt8
  size : UInt32

-- The blob of a caller, with its room
structure Destination where
  out  : OutBuffer
  room : out.room.length = out.size.toNat

-- A computation that writes to such a buffer.
abbrev OutM (ε : Type) := EStateM (Stop ε) OutBuffer

namespace OutBuffer

variable {ε : Type}

-- An error of the program.
def refuse {α : Type} (e : ε) : OutM ε α := throw (.error e)

-- What a computation without writes finds.
def reading {α : Type} (x : Except (Stop ε) α) : OutM ε α := MonadExcept.ofExcept x

def setSize (size : UInt32) : OutM ε PUnit := modify fun out => { out with size }

-- The bytes go behind the first `i` of the room. Where there is nothing to write the place does not
-- matter.
def writeAt (i : Nat) (bytes : List UInt8) : OutM ε PUnit := do
  if bytes = [] ∨ i + bytes.length ≤ (← get).room.length then
    modify fun out => { out with room := splice out.room i bytes }
  else
    throw .outside

-- `SECUREC_MEM_MAX_LEN`
def secureMemMaxLen : Nat := 0x7fffffff

-- `memcpy_s`: without room nothing is done; with less room than bytes the room is filled with zeros,
-- and the copy refused.
def memcpyInto (i destMax : Nat) (src : List UInt8) : OutM ε Bool := do
  if destMax = 0 ∨ destMax > secureMemMaxLen then
    return false
  else if src.length ≤ destMax then
    writeAt i src
    return true
  else
    writeAt i (.replicate destMax 0)
    return false

-- `memcpy_s` of the `n` bytes behind the first `j` of a buffer, which are read where they are copied.
def memcpyFrom (i destMax : Nat) (src : List UInt8) (j n : Nat) : OutM ε Bool := do
  if destMax = 0 ∨ destMax > secureMemMaxLen then
    return false
  else if n ≤ destMax then
    writeAt i (← reading (readAt src j n))
    return true
  else
    writeAt i (.replicate destMax 0)
    return false

-- `memset_s` with 0 on all of a buffer
def memsetZero (n : Nat) : OutM ε Bool := memcpyInto 0 n (.replicate n 0)

-- What a block holds when `x` has run on it.
def inBlock {α : Type} (block : List UInt8) (x : OutM ε α) : Except (Stop ε) (List UInt8) :=
  match x.run ⟨block, block.length.toUInt32⟩ with
  | .ok _ t    => .ok t.room
  | .error e _ => .error e

-- Runs `x` on a block of its own, and returns what the block holds at the end.
def onBlock {α : Type} (block : List UInt8) (x : OutM ε α) : OutM ε (α × List UInt8) := fun s =>
  match x.run ⟨block, block.length.toUInt32⟩ with
  | .ok a t    => .ok (a, t.room) s
  | .error e _ => .error e s

theorem inBlock_run {α : Type} {block : List UInt8} {x : OutM ε α} {a : α} {t : OutBuffer}
    (h : x.run ⟨block, block.length.toUInt32⟩ = .ok a t) : inBlock block x = .ok t.room := by
  rw [inBlock, h]

theorem onBlock_run {α : Type} {block : List UInt8} {x : OutM ε α} {a : α} {t : OutBuffer}
    (h : x.run ⟨block, block.length.toUInt32⟩ = .ok a t) (s : OutBuffer) :
    (onBlock block x).run s = .ok (a, t.room) s := by
  simp only [onBlock, EStateM.run] at h ⊢
  rw [h]

theorem reading_run {α : Type} {x : Except (Stop ε) α} {a : α} (h : x = .ok a) (s : OutBuffer) :
    (reading x).run s = .ok a s := by
  rw [h]
  rfl

theorem reading_ok_bind {α β : Type} (a : α) (f : α → OutM ε β) : reading (.ok a) >>= f = f a := rfl

section Writes

variable {i destMax : Nat} {bytes : List UInt8} {s : OutBuffer} {E : Stop ε → OutBuffer → Prop}

theorem setSize_run (size : UInt32) (s : OutBuffer) :
    (setSize size : OutM ε PUnit).run s = .ok ⟨⟩ { s with size } := rfl

theorem writeAt_run (h : bytes = [] ∨ i + bytes.length ≤ s.room.length) :
    (writeAt i bytes : OutM ε PUnit).run s = .ok ⟨⟩ { s with room := splice s.room i bytes } := by
  change (if bytes = [] ∨ i + bytes.length ≤ s.room.length then
    (modify fun out => { out with room := splice out.room i bytes } : OutM ε PUnit)
    else throw .outside).run s = _
  rw [if_pos h]
  rfl

-- Behind what was written last
theorem writeAt_behind {k : Nat} {more : List UInt8} (hk : i + bytes.length = k)
    (h : k + more.length ≤ s.room.length) :
    (writeAt k more : OutM ε PUnit).run { s with room := splice s.room i bytes } =
      .ok ⟨⟩ { s with room := splice s.room i (bytes ++ more) } := by
  have hlen : (splice s.room i bytes).length = s.room.length := length_splice (by omega)
  subst hk
  rw [writeAt_run (.inr (by dsimp only; omega))]
  dsimp only
  rw [splice_append (by omega)]

-- Within what was written last
theorem writeAt_within {k : Nat} {bytes' : List UInt8} (hi : i + bytes.length ≤ s.room.length)
    (hk : k + bytes'.length ≤ bytes.length) :
    (writeAt (i + k) bytes' : OutM ε PUnit).run { s with room := splice s.room i bytes } =
      .ok ⟨⟩ { s with room := splice s.room i (splice bytes k bytes') } := by
  have hlen : (splice s.room i bytes).length = s.room.length := length_splice hi
  rw [writeAt_run (.inr (by dsimp only; omega))]
  dsimp only
  rw [splice_splice hi hk]

theorem writeAt_outside (hne : bytes ≠ []) (h : s.room.length < i + bytes.length) :
    (writeAt i bytes : OutM ε PUnit).run s = .error .outside s := by
  change (if bytes = [] ∨ i + bytes.length ≤ s.room.length then
    (modify fun out => { out with room := splice out.room i bytes } : OutM ε PUnit)
    else throw .outside).run s = _
  rw [if_neg (not_or.mpr ⟨hne, by omega⟩)]
  rfl

theorem memcpyInto_run (hmax : destMax ≠ 0 ∧ destMax ≤ secureMemMaxLen) (hlen : bytes.length ≤ destMax)
    (h : bytes = [] ∨ i + bytes.length ≤ s.room.length) :
    (memcpyInto i destMax bytes : OutM ε Bool).run s = .ok true { s with room := splice s.room i bytes } := by
  rw [memcpyInto, if_neg (by omega), if_pos hlen, run_bind, writeAt_run h]
  rfl

-- A copy whose answer is not looked at
theorem discard_memcpyInto_run (hmax : destMax ≠ 0 ∧ destMax ≤ secureMemMaxLen) (hlen : bytes.length ≤ destMax)
    (h : i + bytes.length ≤ s.room.length) :
    (discard (memcpyInto i destMax bytes) : OutM ε PUnit).run s = .ok ⟨⟩ { s with room := splice s.room i bytes } := by
  rw [run_discard, memcpyInto_run hmax hlen (.inr h)]

-- One behind what was written last
theorem discard_memcpyInto_behind {k : Nat} {more : List UInt8} (hmax : destMax ≠ 0 ∧ destMax ≤ secureMemMaxLen)
    (hlen : more.length ≤ destMax) (hk : i + bytes.length = k) (h : k + more.length ≤ s.room.length) :
    (discard (memcpyInto k destMax more) : OutM ε PUnit).run { s with room := splice s.room i bytes } =
      .ok ⟨⟩ { s with room := splice s.room i (bytes ++ more) } := by
  have hroom : (splice s.room i bytes).length = s.room.length := length_splice (by omega)
  subst hk
  rw [discard_memcpyInto_run hmax hlen (by dsimp only; omega)]
  dsimp only
  rw [splice_append (by omega)]

theorem memcpyInto_refused (hmax : destMax ≠ 0 ∧ destMax ≤ secureMemMaxLen) (hlen : destMax < bytes.length)
    (h : i + destMax ≤ s.room.length) : (memcpyInto i destMax bytes : OutM ε Bool).run s =
      .ok false { s with room := splice s.room i (.replicate destMax 0) } := by
  rw [memcpyInto, if_neg (by omega), if_neg (by omega), run_bind,
    writeAt_run (.inr (by rw [List.length_replicate]; exact h))]
  rfl

theorem memcpyInto_outside (hmax : destMax ≠ 0 ∧ destMax ≤ secureMemMaxLen) (hlen : bytes.length ≤ destMax)
    (hne : bytes ≠ []) (h : s.room.length < i + bytes.length) :
    (memcpyInto i destMax bytes : OutM ε Bool).run s = .error .outside s := by
  rw [memcpyInto, if_neg (by omega), if_pos hlen, run_bind, writeAt_outside hne h]

end Writes

-- The computation writes nowhere but to the room, and what it leaves satisfies `Q`. It may refuse.
def Contained {α : Type} (Q : α → OutBuffer → Prop) (x : OutM ε α) (s : OutBuffer) : Prop :=
  match x.run s with
  | .ok a t             => Q a t
  | .error .outside _   => False
  | .error (.error _) _ => True

section Contained

variable {α β : Type} {x : OutM ε α} {f : α → OutM ε β} {Q : α → OutBuffer → Prop} {R : β → OutBuffer → Prop}
  {s : OutBuffer}

@[simp]
theorem contained_pure (a : α) : Contained Q (pure a : OutM ε α) s ↔ Q a s := Iff.rfl

@[simp]
theorem contained_refuse (e : ε) : Contained Q (refuse e : OutM ε α) s := trivial

theorem contained_bind : Contained R (x >>= f) s ↔ Contained (fun a t => Contained R (f a) t) x s := by
  rw [Contained, Contained, run_bind]
  match x.run s with
  | .ok _ _             => exact Iff.rfl
  | .error .outside _   => exact Iff.rfl
  | .error (.error _) _ => exact Iff.rfl

theorem contained_discard {P : PUnit → OutBuffer → Prop} :
    Contained P (discard x) s ↔ Contained (fun _ t => P ⟨⟩ t) x s := by
  rw [Contained, Contained, run_discard]
  match x.run s with
  | .ok _ _             => exact Iff.rfl
  | .error .outside _   => exact Iff.rfl
  | .error (.error _) _ => exact Iff.rfl

theorem contained_ite {c : Prop} [Decidable c] {y : OutM ε α} :
    Contained Q (if c then x else y) s ↔ (c → Contained Q x s) ∧ (¬c → Contained Q y s) := by
  split
  case isTrue h => simp [h]
  case isFalse h => simp [h]

theorem contained_get {Q : OutBuffer → OutBuffer → Prop} : Contained Q (get : OutM ε OutBuffer) s ↔ Q s s := Iff.rfl

theorem contained_reading {y : Except (Stop ε) α} :
    Contained Q (reading y) s ↔ Confined (fun a => Q a s) y := by
  match y with
  | .ok _             => exact Iff.rfl
  | .error .outside   => exact Iff.rfl
  | .error (.error _) => exact Iff.rfl

theorem contained_setSize {Q : PUnit → OutBuffer → Prop} {size : UInt32} :
    Contained Q (setSize size : OutM ε PUnit) s ↔ Q ⟨⟩ { s with size } := Iff.rfl

theorem contained_writeAt {Q : PUnit → OutBuffer → Prop} {i : Nat} {bytes : List UInt8} :
    Contained Q (writeAt i bytes : OutM ε PUnit) s ↔
      (bytes = [] ∨ i + bytes.length ≤ s.room.length) ∧ Q ⟨⟩ { s with room := splice s.room i bytes } := by
  by_cases h : bytes = [] ∨ i + bytes.length ≤ s.room.length
  case pos =>
    rw [Contained, writeAt_run h]
    exact (and_iff_right h).symm
  case neg =>
    have ⟨hne, hlt⟩ := not_or.mp h
    rw [Contained, writeAt_outside hne (by omega)]
    exact iff_of_false id fun hand => h hand.1

theorem contained_onBlock {Q : α × List UInt8 → OutBuffer → Prop} {block : List UInt8} :
    Contained Q (onBlock block x) s ↔ Contained (fun a t => Q (a, t.room) s) x ⟨block, block.length.toUInt32⟩ := by
  simp only [Contained, onBlock, EStateM.run]
  cases x ⟨block, block.length.toUInt32⟩
  case ok => exact Iff.rfl
  case error e t => cases e <;> exact Iff.rfl

-- A copy that has the room it was promised
theorem contained_memcpyInto {Q : Bool → OutBuffer → Prop} {i destMax : Nat} {bytes : List UInt8}
    (hmax : destMax ≠ 0 ∧ destMax ≤ secureMemMaxLen) (hlen : bytes.length ≤ destMax) :
    Contained Q (memcpyInto i destMax bytes : OutM ε Bool) s ↔
      (bytes = [] ∨ i + bytes.length ≤ s.room.length) ∧ Q true { s with room := splice s.room i bytes } := by
  rw [memcpyInto, if_neg (by omega), if_pos hlen, contained_bind, contained_writeAt]
  exact Iff.rfl

-- A copy out of a buffer that is read where it is copied
theorem contained_memcpyFrom {Q : Bool → OutBuffer → Prop} {i destMax j n : Nat} {src : List UInt8}
    (hmax : destMax ≠ 0 ∧ destMax ≤ secureMemMaxLen) (hlen : n ≤ destMax) :
    Contained Q (memcpyFrom i destMax src j n : OutM ε Bool) s ↔
      (n = 0 ∨ j + n ≤ src.length) ∧ (slice src j n = [] ∨ i + (slice src j n).length ≤ s.room.length) ∧
        Q true { s with room := splice s.room i (slice src j n) } := by
  rw [memcpyFrom, if_neg (by omega), if_pos hlen, contained_bind, contained_reading, confined_readAt,
    contained_bind, contained_writeAt]
  exact Iff.rfl

theorem confined_inBlock {P : List UInt8 → Prop} {block : List UInt8} :
    Confined P (inBlock block x) ↔ Contained (fun _ t => P t.room) x ⟨block, block.length.toUInt32⟩ := by
  simp only [Contained, inBlock]
  cases x.run ⟨block, block.length.toUInt32⟩
  case ok => exact Iff.rfl
  case error e t => cases e <;> exact Iff.rfl

-- A copy to the front of all the room there is
theorem contained_memcpyInto_room {Q : Bool → OutBuffer → Prop} {bytes : List UInt8} {destMax : Nat}
    (hroom : s.room.length = destMax)
    (hcopied : bytes.length ≤ destMax → Q true { s with room := splice s.room 0 bytes })
    (hrefused : ∀ t : OutBuffer, t.room.length = s.room.length → t.size = s.size → Q false t) :
    Contained Q (memcpyInto 0 destMax bytes : OutM ε Bool) s := by
  rw [memcpyInto, contained_ite, contained_ite]
  refine ⟨fun _ => hrefused s rfl rfl, fun _ => ⟨fun hle => ?_, fun _ => ?_⟩⟩
  · rw [contained_bind, contained_writeAt]
    exact ⟨.inr (by omega), hcopied hle⟩
  · rw [contained_bind, contained_writeAt]
    have hlen : (List.replicate destMax (0 : UInt8)).length = destMax := List.length_replicate
    exact ⟨.inr (by omega), hrefused _ (length_splice (by omega)) rfl⟩

-- A copy whose answer is not looked at. One with too large a limit is refused.
theorem contained_memcpyInto_any {Q : PUnit → OutBuffer → Prop} {i destMax : Nat} {bytes : List UInt8}
    (hroom : destMax ≤ secureMemMaxLen → i + destMax ≤ s.room.length)
    (hQ : ∀ t : OutBuffer, t.room.length = s.room.length → t.size = s.size → Q ⟨⟩ t) :
    Contained Q (discard (memcpyInto i destMax bytes) : OutM ε PUnit) s := by
  rw [contained_discard, memcpyInto, contained_ite, contained_ite]
  refine ⟨fun _ => hQ s rfl rfl, fun hmax => ?_⟩
  have hin := hroom (by omega)
  refine ⟨fun hle => ?_, fun _ => ?_⟩
  · rw [contained_bind, contained_writeAt]
    exact ⟨.inr (by omega), hQ _ (length_splice (by omega)) rfl⟩
  · rw [contained_bind, contained_writeAt]
    have hlen : (List.replicate destMax (0 : UInt8)).length = destMax := List.length_replicate
    exact ⟨.inr (by omega), hQ _ (length_splice (by omega)) rfl⟩

theorem Contained.mono {P : α → OutBuffer → Prop} (h : Contained P x s) (himp : ∀ a t, P a t → Q a t) :
    Contained Q x s := by
  unfold Contained at *
  match hrun : x.run s with
  | .ok a t             => exact himp a t (by simpa only [hrun] using h)
  | .error .outside _   => simp only [hrun] at h
  | .error (.error _) _ => exact trivial

end Contained

end OutBuffer

end Huks
