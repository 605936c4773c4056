import Huks.Storage.FileLock
import Mathlib.Data.List.Count
import Mathlib.Logic.Relation

namespace Huks

open LinkedList

namespace LockRegistry

-- The locks without their pointers.
def view (r : LockRegistry) (lock : LockId) : Option HksStorageFileLock :=
  (r.heap lock).map Cell.value

-- The pointers of the registry form the list of the locks in `chain`.
structure Listed (r : LockRegistry) (chain : List LockId) : Prop where
  linked : Segment r.heap r.first chain none
  last   : r.last = chain.getLast?
  nodup  : chain.Nodup

variable {r : LockRegistry} {chain l₁ l₂ : List LockId} {lock : LockId} {path : Bytes}
variable {fuel : Nat} {address : Option LockId}

theorem view_isSome : (r.view lock).isSome = (r.heap lock).isSome := Option.isSome_map

theorem view_setValue (f : HksStorageFileLock → HksStorageFileLock) (i : LockId) :
    view { r with heap := setValue r.heap lock f } i =
      if i = lock then (r.view i).map f else r.view i := by
  by_cases hi : i = lock
  case pos =>
    change (setValue r.heap lock f i).map Cell.value = _
    rw [if_pos hi, hi, setValue_self, view, Option.map_map, Option.map_map]
    rfl
  case neg =>
    change (setValue r.heap lock f i).map Cell.value = _
    rw [if_neg hi, setValue_of_ne hi, view]

namespace Listed

theorem setValue (h : r.Listed chain) (f : HksStorageFileLock → HksStorageFileLock) :
    { r with heap := LinkedList.setValue r.heap lock f }.Listed chain where
  linked := h.linked.setValue
  last   := h.last
  nodup  := h.nodup

theorem notMem (h : r.Listed chain) (hfree : r.heap lock = none) : lock ∉ chain := by
  intro hmem
  have ⟨_, hc⟩ := h.linked.allocated hmem
  nomatch hfree.symm.trans hc

-- A new lock comes to lie at the end of the list.
theorem append (h : r.Listed chain) (hfree : r.heap lock = none) :
    ((r.allocFileLock path (some lock)).2.appendFileLock lock).Listed (chain ++ [lock]) := by
  have hnot := h.notMem hfree
  have hnodup : (chain ++ [lock]).Nodup := by
    rw [List.nodup_append]
    exact ⟨h.nodup, List.nodup_singleton lock, by grind⟩
  generalize hheap : Function.update r.heap lock (some ⟨⟨path, 1⟩, none⟩) = heap
  have hnew : heap lock = some ⟨⟨path, 1⟩, none⟩ := by rw [← hheap, Function.update_self]
  have hold : Segment heap r.first chain none :=
    h.linked.congr_heap fun i hi => by
      have hne : i ≠ lock := fun he => hnot (he ▸ hi)
      rw [← hheap, Function.update_of_ne hne]
  have hself : setNext heap lock none lock = some ⟨⟨path, 1⟩, none⟩ := by
    rw [setNext_self, hnew]
    rfl
  have halloc : (r.allocFileLock path (some lock)).2 = ⟨heap, r.first, r.last⟩ := by
    rw [← hheap]
    rfl
  rw [halloc]
  rcases List.eq_nil_or_concat chain with hlist | ⟨l, last, hlist⟩
  · have hfirst : r.first = none := by simpa [hlist, Segment] using h.linked
    rw [appendFileLock]
    simp only [hfirst, hlist]
    exact ⟨⟨rfl, _, hself, rfl⟩, rfl, List.nodup_singleton lock⟩
  · rw [List.concat_eq_append] at hlist
    have hlast : r.last = some last := by rw [h.last, hlist, List.getLast?_concat]
    have hfirst : ∃ first, r.first = some first := by
      rw [h.linked.start_eq, hlist]
      cases l <;> exact ⟨_, rfl⟩
    obtain ⟨first, hfirst⟩ := hfirst
    have hne : last ≠ lock := by
      rintro rfl
      exact hnot (by rw [hlist]; exact List.mem_concat_self)
    rw [appendFileLock, hlist]
    simp only [hfirst, hlast]
    refine ⟨?_, by rw [List.getLast?_concat], hlist ▸ hnodup⟩
    have hlinked : Segment (setNext heap last (some lock)) (some first) (l ++ last :: [lock]) none := by
      rw [← hfirst]
      refine (hlist ▸ hold).redirect ?_ ⟨rfl, _, hnew, rfl⟩
      have hd : (l ++ [last]).Nodup := hlist ▸ h.nodup
      rw [List.nodup_append] at hd
      grind
    rw [List.append_assoc]
    refine hlinked.congr fun i _ => ?_
    change (setNext _ lock none i).map Cell.next = _
    by_cases hi : i = lock
    case pos => rw [hi, setNext_self, setNext_of_ne hne.symm, hnew]; rfl
    case neg => rw [setNext_of_ne hi]

-- A lock is taken out of the middle of the list.
theorem unlink (h : r.Listed (l₁ ++ lock :: l₂)) :
    (r.unlink lock l₁.getLast?).Listed (l₁ ++ l₂) := by
  have ⟨_, h₁, hstart, c, hc, h₂⟩ := Segment.append.mp h.linked
  have hnodup := h.nodup
  rw [List.nodup_middle, List.nodup_cons] at hnodup
  have ⟨hnot, hrest⟩ := hnodup
  have hnext : unlink.next r lock = c.next := by
    rw [unlink.next, hc]
    rfl
  -- Freeing the cell does not matter to the others.
  have hfreed {heap : Heap LockId HksStorageFileLock} {first : Option LockId}
      (hs : Segment heap first (l₁ ++ l₂) none) :
      Segment (Function.update heap lock none) first (l₁ ++ l₂) none :=
    hs.congr_heap fun i hi => by
      have hne : i ≠ lock := fun he => hnot (he ▸ hi)
      rw [Function.update_of_ne hne]
  have hlast : (if r.last = some lock then l₁.getLast? else r.last) = (l₁ ++ l₂).getLast? := by
    rw [h.last, List.getLast?_append, List.getLast?_append]
    cases hl₂ : l₂.getLast?
    case none =>
      rw [List.getLast?_eq_none_iff.mp hl₂]
      simp
    case some i =>
      have hi : i ∈ l₂ := List.mem_of_getLast? hl₂
      have hne : i ≠ lock := fun he => hnot (List.mem_append_right _ (he ▸ hi))
      rw [List.getLast?_cons, hl₂]
      simp [hne]
  rcases List.eq_nil_or_concat l₁ with hl₁ | ⟨l, last, hl₁⟩
  · subst hl₁
    rw [LockRegistry.unlink, hnext]
    exact ⟨hfreed h₂, hlast, hrest⟩
  · rw [List.concat_eq_append] at hl₁
    have hsplit : l₁ ++ l₂ = l ++ last :: l₂ := by rw [hl₁, List.append_assoc, List.singleton_append]
    have hgetLast : l₁.getLast? = some last := by rw [hl₁, List.getLast?_concat]
    have hprev : last ∉ l ++ l₂ := by
      rw [hsplit, List.nodup_middle, List.nodup_cons] at hrest
      exact hrest.1
    have hlinked : Segment (setNext r.heap last c.next) r.first (l₁ ++ l₂) none := by
      rw [hsplit]
      exact (hl₁ ▸ h₁).redirect hprev h₂
    rw [hgetLast] at hlast
    rw [LockRegistry.unlink, hnext, hgetLast]
    exact ⟨hfreed hlinked, hlast, hrest⟩

end Listed

theorem view_unlink (previous : Option LockId) (i : LockId) :
    (r.unlink lock previous).view i = if i = lock then none else r.view i := by
  have hvalue : ((previous.elim r.heap fun p => setNext r.heap p (unlink.next r lock)) i).map
      Cell.value = r.view i := by
    cases previous
    case none => rfl
    case some => exact setNext_value
  rw [view, unlink]
  dsimp only
  by_cases hi : i = lock
  case pos => rw [if_pos hi, hi, Function.update_self]; rfl
  case neg => rw [if_neg hi, Function.update_of_ne hi, hvalue]

theorem view_append (i : LockId) :
    ((r.allocFileLock path (some lock)).2.appendFileLock lock).view i =
      if i = lock then some ⟨path, 1⟩ else r.view i := by
  generalize hheap : Function.update r.heap lock (some ⟨⟨path, 1⟩, none⟩) = heap
  have hview : (heap i).map Cell.value = if i = lock then some ⟨path, 1⟩ else r.view i := by
    rw [← hheap]
    by_cases hi : i = lock
    case pos => rw [if_pos hi, hi, Function.update_self]; rfl
    case neg => rw [if_neg hi, Function.update_of_ne hi, view]
  have halloc : (r.allocFileLock path (some lock)).2 = ⟨heap, r.first, r.last⟩ := by
    rw [← hheap]
    rfl
  rw [halloc, ← hview, appendFileLock, view]
  cases r.first
  case none => exact setNext_value
  case some =>
    cases r.last
    case none => rfl
    case some => exact setNext_value.trans setNext_value

-- The count of a lock goes down by one.
def decRef (r : LockRegistry) (lock : LockId) : LockRegistry :=
  { r with heap := setValue r.heap lock fun l => { l with ref := l.ref - 1 } }

-- What a call to create a lock can do.
theorem create_cases {result : Option LockId} {r' : LockRegistry} (h : r.Listed chain)
    (call : r.hksStorageFileLockCreate fuel path address = some (result, r')) :
    (∃ lock ∈ chain, ∃ x, r.view lock = some x ∧ x.path = path ∧ result = some lock ∧
      r' = r.addRef lock) ∨
    (∀ i ∈ chain, ∀ x, r.view i = some x → x.path ≠ path) ∧
      (result = none ∧ r' = r ∨ ∃ a, address = some a ∧ result = some a ∧
        r' = (r.allocFileLock path (some a)).2.appendFileLock a) := by
  have ⟨found, hfind, call⟩ := Option.bind_eq_some_iff.mp call
  have ⟨w, hwalk, hfound⟩ := Option.map_eq_some_iff.mp hfind
  obtain ⟨rfl, hall⟩ | ⟨l₁, i, l₂, c, hchain, hc, hp, rfl⟩ := walk_cases h.linked hwalk
  · cases hfound
    refine .inr ⟨fun i hi x hx hpath => ?_, ?_⟩
    · have ⟨c, hc, hcx⟩ := Option.map_eq_some_iff.mp hx
      have hno := of_decide_eq_false (hall i hi c hc)
      rw [hcx] at hno
      exact hno hpath.symm
    · cases address
      case none =>
        cases call
        exact .inl ⟨rfl, rfl⟩
      case some =>
        cases call
        exact .inr ⟨_, rfl, rfl, rfl⟩
  · cases hfound
    cases call
    have hview : r.view i = some c.value := by rw [view, hc]; rfl
    refine .inl ⟨i, ?_, c.value, hview, (of_decide_eq_true hp).symm, rfl, rfl⟩
    rw [hchain]
    exact List.mem_append_right _ List.mem_cons_self

-- What a call to release a listed lock does.
theorem release_cases {r' : LockRegistry} (h : r.Listed chain) (hmem : lock ∈ chain)
    (call : r.hksStorageFileLockRelease fuel lock = some r') :
    ∃ x, r.view lock = some x ∧ (x.ref - 1 ≠ 0 ∧ r' = r.decRef lock ∨
      x.ref - 1 = 0 ∧ ∃ l₁ l₂, chain = l₁ ++ lock :: l₂ ∧
        r' = (r.decRef lock).unlink lock l₁.getLast?) := by
  have ⟨listed, hin, call⟩ := Option.bind_eq_some_iff.mp call
  have ⟨w, hwalk, hlisted⟩ := Option.map_eq_some_iff.mp hin
  have ⟨d, hd⟩ := h.linked.allocated hmem
  obtain ⟨_, hall⟩ | ⟨l₁, i, l₂, c, hchain, hc, hp, rfl⟩ := walk_cases h.linked hwalk
  · exact absurd rfl (of_decide_eq_false (hall lock hmem d hd))
  · cases hlisted
    cases (of_decide_eq_true hp : lock = i)
    have hview : r.view lock = some c.value := by rw [view, hc]; rfl
    have hdec : (r.decRef lock).heap lock =
        some { c with value := { c.value with ref := c.value.ref - 1 } } := by
      rw [decRef]
      change Function.update r.heap lock _ lock = _
      rw [Function.update_self, hc]
      rfl
    refine ⟨c.value, hview, ?_⟩
    have ⟨w, hwalk', call⟩ := Option.bind_eq_some_iff.mp call
    cases hwalk.symm.trans hwalk'
    change (if ((r.decRef lock).heap lock).any (·.value.ref = 0) then some _ else some _) = _ at call
    rw [hdec] at call
    by_cases hzero : c.value.ref - 1 = 0
    case pos =>
      rw [if_pos (by simpa using hzero)] at call
      refine .inr ⟨hzero, l₁, l₂, hchain, ?_⟩
      rw [← Option.some.inj call]
      cases l₁.getLast? <;> rfl
    case neg =>
      rw [if_neg (by simpa using hzero)] at call
      exact .inl ⟨hzero, (Option.some.inj call).symm⟩

-- The loops get through with enough fuel.
theorem create_isSome (h : r.Listed chain) (hfuel : chain.length < fuel) :
    (r.hksStorageFileLockCreate fuel path address).isSome := by
  obtain ⟨w, hwalk⟩ := Option.isSome_iff_exists.mp (walk_isSome h.linked hfuel)
  rw [hksStorageFileLockCreate, findFileLock, hwalk]
  cases w <;> rfl

theorem release_isSome (h : r.Listed chain) (hfuel : chain.length < fuel) :
    (r.hksStorageFileLockRelease fuel lock).isSome := by
  obtain ⟨w, hwalk⟩ := Option.isSome_iff_exists.mp (walk_isSome h.linked hfuel)
  rw [hksStorageFileLockRelease, isLockInList, hwalk]
  cases w
  case none => rfl
  case some =>
    change (r.release fuel lock).isSome
    rw [release, hwalk]
    dsimp only [bind, Option.bind]
    split <;> rfl

end LockRegistry

namespace LockSystem

variable {s t : LockSystem} {chain : List LockId}

-- The list is sound, has one lock for a path, and counts the handles.
structure Sound (s : LockSystem) (chain : List LockId) : Prop where
  listed  : s.registry.Listed chain
  onePath : ∀ i ∈ chain, ∀ j ∈ chain, ∀ x y, s.registry.view i = some x →
    s.registry.view j = some y → x.path = y.path → i = j
  counted : ∀ i ∈ chain, ∀ x, s.registry.view i = some x → x.ref.toNat = s.outstanding i
  used    : ∀ i ∈ chain, 0 < s.outstanding i
  handed  : ∀ h ∈ s.handles, h.lock ∈ chain ∧ ∃ x, s.registry.view h.lock = some x ∧ x.path = h.path

-- No path has as many handles as a counter has values.
def Small (s : LockSystem) : Prop :=
  ∀ path, s.handles.countP (·.path = path) < UInt32.size

theorem sound_init : Sound {} [] where
  listed  := ⟨rfl, rfl, List.nodup_nil⟩
  onePath := nofun
  counted := nofun
  used    := nofun
  handed  := nofun

namespace Sound

variable {r : LockRegistry} {thread : Nat} {path : Bytes} {lock : LockId} {handle : LockHandle}

theorem listed_view (h : s.Sound chain) (hmem : lock ∈ chain) :
    ∃ x, s.registry.view lock = some x := by
  have ⟨c, hc⟩ := h.listed.linked.allocated hmem
  exact ⟨c.value, by rw [LockRegistry.view, hc]; rfl⟩

-- The handles to a lock are the handles for its path.
theorem outstanding_eq (h : s.Sound chain) (hmem : lock ∈ chain) {x : HksStorageFileLock}
    (hx : s.registry.view lock = some x) :
    s.outstanding lock = s.handles.countP (·.path = x.path) := by
  refine List.countP_congr fun y hy => ?_
  have ⟨hlisted, z, hz, hpath⟩ := h.handed y hy
  simp only [decide_eq_true_eq]
  constructor
  case mp =>
    rintro rfl
    cases hx.symm.trans hz
    exact hpath.symm
  case mpr =>
    intro hy
    exact h.onePath _ hlisted _ hmem z x hz hx (hpath.trans hy)

-- Two handles that are outstanding for one path are the same lock.
theorem same_lock (h : s.Sound chain) {a b : LockHandle} (ha : a ∈ s.handles) (hb : b ∈ s.handles)
    (hpath : a.path = b.path) : a.lock = b.lock := by
  have ⟨hla, x, hx, hxa⟩ := h.handed a ha
  have ⟨hlb, y, hy, hyb⟩ := h.handed b hb
  exact h.onePath _ hla _ hlb x y hx hy (hxa.trans (hpath.trans hyb.symm))

theorem outstanding_cons {i : LockId} {handles : List LockHandle} (h : handle.lock = lock) :
    outstanding ⟨r, handle :: handles⟩ i =
      outstanding ⟨r, handles⟩ i + if i = lock then 1 else 0 := by
  rw [outstanding, List.countP_cons, h]
  simp [outstanding, eq_comm]

-- The count of one lock and the handles change together.
theorem setValue (h : s.Sound chain) (f : HksStorageFileLock → HksStorageFileLock)
    (hf : ∀ x, (f x).path = x.path) {handles : List LockHandle}
    (counted : ∀ i ∈ chain, ∀ x, s.registry.view i = some x →
      (if i = lock then f x else x).ref.toNat = outstanding ⟨r, handles⟩ i)
    (used : ∀ i ∈ chain, 0 < outstanding ⟨r, handles⟩ i)
    (handed : ∀ a ∈ handles, a.lock ∈ chain ∧
      ∃ x, s.registry.view a.lock = some x ∧ x.path = a.path)
    (hr : r = { s.registry with heap := LinkedList.setValue s.registry.heap lock f }) :
    Sound ⟨r, handles⟩ chain := by
  have hview {i : LockId} {x : HksStorageFileLock} (hx : s.registry.view i = some x) :
      r.view i = some (if i = lock then f x else x) := by
    rw [hr, LockRegistry.view_setValue, hx]
    split <;> rfl
  have hold {i : LockId} {y : HksStorageFileLock} (hi : i ∈ chain) (hy : r.view i = some y) :
      ∃ x, s.registry.view i = some x ∧ y = (if i = lock then f x else x) ∧ y.path = x.path := by
    have ⟨x, hx⟩ := h.listed_view hi
    have hy := Option.some.inj (hy.symm.trans (hview hx))
    refine ⟨x, hx, hy, ?_⟩
    rw [hy]
    split
    case isTrue => exact hf x
    case isFalse => rfl
  refine ⟨hr ▸ h.listed.setValue f, fun i hi j hj x y hx hy hpath => ?_, fun i hi y hy => ?_, used,
    fun a ha => ?_⟩
  · have ⟨x', hx', _, hxp⟩ := hold hi hx
    have ⟨y', hy', _, hyp⟩ := hold hj hy
    exact h.onePath i hi j hj x' y' hx' hy' (hxp.symm.trans (hpath.trans hyp))
  · have ⟨x, hx, hyx, _⟩ := hold hi hy
    rw [hyx]
    exact counted i hi x hx
  · have ⟨hmem, x, hx, hpath⟩ := handed a ha
    refine ⟨hmem, _, hview hx, ?_⟩
    rw [← hpath]
    split
    case isTrue => exact hf x
    case isFalse => rfl

-- A lock that is there is handed out once more.
theorem addRef (h : s.Sound chain) (hmem : lock ∈ chain) {x : HksStorageFileLock}
    (hx : s.registry.view lock = some x) (hpath : x.path = path)
    (small : Small ⟨r, ⟨thread, path, lock⟩ :: s.handles⟩) (hr : r = s.registry.addRef lock) :
    Sound ⟨r, ⟨thread, path, lock⟩ :: s.handles⟩ chain := by
  refine h.setValue (fun l => { l with ref := l.ref + 1 }) (fun _ => rfl) (fun i hi y hy => ?_)
    (fun i hi => ?_) ?_ hr
  · rw [outstanding_cons rfl]
    by_cases hil : i = lock
    case pos =>
      subst hil
      cases hx.symm.trans hy
      have hroom : s.outstanding i + 1 < UInt32.size := by
        have := small path
        rw [List.countP_cons, if_pos (by simp), ← hpath, ← h.outstanding_eq hmem hx] at this
        exact this
      rw [if_pos rfl, if_pos rfl, UInt32.toNat_add, h.counted i hi x hx]
      exact Nat.mod_eq_of_lt hroom
    case neg =>
      rw [if_neg hil, if_neg hil]
      exact h.counted i hi y hy
  · rw [outstanding_cons rfl]
    exact Nat.add_pos_left (h.used i hi) _
  · rw [List.forall_mem_cons]
    exact ⟨⟨hmem, x, hx, hpath⟩, h.handed⟩

-- A new lock is handed out for the first time.
theorem append (h : s.Sound chain) (hfree : s.registry.heap lock = none)
    (hnew : ∀ i ∈ chain, ∀ x, s.registry.view i = some x → x.path ≠ path)
    (hr : r = (s.registry.allocFileLock path (some lock)).2.appendFileLock lock) :
    Sound ⟨r, ⟨thread, path, lock⟩ :: s.handles⟩ (chain ++ [lock]) := by
  have hnot := h.listed.notMem hfree
  have hview (i : LockId) : r.view i = if i = lock then some ⟨path, 1⟩ else s.registry.view i := by
    rw [hr, LockRegistry.view_append]
  have hself : r.view lock = some ⟨path, 1⟩ := by rw [hview, if_pos rfl]
  have hother {i : LockId} (hi : i ∈ chain) : i ≠ lock ∧ r.view i = s.registry.view i := by
    have hne : i ≠ lock := fun he => hnot (he ▸ hi)
    exact ⟨hne, by rw [hview, if_neg hne]⟩
  have hzero : outstanding ⟨r, s.handles⟩ lock = 0 :=
    List.countP_eq_zero.mpr fun a ha => by
      simp only [decide_eq_true_eq]
      exact (hother (h.handed a ha).1).1
  have hmem {i : LockId} : i ∈ chain ++ [lock] ↔ i ∈ chain ∨ i = lock := by simp
  refine ⟨hr ▸ h.listed.append hfree, fun i hi j hj x y hx hy hpath => ?_, fun i hi x hx => ?_,
    fun i hi => ?_, List.forall_mem_cons.mpr ⟨⟨hmem.mpr (.inr rfl), _, hself, rfl⟩, fun a ha => ?_⟩⟩
  · rcases hmem.mp hi with hi' | hi' <;> rcases hmem.mp hj with hj' | hj'
    · rw [(hother hi').2] at hx
      rw [(hother hj').2] at hy
      exact h.onePath i hi' j hj' x y hx hy hpath
    · rw [(hother hi').2] at hx
      cases hself.symm.trans (hj' ▸ hy)
      exact absurd hpath (hnew i hi' x hx)
    · rw [(hother hj').2] at hy
      cases hself.symm.trans (hi' ▸ hx)
      exact absurd hpath.symm (hnew j hj' y hy)
    · rw [hi', hj']
  · rw [outstanding_cons rfl]
    rcases hmem.mp hi with hi' | rfl
    · rw [(hother hi').2] at hx
      rw [if_neg (hother hi').1]
      exact h.counted i hi' x hx
    · cases hself.symm.trans hx
      rw [hzero, if_pos rfl]
      rfl
  · rw [outstanding_cons rfl]
    rcases hmem.mp hi with hi' | rfl
    · exact Nat.add_pos_left (h.used i hi') _
    · rw [if_pos rfl]
      exact Nat.succ_pos _
  · obtain ⟨hlisted, x, hx, hpath⟩ := h.handed a ha
    exact ⟨hmem.mpr (.inl hlisted), x, by rw [(hother hlisted).2, hx], hpath⟩

theorem outstanding_erase {i : LockId} (held : handle ∈ s.handles) (h : handle.lock = lock) :
    outstanding ⟨r, s.handles.erase handle⟩ i + (if i = lock then 1 else 0) = s.outstanding i := by
  have hperm := (List.perm_cons_erase held).countP_eq (fun x => decide (x.lock = i))
  rw [outstanding, outstanding, hperm, List.countP_cons, h]
  simp [eq_comm]

-- A lock keeps a handle, or it had none but the one that is released.
theorem decRef (h : s.Sound chain) (held : handle ∈ s.handles) {x : HksStorageFileLock}
    (hx : s.registry.view handle.lock = some x) (hpos : x.ref - 1 ≠ 0)
    (hr : r = s.registry.decRef handle.lock) :
    Sound ⟨r, s.handles.erase handle⟩ chain := by
  have hmem := (h.handed handle held).1
  have hcount := h.counted _ hmem x hx
  have hused := h.used _ hmem
  have hsub : (x.ref - 1).toNat = x.ref.toNat - 1 :=
    UInt32.toNat_sub_of_le _ _ (UInt32.le_iff_toNat_le.mpr (hcount ▸ hused))
  have hne : x.ref.toNat - 1 ≠ 0 := fun hz => hpos (UInt32.toNat_inj.mp (hsub.trans hz))
  refine h.setValue (fun l => { l with ref := l.ref - 1 }) (fun _ => rfl) (fun i hi y hy => ?_)
    (fun i hi => ?_) (fun a ha => h.handed a (List.mem_of_mem_erase ha)) hr
  · have heq := outstanding_erase (r := r) (i := i) held rfl
    by_cases hil : i = handle.lock
    case pos =>
      subst hil
      cases hx.symm.trans hy
      rw [if_pos rfl, hsub, hcount]
      rw [if_pos rfl] at heq
      omega
    case neg =>
      rw [if_neg hil, h.counted i hi y hy]
      rw [if_neg hil] at heq
      omega
  · have heq := outstanding_erase (r := r) (i := i) held rfl
    by_cases hil : i = handle.lock
    case pos =>
      subst hil
      rw [if_pos rfl] at heq
      omega
    case neg =>
      have := h.used i hi
      rw [if_neg hil] at heq
      omega

-- A lock without handles is gone.
theorem unlink (h : s.Sound chain) (held : handle ∈ s.handles) {x : HksStorageFileLock}
    (hx : s.registry.view handle.lock = some x) (hzero : x.ref - 1 = 0) {l₁ l₂ : List LockId}
    (hchain : chain = l₁ ++ handle.lock :: l₂)
    (hr : r = (s.registry.decRef handle.lock).unlink handle.lock l₁.getLast?) :
    Sound ⟨r, s.handles.erase handle⟩ (l₁ ++ l₂) := by
  have hmem := (h.handed handle held).1
  have hcount := h.counted _ hmem x hx
  have hone : s.outstanding handle.lock = 1 := by
    have : x.ref = 1 := by
      have := congrArg (· + 1) hzero
      simpa using this
    rw [← hcount, this]
    rfl
  have hnodup := h.listed.nodup
  rw [hchain, List.nodup_middle, List.nodup_cons] at hnodup
  have hnot := hnodup.1
  have hsub {i : LockId} (hi : i ∈ l₁ ++ l₂) : i ∈ chain ∧ i ≠ handle.lock := by
    refine ⟨?_, fun he => hnot (he ▸ hi)⟩
    rw [hchain]
    exact List.mem_append.mpr ((List.mem_append.mp hi).imp_right (List.mem_cons_of_mem _))
  have hview {i : LockId} (hi : i ∈ l₁ ++ l₂) : r.view i = s.registry.view i := by
    rw [hr, LockRegistry.view_unlink, if_neg (hsub hi).2, LockRegistry.decRef,
      LockRegistry.view_setValue, if_neg (hsub hi).2]
  have hkeep {i : LockId} (hi : i ∈ l₁ ++ l₂) :
      outstanding ⟨r, s.handles.erase handle⟩ i = s.outstanding i := by
    have heq := outstanding_erase (r := r) (i := i) held rfl
    rwa [if_neg (hsub hi).2] at heq
  have hlisted : (s.registry.decRef handle.lock).Listed (l₁ ++ handle.lock :: l₂) :=
    hchain ▸ h.listed.setValue _
  refine ⟨hr ▸ hlisted.unlink, fun i hi j hj x y hx hy => ?_, fun i hi x hx => ?_, fun i hi => ?_,
    fun a ha => ?_⟩
  · rw [hview hi] at hx
    rw [hview hj] at hy
    exact h.onePath i (hsub hi).1 j (hsub hj).1 x y hx hy
  · rw [hkeep hi]
    rw [hview hi] at hx
    exact h.counted i (hsub hi).1 x hx
  · rw [hkeep hi]
    exact h.used i (hsub hi).1
  · have ⟨hin, y, hy, hpath⟩ := h.handed a (List.mem_of_mem_erase ha)
    have hne : a.lock ≠ handle.lock := by
      intro he
      -- The only handle to the lock is the one that was taken out.
      have heq := outstanding_erase (r := r) (i := handle.lock) held rfl
      rw [if_pos rfl, hone] at heq
      have hpos : 0 < outstanding ⟨r, s.handles.erase handle⟩ handle.lock :=
        List.countP_pos_iff.mpr ⟨a, ha, by simpa using he⟩
      omega
    have hin' : a.lock ∈ l₁ ++ l₂ := by
      rw [hchain] at hin
      rcases List.mem_append.mp hin with hin | hin
      · exact List.mem_append_left _ hin
      · exact List.mem_append_right _ ((List.mem_cons.mp hin).resolve_left hne)
    exact ⟨hin', y, by rw [hview hin', hy], hpath⟩

end Sound

theorem Step.sound (h : Step s t) (hs : s.Sound chain) (small : t.Small) :
    ∃ chain', t.Sound chain' := by
  cases h
  case create thread fuel path address lock registry free call =>
    obtain ⟨i, hi, x, hx, hpath, hresult, hr⟩ | ⟨hnew, ⟨hresult, _⟩ | ⟨a, rfl, hresult, hr⟩⟩ :=
      LockRegistry.create_cases hs.listed call
    · cases hresult
      exact ⟨_, hs.addRef hi hx hpath small hr⟩
    · nomatch hresult
    · cases hresult
      exact ⟨_, hs.append (free _ rfl) hnew hr⟩
  case refuse fuel path address registry free call =>
    obtain ⟨_, _, _, _, _, hresult, _⟩ | ⟨_, ⟨_, hr⟩ | ⟨_, _, hresult, _⟩⟩ :=
      LockRegistry.create_cases hs.listed call
    · nomatch hresult
    · exact ⟨chain, hr ▸ hs⟩
    · nomatch hresult
  case release fuel handle registry held call =>
    have ⟨hin, _⟩ := hs.handed handle held
    obtain ⟨x, hx, ⟨hpos, hr⟩ | ⟨hzero, l₁, l₂, hchain, hr⟩⟩ :=
      LockRegistry.release_cases hs.listed hin call
    · exact ⟨_, hs.decRef held hx hpos hr⟩
    · exact ⟨_, hs.unlink held hx hzero hchain hr⟩

theorem run_sound (h : Relation.ReflTransGen (fun s t => Step s t ∧ t.Small) {} s) :
    ∃ chain, s.Sound chain := by
  induction h
  case refl => exact ⟨[], sound_init⟩
  case tail step ih =>
    have ⟨_, hs⟩ := ih
    exact step.1.sound hs step.2

end LockSystem

open LockSystem

-- In every run that hands out fewer handles for a path than a counter has values, the list is
-- sound and counts the handles, and the calls get through.
theorem fileLocks_sound {s : LockSystem}
    (h : Relation.ReflTransGen (fun s t => LockSystem.Step s t ∧ t.Small) {} s) :
    ∃ chain, s.Sound chain ∧ (s.registry.last = none ↔ chain = []) ∧
      (∀ a ∈ s.handles, (s.registry.heap a.lock).isSome) ∧
      (∀ a ∈ s.handles, ∀ b ∈ s.handles, a.path = b.path → a.lock = b.lock) ∧
      ∀ fuel > chain.length, (∀ path address,
          (s.registry.hksStorageFileLockCreate fuel path address).isSome) ∧
        ∀ lock, (s.registry.hksStorageFileLockRelease fuel lock).isSome := by
  have ⟨chain, hs⟩ := run_sound h
  refine ⟨chain, hs, ?_, fun a ha => ?_, fun a ha b hb => hs.same_lock ha hb, fun fuel hfuel => ?_⟩
  · rw [hs.listed.last, List.getLast?_eq_none_iff]
  · have ⟨_, x, hx, _⟩ := hs.handed a ha
    rw [← LockRegistry.view_isSome, hx]
    rfl
  · exact ⟨fun _ _ => LockRegistry.create_isSome hs.listed hfuel,
      fun _ => LockRegistry.release_isSome hs.listed hfuel⟩

-- One lock with `n` handles.
def heldLock (n : Nat) : LockSystem where
  registry := ⟨Function.update (fun _ => none) 0 (some ⟨⟨[47], n.toUInt32⟩, none⟩), some 0, some 0⟩
  handles  := .replicate n ⟨0, [47], 0⟩

theorem heldLock_first : LockSystem.Step {} (heldLock 1) := by
  have call : LockRegistry.hksStorageFileLockCreate {} 1 [47] (some 0) =
      some (some 0, (heldLock 1).registry) := by
    change some (some 0, LockRegistry.mk _ _ _) = _
    congr 3
    funext i
    by_cases hi : i = 0
    case pos => rw [hi]; rfl
    case neg => simp [setNext, hi]
  exact .create (fun _ _ => rfl) call

theorem heldLock_next (n : Nat) : LockSystem.Step (heldLock n) (heldLock (n + 1)) := by
  have call : (heldLock n).registry.hksStorageFileLockCreate 1 [47] none =
      some (some 0, (heldLock (n + 1)).registry) := by
    change some (some 0, LockRegistry.addRef _ 0) = _
    rw [LockRegistry.addRef]
    congr 3
    funext i
    by_cases hi : i = 0
    case pos =>
      rw [hi]
      simp [setValue, heldLock]
    case neg => simp [setValue, hi, heldLock]
  exact .create (by simp) call

theorem heldLock_reached (n : Nat) : Relation.ReflTransGen LockSystem.Step {} (heldLock (n + 1)) := by
  induction n
  case zero => exact .single heldLock_first
  case succ n ih => exact ih.tail (heldLock_next (n + 1))

theorem small_of_length {s : LockSystem} (h : s.handles.length < UInt32.size) : s.Small :=
  fun _ => Nat.lt_of_le_of_lt List.countP_le_length h

-- A second path has a lock of its own.
theorem heldLock_second : ∃ registry,
    LockSystem.Step (heldLock 2) ⟨registry, ⟨1, [97], 1⟩ :: (heldLock 2).handles⟩ := by
  have free : ∀ a ∈ some 1, (heldLock 2).registry.heap a = none := by
    rintro _ ⟨⟩
    rfl
  have call : ∃ registry, (heldLock 2).registry.hksStorageFileLockCreate 2 [97] (some 1) =
      some (some 1, registry) := ⟨_, rfl⟩
  have ⟨registry, call⟩ := call
  exact ⟨registry, .create free call⟩

-- The first lock is taken twice, the second one once, and the first is released once.
theorem fileLocks_sound_released : ∃ s : LockSystem, s.handles = [⟨1, [97], 1⟩, ⟨0, [47], 0⟩] ∧
    ∃ chain, s.Sound chain ∧ ∀ a ∈ s.handles, (s.registry.heap a.lock).isSome := by
  have hfirst : Relation.ReflTransGen (fun s t => LockSystem.Step s t ∧ t.Small) {} (heldLock 2) :=
    .tail (.single ⟨heldLock_first, small_of_length (by decide)⟩) ⟨heldLock_next 1, small_of_length (by decide)⟩
  have ⟨registry, hstep⟩ := heldLock_second
  have hsecond := hfirst.tail ⟨hstep, small_of_length (show 3 < UInt32.size by decide)⟩
  -- The release gets through, like all calls.
  have ⟨chain, _, _, _, _, hcalls⟩ := fileLocks_sound hsecond
  have ⟨released, hrelease⟩ := Option.isSome_iff_exists.mp ((hcalls (chain.length + 1) (Nat.lt_succ_self _)).2 0)
  have hheld : ⟨0, [47], 0⟩ ∈ (⟨1, [97], 1⟩ :: (heldLock 2).handles : List LockHandle) := by decide
  have hrun := hsecond.tail ⟨.release hheld hrelease, small_of_length (show 2 < UInt32.size by decide)⟩
  have ⟨chain', hsound, _, hsome, _⟩ := fileLocks_sound hrun
  exact ⟨_, rfl, chain', hsound, hsome⟩

-- With 2 ^ 32 handles to one lock the counter is back at zero.
theorem fileLocks_wrap : ∃ s : LockSystem, Relation.ReflTransGen LockSystem.Step {} s ∧
    ∃ chain lock x, s.registry.Listed chain ∧ lock ∈ chain ∧ s.registry.view lock = some x ∧
      x.ref.toNat ≠ s.outstanding lock := by
  have hsize : UInt32.size = (UInt32.size - 1) + 1 := rfl
  refine ⟨heldLock UInt32.size, hsize ▸ heldLock_reached _, [0], 0, ⟨[47], UInt32.size.toUInt32⟩,
    ⟨⟨rfl, _, rfl, rfl⟩, rfl, List.nodup_singleton 0⟩, List.mem_cons_self, rfl, ?_⟩
  have hcount : (heldLock UInt32.size).outstanding 0 = UInt32.size := by
    rw [outstanding, heldLock, List.countP_replicate, if_pos (by decide)]
  rw [hcount]
  decide

end Huks
