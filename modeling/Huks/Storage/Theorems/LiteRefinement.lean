import Huks.Storage.Theorems.LiteAnswers
import Huks.Storage.Theorems.LiteSpec

namespace Huks.StorageLite

open EStateM

section Serve

variable (env : LiteEnv)

def perform : Request → LiteM Unit
  | .restart         => setImage none
  | .load            => hksLoadFileToBuffer env
  | .refresh         => hksFileBufferRefresh env
  | .store record    => hksStoreKeyBlob env record.keyAlias record.bytes
  | .delete keyAlias => hksStoreDeleteKeyBlob env keyAlias
  | .ask _           => return ⟨⟩

def serve : Request → LiteM Value
  | .ask question => answer env question
  | request       => do
    perform env request
    return .done

-- A caller after the other, whatever they get
def serveAll (requests : List Request) : LiteM (List Answer) :=
  requests.mapM fun request => returned (serve env request)

end Serve

-- The image of a table
inductive InImage : Option KeyTable → Option Bytes → Prop
  | none : InImage none none
  | some (t : KeyTable) (head : HksStoreHeaderInfo) (rest : Bytes) (counts : Counts head t.records)
      (length : (imageOf head t.records rest).length ≤ maxImageSize) :
      InImage (some t) (some (imageOf head t.records rest))

-- The file of a table
inductive InFile (env : LiteEnv) : Option Saved → Option Bytes → Prop
  | none : InFile env none none
  | some (s : Saved) (head : HksStoreHeaderInfo) (file : Option Bytes)
      (written : Written env s.table.records s.size head file) : InFile env (some s) file

-- The image and the file are those of the machine.
structure Refines (env : LiteEnv) (a : Machine) (s : LiteStore) : Prop where
  image : InImage a.memory s.image
  file  : InFile env a.durable s.file

variable {env : LiteEnv} {image file : Option Bytes} {head : HksStoreHeaderInfo} {a : Machine} {t : KeyTable}
  {r : KeyRecord} {rest keyAlias : Bytes} {durable : Option Saved}

theorem Refines.of_at {s : LiteStore} (himage : InImage a.memory image) (hfile : InFile env a.durable file)
    (hs : At image file s) : Refines env a s := by
  obtain ⟨rfl, rfl⟩ := hs
  exact ⟨himage, hfile⟩

section Steps

variable {request : Request}

-- What a request does from here is a step of the machine, whether it succeeds or not.
def Steps (env : LiteEnv) (a : Machine) (request : Request) (x : LiteM Unit) (image file : Option Bytes) : Prop :=
  Triple (At image file) x
    (fun _ s => ∃ b, Step env.Quiet a request (.ok .done) b ∧ Refines env b s)
    (fun e s => ∃ code b, e = .error code ∧ Step env.Quiet a request (.error code) b ∧ Refines env b s)

theorem steps_restart (hfile : InFile env a.durable file) : Steps env a .restart (perform env .restart) image file :=
  .modify fun _ hs => ⟨_, .restart a, .of_at .none hfile ⟨rfl, hs.2⟩⟩

theorem steps_load (hwhole : env.Whole) (himage : InImage a.memory image) (hfile : InFile env a.durable file) :
    Steps env a .load (perform env .load) image file := by
  obtain ⟨memory, durable⟩ := a
  cases himage
  case some t head rest hcounts hlength =>
    refine get_bind_at fun _ => .pure fun s hs => ⟨_, .loaded t durable, .of_at ?_ hfile hs⟩
    exact .some t head rest hcounts hlength
  case none =>
    have hfault {s : LiteStore} {code : HksErrorCode} (hnot : ¬env.Quiet) (hs : At none file s) :
        ∃ code' b, (.error code : Stop HksErrorCode) = .error code' ∧
          Step env.Quiet ⟨none, durable⟩ .load (.error code') b ∧ Refines env b s :=
      ⟨code, _, rfl, .load durable _ none (.refused code fun hq => absurd hq hnot), .of_at .none hfile hs⟩
    refine hksLoadFileToBuffer_at (fun bytes hbytes => ?_) fun s hnot hs => hfault hnot hs
    cases hfile
    case none =>
      refine (loadFileToBuffer_none hwhole hbytes).weaken (fun _ hs => hs) ?_ ?_
      case refine_1 =>
        rintro _ s ⟨head, rest, hs⟩
        refine ⟨_, .load none _ _ (.empty fun _ saved hsaved => ?_), .of_at ?_ .none hs.state⟩
        case refine_1 => cases hsaved
        case refine_2 => exact .some .empty head rest hs.counts hs.length
      case refine_2 =>
        rintro e s ⟨⟨⟨code, rfl⟩, hnot⟩, hs⟩
        exact hfault hnot hs
    case some saved head hwritten =>
      have hfile : InFile env (some saved) file := .some saved head file hwritten
      refine (loadFileToBuffer_at hwhole hwritten hbytes).weaken (fun _ hs => hs) ?_ ?_
      case refine_1 =>
        rintro _ s (⟨head', rest', _, hs, hquiet⟩ | ⟨hsize, hs⟩)
        case inl =>
          refine ⟨_, .load (some saved) _ _ (.empty fun hq saved' hsaved => ?_), .of_at ?_ hfile hs.state⟩
          case refine_1 =>
            cases hsaved
            exact hquiet hq
          case refine_2 => exact .some .empty head' rest' hs.counts hs.length
        case inr =>
          refine ⟨_, .load (some saved) _ _ (.saved saved rfl hsize), .of_at ?_ hfile hs.state⟩
          exact .some saved.table head [] hs.counts hs.length
      case refine_2 =>
        rintro e s ⟨⟨⟨code, rfl⟩, hquiet⟩, hs⟩
        refine ⟨code, _, rfl, .load (some saved) _ none (.refused code fun hq => ?_), .of_at .none hfile hs⟩
        obtain ⟨⟨hmin, hcut⟩, hcode⟩ := hquiet hq
        cases hcode
        exact ⟨rfl, saved, rfl, hmin, hcut⟩

-- The file after a write that did not succeed
theorem inFile_torn {s : LiteStore} {t : KeyTable} (hfile : InFile env durable file)
    (h : s.file = file ∨ ∃ k head, Written env t.records k head s.file) :
    ∃ durable', Machine.Torn durable durable' t ∧ InFile env durable' s.file := by
  obtain hold | ⟨k, head, hwritten⟩ := h
  case inl => exact ⟨durable, .inl rfl, hold ▸ hfile⟩
  case inr => exact ⟨some ⟨t, k⟩, .inr ⟨k, rfl⟩, .some ⟨t, k⟩ head _ hwritten⟩

theorem steps_refresh (himage : InImage a.memory image) (hfile : InFile env a.durable file) :
    Steps env a .refresh (perform env .refresh) image file := by
  refine (hksFileBufferRefresh_at fun bytes hbytes => ?_).weaken (fun _ hs => hs) ?_ ?_
  case refine_1 =>
    subst hbytes
    generalize a.memory = memory at himage
    cases himage
    case some t head rest hcounts hlength =>
      refine ⟨?_, hlength⟩
      rw [length_imageOf]
      omega
  case refine_2 =>
    rintro _ s ⟨head, rest, ⟨hlength, hcounts⟩, himage, k, hquiet, hwritten⟩
    refine ⟨_, .refresh a k hquiet, himage ▸ .some .empty head rest hcounts hlength, ?_⟩
    exact .some ⟨.empty, k⟩ head _ hwritten
  case refine_3 =>
    rintro e s ⟨⟨⟨code, rfl⟩, hnot⟩, himage, htorn⟩
    obtain ⟨durable', htorn, hfile⟩ := inFile_torn (t := .empty) hfile htorn
    exact ⟨code, _, rfl, .refreshFailed a code durable' hnot htorn, himage ▸ .none, hfile⟩

-- Without an image the search refuses.
theorem steps_closed {x : LiteM Unit} (hother : request ≠ .restart ∧ request ≠ .load ∧ request ≠ .refresh)
    (hx : ∀ tick, x.run ⟨none, file, tick⟩ = .error (.error .invalidKeyFile) ⟨none, file, tick⟩)
    (hfile : InFile env durable file) : Steps env ⟨none, durable⟩ request x none file := by
  rintro ⟨_, _, tick⟩ ⟨rfl, rfl⟩
  rw [hx tick]
  exact ⟨_, _, rfl, .closed durable request hother, .none, hfile⟩

-- The records that `StoreKeyBlob` puts together are those of the table.
theorem records_put {t' : KeyTable} (hput : t.put r = some t') :
    (t.erase r.keyAlias).records ++ [r] = t'.records := (KeyTable.put_eq_some.mp hput).symm

theorem put_eq_none (h : t.put r = none) : ¬fileSize ((t.erase r.keyAlias).records ++ [r]) ≤ maxStorageSize.toNat := by
  intro hfits
  have hfits : fileSize (KeyedList.put KeyRecord.keyAlias t.records r) ≤ maxStorageSize.toNat := hfits
  rw [KeyTable.put, dif_pos hfits] at h
  cases h

-- The search has said where the record goes.
theorem storeKeyBlob_saved (himage : InImage (some t) (some (imageOf head t.records rest)))
    (hfile : InFile env durable file) (hcounts : Counts head t.records)
    (hlength : (imageOf head t.records rest).length ≤ maxImageSize) {needDeleteKey : Bool} {offset : UInt32}
    (hplace : Place t.records needDeleteKey offset (t.erase r.keyAlias).records) :
    Steps env ⟨some t, durable⟩ (.store r)
      (do
        storeKeyBlob env needDeleteKey offset r.bytes
        let totalLen ← hksStoreGetToatalSize
        hksFileWrite env (← readImage 0 totalLen.toNat))
      (some (imageOf head t.records rest)) file := by
  have hsize : head.totalLen.toNat ≤ maxStorageSize.toNat := hcounts.totalLen ▸ t.fits
  cases hput : t.put r
  case none =>
    refine .bind (Q := fun _ _ => False) ?_ fun _ => .of_false
    refine (storeKeyBlob_full hcounts hsize hplace (put_eq_none hput)).weaken_error ?_
    rintro e s ⟨rfl, hs⟩
    exact ⟨_, _, rfl, .storeFull t durable r hput, .of_at himage hfile hs⟩
  case some t' =>
    have hrecords := records_put hput
    have hfits : fileSize t'.records ≤ maxStorageSize.toNat := t'.fits
    refine .bind ((storeKeyBlob_at hcounts hsize hlength hplace (hrecords ▸ hfits)).weaken_error ?_) fun _ => ?_
    case refine_1 =>
      rintro e s ⟨⟨code, rfl⟩, hnot, hs | ⟨head', rest', hs⟩⟩
      case inl =>
        exact ⟨code, _, rfl, .storeFailed t t' durable r code hnot hput t (.inl rfl), .of_at himage hfile hs⟩
      case inr =>
        refine ⟨code, _, rfl, .storeFailed t t' durable r code hnot hput _ (.inr rfl), .of_at ?_ hfile hs.state⟩
        exact .some (t.erase r.keyAlias) head' rest' hs.counts hs.length
    rw [hrecords]
    refine .of_exists fun head' => .of_exists fun rest' => .of_pure fun hmac => ?_
    refine Triple.strengthen_pre (S := fun s => (Counts head' t'.records ∧
      (imageOf head' t'.records rest').length ≤ maxImageSize) ∧ At (some (imageOf head' t'.records rest')) file s)
      (.of_pure fun hholds => ?_) fun s hs => ⟨⟨hs.counts, hs.length⟩, hs.state⟩
    obtain ⟨hcounts', hlength'⟩ := hholds
    have himage' : InImage (some t') (some (imageOf head' t'.records rest')) := .some t' head' rest' hcounts' hlength'
    refine bind_at (hksStoreGetToatalSize_run hcounts') ((save_at hmac hcounts' hfits ?_).weaken (fun _ hs => hs) ?_ ?_)
    case refine_2.refine_1 =>
      have hmax : maxStorageSize.toNat = 5120 := rfl
      rw [KeyTable.size, Nat.toUInt32, UInt32.toNat_ofNat']
      omega
    case refine_2.refine_2 =>
      rintro _ s ⟨himage, k, hquiet, hwritten⟩
      refine ⟨_, .store t t' durable r k hput hquiet, himage ▸ himage', ?_⟩
      exact .some ⟨t', k⟩ head' _ hwritten
    case refine_2.refine_3 =>
      rintro e s ⟨⟨⟨code, rfl⟩, hnot⟩, himage, htorn⟩
      obtain ⟨durable', htorn, hfile⟩ := inFile_torn hfile htorn
      exact ⟨code, _, rfl, .storeTorn t t' durable durable' r code hnot hput htorn, himage ▸ himage', hfile⟩

theorem steps_store (himage : InImage a.memory image) (hfile : InFile env a.durable file) :
    Steps env a (.store r) (perform env (.store r)) image file := by
  obtain ⟨memory, durable⟩ := a
  cases himage
  case none => exact steps_closed (by simp) (fun _ => rfl) hfile
  case some t head rest hcounts hlength =>
    obtain ⟨needDeleteKey, offset, hplace, hrun⟩ := @exists_place file head t rest hcounts r.keyAlias
    have hsaved := storeKeyBlob_saved (.some t head rest hcounts hlength) hfile hcounts hlength hplace
    refine bind_at hrun ?_
    cases needDeleteKey
    case false =>
      obtain rfl := hplace.offset_eq rfl
      exact hsaved
    case true => exact hsaved

theorem steps_delete (himage : InImage a.memory image) (hfile : InFile env a.durable file) :
    Steps env a (.delete keyAlias) (perform env (.delete keyAlias)) image file := by
  obtain ⟨memory, durable⟩ := a
  cases himage
  case none => exact steps_closed (by simp) (fun _ => rfl) hfile
  case some t head rest hcounts hlength =>
    have himage : InImage (some t) (some (imageOf head t.records rest)) := .some t head rest hcounts hlength
    rw [Steps, perform, hksStoreDeleteKeyBlob]
    cases hfind : t.find keyAlias
    case none =>
      refine bind_error_at (search_missing hcounts hfind) fun s hs => ⟨_, _, rfl, ?_, .of_at himage hfile hs⟩
      exact .deleteMissing t durable keyAlias hfind
    case some r =>
      have hsome : (t.find keyAlias).isSome := Option.isSome_of_eq_some hfind
      obtain ⟨pre, post, offset, ⟨hrecords, herase⟩, hoffset, hrun⟩ := search_found hcounts hfind
      have hsize : head.totalLen.toNat ≤ maxStorageSize.toNat := hcounts.totalLen ▸ t.fits
      have hcounts' := hrecords ▸ hcounts
      refine bind_at hrun (bind_at (fun _ => getHeader_imageOf) ?_)
      rw [hrecords]
      refine bind_at (fun _ => keyInfoAt_record hoffset) ?_
      refine .bind (refreshKeyInfoHeaderHmac_at.weaken_error ?_) fun newHead => .of_pure fun hnewHead => ?_
      case refine_1 =>
        rintro e s ⟨⟨code, rfl⟩, hnot, hs⟩
        rw [← hrecords] at hs
        exact ⟨code, _, rfl, .deleteFailed t durable keyAlias code hnot hsome, .of_at himage hfile hs⟩
      refine bind_at (fun _ => deleteKey_run hcounts' (Nat.le_trans hsize (by decide)) hoffset) ?_
      refine bind_at (fun _ => setHeader_imageOf newHead) ?_
      have hcounts'' : Counts newHead (t.erase keyAlias).records := by
        rw [hnewHead, herase]
        exact hcounts'.without.withMac
      have hmac : Sealed env newHead := hnewHead ▸ sealed_withMac env _
      have himage' : InImage (some (t.erase keyAlias))
          (some (imageOf newHead (t.erase keyAlias).records (.replicate r.bytes.length 0 ++ rest))) := by
        refine .some _ newHead _ hcounts'' ?_
        rw [hrecords, length_imageOf, length_pack_split] at hlength
        rw [length_imageOf, herase, pack_append, List.length_append, List.length_append, List.length_replicate]
        omega
      rw [← herase]
      refine (save_at hmac hcounts'' (t.erase keyAlias).fits hcounts''.totalLen).weaken (fun _ hs => hs) ?_ ?_
      case refine_2.refine_1 =>
        rintro _ s ⟨himage, k, hquiet, hwritten⟩
        refine ⟨_, .delete t durable keyAlias k hsome hquiet, himage ▸ himage', ?_⟩
        exact .some ⟨t.erase keyAlias, k⟩ newHead _ hwritten
      case refine_2.refine_2 =>
        rintro e s ⟨⟨⟨code, rfl⟩, hnot⟩, himage, htorn⟩
        obtain ⟨durable', htorn, hfile⟩ := inFile_torn hfile htorn
        exact ⟨code, _, rfl, .deleteTorn t durable durable' keyAlias code hnot hsome htorn, himage ▸ himage', hfile⟩

theorem steps_ask {question : Question} (himage : InImage a.memory image) (hfile : InFile env a.durable file) :
    Triple (At image file) (answer env question)
      (fun v s => ∃ b, Step env.Quiet a (.ask question) (.ok v) b ∧ Refines env b s)
      (fun e s => ∃ code b, e = .error code ∧ Step env.Quiet a (.ask question) (.error code) b ∧ Refines env b s) := by
  obtain ⟨memory, durable⟩ := a
  cases himage
  case none =>
    rintro ⟨_, _, tick⟩ ⟨rfl, rfl⟩
    rw [answer_closed tick]
    exact ⟨_, _, rfl, .closed durable _ (by simp), .none, hfile⟩
  case some t head rest hcounts hlength =>
    have himage : InImage (some t) (some (imageOf head t.records rest)) := .some t head rest hcounts hlength
    refine (answers_at hcounts).weaken (fun _ hs => hs) ?_ ?_
    case refine_1 =>
      rintro v s ⟨hv, hs⟩
      exact ⟨_, hv ▸ .ask t durable question, .of_at himage hfile hs⟩
    case refine_2 =>
      rintro e s ⟨code, ⟨rfl, hcode | ⟨⟨hnot, rfl⟩, keyAlias, rfl, hfind⟩⟩, hs⟩
      case inl => exact ⟨code, _, rfl, hcode ▸ .ask t durable question, .of_at himage hfile hs⟩
      case inr => exact ⟨_, _, rfl, .askFailed t durable keyAlias hnot hfind, .of_at himage hfile hs⟩

end Steps

section Runs

variable {s : LiteStore} {requests : List Request}

-- A request is served, and what comes of it is a step of the machine.
theorem serve_step (hwhole : env.Whole) (request : Request) (h : Refines env a s) : ∃ answer b t,
    (returned (serve env request)).run s = .ok answer t ∧ Step env.Quiet a request answer b ∧ Refines env b t := by
  have hserve : Triple (At s.image s.file) (serve env request)
      (fun v s => ∃ b, Step env.Quiet a request (.ok v) b ∧ Refines env b s)
      (fun e s => ∃ code b, e = .error code ∧ Step env.Quiet a request (.error code) b ∧ Refines env b s) := by
    cases request
    case restart => exact (steps_restart h.file).bind fun _ => .pure fun _ hs => hs
    case load => exact (steps_load hwhole h.image h.file).bind fun _ => .pure fun _ hs => hs
    case refresh => exact (steps_refresh h.image h.file).bind fun _ => .pure fun _ hs => hs
    case store => exact (steps_store h.image h.file).bind fun _ => .pure fun _ hs => hs
    case delete => exact (steps_delete h.image h.file).bind fun _ => .pure fun _ hs => hs
    case ask => exact steps_ask h.image h.file
  have hserve := hserve s ⟨rfl, rfl⟩
  cases hrun : (serve env request).run s
  case ok v t =>
    rw [hrun] at hserve
    obtain ⟨b, hstep, ht⟩ := hserve
    exact ⟨_, b, t, run_returned_ok hrun, hstep, ht⟩
  case error e t =>
    rw [hrun] at hserve
    obtain ⟨code, b, rfl, hstep, ht⟩ := hserve
    exact ⟨_, b, t, run_returned_error hrun, hstep, ht⟩

theorem serveAll_refines (hwhole : env.Whole) (requests : List Request) (h : Refines env a s) : ∃ answers b t,
    (serveAll env requests).run s = .ok answers t ∧ Run env.Quiet a requests answers b ∧ Refines env b t := by
  induction requests generalizing a s
  case nil => exact ⟨[], a, s, rfl, .nil a, h⟩
  case cons request requests ih =>
    obtain ⟨answer, b, t, hrun, hstep, ht⟩ := serve_step hwhole request h
    obtain ⟨answers, c, u, hruns, hsteps, hu⟩ := ih ht
    refine ⟨answer :: answers, c, u, ?_, .cons hstep hsteps, hu⟩
    rw [serveAll, List.mapM_cons, run_bind_of_ok hrun]
    exact run_bind_of_ok hruns

end Runs

section Main

-- A device on which nothing was ever stored
theorem refines_new : Refines env ⟨none, none⟩ {} := ⟨.none, .none⟩

theorem agrees_new : Spec.closed.Agrees ⟨none, none⟩ .empty := ⟨⟨fun _ => rfl, rfl, rfl⟩, rfl, .inl ⟨rfl, rfl⟩⟩

theorem all_new {p : KeyRecord → Prop} : Machine.All p ⟨none, none⟩ where
  memory _ h  := by cases h
  durable _ h := by cases h

theorem LiteEnv.Quiet.whole (h : env.Quiet) : env.Whole := by
  intro tick read hread
  rw [h.read] at hread
  cases hread

theorem run_machine {requests : List Request} {answers : List Answer} {s : LiteStore} (hwhole : env.Whole)
    (hrun : (serveAll env requests).run {} = .ok answers s) :
    ∃ b, Run env.Quiet ⟨none, none⟩ requests answers b := by
  obtain ⟨answers', b, s', hrun', hsteps, _⟩ := serveAll_refines hwhole requests refines_new
  cases hrun.symm.trans hrun'
  exact ⟨b, hsteps⟩

theorem serveAll_quiet (hquiet : env.Quiet) (requests : List Request) {spec : Spec} {s : LiteStore}
    (hspec : spec.Agrees a t) (h : Refines env a s) :
    ∃ s', (serveAll env requests).run s = .ok (spec.run requests) s' := by
  obtain ⟨answers, b, s', hrun, hsteps, _⟩ := serveAll_refines hquiet.whole requests h
  rw [eq_true hquiet] at hsteps
  cases hspec.run hsteps
  exact ⟨s', hrun⟩

-- A system and an engine that never fail, with a simple HMAC
def calm : LiteEnv where
  malloc _         := true
  stat _           := true
  openFile _       := true
  read _           := .done
  write _          := .done
  generateRandom _ := .ok (.zero _)
  calcHeaderMac _  := none
  mac _ bytes      := .ofBytes _ bytes

theorem calm_quiet : calm.Quiet :=
  ⟨fun _ => rfl, fun _ => rfl, fun _ => rfl, fun _ => rfl, fun _ => rfl, fun _ _ hc => (by cases hc), fun _ => rfl⟩

-- A key with the alias `a` and one byte of key material
def sampleKey : KeyRecord where
  bytes  := [42, 0, 1, 0] ++ .replicate 34 0 ++ [1, 0, 97, 7]
  valid  := by decide
  length := by decide

-- Whatever fails on the way, the image and the file are always those of a machine that took the same requests.
theorem liteStore_refines (hwhole : env.Whole) (requests : List Request) : ∃ answers b s,
    (serveAll env requests).run {} = .ok answers s ∧ Run env.Quiet ⟨none, none⟩ requests answers b ∧
      Refines env b s :=
  serveAll_refines hwhole requests refines_new

theorem liteStore_refines_sample : ∃ answers b s,
    (serveAll calm [.load, .store sampleKey, .restart, .load]).run {} = .ok answers s ∧
      Run calm.Quiet ⟨none, none⟩ [.load, .store sampleKey, .restart, .load] answers b ∧ Refines calm b s :=
  liteStore_refines calm_quiet.whole _

-- When nothing fails, the store is a map with a budget, and it outlives the process.
theorem liteStore_is_map (hquiet : env.Quiet) (requests : List Request) :
    ∃ s, (serveAll env requests).run {} = .ok (Spec.closed.run requests) s :=
  serveAll_quiet hquiet requests agrees_new refines_new

theorem liteStore_is_map_sample : ∃ s,
    (serveAll calm [.load, .store sampleKey, .restart, .load, .ask (.blob [97])]).run {} =
      .ok [.ok .done, .ok .done, .ok .done, .ok .done, .ok (.bytes sampleKey.bytes)] s :=
  liteStore_is_map calm_quiet [.load, .store sampleKey, .restart, .load, .ask (.blob [97])]

-- A key is never the work of the store: some caller gave it for this alias.
theorem blob_was_stored (hwhole : env.Whole) {requests : List Request} {answers : List Answer} {s : LiteStore}
    {bytes : Bytes} (hrun : (serveAll env (requests ++ [.ask (.blob keyAlias)])).run {} = .ok answers s)
    (hlast : answers.getLast? = some (.ok (.bytes bytes))) :
    ∃ r, .store r ∈ requests ∧ r.keyAlias = keyAlias ∧ bytes = r.bytes := by
  obtain ⟨b, hsteps⟩ := run_machine hwhole hrun
  exact hsteps.last_blob hlast all_new fun r hr => hr

theorem blob_was_stored_sample :
    ∃ r, Request.store r ∈ [.load, .store sampleKey] ∧ r.keyAlias = [97] ∧ sampleKey.bytes = r.bytes := by
  obtain ⟨s, hrun⟩ := serveAll_quiet calm_quiet [.load, .store sampleKey, .ask (.blob [97])] agrees_new refines_new
  exact @blob_was_stored calm [97] calm_quiet.whole [.load, .store sampleKey] _ s _ hrun rfl

-- A key that was replaced or deleted does not come back, and a key that was stored is not lost to an older one.
theorem blob_is_newest (hwhole : env.Whole) {front between : List Request} {settling : Request}
    {answers : List Answer} {s : LiteStore} {newest : Option KeyRecord} {value : Value} {bytes : Bytes}
    (hrun : (serveAll env (front ++ settling :: (between ++ [.ask (.blob keyAlias)]))).run {} = .ok answers s)
    (hsettles : settling.Settles keyAlias newest) (hother : ∀ request ∈ between, ¬request.StoresTo keyAlias)
    (hok : answers[front.length]? = some (.ok value)) (hlast : answers.getLast? = some (.ok (.bytes bytes))) :
    ∃ r, newest = some r ∧ bytes = r.bytes := by
  obtain ⟨b, hsteps⟩ := run_machine hwhole hrun
  exact hsteps.newest_blob hsettles hother hok hlast

theorem blob_is_newest_sample : ∃ r, some sampleKey = some r ∧ sampleKey.bytes = r.bytes := by
  obtain ⟨s, hrun⟩ := serveAll_quiet calm_quiet [.load, .store sampleKey, .restart, .load, .ask (.blob [97])]
    agrees_new refines_new
  refine @blob_is_newest calm [97] calm_quiet.whole [.load] [.restart, .load] (.store sampleKey) _ s _ .done _ hrun
    ⟨rfl, rfl⟩ ?_ rfl rfl
  intro request hrequest
  rintro ⟨r, rfl, _⟩
  simp at hrequest

end Main

end Huks.StorageLite
