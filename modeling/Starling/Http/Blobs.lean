import Starling.Http.Host

namespace Starling.Http

/-!
# Blobs that are served

A blob is a row and the file at its path.  Requests that do not name a blob leave both
alone.  A push that is answered 202 has either put its body in place, or has found a row
and a file of the same length and trusted them.  The second case compares lengths only.
-/

open Storage World Media Host

def Host.blobAt (host : Host) (owner : Bytes32) (hash : String) : Option ServedMedia × Option Bytes :=
  (Media.get host.store.db owner hash, host.files.lookup (ownerShardPath owner hash))

theorem getMedia_eq (host : Host) (owner) (hash : String) : host.getMedia owner hash =
      if isValidHash hash = false then .text 400 "invalid hash"
      else
        match host.blobAt owner hash with
        | (some _, some content) => .blob content.length content
        | _ => .text 404 "not found" := by
  rw [getMedia, getHandler, blobAt]
  split
  · rfl
  · cases found : get host.store.db owner hash with
    | none => simp [rest, found]
    | some row =>
      have path := (host.filed (owner, hash) row found).2
      have opened : (rest host.store.db host.files).files.lookup row.path =
          host.files.lookup (ownerShardPath owner hash) := by
        rw [path]
        rfl
      simp only [rest, found] at opened ⊢
      rw [opened]
      cases host.files.lookup (ownerShardPath owner hash) with
      | none | some => rfl

variable {hash : String} {owner : Bytes32}

theorem getMedia_congr {left right : Host}
    (same : isValidHash hash = true -> left.blobAt owner hash = right.blobAt owner hash) :
    left.getMedia owner hash = right.getMedia owner hash := by
  rw [getMedia_eq, getMedia_eq]
  cases valid : isValidHash hash with
  | false => rfl
  | true => rw [same valid]

/-- A request that may change the blob of its Owner under this hash. -/
def OwnerRequest.names (site : RouterSite) (hash : String) : OwnerRequest -> Prop
  | .pushMedia named _ _ => named = hash
  | .deleteMedia request _ => hash ∈ (site.parseDelete request.body).getD []
  | _ => False

section Frame

variable {other : Bytes32} {hash : String} (valid : isValidHash hash = true)
include valid

theorem blobAt_pushTransaction (site : Site) (host : Host) (later) (faults : Nat -> Fault)
    (push : Push) (apart : (other, hash) ≠ (push.owner, push.hash)) :
    (get (pushTransaction site host.store.db host.files later faults push).db other hash,
      (pushTransaction site host.store.db host.files later faults push).files.lookup
        (ownerShardPath other hash)) = host.blobAt other hash := by
  have notFinal : ownerShardPath other hash ≠ push.path := by
    intro same
    have keys := ownerShardPath_injective valid push.valid same
    exact apart (Prod.ext keys.1 keys.2)
  have notTmp : ownerShardPath other hash ≠ tmpPath push.path :=
    fun same => tmpPath_ne push.valid valid same.symm
  have effect := pushEffect site host.store.db host.files later faults push
  generalize pushTransaction site host.store.db host.files later faults push = outcome at effect ⊢
  cases effect with
  | failed _ _ _ elsewhere => exact Prod.ext rfl (elsewhere _ notFinal notTmp)
  | present => rfl
  | replaced _ _ _ stored =>
    apply Prod.ext
    · rw [Media.get, Media.upsert_eq_some stored, AList.lookup_insert_ne apart]
      rfl
    · rw [lookup_placed, if_neg notFinal, if_neg notTmp]
      rfl

theorem blobAt_deleteTransaction (host : Host) (faults owner)
    (hashes : List String) (apart : ¬(other = owner ∧ hash ∈ hashes)) :
    (get (deleteTransaction host.store.db host.files faults owner hashes).db other hash,
      (deleteTransaction host.store.db host.files faults owner hashes).files.lookup
        (ownerShardPath other hash)) = host.blobAt other hash := by
  have kept : ownerShardPath other hash ∉ (deleteRows owner hashes host.store.db).2 := by
    intro collected
    rcases (mem_deleteRows owner hashes host.store.db _).mp collected with
      ⟨named, row, member, found, path⟩
    have atNamed := host.filed (owner, named) row found
    rw [atNamed.2] at path
    have keys := ownerShardPath_injective atNamed.1 valid path
    exact apart ⟨keys.1.symm, keys.2 ▸ member⟩
  rw [deleteTransaction]
  split
  · rfl
  · apply Prod.ext
    · rw [Media.get, lookup_deleteRows, if_neg apart]
      rfl
    · exact (lookup_unlinkAll faults 1 _ host.files _).1 kept

theorem blobAt_handle (site : RouterSite) (host : Host) (owner : Bytes32) (request : OwnerRequest)
    (apart : other = owner -> ¬request.names site hash) :
    (host.handle site owner request).1.blobAt other hash = host.blobAt other hash := by
  unfold handle
  split
  · rfl
  · cases request with
    | pushEvents signed fault =>
      have media := (pushEvents_only site host.store owner signed fault).media
      exact Prod.ext (congrArg (fun rows => AList.lookup (other, hash) rows) media) rfl
    | deleteEvents signed fault =>
      have media := (deleteEvents_only site host.store owner signed fault).media
      exact Prod.ext (congrArg (fun rows => AList.lookup (other, hash) rows) media) rfl
    | voiceRooms signed fault =>
      have db := (voiceRooms_only site host.store owner signed fault).db
      exact Prod.ext (congrArg (fun db => get db other hash) db) rfl
    | pushMedia named signed faults =>
      simp only [pushMedia]
      split
      next namedValid =>
        cases signed.refusal site.toSite owner ("/media/" ++ named) with
        | some => rfl
        | none =>
          refine blobAt_pushTransaction valid site.toSite host signed.later faults
            ⟨owner, named, signed.body, namedValid⟩ ?_
          intro same
          exact apart (congrArg Prod.fst same) (congrArg Prod.snd same).symm
      · rfl
    | deleteMedia signed faults =>
      simp only [deleteMedia]
      cases signed.refusal site.toSite owner "/media/delete" with
      | some => rfl
      | none =>
        cases parsed : site.parseDelete signed.body with
        | none => rfl
        | some hashes =>
          simp only
          split
          · refine blobAt_deleteTransaction valid host faults owner hashes ?_
            rintro ⟨mine, member⟩
            apply apart mine
            rw [OwnerRequest.names, parsed]
            exact member
          · rfl

end Frame

theorem blobAt_serve (site : RouterSite) (valid : isValidHash hash = true) (requests : List OwnerRequest)
    (host : Host) (quiet : ∀ request ∈ requests, ¬request.names site hash) :
    (host.serve site owner requests).1.blobAt owner hash = host.blobAt owner hash := by
  induction requests generalizing host with
  | nil => rfl
  | cons request rest ih =>
    rw [serve, ih _ (fun later member => quiet later (List.mem_cons_of_mem _ member))]
    exact blobAt_handle valid site host owner request (fun _ => quiet request List.mem_cons_self)

/-- A row and a file of the length of the body, so that the push is not written, are the
body. -/
def Trusted (host : Host) (owner : Bytes32) (hash : String) (body : Bytes) : Prop :=
  ∀ row content, Media.get host.store.db owner hash = some row ->
    host.files.lookup row.path = some content -> row.size = body.length ->
      content.length = body.length -> content = body

theorem alreadyStored_iff (host : Host) (push : Push) :
    (rest host.store.db host.files).alreadyStored push = true ↔
      ∃ row content, host.blobAt push.owner push.hash = (some row, some content) ∧
        row.size = push.body.length ∧ content.length = push.body.length := by
  unfold alreadyStored
  constructor
  · intro stored
    split at stored
    · cases stored
    next row found =>
      rcases of_decide_eq_true stored with ⟨size, length⟩
      rcases Option.map_eq_some_iff.mp length with ⟨content, opened, _⟩
      exact ⟨row, content, Prod.ext found opened, size, by omega⟩
  · rintro ⟨row, content, blob, size, length⟩
    have found : get (rest host.store.db host.files).db push.owner push.hash = some row := congrArg Prod.fst blob
    have opened : (rest host.store.db host.files).files.lookup push.path = some content := congrArg Prod.snd blob
    rw [found, opened]
    apply decide_eq_true
    rw [Option.map_some, size, length]
    exact ⟨rfl, rfl⟩

theorem content_of_accepted (site : Site) (host later faults) (push : Push)
    (accepted : (pushTransaction site host.store.db host.files later faults push).answer.code = 202) :
    ∃ row content, get (pushTransaction site host.store.db host.files later faults push).db push.owner push.hash =
        some row ∧
      (pushTransaction site host.store.db host.files later faults push).files.lookup push.path = some content ∧
      (content = push.body ↔ Trusted host push.owner push.hash push.body) := by
  have effect := pushEffect site host.store.db host.files later faults push
  generalize pushTransaction site host.store.db host.files later faults push = outcome at effect accepted ⊢
  cases effect with
  | failed _ _ refused => exact absurd accepted refused
  | present stored =>
    rcases (alreadyStored_iff host push).mp stored with ⟨row, content, blob, size, length⟩
    have found : get host.store.db push.owner push.hash = some row := congrArg Prod.fst blob
    have opened : host.files.lookup push.path = some content := congrArg Prod.snd blob
    have path : row.path = push.path := (host.filed (push.owner, push.hash) row found).2
    refine ⟨row, content, found, opened, ?_⟩
    constructor
    · intro same other bytes otherFound otherOpened _ _
      rw [found] at otherFound
      cases otherFound
      rw [path, opened] at otherOpened
      cases otherOpened
      exact same
    · intro trusted
      exact trusted row content found (path ▸ opened) size length
  | replaced _ fresh _ stored =>
    refine ⟨⟨push.body.length, later, push.path⟩, push.body, ?_, ?_, ?_⟩
    · rw [Media.get, Media.upsert_eq_some stored]
      exact AList.lookup_insert _
    · rw [lookup_placed, if_pos rfl]
    · refine iff_of_true rfl ?_
      -- A row and a file of this length would have been found already stored.
      intro row content found opened size length
      have path : row.path = push.path := (host.filed (push.owner, push.hash) row found).2
      rw [path] at opened
      have present : (rest host.store.db host.files).alreadyStored push = true :=
        (alreadyStored_iff host push).mpr ⟨row, content, Prod.ext found opened, size, length⟩
      rw [fresh] at present
      cases present

theorem pushMedia_of_accepted {site : RouterSite} {host : Host} {signed : Signed} {faults : Nat -> Fault}
    (accepted : (host.handle site owner (.pushMedia hash signed faults)).2.code = 202) :
    ∃ valid : isValidHash hash = true,
      let push : Push := ⟨owner, hash, signed.body, valid⟩
      let outcome := pushTransaction site.toSite host.store.db host.files signed.later faults push
      outcome.answer.code = 202 ∧ (host.handle site owner (.pushMedia hash signed faults)).1.blobAt owner hash =
          (get outcome.db owner hash, outcome.files.lookup push.path) := by
  unfold handle at accepted ⊢
  split at accepted
  · exact absurd accepted (by decide : 413 ≠ 202)
  next short =>
    rw [if_neg short]
    simp only [pushMedia] at accepted ⊢
    by_cases valid : isValidHash hash = true
    · rw [dif_pos valid] at accepted ⊢
      cases refused : signed.refusal site.toSite owner ("/media/" ++ hash) with rw [refused] at accepted
      | some => exact absurd accepted (Signed.refusal_code refused)
      | none => exact ⟨valid, accepted, rfl⟩
    · rw [dif_neg valid] at accepted
      exact absurd accepted (by decide : 400 ≠ 202)

/-- From an accepted push on, and until a request names the hash again, the blob is served
with the bytes of the push exactly if the push did not trust other bytes of the same
length. -/
theorem accepted_push_served_iff (site : RouterSite) (owner : Bytes32) (host : Host) (hash : String)
    (signed : Signed) (faults : Nat -> Fault)
    (accepted : (host.handle site owner (.pushMedia hash signed faults)).2.code = 202)
    (later : List OwnerRequest) (quiet : ∀ request ∈ later, ¬request.names site hash) :
    ((host.handle site owner (.pushMedia hash signed faults)).1.serve site owner later).1.getMedia owner hash =
        .blob signed.body.length signed.body ↔
      Trusted host owner hash signed.body := by
  rcases pushMedia_of_accepted accepted with ⟨valid, ended, blob⟩
  rcases content_of_accepted site.toSite host signed.later faults ⟨owner, hash, signed.body, valid⟩ ended with
    ⟨_, content, found, opened, trusted⟩
  have served : ((host.handle site owner (.pushMedia hash signed faults)).1.serve site owner later).1.getMedia
      owner hash = .blob content.length content := by
    rw [getMedia_eq, valid, if_neg (by decide), blobAt_serve site valid later _ quiet, blob, found, opened]
  rw [served, ← trusted]
  constructor
  · intro same
    exact (Answer.blob.inj same).2
  · intro same
    rw [same]

def rekeyedPushes : List OwnerRequest :=
  [.pushMedia World.blobHash (fromPhone [1, 2, 3]) (fun _ => .fine),
    .pushMedia World.blobHash (fromPhone [4, 5, 6]) (fun _ => .fine)]

/-- Both pushes are answered 202, and the first body is served. -/
theorem rekeyed_push_is_not_served :
    (pairedHost.serve smallRouter phoneKey rekeyedPushes).2.map (fun exchange => exchange.reply.code) = [202, 202] ∧
      (pairedHost.serve smallRouter phoneKey rekeyedPushes).1.getMedia phoneKey World.blobHash = .blob 3 [1, 2, 3] := by
  decide +kernel

/-- A shorter body replaces the blob and is served, also after other requests. -/
theorem accepted_push_served_iff_shorter :
    Trusted (pairedHost.serve smallRouter phoneKey rekeyedPushes).1 phoneKey World.blobHash [7] ∧
    (((pairedHost.serve smallRouter phoneKey rekeyedPushes).1.handle smallRouter phoneKey
      (.pushMedia World.blobHash (fromPhone [7]) (fun _ => .fine))).1.serve smallRouter phoneKey
        [.pushEvents (fromPhone pollBatch) false]).1.getMedia phoneKey World.blobHash = .blob 1 [7] := by
  have trusted : Trusted (pairedHost.serve smallRouter phoneKey rekeyedPushes).1 phoneKey blobHash [7] := by
    intro row content atHash _ size _
    cases atHash
    exact absurd size (by decide)
  refine ⟨trusted, (accepted_push_served_iff smallRouter phoneKey _ blobHash (fromPhone [7])
    (fun _ => .fine) ?_ _ ?_).mpr trusted⟩
  · decide +kernel
  · intro request member
    rw [List.mem_singleton.mp member]
    exact id

/-! ## Pushes that are not accepted -/

/-- The body replaces that of a blob with a row, and then the transaction fails. -/
structure Overwrites (site : Site) (host : Host) (push : Push) (faults : Nat -> Fault) : Prop where
  fine : faults 0 = .fine ∧ faults 1 = .fine ∧ faults 2 = .fine
  fresh : (World.rest host.store.db host.files).alreadyStored push = false
  capacity : World.pushCapacity site host.store.db push = .ok
  failed : faults 3 ≠ .fine
  row : (Media.get host.store.db push.owner push.hash).isSome = true
  other : host.files.lookup push.path ≠ some push.body

theorem blobAt_withMedia (host : Host) (outcome owners filed other name) :
    (host.withMedia outcome owners filed).blobAt other name =
      (get outcome.db other name, outcome.files.lookup (ownerShardPath other name)) := rfl

theorem served_of_refused (site : Site) (host : Host) (later faults) {push} (kept : ¬Overwrites site host push faults)
    (refused : (pushTransaction site host.store.db host.files later faults push).answer.code ≠ 202) :
    (pushTransaction site host.store.db host.files later faults push).db = host.store.db ∧
    ((get host.store.db push.owner push.hash).isSome = true ->
      (pushTransaction site host.store.db host.files later faults push).files.lookup push.path =
        host.files.lookup push.path) := by
  have apart : push.path ≠ tmpPath push.path := fun same => tmpPath_ne push.valid push.valid same.symm
  have partly : ∀ content, (host.files.insert (tmpPath push.path) content).lookup push.path =
      host.files.lookup push.path := by
    intro content
    rw [AList.lookup_insert_ne apart]
  have fully : (placed host.files push).lookup push.path = some push.body := by
    rw [lookup_placed, if_pos rfl]
  rw [pushTransaction] at refused ⊢
  split
  · exact ⟨rfl, fun _ => rfl⟩
  next begun =>
    split
    · exact ⟨rfl, fun _ => rfl⟩
    next fresh =>
      cases capacity : pushCapacity site host.store.db push with
      | ownerExceeded | hostExceeded => exact ⟨rfl, fun _ => rfl⟩
      | ok =>
        cases written : faults 1 with
        | failed => exact ⟨rfl, fun _ => rfl⟩
        | torn => exact ⟨rfl, fun _ => partly _⟩
        | fine =>
          simp only
          split
          · exact ⟨rfl, fun _ => partly _⟩
          next renamed =>
            split
            next failed =>
              refine ⟨rfl, fun row => fully.trans (Eq.symm ?_)⟩
              by_contra other
              exact kept ⟨⟨not_not.mp begun, written, not_not.mp renamed⟩, Bool.eq_false_of_not_eq_true fresh,
                capacity, failed, row, other⟩
            next fine =>
              cases stored : upsert host.store.db push.owner push.hash ⟨push.body.length, later, push.path⟩ with
              | none =>
                refine ⟨rfl, fun row => ?_⟩
                rw [upsert, dif_pos (host.store.db.mediaOwned _ (AList.lookup_isSome.mp row))] at stored
                cases stored
              | some => simp [begun, fresh, capacity, written, renamed, fine, stored, Answer.code] at refused

/-- A push that is not accepted leaves the rows and all that is served alone, if and only if it has not
overwritten a blob before its transaction failed. -/
theorem refused_push_serves_iff (site : RouterSite) (host : Host) (owner : Bytes32) (hash : String)
    (request : Signed) (faults : Nat -> Fault) :
    ((host.pushMedia site owner hash request faults).2.code ≠ 202 ->
      (host.pushMedia site owner hash request faults).1.store.db.servedMedia = host.store.db.servedMedia ∧
      ∀ other name, (host.pushMedia site owner hash request faults).1.getMedia other name =
        host.getMedia other name) ↔
    ¬∃ valid : isValidHash hash = true, request.refusal site.toSite owner ("/media/" ++ hash) = none ∧
      Overwrites site.toSite host ⟨owner, hash, request.body, valid⟩ faults := by
  rw [pushMedia]
  by_cases valid : isValidHash hash = true
  · rw [dif_pos valid]
    cases refused : request.refusal site.toSite owner ("/media/" ++ hash) with
    | some => simp
    | none =>
      simp only [true_and, exists_prop_of_true valid]
      constructor
      · intro kept replaced
        have failed : pushTransaction site.toSite host.store.db host.files request.later faults
            ⟨owner, hash, request.body, valid⟩ =
              ⟨host.store.db, placed host.files ⟨owner, hash, request.body, valid⟩, internalError⟩ := by
          simp [pushTransaction, replaced.fine, replaced.fresh, replaced.capacity, replaced.failed]
        have served := (kept (by rw [failed]; exact (by decide : 500 ≠ 202))).2 owner hash
        rcases Option.isSome_iff_exists.mp replaced.row with ⟨_, found⟩
        have body : (placed host.files ⟨owner, hash, request.body, valid⟩).lookup (ownerShardPath owner hash) =
          some request.body := (lookup_placed _ _ _).trans (if_pos rfl)
        rw [getMedia_eq, getMedia_eq, blobAt_withMedia, failed, blobAt, found, body, valid] at served
        cases opened : host.files.lookup (ownerShardPath owner hash) with
        | none => simp [opened] at served
        | some =>
          simp only [opened, Bool.true_eq_false, if_false, Answer.blob.injEq] at served
          exact replaced.other (served.2 ▸ opened)
      · intro kept code
        have same := served_of_refused site.toSite host request.later faults kept code
        refine ⟨(congrArg Database.servedMedia same.1 :), ?_⟩
        intro other name
        by_cases named : (other, name) = (owner, hash)
        · cases named
          cases found : get host.store.db owner hash with
          | none => rw [getMedia_eq, getMedia_eq, blobAt_withMedia, same.1, blobAt, found]
          | some row =>
            apply getMedia_congr
            intro _
            rw [blobAt_withMedia, same.1]
            exact congrArg (Prod.mk _) (same.2 (Option.isSome_iff_exists.mpr ⟨row, found⟩))
        · apply getMedia_congr
          intro proper
          exact blobAt_pushTransaction proper site.toSite host request.later faults
            ⟨owner, hash, request.body, valid⟩ named
  · simp [valid]

/-- The second push fails at the end of its transaction, and its body is served. -/
theorem failed_push_is_served :
    let host := (pairedHost.pushMedia smallRouter phoneKey World.blobHash (fromPhone [1, 2, 3]) (fun _ => .fine)).1
    let pushed := host.pushMedia smallRouter phoneKey World.blobHash (fromPhone [7])
      (fun work => if work = 3 then .failed else .fine)
    pushed.2.code = 500 ∧ host.getMedia phoneKey World.blobHash = .blob 3 [1, 2, 3] ∧
      pushed.1.getMedia phoneKey World.blobHash = .blob 1 [7] := by
  decide +kernel

end Starling.Http
