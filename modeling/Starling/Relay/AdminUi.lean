import Starling.Foundation.Jobs
import Starling.Foundation.Run
import Starling.Http.OwnerAuth

namespace Starling

/-!
# The password of the admin page

`admin_ui_router` puts `basic_auth_mw` in front of every route.  The middleware looks the
password hash up, takes the Basic password from the request and checks it, first against
the last password that argon2 accepted and then with argon2.  The lookup and the
verification run on other threads, so `set-password` and other requests get in between.

A lookup that fails is treated as a lookup that finds no row, and without a row the page
is open.

`stored` and `entered` record what happened; no request reads them.
-/

open Http List

namespace Admin

/-- What the admin server is given.  `utf8` is the test of `String::from_utf8`, and
`verifyPassword` parses the PHC string and runs argon2. -/
structure AdminSite where
  K : Wire.Crypto
  utf8 : Bytes -> Bool
  verifyPassword : Bytes -> String -> Bool

structure AdminRequest where
  method : String
  path : String
  headers : HeaderMap

inductive AdminRoute where
  | index
  | pairPage
  | health
  | apiOwners
  | apiUnpair (pubkey : String)

def matchPath (path : String) : Option AdminRoute :=
  if path = "/" then some .index
  else if path = "/pair" then some .pairPage
  else if path = "/health" then some .health
  else if path = "/api/owners" then some .apiOwners
  else
    let lead := "/api/unpair/".toList
    let pubkey := path.toList.drop lead.length
    if lead.isPrefixOf path.toList ∧ pubkey ≠ [] ∧ '/' ∉ pubkey then
      some (.apiUnpair (String.ofList pubkey))
    else none

/-- `get` also answers `HEAD`. -/
def AdminRoute.allows (route : AdminRoute) (method : String) : Bool :=
  match route with
  | .apiUnpair _ => decide (method = "POST")
  | _ => decide (method = "GET" ∨ method = "HEAD")

/-- `str::strip_prefix`. -/
def stripLead (lead text : Bytes) : Option Bytes :=
  if lead.isPrefixOf text then some (text.drop lead.length) else none

/-- `str::split_once`. -/
def splitOnce (mark : UInt8) (text : Bytes) : Option (Bytes × Bytes) :=
  if mark ∈ text then
    let first := text.takeWhile (fun byte => byte ≠ mark)
    some (first, text.drop (first.length + 1))
  else none

def supplied (site : AdminSite) (headers : HeaderMap) : Option Bytes := do
  let value <- headers.get "authorization"
  let text <- toStr value
  let b64 <- stripLead (Wire.ascii "Basic ") text
  let raw <- Base64.decode b64
  if site.utf8 raw then
    let (_, password) <- splitOnce 58 raw
    some password
  else none

/-- The row of `admin_credentials`. -/
structure AdminCreds where
  passwordHash : String
  updatedAt : Int

/-- Where `basic_auth_mw` stands. -/
inductive AuthPhase where
  | looking
  | found (creds : AdminCreds)
  | verifying (password : Bytes) (storedHash : String)
  | verified (password : Bytes) (storedHash : String) (ok : Bool)

/-- A request in the middleware.  `since` counts the hashes that had been stored when it
arrived; there was a row exactly if it is positive. -/
structure AdminTask where
  request : AdminRequest
  route : AdminRoute
  since : Nat
  phase : AuthPhase

/-- A request that reached its handler.  `upto` counts the hashes stored by then. -/
structure Entry where
  request : AdminRequest
  route : AdminRoute
  since : Nat
  upto : Nat

structure AdminServer where
  credentials : Option AdminCreds
  authCache : Option (String × Bytes32)
  tasks : Jobs AdminTask
  answers : List (Nat × Failure)
  stored : List String
  entered : List Entry

/-- The next thing that happens.  `arrive` comes with what `try_acquire` returned: the
seconds to wait, if the bucket is dry. -/
inductive AdminInput where
  | arrive (request : AdminRequest) (retryAfter : Option Nat)
  | lookup (id : Nat) (failed : Bool)
  | consult (id : Nat)
  | verify (id : Nat) (panicked : Bool)
  | conclude (id : Nat)
  | setPassword (passwordHash : String) (now : Int)

namespace AdminServer

section

variable (server : AdminServer)

def refuse (answer : Failure) : AdminServer :=
  { server with
    tasks := server.tasks.skip
    answers := server.answers ++ [(server.tasks.next, answer)] }

def close (id : Nat) (answer : Failure) : AdminServer :=
  { server with
    tasks := server.tasks.finish id
    answers := server.answers ++ [(id, answer)] }

def setPhase (id : Nat) (task : AdminTask) (phase : AuthPhase) :
    AdminServer :=
  { server with tasks := server.tasks.update id { task with phase := phase } }

/-- `next.run(req)`: the handler, or the 405 of the route. -/
def proceed (id : Nat) (task : AdminTask) : AdminServer :=
  if task.route.allows task.request.method then
    { server with
      tasks := server.tasks.finish id
      entered := server.entered ++ [⟨task.request, task.route, task.since, server.stored.length⟩] }
  else server.close id (405, "")

def authenticationRequired : Failure := (unauthorized, "authentication required")

/-- The rate limit comes first and the password is asked for on matched paths only. -/
def arrive (request : AdminRequest) (retryAfter : Option Nat) :
    AdminServer :=
  match retryAfter with
  | some _ => server.refuse (429, "rate limited")
  | none =>
    match matchPath request.path with
    | none => server.refuse (404, "")
    | some route =>
      { server with
        tasks := server.tasks.start ⟨request, route, server.stored.length, .looking⟩ }

/-- `db.run(creds::get).await.ok().flatten()`: an error counts as no row. -/
def lookup (id : Nat) (failed : Bool) : AdminServer :=
  match server.tasks.get id with
  | some ⟨request, route, since, .looking⟩ =>
    let task : AdminTask := ⟨request, route, since, .looking⟩
    match if failed then none else server.credentials with
    | none => server.proceed id task
    | some creds => server.setPhase id task (.found creds)
  | _ => server

section

variable (site : AdminSite)

def cacheHit (server : AdminServer) (password : Bytes) (storedHash : String) :
    Bool :=
  match server.authCache with
  | some (phc, cached) => decide (phc = storedHash ∧ site.K.blake2b256 password = cached)
  | none => false

/-- The middleware goes on after the lookup, up to the start of argon2. -/
def consult (server : AdminServer) (id : Nat) : AdminServer :=
  match server.tasks.get id with
  | some ⟨request, route, since, .found creds⟩ =>
    let task : AdminTask := ⟨request, route, since, .found creds⟩
    match supplied site request.headers with
    | none => server.close id authenticationRequired
    | some password =>
      if server.cacheHit site password creds.passwordHash then server.proceed id task
      else server.setPhase id task (.verifying password creds.passwordHash)
  | _ => server

/-- `spawn_blocking(verify_password)`; a panic counts as a wrong password. -/
def verify (server : AdminServer) (id : Nat) (panicked : Bool) : AdminServer :=
  match server.tasks.get id with
  | some ⟨request, route, since, .verifying password storedHash⟩ =>
    server.setPhase id ⟨request, route, since, .verifying password storedHash⟩
      (.verified password storedHash (decide (panicked = false) && site.verifyPassword password storedHash))
  | _ => server

/-- The end of `verify_with_cache`, and the verdict. -/
def conclude (server : AdminServer) (id : Nat) : AdminServer :=
  match server.tasks.get id with
  | some ⟨request, route, since, .verified password storedHash ok⟩ =>
    let task : AdminTask := ⟨request, route, since, .verified password storedHash ok⟩
    if ok then
      { server with authCache := some (storedHash, site.K.blake2b256 password) }.proceed id task
    else server.close id authenticationRequired
  | _ => server

/-- `creds::set`. -/
def setPassword (passwordHash : String) (now : Int) : AdminServer :=
  { server with
    credentials := some ⟨passwordHash, now⟩
    stored := server.stored ++ [passwordHash] }

def step (server : AdminServer) : AdminInput -> Except Empty AdminServer
  | .arrive request retryAfter => .ok (server.arrive request retryAfter)
  | .lookup id failed => .ok (server.lookup id failed)
  | .consult id => .ok (server.consult site id)
  | .verify id panicked => .ok (server.verify site id panicked)
  | .conclude id => .ok (server.conclude site id)
  | .setPassword passwordHash now => .ok (server.setPassword passwordHash now)

end

def boot (credentials : Option AdminCreds) : AdminServer where
  credentials := credentials
  authCache := none
  tasks := Jobs.empty
  answers := []
  stored := (credentials.map AdminCreds.passwordHash).toList
  entered := []

/-- The hashes that were stored at some moment of the request. -/
def storedDuring (since upto : Nat) : List String := (server.stored.take upto).drop (since - 1)

end

def Authenticated (site : AdminSite) (server : AdminServer) (entry : Entry) : Prop :=
  ∃ password, supplied site entry.request.headers = some password ∧
    ∃ passwordHash ∈ server.storedDuring entry.since entry.upto, site.verifyPassword password passwordHash = true

def PhaseSound (site : AdminSite) (server : AdminServer) (task : AdminTask) : Prop :=
  match task.phase with
  | .looking => True
  | .found creds => creds.passwordHash ∈ server.stored.drop (task.since - 1)
  | .verifying password storedHash =>
    supplied site task.request.headers = some password ∧ storedHash ∈ server.stored.drop (task.since - 1)
  | .verified password storedHash ok =>
    supplied site task.request.headers = some password ∧ storedHash ∈ server.stored.drop (task.since - 1) ∧
      (ok = true -> site.verifyPassword password storedHash = true)

/-- The invariant.  `presented` holds of the passwords that requests of the run carry. -/
structure Sound (site : AdminSite) (presented : Bytes -> Prop) (server : AdminServer) : Prop where
  row : server.credentials.map AdminCreds.passwordHash = server.stored.getLast?
  cache : ∀ phc cached, server.authCache = some (phc, cached) ->
    ∃ password, presented password ∧ site.K.blake2b256 password = cached ∧ site.verifyPassword password phc = true
  tasks : server.tasks.All (fun _ task =>
    task.since ≤ server.stored.length ∧
      (∀ password, supplied site task.request.headers = some password -> presented password) ∧
      PhaseSound site server task)
  entries : ∀ entry ∈ server.entered,
    entry.upto ≤ server.stored.length ∧ (0 < entry.since -> server.Authenticated site entry)

variable {site : AdminSite} {presented : Bytes -> Prop} {server : AdminServer}

section

variable (sound : Sound site presented server)
include sound

theorem Sound.current {creds since} (row : server.credentials = some creds)
    (begun : since ≤ server.stored.length) : creds.passwordHash ∈ server.stored.drop (since - 1) := by
  have last : server.stored.getLast? = some creds.passwordHash := by
    rw [← sound.row, row]
    rfl
  have some_stored : server.stored ≠ [] := by
    intro empty
    rw [empty] at last
    cases last
  have positive := length_pos_of_ne_nil some_stored
  apply mem_of_getLast?
  rw [getLast?_drop, if_neg (by omega)]
  exact last

theorem Sound.close (id answer) : Sound site presented (server.close id answer) :=
  { sound with
    tasks := by
      intro other task found
      exact sound.tasks other task (Jobs.of_get_finish found).1 }

theorem Sound.refuse (answer) : Sound site presented (server.refuse answer) where
  row := sound.row
  cache := sound.cache
  tasks := sound.tasks
  entries := sound.entries

theorem Sound.setPhase {id task phase}
    (found : server.tasks.get id = some task) (next : PhaseSound site server { task with phase := phase }) :
    Sound site presented (server.setPhase id task phase) :=
  { sound with
    tasks := by
      rcases sound.tasks id task found with ⟨begun, carried, _⟩
      exact Jobs.All.update sound.tasks found ⟨begun, carried, next⟩ }

theorem Sound.proceed {id task}
    (allowed : 0 < task.since -> ∃ password, supplied site task.request.headers = some password ∧
      ∃ passwordHash, passwordHash ∈ server.stored.drop (task.since - 1) ∧
        site.verifyPassword password passwordHash = true) :
    Sound site presented (server.proceed id task) := by
  unfold AdminServer.proceed
  split
  · refine ⟨sound.row, sound.cache, (sound.close id (405, "")).tasks, ?_⟩
    refine forall_mem_append.mpr ⟨sound.entries, forall_mem_singleton.mpr ⟨le_refl _, ?_⟩⟩
    intro guarded
    rcases allowed guarded with ⟨password, carried, passwordHash, during, verifies⟩
    refine ⟨password, carried, passwordHash, ?_, verifies⟩
    rw [storedDuring, take_length]
    exact during
  · exact sound.close id _

theorem Sound.arrive {request}
    (carried : ∀ password, supplied site request.headers = some password -> presented password)
    (retryAfter) : Sound site presented (server.arrive request retryAfter) := by
  unfold AdminServer.arrive
  cases retryAfter with
  | some => exact sound.refuse _
  | none =>
    cases matchPath request.path with
    | none => exact sound.refuse _
    | some =>
      refine ⟨sound.row, sound.cache, ?_, sound.entries⟩
      exact Jobs.All.start sound.tasks ⟨le_refl _, carried, trivial⟩

theorem Sound.lookup (id) : Sound site presented (server.lookup id false) := by
  unfold AdminServer.lookup
  split
  next found =>
    rcases sound.tasks id _ found with ⟨begun, _, _⟩
    cases row : server.credentials with
    | none =>
      apply sound.proceed
      intro guarded
      have absent := sound.row
      rw [row, Option.map_none, eq_comm, getLast?_eq_none_iff] at absent
      rw [absent] at begun
      exact absurd guarded (not_lt.mpr begun)
    | some => exact sound.setPhase found (sound.current row begun)
  · exact sound

theorem Sound.consult (apart : Set.InjOn site.K.blake2b256 {password | presented password}) (id) :
    Sound site presented (server.consult site id) := by
  unfold AdminServer.consult
  split
  next request _ _ creds found =>
    rcases sound.tasks id _ found with ⟨_, carried, during⟩
    cases given : supplied site request.headers with
    | none => exact sound.close id _
    | some password =>
      simp only
      split
      next hit =>
        apply sound.proceed
        intro _
        refine ⟨password, given, creds.passwordHash, during, ?_⟩
        unfold cacheHit at hit
        cases cached : server.authCache with
        | none =>
          rw [cached] at hit
          cases hit
        | some pair =>
          rcases pair with ⟨phc, digest⟩
          rw [cached] at hit
          rcases of_decide_eq_true hit with ⟨sameHash, sameDigest⟩
          rcases sound.cache phc digest cached with ⟨earlier, inPlay, digested, verifies⟩
          -- The password that filled the cache is this one: their digests agree.
          have same : earlier = password := apart inPlay (carried password given) (digested.trans sameDigest.symm)
          rw [← same, ← sameHash]
          exact verifies
      · exact sound.setPhase found ⟨given, during⟩
  · exact sound

theorem Sound.verify (id panicked) : Sound site presented (server.verify site id panicked) := by
  unfold AdminServer.verify
  split
  next found =>
    rcases sound.tasks id _ found with ⟨_, _, given, during⟩
    refine sound.setPhase found ⟨given, during, ?_⟩
    intro passed
    rw [Bool.and_eq_true] at passed
    exact passed.2
  · exact sound

theorem Sound.conclude (id) : Sound site presented (server.conclude site id) := by
  unfold AdminServer.conclude
  split
  next password storedHash _ found =>
    rcases sound.tasks id _ found with ⟨_, carried, given, during, meaning⟩
    split
    next passed =>
      have filled : Sound site presented
          { server with authCache := some (storedHash, site.K.blake2b256 password) } := by
        refine ⟨sound.row, ?_, sound.tasks, sound.entries⟩
        intro phc cached same
        cases same
        exact ⟨password, carried password given, rfl, meaning passed⟩
      apply filled.proceed
      intro _
      exact ⟨password, given, storedHash, during, meaning passed⟩
    · exact sound.close id _
  · exact sound

end

theorem Sound.setPassword (sound : Sound site presented server) (passwordHash)
    (now : Int) : Sound site presented (server.setPassword passwordHash now) where
  row := by
    rw [AdminServer.setPassword, getLast?_append_cons]
    rfl
  cache := sound.cache
  tasks := by
    intro id task found
    rcases sound.tasks id task found with ⟨begun, carried, known⟩
    have kept : ∀ hash ∈ server.stored.drop (task.since - 1),
        hash ∈ (server.stored ++ [passwordHash]).drop (task.since - 1) := by
      intro hash member
      rw [drop_append]
      exact mem_append_left _ member
    refine ⟨?_, carried, ?_⟩
    · rw [AdminServer.setPassword, length_append]
      exact Nat.le_add_right_of_le begun
    · rcases task with ⟨_, _, _, phase⟩
      cases phase with
      | looking => trivial
      | found => exact kept _ known
      | verifying => exact ⟨known.1, kept _ known.2⟩
      | verified => exact ⟨known.1, kept _ known.2.1, known.2.2⟩
  entries := by
    intro entry member
    rcases sound.entries entry member with ⟨past, authenticated⟩
    constructor
    · rw [AdminServer.setPassword, length_append]
      exact Nat.le_add_right_of_le past
    · intro guarded
      rcases authenticated guarded with ⟨password, carried, hash, during, verifies⟩
      refine ⟨password, carried, hash, ?_, verifies⟩
      rw [storedDuring, AdminServer.setPassword, take_append_of_le_length past]
      exact during

theorem Sound.boot (credentials) : Sound site presented (boot credentials) where
  row := by
    cases credentials with
    | none | some => rfl
  cache := nofun
  tasks := Jobs.Idle.all (fun _ => rfl)
  entries := nofun

/-! ## Runs without a failed lookup -/

def Presented (site : AdminSite) (inputs : List AdminInput) (password : Bytes) : Prop :=
  ∃ request retryAfter, AdminInput.arrive request retryAfter ∈ inputs ∧
    supplied site request.headers = some password

def lookupReturns : AdminInput -> Bool
  | .lookup _ failed => !failed
  | _ => true

/-- The condition on a step: its lookup does not fail, and its password is in play. -/
def Admissible (site : AdminSite) (presented : Bytes -> Prop) (input : AdminInput) : Prop :=
  lookupReturns input = true ∧ ∀ request retryAfter password, input = .arrive request retryAfter ->
      supplied site request.headers = some password -> presented password

theorem Sound.step (apart : Set.InjOn site.K.blake2b256 {password | presented password}) {input next}
    (sound : Sound site presented server) (admissible : Admissible site presented input)
    (stepped : server.step site input = .ok next) : Sound site presented next := by
  cases input with cases stepped
  | arrive request retryAfter =>
    exact sound.arrive (fun password => admissible.2 request retryAfter password rfl) retryAfter
  | lookup id failed =>
    have returns : failed = false := by
      have test := admissible.1
      rw [lookupReturns, Bool.not_eq_true'] at test
      exact test
    rw [returns]
    exact sound.lookup id
  | consult id => exact sound.consult apart id
  | verify id panicked => exact sound.verify id panicked
  | conclude id => exact sound.conclude id
  | setPassword passwordHash now => exact sound.setPassword passwordHash now

/-- No request gets past a stored password.  Whatever the interleaving with `set-password`
and with other requests, as long as no lookup fails and the passwords in play have
different digests, every request that arrived when there was a row and reached its handler
carried a password for a hash that was stored while the request ran. -/
theorem entered_requests_authenticated (site : AdminSite) (credentials : Option AdminCreds)
    {inputs : List AdminInput} {final : AdminServer}
    (apart : Set.InjOn site.K.blake2b256 {password | Presented site inputs password})
    (reached : run (step site) (boot credentials) inputs = .ok final)
    (returns : Along (step site) (fun _ input => lookupReturns input = true) (boot credentials) inputs)
    {entry : Entry} (member : entry ∈ final.entered) (guarded : 0 < entry.since) :
    final.Authenticated site entry := by
  have admissible : Along (step site)
      (fun _ input => Admissible site (Presented site inputs) input) (boot credentials) inputs := by
    apply returns.and
    apply Along.of_mem
    intro _ input inside request retryAfter password same carried
    exact ⟨request, retryAfter, same ▸ inside, carried⟩
  have sound : Sound site (Presented site inputs) final :=
    run_invariant (fun _ _ _ holds condition stepped => holds.step apart condition stepped)
      (Sound.boot credentials) admissible reached
  exact (sound.entries entry member).2 guarded

end AdminServer

/-! ## One server -/

def firstByteDigest (message : Bytes) : Bytes32 := Bytes32.fill (message.headD 0)

def plainSite : AdminSite where
  K := ⟨firstByteDigest, fun _ _ _ => false⟩
  utf8 := fun _ => true
  verifyPassword := fun password passwordHash => decide (password = Wire.ascii passwordHash)

def adminCreds : AdminCreds := ⟨"hunter2", 1⟩

def bare : AdminRequest := ⟨"GET", "/api/owners", []⟩

/-- `Authorization: Basic` with the text `:hunter2`. -/
def signedIn : AdminRequest := ⟨"GET", "/api/owners", [("authorization", Wire.ascii "Basic Omh1bnRlcjI=")]⟩

/-- With a row stored, a failed lookup lets a request without a password through. -/
theorem AdminServer.failed_lookup_opens : let inputs : List AdminInput := [.arrive bare none, .lookup 0 true]
    ∃ final, run (AdminServer.step plainSite) (AdminServer.boot (some adminCreds)) inputs = .ok final ∧
      final.credentials = some adminCreds ∧
      ∃ entry ∈ final.entered, entry.request = bare ∧ entry.route = .apiOwners ∧
        0 < entry.since ∧ ¬ final.Authenticated plainSite entry := by
  refine ⟨_, rfl, rfl, ⟨bare, .apiOwners, 1, 1⟩, mem_singleton_self _, rfl, rfl, Nat.zero_lt_one, ?_⟩
  rintro ⟨_, carried, _⟩
  cases carried

def signedInRun : List AdminInput :=
  [.arrive signedIn none, .lookup 0 false, .consult 0, .verify 0 false, .conclude 0,
    .arrive signedIn none, .lookup 1 false, .setPassword "other" 2, .consult 1]

theorem AdminServer.entered_requests_authenticated_signedIn :
    ∃ final, run (AdminServer.step plainSite) (AdminServer.boot (some adminCreds)) signedInRun = .ok final ∧
      final.entered.length = 2 ∧
      ∀ entry ∈ final.entered, 0 < entry.since -> final.Authenticated plainSite entry := by
  have returns : Along (step plainSite) (fun _ input => lookupReturns input = true)
      (boot (some adminCreds)) signedInRun := by
    have checked : checkAlong (step plainSite) (fun _ input => lookupReturns input)
        (boot (some adminCreds)) signedInRun = true := by
      decide +kernel
    exact Along.checked checked
  have only : ∀ password, AdminServer.Presented plainSite signedInRun password ->
      password = Wire.ascii "hunter2" := by
    rintro _ ⟨request, _, member, carried⟩
    simp only [signedInRun, mem_cons, AdminInput.arrive.injEq, reduceCtorEq, false_or, or_false, not_mem_nil] at member
    have same : request = signedIn := by
      rcases member with ⟨same, _⟩ | ⟨same, _⟩ <;> exact same
    rw [same] at carried
    have known : supplied plainSite signedIn.headers = some (Wire.ascii "hunter2") := by
      decide +kernel
    exact Option.some.inj (carried.symm.trans known)
  have apart : Set.InjOn plainSite.K.blake2b256
      {password | AdminServer.Presented plainSite signedInRun password} := by
    intro left leftInPlay right rightInPlay _
    rw [only left leftInPlay, only right rightInPlay]
  have reached := run_finalState (show (run (step plainSite)
    (boot (some adminCreds)) signedInRun).toBool = true by decide +kernel)
  refine ⟨_, reached, by decide +kernel, ?_⟩
  intro entry member guarded
  exact entered_requests_authenticated plainSite (some adminCreds) apart reached returns member guarded

end Admin
end Starling
