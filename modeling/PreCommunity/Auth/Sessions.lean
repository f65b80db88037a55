import Mathlib.Data.List.MinMax
import PreCommunity.Concurrent.Pool
import PreCommunity.Escrow.Schema

/-!
# Signing in with a wallet

A wallet asks for a nonce, signs a message with it, and gets a session for the signature.  The
session's token then opens the guarded requests until it expires or logs out.  Only digests of
nonces and tokens are stored.

* `WalletSession` : a nonce and, once it is used, its session.
* `createNonce`, `verify`, `authenticate`, `logout` : the service.
* `effectiveRoles`, `principalFor` : what a wallet may do.
* `api S` : any number of such requests over one database.
-/

namespace PreCommunity

namespace Auth

open Store Concurrent
open Escrow (Id Time Address Hash Text ChainAuthority ChainAuthorityKind)

/-! ### The tables -/

/-- `NONCE_TTL_MS`. -/
def nonceTtl : ℕ := 10 * 60 * 1000

/-- `SESSION_TTL_MS`. -/
def sessionTtl : ℕ := 7 * 24 * 60 * 60 * 1000

/-- `SESSION_CLEANUP_INTERVAL_MS`. -/
def sessionCleanupInterval : ℕ := 10 * 60 * 1000

/-- `Role`. -/
inductive Role where
  | superAdmin | contentAdmin | financeAdmin
deriving DecidableEq, Repr

/-- `roleOrder`. -/
def roleOrder : List Role := [.superAdmin, .contentAdmin, .financeAdmin]

/-- A row of `User`. -/
structure User where
  id : Id
  address : Address
  roles : List Role
deriving DecidableEq, Repr

/-- A row of `WalletSession`. -/
structure WalletSession where
  id : Id
  userId : Option Id
  address : Address
  nonceHash : Hash
  nonceExpiresAt : Time
  nonceUsedAt : Option Time
  siweDomain : Option Text
  siweUri : Option Text
  sessionTokenHash : Option Hash
  sessionExpiresAt : Option Time
  createdAt : Time
deriving DecidableEq, Repr

/-- The tables that the service uses. -/
structure Database where
  users : List User
  sessions : List WalletSession
  authorities : List ChainAuthority
  /-- The id of the next row that is created. -/
  nextId : Id
deriving DecidableEq

/-- What the requests share. -/
structure World where
  /-- The database. -/
  db : Database
  /-- The time. -/
  clock : Time
  /-- `nextCleanupAt`, in the memory of the service. -/
  nextCleanupAt : Time

/-- The world with other tables. -/
def World.withDb (w : World) (db : Database) : World := { w with db := db }

@[simp] theorem World.withDb_db (w : World) (db : Database) : (w.withDb db).db = db := rfl

/-! ### The settings -/

/-- A message that a wallet signs to sign in. -/
structure SiweMessage where
  address : Address
  domain : Text
  uri : Text
  nonce : Text
  chainId : ℕ
deriving DecidableEq, Repr

/-- The configuration, and the third-party functions. -/
structure Settings where
  /-- The origin of `WEB_ORIGIN`. -/
  origin : Text
  /-- `SIWE_DOMAIN`. -/
  domain : Text
  /-- `SIWE_URI`. -/
  uri : Text
  /-- `BASE_CHAIN_ID`. -/
  chainId : ℕ
  deploymentChainId : ℕ
  contractAddress : Address
  /-- `configuredAddress` of the Safe. -/
  configuredSafe : Option Address
  /-- `getAddress`, which throws for what is no address. -/
  getAddress : Text → Option Address
  /-- The origin of a URL. -/
  originOf : Text → Option Text
  /-- `new SiweMessage`, which throws for a malformed message. -/
  siweMessage : Text → Option SiweMessage
  /-- `digest`. -/
  digest : Text → Hash

/-- What is known of the Safe. -/
structure SafeRuntimeInfo where
  owners : List Address
  isPendingEscrowOwner : Bool
deriving DecidableEq, Repr

/-- What a wallet may do. -/
structure Principal where
  userId : Id
  address : Address
  roles : List Role
  chainAuthorities : List ChainAuthorityKind
  chainOwnerAddress : Option Address
  safeOwner : Bool
  canAccessSafeOwnershipAcceptance : Bool
  safeAddress : Option Address
deriving DecidableEq, Repr

/-- How a request fails. -/
inductive Failure where
  | badRequest (text : String)
  | unauthorized (text : String)
  | uniqueConstraint
  | other
deriving DecidableEq, Repr

/-- What a request asks, and its answers to the browser and to the guarded handler. -/
inductive Query where
  | generateNonce
  | randomBytes
  | siweVerify (message signature domain nonce : Text)
  | runtimeInfo
  /-- The answer to `verify`: the cookie of the session. -/
  | setCookie (token : Text) (expires : Time) (user : Principal)
  /-- The handler behind the session guard. -/
  | handle (principal : Principal)

/-- The type of the answers to a question. -/
def Reply : Query → Type
  | .generateNonce => Text
  | .randomBytes => Text
  | .siweVerify _ _ _ _ => Bool
  | .runtimeInfo => SafeRuntimeInfo
  | .setCookie _ _ _ => Unit
  | .handle _ => Unit

/-! ### Using the database -/

/-- A request. -/
abbrev Worker := Routine Unit World Reply Failure

/-- What a request did so far. -/
abbrev Log := History World Reply Failure

/-- What a request sees. -/
abbrev Sight := View Unit World Reply Failure

variable {α : Type}

/-- A query. -/
def select (f : Database → α) : Worker α := Routine.read .other fun w => f w.db

/-- `new Date()`. -/
def now : Worker Time := Routine.read .other fun w => w.clock

/-- A transaction. -/
def transactionOf (t : World → Except Failure (Database × α)) : Worker α :=
  Routine.transact .other World.withDb t

/-- Ask a question. -/
def ask (q : Query) : Worker (Reply q) := Routine.ask q

/-- Go on with a value, or fail. -/
def require (a : Option α) (e : Failure) : Worker α :=
  match a with
  | some a => pure a
  | none => throw e

/-! ### Roles -/

/-- `effectiveRoles`: root authority is never accepted from the database. -/
def effectiveRoles (databaseRoles : List Role) (authorities : List ChainAuthorityKind)
    (confirmedSafeOwner : Bool) : List Role :=
  let roles := databaseRoles.filter fun role => role ≠ .superAdmin
  let roles := if authorities.contains .owner || confirmedSafeOwner then .superAdmin :: roles
    else roles
  let roles := if authorities.contains .goalManager then .contentAdmin :: .financeAdmin :: roles
    else roles
  roleOrder.filter fun role => roles.contains role

section

variable (S : Settings)

/-- The authorities that `principalFor` reads. -/
def projectedAuthorities (address : Address) (db : Database) : List ChainAuthority :=
  db.authorities.filter fun row => row.chainId = S.deploymentChainId ∧
    row.contractAddress = S.contractAddress ∧ (row.address = address ∨ row.kind = .owner)

/-- The principal of a user, by the authorities and by what is known of the Safe. -/
def principal (user : User) (projected : List ChainAuthority) (safeInfo : Option SafeRuntimeInfo) :
    Principal :=
  let chainAuthorities := (projected.filter fun row => row.address = user.address).map (·.kind)
  let owner := projected.find? fun row => row.kind = .owner
  let safeIsEscrowOwner := S.configuredSafe.any fun safe => owner.any fun row => row.address = safe
  let isConfiguredSafeOwner := safeInfo.any fun info => info.owners.contains user.address
  let safeOwner := safeIsEscrowOwner && isConfiguredSafeOwner
  { userId := user.id
    address := user.address
    roles := effectiveRoles user.roles chainAuthorities safeOwner
    chainAuthorities := chainAuthorities
    chainOwnerAddress := owner.map (·.address)
    safeOwner := safeOwner
    canAccessSafeOwnershipAcceptance := isConfiguredSafeOwner &&
      safeInfo.any fun info => info.isPendingEscrowOwner
    safeAddress := S.configuredSafe }

/-- `runtimeInfo`, whose errors are caught. -/
def safeRuntimeInfo : Worker (Option SafeRuntimeInfo) :=
  tryCatch
    (do
      let info : SafeRuntimeInfo ← ask .runtimeInfo
      pure (some info))
    fun _ => pure none

/-- `principalFor`. -/
def principalFor (user : User) : Worker Principal := do
  let projected ← select (projectedAuthorities S user.address)
  match S.configuredSafe with
  | none => return principal S user projected none
  | some _ =>
    let safeInfo ← safeRuntimeInfo
    return principal S user projected safeInfo

/-! ### Nonces -/

/-- What `cleanupExpiredSessions` deletes. -/
def WalletSession.expired (now : Time) (row : WalletSession) : Bool :=
  row.sessionTokenHash = none ∧ row.nonceExpiresAt ≤ now ∨
    (row.sessionExpiresAt.any fun expires => expires ≤ now) = true

/-- Is a cleanup due? -/
def dueCleanup : Worker (Option Time) := Routine.atomically .other fun w =>
  if w.clock < w.nextCleanupAt then (.ok none, w)
  else (.ok (some w.clock), { w with nextCleanupAt := w.clock + sessionCleanupInterval })

/-- Delete what has expired. -/
def Database.deleteExpired (now : Time) (db : Database) : Database :=
  { db with sessions := db.sessions.filter fun row => !row.expired now }

/-- `cleanupExpiredSessions`. -/
def cleanupExpiredSessions : Worker Unit := do
  let due ← dueCleanup
  match due with
  | none => return ()
  | some now => transactionOf fun w => .ok (w.db.deleteExpired now, ())

/-- The nonce that is stored. -/
def Database.storeNonce (address : Address) (nonce : Text) (expiresAt createdAt : Time)
    (db : Database) : Database :=
  { db with
    sessions := db.sessions ++
      [{ id := db.nextId
         userId := none
         address := address
         nonceHash := S.digest nonce
         nonceExpiresAt := expiresAt
         nonceUsedAt := none
         siweDomain := some S.domain
         siweUri := some S.uri
         sessionTokenHash := none
         sessionExpiresAt := none
         createdAt := createdAt }]
    nextId := db.nextId + 1 }

/-- What the wallet has to sign. -/
structure NonceChallenge where
  nonce : Text
  domain : Text
  uri : Text
  chainId : ℕ
deriving DecidableEq, Repr

/-- `createNonce`. -/
def createNonce (rawAddress requestedOrigin : Text) : Worker NonceChallenge := do
  let address ← require (S.getAddress rawAddress) .other
  let origin ← require (S.originOf requestedOrigin) (.badRequest "Unsupported sign-in origin")
  if origin ≠ S.origin then
    throw (.unauthorized "This origin cannot request a wallet session")
  else
    cleanupExpiredSessions
    let nonce : Text ← ask .generateNonce
    let time ← now
    transactionOf fun w => .ok (w.db.storeNonce S address nonce (time + nonceTtl) w.clock, ())
    return ⟨nonce, S.domain, S.uri, S.chainId⟩

/-! ### Verification -/

/-- The nonce can still be used. -/
def WalletSession.usable (now : Time) (row : WalletSession) : Bool :=
  row.nonceUsedAt = none ∧ now < row.nonceExpiresAt

/-- The newest nonce of the address that the message may use. -/
def findChallenge (message : SiweMessage) (now : Time) (db : Database) : Option WalletSession :=
  (db.sessions.filter fun row => row.address = message.address ∧
    row.nonceHash = S.digest message.nonce ∧ row.usable now = true).argmax (·.createdAt)

/-- The nonce and the message are for this application. -/
def scopeAllowed (message : SiweMessage) (challenge : WalletSession) : Bool :=
  challenge.siweDomain = some S.domain ∧ challenge.siweUri = some S.uri ∧
    message.domain = S.domain ∧ message.uri = S.uri ∧ message.chainId = S.chainId

/-- The user with this address; it is created if there is none. -/
def Database.upsertUser (address : Address) (db : Database) : Database × User :=
  match db.users.find? fun row => row.address = address with
  | some user => (db, user)
  | none =>
    let user : User := ⟨db.nextId, address, []⟩
    ({ db with users := db.users ++ [user], nextId := db.nextId + 1 }, user)

/-- A nonce that is used for a session. -/
def WalletSession.redeem (userId : Id) (usedAt : Time) (tokenHash : Hash) (expiresAt : Time)
    (row : WalletSession) : WalletSession :=
  { row with
    userId := some userId
    nonceUsedAt := some usedAt
    sessionTokenHash := some tokenHash
    sessionExpiresAt := some expiresAt }

/-- The transaction of `verify`: the nonce is claimed, unless it has been used or has expired. -/
def claim (address : Address) (challenge : WalletSession) (token : Text)
    (expiresAt checkedAt usedAt : Time) (db : Database) : Except Failure (Database × User) :=
  let created := db.upsertUser address
  let claimed : WalletSession → Bool := fun row =>
    row.id = challenge.id ∧ row.usable checkedAt = true
  if db.sessions.any claimed then
    if db.sessions.any fun row => row.sessionTokenHash = some (S.digest token) then
      .error .uniqueConstraint
    else
      .ok ({ created.1 with
        sessions := updateWhere claimed
          (WalletSession.redeem created.2.id usedAt (S.digest token) expiresAt) db.sessions },
        created.2)
  else .error (.unauthorized "Nonce replay rejected")

/-- The second half of `verify`: the signature is good. -/
def issueSession (address : Address) (challenge : WalletSession) :
    Worker (Text × Time × Principal) := do
  let sessionToken : Text ← ask .randomBytes
  let issuedAt ← now
  let checkedAt ← now
  let usedAt ← now
  let user ← transactionOf fun w =>
    claim S address challenge sessionToken (issuedAt + sessionTtl) checkedAt usedAt w.db
  let principal ← principalFor S user
  return (sessionToken, issuedAt + sessionTtl, principal)

/-- The first half of `verify`, with the message read. -/
def verifyMessage (messageValue signature : Text) (message : SiweMessage) :
    Worker (Text × Time × Principal) := do
  let time ← now
  let found ← select (findChallenge S message time)
  let challenge ← require found
    (.unauthorized "Nonce is expired or has already been used")
  if !scopeAllowed S message challenge then
    throw (.unauthorized "SIWE scope does not match this application")
  else
    let success : Bool ←
      ask (.siweVerify messageValue signature (challenge.siweDomain.getD []) message.nonce)
    if !success then throw (.unauthorized "Invalid wallet signature")
    else issueSession S message.address challenge

/-- `verify`. -/
def verify (messageValue signature : Text) : Worker (Text × Time × Principal) := do
  let message ← require (S.siweMessage messageValue) (.badRequest "Malformed SIWE message")
  verifyMessage S messageValue signature message

/-! ### Sessions -/

/-- The session of a token, with its user. -/
def sessionOf (token : Text) (db : Database) : Option (User × Time) :=
  (db.sessions.find? fun row => row.sessionTokenHash = some (S.digest token)).bind fun session =>
    (session.userId.bind fun userId => db.users.find? fun user => user.id = userId).bind fun user =>
      session.sessionExpiresAt.map fun expires => (user, expires)

/-- `authenticate`. -/
def authenticate (token : Text) : Worker Principal := do
  let found ← select (sessionOf S token)
  let session ← require found (.unauthorized "Session expired")
  let time ← now
  if session.2 ≤ time then throw (.unauthorized "Session expired")
  else principalFor S session.1

/-- Delete the session of a token. -/
def Database.deleteToken (token : Text) (db : Database) : Database :=
  { db with
    sessions := db.sessions.filter fun row => row.sessionTokenHash ≠ some (S.digest token) }

/-- A cookie that is there and not empty. -/
def presented (cookie : Option Text) : Option Text := cookie.filter fun token => token ≠ []

/-- `logout`. -/
def logout (cookie : Option Text) : Worker Unit :=
  match presented cookie with
  | none => return ()
  | some token => transactionOf fun w => .ok (w.db.deleteToken S token, ())

/-- `canActivate` of the session guard, and the handler behind it. -/
def guarded (cookie : Option Text) : Worker Unit := do
  let token ← require (presented cookie) (.unauthorized "Connect a wallet to continue")
  let principal ← authenticate S token
  ask (.handle principal)

/-- The `verify` route. -/
def verifyRoute (messageValue signature : Text) : Worker Unit := do
  let result ← verify S messageValue signature
  ask (.setCookie result.1 result.2.1 result.2.2)

/-! ### The system -/

end

/-- What may run; the number tells the requests apart that run side by side. -/
inductive Job where
  | nonce (n : ℕ) (rawAddress requestedOrigin : Text)
  | verify (n : ℕ) (messageValue signature : Text)
  | guarded (n : ℕ) (cookie : Option Text)
  | logout (n : ℕ) (cookie : Option Text)

/-- Where a request runs. -/
def Job.slot : Job → ℕ
  | nonce n .. | verify n .. | guarded n _ | logout n _ => n

/-- The code of a request. -/
def Job.code (S : Settings) : Job → Program World Reply Failure Unit
  | nonce _ rawAddress requestedOrigin => (createNonce S rawAddress requestedOrigin).silently ()
  | verify _ messageValue signature => (verifyRoute S messageValue signature).silently ()
  | guarded _ cookie => (Auth.guarded S cookie).silently ()
  | logout _ cookie => (Auth.logout S cookie).silently ()

/-- What the others may do with the tables: roles and authorities change, users are added. -/
structure Others (db db' : Database) : Prop where
  sessions : db'.sessions = db.sessions
  nextId : db.nextId ≤ db'.nextId
  kept : ∀ user ∈ db.users, ∃ user' ∈ db'.users, user'.id = user.id ∧ user'.address = user.address
  ids : Keyed (·.id) db'.users
  addresses : Keyed (·.address) db'.users
  ids_lt : ∀ user ∈ db'.users, user.id < db'.nextId

/-- The steps of the environment. -/
inductive Environment : World → World → Prop where
  | tick {w : World} {clock : Time} : w.clock ≤ clock → Environment w { w with clock := clock }
  | others {w : World} {db : Database} : Others w.db db → Environment w (w.withDb db)

/-- The requests to sign in, those behind the guard, and those to sign out. -/
def api (S : Settings) : Machine World Reply Failure Job ℕ where
  code := Job.code S
  slot := Job.slot
  admits _ _ := true
  answers _ _ _ := True
  env := Environment
  halt _ w := w

end Auth

end PreCommunity
