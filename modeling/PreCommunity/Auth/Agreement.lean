import PreCommunity.Auth.Sessions
import PreCommunity.Store.Table

/-!
# Every session comes from a signature

Any number of requests run side by side, and some of them are not the wallet's: a message may be
replayed, a nonce raced for, a token used after its session has ended.

* `Write` : the transactions of the requests.
* `handled_signed` : a guarded handler runs for a wallet that asked for a nonce and signed it.
* `redeemed_once` : no nonce is used twice.
-/

namespace PreCommunity

namespace Auth

open Store Concurrent
open Escrow (Id Time Address Hash Text ChainAuthority ChainAuthorityKind)

/-! ### Rows -/

/-- The row later: it has been used in the meantime, or it is the same. -/
def WalletSession.Follows (row row' : WalletSession) : Prop :=
  row' = row ∨ row.nonceUsedAt = none ∧ ∃ userId usedAt tokenHash expiresAt,
    row' = row.redeem userId usedAt tokenHash expiresAt

theorem WalletSession.Follows.refl (row : WalletSession) : row.Follows row := .inl rfl

theorem WalletSession.Follows.trans {a b c : WalletSession} (h : a.Follows b) (h' : b.Follows c) :
    a.Follows c := by
  rcases h with rfl | ⟨hnone, userId, usedAt, tokenHash, expiresAt, rfl⟩
  · exact h'
  · -- a nonce that is used is used for good
    rcases h' with rfl | ⟨hused, -⟩
    · exact .inr ⟨hnone, userId, usedAt, tokenHash, expiresAt, rfl⟩
    · cases hused

/-- A row that has not been used is as it was. -/
theorem WalletSession.Follows.eq_of_unused {a b : WalletSession} (h : a.Follows b)
    (hb : b.nonceUsedAt = none) : b = a := by
  rcases h with rfl | ⟨-, userId, usedAt, tokenHash, expiresAt, rfl⟩
  · rfl
  · cases hb

theorem WalletSession.Follows.used {a b : WalletSession} (h : a.Follows b)
    (ha : a.nonceUsedAt ≠ none) : b.nonceUsedAt ≠ none := by
  rcases h with rfl | ⟨hnone, -⟩
  · exact ha
  · exact absurd hnone ha

/-- Ids and addresses are unique, and a session is that of a user with its address. -/
structure Database.Sound (db : Database) : Prop where
  ids : Keyed (·.id) db.sessions
  ids_lt : ∀ row ∈ db.sessions, row.id < db.nextId
  users : Keyed (·.id) db.users
  addresses : Keyed (·.address) db.users
  users_lt : ∀ user ∈ db.users, user.id < db.nextId
  owned : ∀ row ∈ db.sessions, ∀ userId, row.userId = some userId →
    ∃ user ∈ db.users, user.id = userId ∧ user.address = row.address

/-- Later: time has passed, and rows have been used, deleted and added. -/
structure Evolves (w w' : World) : Prop where
  clock : w.clock ≤ w'.clock
  nextId : w.db.nextId ≤ w'.db.nextId
  sessions : Grown WalletSession.Follows (·.id) w.db.nextId w'.db.nextId w.db.sessions
    w'.db.sessions

theorem Evolves.refl (w : World) : Evolves w w :=
  ⟨Nat.le_refl _, Nat.le_refl _, .refl WalletSession.Follows.refl⟩

theorem Evolves.trans {w w' w'' : World} (h : Evolves w w') (h' : Evolves w' w'') :
    Evolves w w'' :=
  ⟨Nat.le_trans h.clock h'.clock, Nat.le_trans h.nextId h'.nextId,
    h.sessions.trans WalletSession.Follows.trans h.nextId h'.nextId h'.sessions⟩

/-- What became of a row that was there. -/
def Held (row : WalletSession) (w : World) : Prop :=
  row.id < w.db.nextId ∧ ∀ row' ∈ w.db.sessions, row'.id = row.id → row.Follows row'

theorem held_of_mem {row : WalletSession} {w : World} (hw : w.db.Sound)
    (hrow : row ∈ w.db.sessions) : Held row w := by
  refine ⟨hw.ids_lt row hrow, fun row' hrow' hid => ?_⟩
  rw [hw.ids.eq hrow' hrow hid]
  exact .refl _

theorem Held.evolves {row : WalletSession} {w w' : World} (h : Held row w) (hw : Evolves w w') :
    Held row w' := by
  refine ⟨Nat.lt_of_lt_of_le h.1 hw.nextId, fun row' hrow' hid => ?_⟩
  have hlt : row'.id < w.db.nextId := hid ▸ h.1
  obtain ⟨old, hold, hold', hfollows⟩ := hw.sessions.kept row' hrow' hlt
  exact (h.2 old hold (hold'.trans hid)).trans hfollows

/-! ### The writes -/

variable {S : Settings} {db db' : Database} {address : Address}

theorem upsertUser_cases (address : Address) (db : Database) :
    (∃ user ∈ db.users, user.address = address ∧ db.upsertUser address = (db, user)) ∨
      (∀ user ∈ db.users, user.address ≠ address) ∧ db.upsertUser address =
        ({ db with users := db.users ++ [⟨db.nextId, address, []⟩], nextId := db.nextId + 1 },
          ⟨db.nextId, address, []⟩) := by
  unfold Database.upsertUser
  cases hfound : db.users.find? fun row => row.address = address with
  | some user =>
    have haddress := List.find?_some hfound
    exact .inl ⟨user, List.mem_of_find?_eq_some hfound, of_decide_eq_true haddress, rfl⟩
  | none =>
    refine .inr ⟨fun user huser heq => ?_, rfl⟩
    exact List.find?_eq_none.1 hfound user huser (decide_eq_true heq)

theorem upsertUser_sessions : (db.upsertUser address).1.sessions = db.sessions := by
  rcases upsertUser_cases address db with ⟨user, -, -, heq⟩ | ⟨-, heq⟩ <;> rw [heq]

theorem le_upsertUser : db.nextId ≤ (db.upsertUser address).1.nextId := by
  rcases upsertUser_cases address db with ⟨user, -, -, heq⟩ | ⟨-, heq⟩ <;> rw [heq]
  exact Nat.le_succ _

/-- The user is there afterwards, and everybody else still is. -/
theorem Database.Sound.upsertUser (hdb : db.Sound) (address : Address) :
    (db.upsertUser address).1.Sound ∧ (db.upsertUser address).2 ∈ (db.upsertUser address).1.users ∧
      (db.upsertUser address).2.address = address := by
  rcases upsertUser_cases address db with ⟨user, huser, haddress, heq⟩ | ⟨hnone, heq⟩ <;> rw [heq]
  · exact ⟨hdb, huser, haddress⟩
  · refine ⟨?_, by simp, rfl⟩
    exact
      { hdb with
        ids_lt := fun row hrow => Nat.lt_succ_of_lt (hdb.ids_lt row hrow)
        users := hdb.users.append_one fun user huser => Nat.ne_of_lt (hdb.users_lt user huser)
        addresses := hdb.addresses.append_one hnone
        users_lt := fun user huser => by
          rcases List.mem_append.1 huser with hold | hnew
          · exact Nat.lt_succ_of_lt (hdb.users_lt user hold)
          · rw [List.mem_singleton.1 hnew]
            exact Nat.lt_succ_self _
        owned := fun row hrow userId hsome => by
          obtain ⟨user, huser, hid⟩ := hdb.owned row hrow userId hsome
          exact ⟨user, List.mem_append_left _ huser, hid⟩ }

/-- The message is one that this application accepts. -/
structure Accepted (S : Settings) (h : Log) (messageValue signature : Text)
    (message : SiweMessage) : Prop where
  parsed : S.siweMessage messageValue = some message
  domain : message.domain = S.domain
  uri : message.uri = S.uri
  chainId : message.chainId = S.chainId
  /-- The signature has been checked. -/
  signed : ∃ w, .asked w (.siweVerify messageValue signature S.domain message.nonce) (.ok true) ∈ h

/-- The tables after a nonce is used. -/
def Database.redeemed (address : Address) (id : Id) (checkedAt usedAt : Time) (tokenHash : Hash)
    (expiresAt : Time) (db : Database) : Database :=
  { (db.upsertUser address).1 with
    sessions := updateWhere (fun row => row.id = id ∧ row.usable checkedAt = true)
      (WalletSession.redeem (db.upsertUser address).2.id usedAt tokenHash expiresAt) db.sessions }

/-- **The transactions** of a request, given what it did before. -/
inductive Write (S : Settings) : Job → Log → World → World → Prop where
  | same {j : Job} {h : Log} {w : World} : Write S j h w w
  | memory {j : Job} {h : Log} {w : World} {t : Time} :
      Write S j h w { w with nextCleanupAt := t }
  | expired {j : Job} {h : Log} {w : World} {t : Time} :
      Write S j h w (w.withDb (w.db.deleteExpired t))
  | nonce {n : ℕ} {rawAddress requestedOrigin nonce : Text} {address : Address} {t : Time}
      {h : Log} {w : World} : S.getAddress rawAddress = some address →
      S.originOf requestedOrigin = some S.origin →
      (∃ w₀, .asked w₀ .generateNonce (.ok nonce) ∈ h) → t ≤ w.clock →
      Write S (.nonce n rawAddress requestedOrigin) h w
        (w.withDb (w.db.storeNonce S address nonce (t + nonceTtl) w.clock))
  | redeem {n : ℕ} {messageValue signature token : Text} {message : SiweMessage}
      {row : WalletSession} {checkedAt usedAt t : Time} {h : Log} {w : World} :
      Accepted S h messageValue signature message → row ∈ w.db.sessions →
      row.address = message.address → row.nonceHash = S.digest message.nonce →
      row.usable checkedAt = true → (∃ w₀, .ran w₀ w₀ ∈ h ∧ w₀.clock = checkedAt) →
      (∃ w₀, .asked w₀ .randomBytes (.ok token) ∈ h) → t ≤ w.clock →
      Write S (.verify n messageValue signature) h w
        (w.withDb (w.db.redeemed row.address row.id checkedAt usedAt (S.digest token)
          (t + sessionTtl)))
  | logout {n : ℕ} {cookie : Option Text} {token : Text} {h : Log} {w : World} :
      cookie = some token →
      Write S (.logout n cookie) h w (w.withDb (w.db.deleteToken S token))

theorem Database.Sound.filter (hdb : db.Sound) (p : WalletSession → Bool) :
    Database.Sound { db with sessions := db.sessions.filter p } :=
  { hdb with
    ids := hdb.ids.filter p
    ids_lt := fun row hrow => hdb.ids_lt row (List.mem_filter.1 hrow).1
    owned := fun row hrow => hdb.owned row (List.mem_filter.1 hrow).1 }

theorem Database.Sound.storeNonce (hdb : db.Sound) (nonce : Text) (expiresAt createdAt : Time) :
    (db.storeNonce S address nonce expiresAt createdAt).Sound :=
  { hdb with
    ids := hdb.ids.append_one fun row hrow => Nat.ne_of_lt (hdb.ids_lt row hrow)
    ids_lt := fun row hrow => by
      rcases List.mem_append.1 hrow with hold | hnew
      · exact Nat.lt_succ_of_lt (hdb.ids_lt row hold)
      · rw [List.mem_singleton.1 hnew]
        exact Nat.lt_succ_self _
    users_lt := fun user huser => Nat.lt_succ_of_lt (hdb.users_lt user huser)
    owned := fun row hrow userId hsome => by
      rcases List.mem_append.1 hrow with hold | hnew
      · exact hdb.owned row hold userId hsome
      · rw [List.mem_singleton.1 hnew] at hsome
        cases hsome }

/-- The rows after a nonce is used. -/
theorem mem_redeemed (hdb : db.Sound) {row : WalletSession} (hrow : row ∈ db.sessions)
    {checkedAt usedAt expiresAt : Time} {tokenHash : Hash} {row' : WalletSession}
    (hrow' : row' ∈ (db.redeemed address row.id checkedAt usedAt tokenHash expiresAt).sessions) :
    row' ∈ db.sessions ∨
      row' = row.redeem (db.upsertUser address).2.id usedAt tokenHash expiresAt := by
  rcases mem_updateWhere_cases hrow' with ⟨hold, -⟩ | ⟨old, hold, hmatch, rfl⟩
  · exact .inl hold
  · obtain ⟨hid, -⟩ := of_decide_eq_true hmatch
    rw [hdb.ids.eq hold hrow hid]
    exact .inr rfl

theorem Database.Sound.redeemed (hdb : db.Sound) {row : WalletSession} (hrow : row ∈ db.sessions)
    {checkedAt usedAt expiresAt : Time} {tokenHash : Hash} :
    (db.redeemed row.address row.id checkedAt usedAt tokenHash expiresAt).Sound := by
  obtain ⟨hsound, huser, haddress⟩ := hdb.upsertUser row.address
  have hids : Keyed (·.id) (db.redeemed row.address row.id checkedAt usedAt tokenHash
      expiresAt).sessions := hdb.ids.updateWhere fun _ => rfl
  refine { hsound with ids := hids, ids_lt := fun row' hrow' => ?_, owned := ?_ }
  · have hlt : ∀ old ∈ db.sessions, old.id < (db.upsertUser row.address).1.nextId := fun old hold =>
      Nat.lt_of_lt_of_le (hdb.ids_lt old hold) le_upsertUser
    rcases mem_redeemed hdb hrow hrow' with hold | rfl
    · exact hlt row' hold
    · exact hlt row hrow
  · intro row' hrow' userId hsome
    rcases mem_redeemed hdb hrow hrow' with hold | rfl
    · refine hsound.owned row' ?_ userId hsome
      rwa [upsertUser_sessions]
    · exact ⟨_, huser, Option.some.inj hsome, haddress⟩

/-- **Every transaction** keeps the tables sound. -/
theorem Write.sound {j : Job} {h : Log} {w w' : World} (hw : Write S j h w w')
    (hdb : w.db.Sound) : w'.db.Sound := by
  cases hw with
  | same | memory => exact hdb
  | expired => exact hdb.filter _
  | nonce => exact hdb.storeNonce _ _ _
  | redeem _ hrow => exact hdb.redeemed hrow
  | logout => exact hdb.filter _

/-- **Every transaction** leaves the rows that follow from the old ones. -/
theorem Write.evolves {j : Job} {h : Log} {w w' : World} (hw : Write S j h w w') :
    Evolves w w' := by
  cases hw with
  | same => exact .refl _
  | memory => exact ⟨Nat.le_refl _, Nat.le_refl _, .refl WalletSession.Follows.refl⟩
  | expired => exact ⟨Nat.le_refl _, Nat.le_refl _, .filter WalletSession.Follows.refl _⟩
  | nonce =>
    exact ⟨Nat.le_refl _, Nat.le_succ _,
      .append_one WalletSession.Follows.refl (Nat.le_refl _) (Nat.lt_succ_self _)⟩
  | redeem =>
    refine ⟨Nat.le_refl _, le_upsertUser, ?_⟩
    refine Updated.grown (k := fun id : Id => id) (fun _ => rfl)
      (.of_updateWhere WalletSession.Follows.refl fun row _ hmatch => ⟨rfl, .inr ⟨?_, ?_⟩⟩)
    · obtain ⟨-, husable⟩ := of_decide_eq_true hmatch
      exact (of_decide_eq_true husable).1
    · exact ⟨_, _, _, _, rfl⟩
  | logout => exact ⟨Nat.le_refl _, Nat.le_refl _, .filter WalletSession.Follows.refl _⟩

/-! ### What a request keeps to -/

/-- The wallet has root authority, by what the request has read. -/
def Rooted (S : Settings) (h : Log) (address : Address) : Prop :=
  ∃ w, .ran w w ∈ h ∧ ∃ row ∈ w.db.authorities, row.chainId = S.deploymentChainId ∧
    row.contractAddress = S.contractAddress ∧ row.kind = .owner ∧
    (row.address = address ∨ S.configuredSafe = some row.address ∧
      ∃ w' info, .asked w' .runtimeInfo (.ok info) ∈ h ∧
        address ∈ SafeRuntimeInfo.owners info)

/-- What the guard has seen of the session when it lets a principal through. -/
def Vouched (S : Settings) (j : Job) (h : Log) (p : Principal) : Prop :=
  ∃ n cookie token w₁ row w₂ expires, j = .guarded n cookie ∧ presented cookie = some token ∧
    .ran w₁ w₁ ∈ h ∧ row ∈ w₁.db.sessions ∧ row.sessionTokenHash = some (S.digest token) ∧
    row.address = p.address ∧ row.userId = some p.userId ∧ row.sessionExpiresAt = some expires ∧
    .ran w₂ w₂ ∈ h ∧ w₂.clock < expires ∧ (.superAdmin ∈ p.roles → Rooted S h p.address)

/-- What a request may ask. -/
def Asks (S : Settings) (j : Job) (h : Log) : Query → Prop
  | .handle principal => Vouched S j h principal
  | _ => True

/-- **The discipline** of a request. -/
def discipline (S : Settings) (j : Job) : Discipline World Reply Failure where
  inv w := w.db.Sound
  rely := Evolves
  answers _ _ _ := True
  guar := Write S j
  asks h _ := Asks S j h
  rely_refl := .refl
  rely_trans := .trans
  guar_refl _ _ := .same

variable {j : Job} {α β : Type} {v : Sight}

/-- The routine keeps to the discipline, and ends in `Q`. -/
abbrev Keeps (S : Settings) (j : Job) (p : Worker α) (Q : α → Sight → Prop) (v : Sight) : Prop :=
  Routine.wp (discipline S j) p Q (fun _ _ => True) v

theorem keeps_bind {p : Worker α} {f : α → Worker β} {Q : β → Sight → Prop}
    (h : Keeps S j p (fun a v => Keeps S j (f a) Q v) v) : Keeps S j (p >>= f) Q v :=
  (Routine.wp_bind _ _).2 h

theorem keeps_mono {p : Worker α} {Q Q' : α → Sight → Prop} (h : Keeps S j p Q v)
    (hQ : ∀ a v, Q a v → Q' a v) : Keeps S j p Q' v :=
  Routine.wp_mono h hQ fun _ _ _ => trivial

theorem keeps_select {f : Database → α} {Q : α → Sight → Prop}
    (h : ∀ w, Evolves v.shared w → w.db.Sound → Q (f w.db) (v.ran w w)) :
    Keeps S j (select f) Q v :=
  Routine.wp_read fun w hrely hinv => ⟨h w hrely hinv, trivial⟩

theorem keeps_now {Q : Time → Sight → Prop}
    (h : ∀ w, Evolves v.shared w → Q w.clock (v.ran w w)) : Keeps S j now Q v :=
  Routine.wp_read fun w hrely _ => ⟨h w hrely, trivial⟩

theorem keeps_transactionOf {t : World → Except Failure (Database × α)} {Q : α → Sight → Prop}
    (h : ∀ w db a, Evolves v.shared w → w.db.Sound → t w = .ok (db, a) →
      Write S j v.hist w (w.withDb db) ∧ Q a (v.ran w (w.withDb db))) :
    Keeps S j (transactionOf t) Q v := by
  refine Routine.wp_transact (fun _ _ _ => trivial) ?_ fun _ _ _ _ _ => trivial
  intro w db a hrely hinv hok
  obtain ⟨hwrite, hQ⟩ := h w db a hrely hinv hok
  exact ⟨hwrite, hQ, trivial⟩

theorem keeps_ask {q : Query} {Q : Reply q → Sight → Prop} (hasks : Asks S j v.hist q)
    (h : ∀ r w, Evolves v.shared w → Q r (v.asked w q (.ok r))) : Keeps S j (ask q) Q v :=
  Routine.wp_ask fun w hrely _ => ⟨hasks, fun r _ => h r w hrely, fun _ _ => trivial⟩

theorem keeps_require {a : Option α} {e : Failure} {Q : α → Sight → Prop}
    (h : ∀ x, a = some x → Q x v) : Keeps S j (require a e) Q v := by
  cases a with
  | some x => exact h x rfl
  | none => trivial

/-! ### Principals -/

theorem superAdmin_mem_effectiveRoles {roles : List Role} {authorities : List ChainAuthorityKind}
    {safeOwner : Bool} : .superAdmin ∈ effectiveRoles roles authorities safeOwner ↔
      .owner ∈ authorities ∨ safeOwner = true := by
  unfold effectiveRoles
  by_cases howner : .owner ∈ authorities <;> by_cases hmanager : .goalManager ∈ authorities <;>
    cases safeOwner <;> simp [roleOrder, howner, hmanager]

/-- **Root authority** is that of the projected owner, or of an owner of the Safe that is the
projected owner; it is never that of the database. -/
theorem superAdmin_principal {user : User} {safeInfo : Option SafeRuntimeInfo}
    (h : .superAdmin ∈ (principal S user (projectedAuthorities S user.address db)
      safeInfo).roles) :
    ∃ row ∈ db.authorities, row.chainId = S.deploymentChainId ∧
      row.contractAddress = S.contractAddress ∧ row.kind = .owner ∧
      (row.address = user.address ∨ S.configuredSafe = some row.address ∧
        ∃ info, safeInfo = some info ∧ user.address ∈ info.owners) := by
  have hprojected : ∀ row ∈ projectedAuthorities S user.address db, row ∈ db.authorities ∧
      row.chainId = S.deploymentChainId ∧ row.contractAddress = S.contractAddress := by
    intro row hrow
    obtain ⟨hmem, hmatch⟩ := List.mem_filter.1 hrow
    obtain ⟨hchain, hcontract, -⟩ := of_decide_eq_true hmatch
    exact ⟨hmem, hchain, hcontract⟩
  rcases superAdmin_mem_effectiveRoles.1 h with howner | hsafe
  · obtain ⟨row, hrow, hkind⟩ := List.mem_map.1 howner
    obtain ⟨hrow, haddress⟩ := List.mem_filter.1 hrow
    obtain ⟨hmem, hchain, hcontract⟩ := hprojected row hrow
    exact ⟨row, hmem, hchain, hcontract, hkind, .inl (of_decide_eq_true haddress)⟩
  · obtain ⟨hescrow, hlisted⟩ := Bool.and_eq_true_iff.1 hsafe
    obtain ⟨safe, hconfigured, hescrow⟩ := (Option.any_eq_true _ _).1 hescrow
    obtain ⟨row, hfound, haddress⟩ := (Option.any_eq_true _ _).1 hescrow
    obtain ⟨info, hinfo, hlisted⟩ := (Option.any_eq_true _ _).1 hlisted
    have hkind := List.find?_some hfound
    obtain ⟨hmem, hchain, hcontract⟩ := hprojected row (List.mem_of_find?_eq_some hfound)
    refine ⟨row, hmem, hchain, hcontract, of_decide_eq_true hkind, .inr ⟨?_, info, hinfo, ?_⟩⟩
    · rw [hconfigured, of_decide_eq_true haddress]
    · exact List.contains_iff_mem.1 hlisted

/-- The principal of a user, by what is read now. -/
theorem keeps_principalFor {user : User} {Q : Principal → Sight → Prop}
    (hQ : ∀ p v', v.hist ⊆ v'.hist → p.address = user.address → p.userId = user.id →
      (.superAdmin ∈ p.roles → Rooted S v'.hist p.address) → Q p v') :
    Keeps S j (principalFor S user) Q v := by
  unfold principalFor
  refine keeps_bind (keeps_select fun w _ _ => ?_)
  cases hsafe : S.configuredSafe with
  | none =>
    refine hQ _ _ (List.subset_cons_self _ _) rfl rfl fun hroot => ?_
    obtain ⟨row, hrow, hchain, hcontract, hkind, haddress⟩ := superAdmin_principal hroot
    refine ⟨w, .head _, row, hrow, hchain, hcontract, hkind, haddress.imp_right ?_⟩
    rintro ⟨hconfigured, -⟩
    rw [hsafe] at hconfigured
    cases hconfigured
  | some safe =>
    refine keeps_bind ((Routine.wp_tryCatch _ _).2 ((Routine.wp_bind _ _).2
      (Routine.wp_ask fun w' _ _ => ⟨trivial, fun info _ => ?_, fun e _ => ?_⟩)))
    · refine hQ _ _ (fun e he => .tail _ (.tail _ he)) rfl rfl fun hroot => ?_
      obtain ⟨row, hrow, hchain, hcontract, hkind, haddress⟩ := superAdmin_principal hroot
      refine ⟨w, .tail _ (.head _), row, hrow, hchain, hcontract, hkind, haddress.imp_right ?_⟩
      rintro ⟨hconfigured, info', hinfo, hlisted⟩
      obtain rfl := Option.some.inj hinfo
      exact ⟨hconfigured, w', info, .head _, hlisted⟩
    · refine hQ _ _ (fun e he => .tail _ (.tail _ he)) rfl rfl fun hroot => ?_
      obtain ⟨row, hrow, hchain, hcontract, hkind, haddress⟩ := superAdmin_principal hroot
      refine ⟨w, .tail _ (.head _), row, hrow, hchain, hcontract, hkind, haddress.imp_right ?_⟩
      rintro ⟨-, info', hinfo, -⟩
      cases hinfo

/-! ### The requests -/

theorem keeps_cleanup {Q : Unit → Sight → Prop}
    (hQ : ∀ v', v.hist ⊆ v'.hist → Q () v') :
    Keeps S j cleanupExpiredSessions Q v := by
  unfold cleanupExpiredSessions dueCleanup
  refine keeps_bind (Routine.wp_atomically (fun _ _ _ => trivial) ?_ ?_)
  · intro w due w' _ _ hdue
    split_ifs at hdue
    · obtain ⟨hok, rfl⟩ := Prod.mk.inj hdue
      obtain rfl := Except.ok.inj hok
      exact ⟨.same, hQ _ (List.subset_cons_self _ _), trivial⟩
    · obtain ⟨hok, rfl⟩ := Prod.mk.inj hdue
      obtain rfl := Except.ok.inj hok
      refine ⟨.memory, keeps_transactionOf fun w₁ db a _ _ hok => ?_, trivial⟩
      obtain ⟨rfl, -⟩ := Prod.mk.inj (Except.ok.inj hok)
      exact ⟨.expired, hQ _ fun e he => .tail _ (.tail _ he)⟩
  · intro w e w' _ _ hdue
    split_ifs at hdue <;> cases (Prod.mk.inj hdue).1

/-- **A nonce** is stored for the address that asks from the right origin. -/
theorem keeps_createNonce {n : ℕ} {rawAddress requestedOrigin : Text} :
    Keeps S (.nonce n rawAddress requestedOrigin) (createNonce S rawAddress requestedOrigin)
      (fun _ _ => True) v := by
  unfold createNonce
  refine keeps_bind (keeps_require fun address haddress => ?_)
  refine keeps_bind (keeps_require fun origin horigin => ?_)
  refine Routine.wp_ite (fun _ => trivial) fun hsame => ?_
  have hsame : origin = S.origin := of_not_not hsame
  refine keeps_bind (keeps_cleanup fun v₁ _ => ?_)
  refine keeps_bind (keeps_ask trivial fun (nonce : Text) w₂ _ => ?_)
  refine keeps_bind (keeps_now fun w₃ _ => ?_)
  refine keeps_bind (keeps_transactionOf fun w₄ db a hrely _ hok => ⟨?_, trivial⟩)
  obtain ⟨rfl, -⟩ := Prod.mk.inj (Except.ok.inj hok)
  exact .nonce haddress (hsame ▸ horigin) ⟨w₂, .tail _ (.head _)⟩ hrely.clock

theorem claim_ok {message : SiweMessage} {challenge : WalletSession} {token : Text}
    {expiresAt checkedAt usedAt : Time} {user : User}
    (h : claim S message.address challenge token expiresAt checkedAt usedAt db = .ok (db', user)) :
    (∃ row ∈ db.sessions, row.id = challenge.id ∧ row.usable checkedAt = true) ∧
      db' = db.redeemed message.address challenge.id checkedAt usedAt (S.digest token)
        expiresAt := by
  unfold claim at h
  simp only at h
  split_ifs at h with hclaimed htaken
  obtain ⟨rfl, -⟩ := Prod.mk.inj (Except.ok.inj h)
  obtain ⟨row, hrow, hmatch⟩ := List.any_eq_true.1 hclaimed
  exact ⟨⟨row, hrow, of_decide_eq_true hmatch⟩, rfl⟩

/-- **A session** is issued for a nonce whose signature has been checked. -/
theorem keeps_issueSession {n : ℕ} {messageValue signature : Text} {message : SiweMessage}
    {challenge : WalletSession} (hheld : Held challenge v.shared)
    (haccepted : Accepted S v.hist messageValue signature message)
    (haddress : challenge.address = message.address)
    (hnonce : challenge.nonceHash = S.digest message.nonce) :
    Keeps S (.verify n messageValue signature) (issueSession S message.address challenge)
      (fun _ _ => True) v := by
  unfold issueSession
  refine keeps_bind (keeps_ask trivial fun (token : Text) w₁ h₁ => ?_)
  refine keeps_bind (keeps_now fun w₂ h₂ => ?_)
  refine keeps_bind (keeps_now fun w₃ h₃ => ?_)
  refine keeps_bind (keeps_now fun w₄ h₄ => ?_)
  refine keeps_bind (keeps_transactionOf fun w db user h hsound hok => ?_)
  refine ⟨?_, keeps_bind (keeps_principalFor fun _ _ _ _ _ _ => trivial)⟩
  obtain ⟨⟨row, hrow, hid, husable⟩, rfl⟩ := claim_ok hok
  -- the row is still the one that was found: it has not been used
  have heq : row = challenge := by
    have hlater : Evolves v.shared w := h₁.trans (h₂.trans (h₃.trans (h₄.trans h)))
    refine ((hheld.evolves hlater).2 row hrow hid).eq_of_unused ?_
    exact (of_decide_eq_true husable).1
  subst heq
  have hsigned : Accepted S (.ran w₄ w₄ :: .ran w₃ w₃ :: .ran w₂ w₂ ::
      .asked w₁ .randomBytes (.ok token) :: v.hist) messageValue signature message := by
    obtain ⟨w₀, hasked⟩ := haccepted.signed
    exact { haccepted with signed := ⟨w₀, .tail _ (.tail _ (.tail _ (.tail _ hasked)))⟩ }
  have hwrite : Write S (.verify n messageValue signature) _ w (w.withDb (w.db.redeemed row.address
      row.id w₃.clock w₄.clock (S.digest token) (w₂.clock + sessionTtl))) :=
    .redeem hsigned hrow haddress hnonce husable ⟨w₃, .tail _ (.head _), rfl⟩
      ⟨w₁, .tail _ (.tail _ (.tail _ (.head _)))⟩ (h₃.clock.trans (h₄.clock.trans h.clock))
  rw [haddress] at hwrite
  exact hwrite

theorem mem_of_findChallenge {message : SiweMessage} {t : Time} {challenge : WalletSession}
    (h : findChallenge S message t db = some challenge) : challenge ∈ db.sessions ∧
      challenge.address = message.address ∧ challenge.nonceHash = S.digest message.nonce := by
  obtain ⟨hmem, hmatch⟩ := List.mem_filter.1 (List.argmax_mem h)
  obtain ⟨haddress, hnonce, -⟩ := of_decide_eq_true hmatch
  exact ⟨hmem, haddress, hnonce⟩

theorem keeps_verifyRoute {n : ℕ} {messageValue signature : Text} :
    Keeps S (.verify n messageValue signature) (verifyRoute S messageValue signature)
      (fun _ _ => True) v := by
  have hend : ∀ (p : Worker (Text × Time × Principal)) (v : Sight),
      Keeps S (.verify n messageValue signature) p (fun _ _ => True) v →
      Keeps S (.verify n messageValue signature)
        (p >>= fun result => ask (.setCookie result.1 result.2.1 result.2.2)) (fun _ _ => True) v :=
    fun p v hp => keeps_bind (keeps_mono hp fun _ _ _ => keeps_ask trivial fun _ _ _ => trivial)
  refine hend _ _ ?_
  unfold verify
  refine keeps_bind (keeps_require fun message hparsed => ?_)
  unfold verifyMessage
  refine keeps_bind (keeps_now fun w₁ _ => ?_)
  refine keeps_bind (keeps_select fun w₂ _ hsound => ?_)
  refine keeps_bind (keeps_require fun challenge hfound => ?_)
  obtain ⟨hmem, haddress, hnonce⟩ := mem_of_findChallenge hfound
  refine Routine.wp_ite (fun _ => trivial) fun hscope => ?_
  have hallowed : scopeAllowed S message challenge = true := by simpa using hscope
  obtain ⟨hstored, -, hdomain, huri, hchain⟩ := of_decide_eq_true hallowed
  refine keeps_bind (keeps_ask trivial fun (success : Bool) w₃ h₃ => ?_)
  refine Routine.wp_ite (fun _ => trivial) fun hsuccess => ?_
  obtain rfl : success = true := by simpa using hsuccess
  refine keeps_issueSession ?_ ⟨hparsed, hdomain, huri, hchain, w₃, ?_⟩ haddress hnonce
  · exact (held_of_mem hsound hmem).evolves h₃
  · have hasked : challenge.siweDomain.getD [] = S.domain := by
      rw [hstored]
      rfl
    exact hasked ▸ .head _

theorem sessionOf_some {token : Text} {user : User} {expires : Time}
    (h : sessionOf S token db = some (user, expires)) : ∃ row ∈ db.sessions,
      row.sessionTokenHash = some (S.digest token) ∧ row.sessionExpiresAt = some expires ∧
        ∃ userId, row.userId = some userId ∧ user ∈ db.users ∧ user.id = userId := by
  obtain ⟨row, hrow, h⟩ := Option.bind_eq_some_iff.1 h
  obtain ⟨user', huser, h⟩ := Option.bind_eq_some_iff.1 h
  obtain ⟨userId, huserId, huser⟩ := Option.bind_eq_some_iff.1 huser
  obtain ⟨expires', hexpires, heq⟩ := Option.map_eq_some_iff.1 h
  obtain ⟨rfl, rfl⟩ := Prod.mk.inj heq
  have htoken := List.find?_some hrow
  have hid := List.find?_some huser
  exact ⟨row, List.mem_of_find?_eq_some hrow, of_decide_eq_true htoken, hexpires, userId, huserId,
    List.mem_of_find?_eq_some huser, of_decide_eq_true hid⟩

/-- **The guard** lets a principal through whose session it has seen. -/
theorem keeps_guarded {n : ℕ} {cookie : Option Text} :
    Keeps S (.guarded n cookie) (guarded S cookie) (fun _ _ => True) v := by
  unfold guarded authenticate
  refine keeps_bind (keeps_require fun token htoken => ?_)
  refine keeps_bind (keeps_bind (keeps_select fun w₁ _ hsound => ?_))
  refine keeps_bind (keeps_require fun session hsession => ?_)
  obtain ⟨user, expires⟩ := session
  obtain ⟨row, hrow, hhash, hexpires, userId, huserId, huser, hid⟩ := sessionOf_some hsession
  obtain ⟨owner, howner, hownerId, haddress⟩ := hsound.owned row hrow userId huserId
  obtain rfl : owner = user := hsound.users.eq howner huser (hownerId.trans hid.symm)
  refine keeps_bind (keeps_now fun w₂ _ => ?_)
  refine Routine.wp_ite (fun _ => trivial) fun hlate => ?_
  refine keeps_principalFor fun p v' hsub hpaddress hpuser hroot => ?_
  refine keeps_ask ?_ fun _ _ _ => trivial
  refine ⟨n, cookie, token, w₁, row, w₂, expires, rfl, htoken, hsub (.tail _ (.head _)), hrow,
    hhash, ?_, ?_, hexpires, hsub (.head _), Nat.lt_of_not_le hlate, hroot⟩
  · exact haddress.symm.trans hpaddress.symm
  · rw [huserId, hpuser, ← hid]

theorem keeps_logout {n : ℕ} {cookie : Option Text} :
    Keeps S (.logout n cookie) (logout S cookie) (fun _ _ => True) v := by
  unfold logout
  cases hcookie : presented cookie with
  | none => trivial
  | some token =>
    refine keeps_transactionOf fun w db a _ _ hok => ⟨?_, trivial⟩
    obtain ⟨rfl, -⟩ := Prod.mk.inj (Except.ok.inj hok)
    exact .logout (Option.filter_eq_some_iff.1 hcookie).1

/-! ### The protocol -/

theorem code_safe {h : Log} {w : World} :
    (j.code S).wp (discipline S j) (fun _ _ _ => True) h w := by
  cases j with
  | nonce => exact Routine.wp_silently keeps_createNonce
  | verify => exact Routine.wp_silently keeps_verifyRoute
  | guarded => exact Routine.wp_silently keeps_guarded
  | logout => exact Routine.wp_silently keeps_logout

theorem Environment.sound {w w' : World} (h : Environment w w') (hw : w.db.Sound) :
    w'.db.Sound := by
  cases h with
  | tick => exact hw
  | others h =>
    refine ⟨?_, ?_, h.ids, h.addresses, h.ids_lt, ?_⟩
    · rw [World.withDb_db, h.sessions]
      exact hw.ids
    · rw [World.withDb_db, h.sessions]
      exact fun row hrow => Nat.lt_of_lt_of_le (hw.ids_lt row hrow) h.nextId
    · rw [World.withDb_db, h.sessions]
      intro row hrow userId hsome
      obtain ⟨user, huser, hid, haddress⟩ := hw.owned row hrow userId hsome
      obtain ⟨user', huser', hid', haddress'⟩ := h.kept user huser
      exact ⟨user', huser', hid'.trans hid, haddress'.trans haddress⟩

theorem Environment.evolves {w w' : World} (h : Environment w w') : Evolves w w' := by
  cases h with
  | tick hle => exact ⟨hle, Nat.le_refl _, .refl WalletSession.Follows.refl⟩
  | others h =>
    refine ⟨Nat.le_refl _, h.nextId, ?_⟩
    rw [World.withDb_db, h.sessions]
    exact .refl WalletSession.Follows.refl

/-- **The protocol** of the requests: sessions are used once, and never go back. -/
def signing (S : Settings) : Protocol (api S) where
  inv w := w.db.Sound
  le := Evolves
  rely _ := Evolves
  guar := Write S
  asks j h _ := Asks S j h
  le_refl := .refl
  le_trans := .trans
  rely_refl _ := .refl
  rely_trans := .trans
  guar_refl _ _ _ := .same
  inv_guar _ hwrite hw := hwrite.sound hw
  inv_env h hw := h.sound hw
  inv_halt h := h
  le_guar _ hwrite _ := hwrite.evolves
  le_env h := h.evolves
  le_halt _ w := .refl w
  rely_guar _ _ hwrite _ := hwrite.evolves
  rely_env h := h.evolves
  rely_halt {_ _ w} _ := .refl w
  code_safe _ _ := code_safe

/-! ### Where a session comes from -/

/-- The row is stored in this step, new and not used, for a nonce that has been generated for its
address, and for ten minutes at most. -/
def Requested (S : Settings) (fresh : WalletSession) (l : Label World Reply Failure Job) : Prop :=
  ∃ n rawAddress requestedOrigin nonce asked began h w w',
    l = .act (.nonce n rawAddress requestedOrigin) began h (.ran w w') ∧
    S.getAddress rawAddress = some fresh.address ∧ S.originOf requestedOrigin = some S.origin ∧
    .asked asked .generateNonce (.ok nonce) ∈ h ∧ fresh.nonceHash = S.digest nonce ∧
    fresh.nonceExpiresAt ≤ w.clock + nonceTtl ∧ fresh.nonceUsedAt = none ∧
    (∀ row ∈ w.db.sessions, row.id ≠ fresh.id) ∧ fresh ∈ w'.db.sessions

/-- The stored nonce is used in this step for a session that is stored in its place: its wallet had
signed a message with the nonce, in time, for this application, the token of the session has been
generated, and the session lasts seven days at most. -/
def Issued (S : Settings) (fresh row : WalletSession) (l : Label World Reply Failure Job) : Prop :=
  ∃ n messageValue signature message token asked began h w w',
    l = .act (.verify n messageValue signature) began h (.ran w w') ∧
    Accepted S h messageValue signature message ∧ message.address = fresh.address ∧
    S.digest message.nonce = fresh.nonceHash ∧ began.clock < fresh.nonceExpiresAt ∧
    .asked asked .randomBytes (.ok token) ∈ h ∧ fresh ∈ w.db.sessions ∧ row ∈ w'.db.sessions ∧
    ∃ userId usedAt expires, row = fresh.redeem userId usedAt (S.digest token) expires ∧
      expires ≤ w.clock + sessionTtl

/-- A session with this token, by its digest, was logged out in this step. -/
def LogsOut (S : Settings) (tokenHash : Hash) (l : Label World Reply Failure Job) : Prop :=
  ∃ n cookie token began h w w', l = .act (.logout n cookie) began h (.ran w w') ∧
    presented cookie = some token ∧ S.digest token = tokenHash ∧
    ∀ row ∈ w'.db.sessions, row.sessionTokenHash ≠ some tokenHash

/-- **Where a row comes from**: its nonce was requested, and its session, if there is one, has been
issued for that nonce since and not been logged out. -/
def Traced (S : Settings) (ls : List (Label World Reply Failure Job)) (row : WalletSession) :
    Prop :=
  ∃ fresh ls₁ request ls₂, ls = ls₁ ++ request :: ls₂ ∧ Requested S fresh request ∧
    fresh.Follows row ∧ ∀ tokenHash, row.sessionTokenHash = some tokenHash → ∃ ls₃ issue ls₄,
      ls₂ = ls₃ ++ issue :: ls₄ ∧ Issued S fresh row issue ∧ ∀ l ∈ ls₄, ¬LogsOut S tokenHash l

variable {ls : List (Label World Reply Failure Job)} {l : Label World Reply Failure Job}
  {row : WalletSession}

theorem Traced.concat (h : Traced S ls row)
    (hl : ∀ tokenHash, row.sessionTokenHash = some tokenHash → ¬LogsOut S tokenHash l) :
    Traced S (ls ++ [l]) row := by
  obtain ⟨fresh, ls₁, request, ls₂, rfl, hrequest, hfollows, hissued⟩ := h
  refine ⟨fresh, ls₁, request, ls₂ ++ [l], by simp, hrequest, hfollows, fun tokenHash hsome => ?_⟩
  obtain ⟨ls₃, issue, ls₄, rfl, hissue, hnone⟩ := hissued tokenHash hsome
  refine ⟨ls₃, issue, ls₄ ++ [l], by simp, hissue, fun l' hl' => ?_⟩
  rcases List.mem_append.1 hl' with hold | hnew
  · exact hnone l' hold
  · rw [List.mem_singleton.1 hnew]
    exact hl tokenHash hsome

/-- A step after which the row is there is no logout of it. -/
theorem not_logsOut {j : Job} {began w w' : World} {h : Log} (hrow : row ∈ w'.db.sessions)
    {tokenHash : Hash} (hsome : row.sessionTokenHash = some tokenHash) :
    ¬LogsOut S tokenHash (.act j began h (.ran w w')) := by
  rintro ⟨n, cookie, token, began', h', w₁, w₂, heq, -, -, hnone⟩
  cases heq
  exact hnone row hrow hsome

/-- **One transaction**: the rows after it can be traced. -/
theorem Write.traced {j : Job} {began w w' : World} {h : Log} (hw : w.db.Sound)
    (hrec : Recorded (signing S).inv (signing S).le (api S).answers began h w)
    (hls : ∀ row ∈ w.db.sessions, Traced S ls row) (hwrite : Write S j h w w') :
    ∀ row ∈ w'.db.sessions, Traced S (ls ++ [.act j began h (.ran w w')]) row := by
  intro row hrow
  obtain ⟨l, hl⟩ : ∃ l, l = Label.act j began h (.ran w w') := ⟨_, rfl⟩
  rw [← hl]
  have hkept : row ∈ w.db.sessions → Traced S (ls ++ [l]) row := fun hold =>
    (hls row hold).concat fun _ hsome => hl ▸ not_logsOut hrow hsome
  cases hwrite with
  | same | memory => exact hkept hrow
  | expired => exact hkept (List.mem_filter.1 hrow).1
  | nonce haddress horigin hgenerated hle =>
    rcases List.mem_append.1 hrow with hold | hnew
    · exact hkept hold
    · obtain ⟨asked, hasked⟩ := hgenerated
      have hfresh : ∀ old ∈ w.db.sessions, old.id ≠ w.db.nextId := fun old hold =>
        Nat.ne_of_lt (hw.ids_lt old hold)
      have hmem := hrow
      rw [List.mem_singleton.1 hnew] at hmem ⊢
      refine ⟨_, ls, l, [], rfl, ⟨_, _, _, _, asked, _, _, _, _, hl, haddress, horigin, hasked, rfl,
        Nat.add_le_add_right hle nonceTtl, rfl, hfresh, hmem⟩, .refl _, ?_⟩
      intro tokenHash hsome
      cases hsome
  | @redeem n messageValue signature token message old checkedAt usedAt t _ _ haccepted hold
      haddress hnonce husable htime hgenerated hle =>
    rcases mem_redeemed hw hold hrow with hsame | rfl
    · exact hkept hsame
    · obtain ⟨fresh, ls₁, request, ls₂, rfl, hrequest, hfollows, -⟩ := hls old hold
      -- the nonce has not been used before: its row is still the one that was stored
      obtain ⟨hunused, hlt⟩ := of_decide_eq_true husable
      obtain rfl : old = fresh := hfollows.eq_of_unused hunused
      refine ⟨old, ls₁, request, ls₂ ++ [l], by simp, hrequest,
        .inr ⟨hunused, _, _, _, _, rfl⟩, fun tokenHash _ => ?_⟩
      refine ⟨ls₂, l, [], rfl, ?_, fun l hl => absurd hl List.not_mem_nil⟩
      obtain ⟨w₀, hread, hclock⟩ := htime
      obtain ⟨asked, hasked⟩ := hgenerated
      have hbegan : began.clock ≤ w₀.clock := (hrec.since _ hread).clock
      exact ⟨_, _, _, message, token, asked, _, _, _, _, hl, haccepted, haddress.symm, hnonce.symm,
        Nat.lt_of_le_of_lt (hbegan.trans hclock.le) hlt, hasked, hold, hrow, _, _, _, rfl,
        Nat.add_le_add_right hle sessionTtl⟩
  | logout => exact hkept (List.mem_filter.1 hrow).1

/-! ### Nonces that are used -/

/-- The nonces that are used in this step, by the ids of their rows. -/
def redeemed : Label World Reply Failure Job → List Id
  | .act _ _ _ (.ran w w') =>
    (w.db.sessions.filter fun row => row.nonceUsedAt = none ∧
      (w'.db.sessions.any fun row' => row'.id = row.id ∧ row'.nonceUsedAt ≠ none) = true).map
        (·.id)
  | _ => []

/-- No nonce has been used twice, and the rows of those that have been used say so. -/
structure Spent (ids : List Id) (w : World) : Prop where
  nodup : ids.Nodup
  lt : ∀ id ∈ ids, id < w.db.nextId
  used : ∀ id ∈ ids, ∀ row ∈ w.db.sessions, row.id = id → row.nonceUsedAt ≠ none

theorem Spent.evolves {ids : List Id} {w w' : World} (h : Spent ids w) (hw : Evolves w w') :
    Spent ids w' := by
  refine ⟨h.nodup, fun id hid => Nat.lt_of_lt_of_le (h.lt id hid) hw.nextId, ?_⟩
  intro id hid row hrow heq
  obtain ⟨old, hold, hold', hfollows⟩ := hw.sessions.kept row hrow (heq ▸ h.lt id hid)
  exact hfollows.used (h.used id hid old hold (hold'.trans heq))

/-- **One transaction**: the nonces that it uses were not used before. -/
theorem Spent.ran {ids : List Id} {j : Job} {began w w' : World} {h : Log} (hids : Spent ids w)
    (hw : w.db.Sound) (hw' : w'.db.Sound) (hevolves : Evolves w w') :
    Spent (ids ++ redeemed (.act j began h (.ran w w'))) w' := by
  have hnew : ∀ id ∈ redeemed (.act j began h (.ran w w')), ∃ row ∈ w.db.sessions, row.id = id ∧
      row.nonceUsedAt = none ∧ ∃ row' ∈ w'.db.sessions, row'.id = id ∧ row'.nonceUsedAt ≠ none := by
    intro id hid
    obtain ⟨row, hrow, rfl⟩ := List.mem_map.1 hid
    obtain ⟨hrow, hmatch⟩ := List.mem_filter.1 hrow
    obtain ⟨hunused, hany⟩ := of_decide_eq_true hmatch
    obtain ⟨row', hrow', hmatch'⟩ := List.any_eq_true.1 hany
    exact ⟨row, hrow, rfl, hunused, row', hrow', of_decide_eq_true hmatch'⟩
  have hlater := hids.evolves hevolves
  refine ⟨List.nodup_append.2 ⟨hids.nodup, hw.ids.filter _, ?_⟩, ?_, ?_⟩
  · rintro id hid _ hid' rfl
    obtain ⟨row, hrow, hrowId, hunused, -⟩ := hnew id hid'
    exact hids.used id hid row hrow hrowId hunused
  · intro id hid
    rcases List.mem_append.1 hid with hold | hid'
    · exact hlater.lt id hold
    · obtain ⟨-, -, -, -, row', hrow', hrowId, -⟩ := hnew id hid'
      exact hrowId ▸ hw'.ids_lt row' hrow'
  · intro id hid row hrow hrowId
    rcases List.mem_append.1 hid with hold | hid'
    · exact hlater.used id hold row hrow hrowId
    · obtain ⟨-, -, -, -, row', hrow', hrowId', hused⟩ := hnew id hid'
      rwa [hw'.ids.eq hrow hrow' (hrowId.trans hrowId'.symm)]

/-! ### Runs -/

/-- A step that is no transaction of a request uses no nonce and logs nobody out. -/
theorem quiet_step (hl : ∀ j began h w w', l ≠ .act j began h (.ran w w')) :
    (∀ tokenHash, ¬LogsOut S tokenHash l) ∧ redeemed l = [] := by
  refine ⟨?_, ?_⟩
  · rintro tokenHash ⟨n, cookie, token, began, h, w, w', heq, -⟩
    exact hl _ _ _ _ _ heq
  · cases l with
    | act j began h e =>
      cases e with
      | asked => rfl
      | ran w w' => exact absurd rfl (hl j began h w w')
    | env | start | stop | crash => rfl

/-- Nobody has signed in yet. -/
structure World.Initial (w : World) : Prop where
  sound : w.db.Sound
  sessions : w.db.sessions = []

/-- **Every run**: the sessions can be traced, and no nonce has been used twice. -/
theorem traced_of_run {w : World} {c : Config World Reply Failure Job ℕ} (hw : w.Initial)
    (hrun : (api S).Run (Config.idle w) ls c) :
    (∀ row ∈ c.shared.db.sessions, Traced S ls row) ∧ Spent (ls.flatMap redeemed) c.shared := by
  have hidle : (signing S).Safe (Config.idle w) := Protocol.safe_idle hw.sound
  refine (hidle.along (L := fun _ => True) (J := fun ls w =>
      (∀ row ∈ w.db.sessions, Traced S ls row) ∧ Spent (ls.flatMap redeemed) w)
    (R := fun _ _ => True) (fun _ => trivial) ?_ ?_ ?_ ?_ (Protocol.recalls_idle _) ?_ hrun
    fun _ _ => trivial).1
  · intro ls l w hl hJ
    obtain ⟨hout, hnone⟩ := quiet_step (S := S) (l := l) fun j began h w w' heq => by
      rw [heq] at hl
      exact hl
    refine ⟨fun row hrow => (hJ.1 row hrow).concat fun tokenHash _ => hout tokenHash, ?_⟩
    rw [List.flatMap_append, List.flatMap_singleton, hnone, List.append_nil]
    exact hJ.2
  · intro ls w w' _ henv hJ
    obtain ⟨hout, hnone⟩ := quiet_step (S := S) (l := .env) fun _ _ _ _ _ heq => by cases heq
    refine ⟨⟨fun row hrow => ?_, ?_⟩, fun _ _ => trivial⟩
    · refine (hJ.1 row ?_).concat fun tokenHash _ => hout tokenHash
      cases henv with
      | tick => exact hrow
      | others hothers => exact hothers.sessions ▸ hrow
    · rw [List.flatMap_append, List.flatMap_singleton, hnone, List.append_nil]
      exact hJ.2.evolves henv.evolves
  · intro ls j w _ hJ
    obtain ⟨hout, hnone⟩ := quiet_step (S := S) (l := .crash j) fun _ _ _ _ _ heq => by cases heq
    refine ⟨⟨fun row hrow => (hJ.1 row hrow).concat fun tokenHash _ => hout tokenHash, ?_⟩,
      fun _ _ => trivial⟩
    rw [List.flatMap_append, List.flatMap_singleton, hnone, List.append_nil]
    exact hJ.2
  · intro ls j began h w w' _ hsound hrec _ hwrite hJ
    refine ⟨⟨hwrite.traced hsound hrec hJ.1, ?_⟩, fun _ _ => trivial⟩
    rw [List.flatMap_append, List.flatMap_singleton]
    exact hJ.2.ran hsound (hwrite.sound hsound) hwrite.evolves
  · refine ⟨fun row hrow => ?_, .nil, ?_, ?_⟩
    · exact absurd (hw.sessions ▸ hrow) List.not_mem_nil
    · exact fun id hid => absurd hid List.not_mem_nil
    · exact fun id hid => absurd hid List.not_mem_nil

/-! ### A sample run -/

section Sample

/-- The text of a message is its nonce, and the digest of a text its length. -/
def sampleSettings : Settings where
  origin := []
  domain := []
  uri := []
  chainId := 1
  deploymentChainId := 1
  contractAddress := 7
  configuredSafe := none
  getAddress _ := some 5
  originOf text := some text
  siweMessage text := some ⟨5, [], [], text, 1⟩
  digest text := text.length

/-- Every signature is good. -/
def sampleOracle (_ : World) : (q : Query) → Except Failure (Reply q)
  | .generateNonce => .ok ['n', 'n']
  | .randomBytes => .ok ['t']
  | .siweVerify _ _ _ _ => .ok true
  | .runtimeInfo => .error .other
  | .setCookie _ _ _ | .handle _ => .ok ()

/-- A nonce is raced for by two requests, and the session of the winner opens a third. -/
def signingRun : List (Move World Reply Failure Job ℕ) :=
  [.start (.nonce 0 [] []), .act 0 5 sampleOracle, .stop 0,
    .start (.verify 1 ['n', 'n'] []), .start (.verify 2 ['n', 'n'] []), .act 1 7 sampleOracle,
    .act 2 7 sampleOracle, .act 1 3 sampleOracle, .act 2 1 sampleOracle, .stop 1, .stop 2,
    .start (.guarded 3 (some ['t'])), .act 3 4 sampleOracle, .stop 3]

theorem allows_signingRun : ∀ m ∈ signingRun, (api sampleSettings).Allows m :=
  Machine.allows_of_internal (fun _ _ _ => trivial) rfl

/-- Before the first request; the wallet is the owner of the contract. -/
def signingStart : World := ⟨⟨[], [], [⟨1, 7, 5, .owner, 0, 0, 0⟩], 0⟩, 0, 0⟩

theorem signingStart_initial : signingStart.Initial := by
  have hempty : ∀ {α : Type} {P : α → Prop}, ∀ x ∈ ([] : List α), P x :=
    fun x hx => absurd hx List.not_mem_nil
  exact ⟨⟨.nil, hempty, .nil, .nil, hempty, hempty⟩, rfl⟩

theorem signing_isSome :
    ((api sampleSettings).play signingRun (Config.idle signingStart)).isSome = true := by
  decide +kernel

/-- The end of the sample run. -/
def signingEnd : Config World Reply Failure Job ℕ :=
  ((api sampleSettings).play signingRun (Config.idle signingStart)).get signing_isSome

theorem run_signingRun : (api sampleSettings).Run (Config.idle signingStart)
    ((api sampleSettings).labels signingRun (Config.idle signingStart)) signingEnd :=
  Machine.run_labels allows_signingRun (Option.some_get signing_isSome).symm

/-- The handler runs for the address. -/
def handles (address : Address) : Label World Reply Failure Job → Bool
  | .act (.guarded _ _) _ _ (.asked _ (.handle p) _) => p.address = address
  | _ => false

theorem of_handles {l : Label World Reply Failure Job} (hl : handles address l = true) :
    ∃ n cookie began h w p a, l = .act (.guarded n cookie) began h (.asked w (.handle p) a) ∧
      p.address = address := by
  unfold handles at hl
  split at hl
  · exact ⟨_, _, _, _, _, _, _, rfl, of_decide_eq_true hl⟩
  · cases hl

theorem handles_signingRun : ((api sampleSettings).labels signingRun
    (Config.idle signingStart)).any (handles 5) = true := by
  decide +kernel

end Sample

/-- **Agreement.**  When the handler behind the guard runs for a wallet, the wallet has asked for a
nonce from this application, which was stored, and after that has signed the stored nonce, in time,
in a message to this application; the token that the request presents is that of the session which
was stored for this signature, and which was still there, and neither expired nor logged out, when
the guard read it.  Root authority is that of the projected owner. -/
theorem handled_signed {w : World} {c : Config World Reply Failure Job ℕ} (hw : w.Initial)
    (hrun : (api S).Run (Config.idle w) ls c) {n : ℕ} {cookie : Option Text} {began w' : World}
    {h : Log} {p : Principal} {a : Except Failure (Reply (.handle p))}
    (hl : .act (.guarded n cookie) began h (.asked w' (.handle p) a) ∈ ls) :
    ∃ token fresh row ls₁ request ls₂ issue ls₃ h₀ w₁ ls₄, presented cookie = some token ∧
      ls = ls₁ ++ request :: (ls₂ ++ issue ::
        (ls₃ ++ .act (.guarded n cookie) began h₀ (.ran w₁ w₁) :: ls₄)) ∧
      Requested S fresh request ∧ Issued S fresh row issue ∧ row ∈ w₁.db.sessions ∧
      row.address = p.address ∧ row.userId = some p.userId ∧
      row.sessionTokenHash = some (S.digest token) ∧ (∀ l ∈ ls₃, ¬LogsOut S (S.digest token) l) ∧
      (∃ expires, row.sessionExpiresAt = some expires ∧ began.clock < expires) ∧
      (.superAdmin ∈ p.roles → Rooted S h p.address) := by
  have hidle : (signing S).Safe (Config.idle w) := Protocol.safe_idle hw.sound
  -- what the guard has seen
  obtain ⟨before, after, rfl⟩ := List.append_of_mem hl
  obtain ⟨c₁, hrun₁, hrun₂⟩ := hrun.append
  obtain ⟨c₂, hstep, -⟩ := hrun₂.cons
  obtain ⟨hmeets, -, -, hrec, -⟩ := (hidle.run hrun₁).act hstep
  obtain ⟨n', cookie', token, w₁, row, w₂, expires, heq, htoken, hread, hrow, hhash, haddress,
    huser, hexpires, hclock, hlt, hroot⟩ := hmeets
  cases heq
  -- when it read the session
  obtain ⟨i, q, rest, hq, hjob, hbegan, hhist, -, -, -⟩ := hstep.of_act
  obtain ⟨h₁, h₀, hsplit⟩ := List.append_of_mem hread
  have hsuffix : .ran w₁ w₁ :: h₀ <:+ q.hist := by
    rw [hhist, hsplit]
    exact List.suffix_append _ _
  obtain ⟨ls₀, ls₅, c₃, c₄, rfl, hrun₃, hstep₃, -⟩ := hrun₁.recorded hq hsuffix
  obtain ⟨-, -, -, -, -, -, -, -, hshared, -⟩ := hstep₃.of_act
  have hsame : w₁ = c₃.shared := hshared
  obtain ⟨fresh, ls₁, request, ls₂, rfl, hrequest, -, hissued⟩ :=
    (traced_of_run hw hrun₃).1 row (hsame ▸ hrow)
  obtain ⟨ls₃, issue, ls₄, rfl, hissue, hnone⟩ := hissued _ hhash
  rw [hjob, hbegan]
  refine ⟨token, fresh, row, ls₁, request, ls₃, issue, ls₄, h₀, w₁,
    ls₅ ++ .act (.guarded n cookie) began h (.asked w' (.handle p) a) :: after, htoken, ?_,
    hrequest, hissue, hrow, haddress, huser, hhash, hnone, ⟨expires, hexpires, ?_⟩, hroot⟩
  · simp only [List.append_assoc, List.cons_append]
  · exact Nat.lt_of_le_of_lt (hrec.since _ hclock).clock hlt

theorem handled_signed_sample : ∃ fresh row : WalletSession, row.address = 5 ∧
    (∃ l ∈ (api sampleSettings).labels signingRun (Config.idle signingStart),
      Requested sampleSettings fresh l) ∧
    ∃ l ∈ (api sampleSettings).labels signingRun (Config.idle signingStart),
      Issued sampleSettings fresh row l := by
  obtain ⟨l, hl, hhandles⟩ := List.any_eq_true.1 handles_signingRun
  obtain ⟨n, cookie, began, h, w, p, a, rfl, haddress⟩ := of_handles hhandles
  obtain ⟨token, fresh, row, ls₁, request, ls₂, issue, ls₃, h₀, w₁, ls₄, -, hls, hrequest, hissue,
    -, hrow, -⟩ := handled_signed signingStart_initial run_signingRun hl
  refine ⟨fresh, row, hrow.trans haddress, ⟨request, ?_, hrequest⟩, issue, ?_, hissue⟩ <;>
    rw [hls] <;> simp

/-- **No nonce is used twice**, however many requests race for it, and what it was used for does
not change. -/
theorem redeemed_once {w : World} {c c' : Config World Reply Failure Job ℕ}
    {ls' : List (Label World Reply Failure Job)} (hw : w.Initial)
    (hrun : (api S).Run (Config.idle w) ls c) (hrun' : (api S).Run c ls' c') :
    ((ls ++ ls').flatMap redeemed).Nodup ∧
      ∀ row ∈ c.shared.db.sessions, row.nonceUsedAt ≠ none → ∀ row' ∈ c'.shared.db.sessions,
        row'.id = row.id → row' = row := by
  refine ⟨(traced_of_run hw (hrun.trans hrun')).2.nodup, ?_⟩
  intro row hrow hused row' hrow' hid
  have hsafe : (signing S).Safe c := (Protocol.safe_idle (P := signing S) hw.sound).run hrun
  have hevolves : Evolves c.shared c'.shared := by
    refine hsafe.run_rel (R := Evolves) Evolves.refl (fun _ _ _ => Evolves.trans) ?_ ?_ ?_ hrun'
    · exact fun _ _ _ henv => Environment.evolves henv
    · exact fun _ w _ => Evolves.refl w
    · exact fun _ _ _ _ _ _ _ hwrite => Write.evolves hwrite
  rcases ((held_of_mem hsafe.inv hrow).evolves hevolves).2 row' hrow' hid with heq | ⟨hnone, -⟩
  · exact heq
  · exact absurd hnone hused

theorem redeemed_once_sample :
    ((api sampleSettings).labels signingRun (Config.idle signingStart)).flatMap redeemed = [0] ∧
      ∀ row ∈ signingEnd.shared.db.sessions, row.nonceUsedAt ≠ none →
        ∀ row' ∈ signingEnd.shared.db.sessions, row'.id = row.id → row' = row :=
  ⟨by decide +kernel, (redeemed_once signingStart_initial run_signingRun .refl).2⟩

end Auth

end PreCommunity
