import Mathlib.Data.List.Count
import PreCommunity.Escrow.Schema
import PreCommunity.Limits.FixedWindow

/-!
# The rate limit of the sign-in requests

The guard counts the requests to an endpoint, and those of a client to it, in fixed windows of a
minute.  The windows are kept in a map, from which those that have ended are removed when it grows.

* `consume`, `canActivate` : the guard.
* `admitted_le` : how many requests come through in a minute.
* `decisions_plain` : removing windows changes no answer.
-/

namespace PreCommunity

namespace Auth

open Limits
open Escrow (Text)

/-- `WINDOW_MS`. -/
def windowMs : ℕ := 60000

/-- `REQUESTS_PER_CLIENT`. -/
def requestsPerClient : ℕ := 10

/-- `REQUESTS_PER_ENDPOINT`. -/
def requestsPerEndpoint : ℕ := 60

/-- A request to sign in; an address that is not known is `unknown`. -/
structure SignInRequest where
  client : Text
  endpoint : Text
  now : ℕ
deriving DecidableEq, Repr

/-- The key of an endpoint's window. -/
def endpointKey (endpoint : Text) : Text :=
  ['e', 'n', 'd', 'p', 'o', 'i', 'n', 't', ':'] ++ endpoint

/-- The key of a client's window. -/
def clientKey (client endpoint : Text) : Text :=
  ['c', 'l', 'i', 'e', 'n', 't', ':'] ++ client ++ ':' :: endpoint

/-- The windows by their keys, in the order in which the keys came. -/
abbrev Buckets := List (Text × Window)

/-- `get`. -/
def bucket (key : Text) : Buckets → Option Window
  | [] => none
  | entry :: rest => if entry.1 = key then some entry.2 else bucket key rest

/-- `set`: a key that is there keeps its place. -/
def setBucket (key : Text) (window : Window) : Buckets → Buckets
  | [] => [(key, window)]
  | entry :: rest =>
    if entry.1 = key then (key, window) :: rest else entry :: setBucket key window rest

/-- `removeExpired`. -/
def removeExpired (now : ℕ) (buckets : Buckets) : Buckets :=
  buckets.filter fun entry => ¬entry.2.resetAt ≤ now

/-- `consume`. -/
def consume (key : Text) (limit now : ℕ) (buckets : Buckets) : Buckets × Bool :=
  match bucket key buckets with
  | none => (tidy now (setBucket key ⟨1, now + windowMs⟩ buckets), true)
  | some window =>
    if window.resetAt ≤ now then (tidy now (setBucket key ⟨1, now + windowMs⟩ buckets), true)
    else if window.count ≥ limit then (buckets, false)
    else (setBucket key { window with count := window.count + 1 } buckets, true)
where
  /-- Remove what has ended, when there are too many windows. -/
  tidy (now : ℕ) (buckets : Buckets) : Buckets :=
    if buckets.length > requestsPerEndpoint * 3 then removeExpired now buckets else buckets

/-- A request for the window of its endpoint. -/
def consumeEndpoint (request : SignInRequest) (buckets : Buckets) : Buckets × Bool :=
  consume (endpointKey request.endpoint) requestsPerEndpoint request.now buckets

/-- A request for the window of its client. -/
def consumeClient (request : SignInRequest) (buckets : Buckets) : Buckets × Bool :=
  consume (clientKey request.client request.endpoint) requestsPerClient request.now buckets

/-- `canActivate`: the client's window counts what the endpoint's admits. -/
def canActivate (request : SignInRequest) (buckets : Buckets) : Buckets × Bool :=
  let first := consumeEndpoint request buckets
  if first.2 then consumeClient request first.1 else first

/-- The answers to a list of requests. -/
def decisions : Buckets → List SignInRequest → List (SignInRequest × Bool)
  | _, [] => []
  | buckets, request :: rest =>
    (request, (canActivate request buckets).2) :: decisions (canActivate request buckets).1 rest

/-! ### The map of the windows -/

variable {key key' : Text} {window : Window} {buckets : Buckets} {now limit : ℕ}

theorem bucket_setBucket_self : bucket key (setBucket key window buckets) = some window := by
  induction buckets with
  | nil => simp [setBucket, bucket]
  | cons entry rest ih =>
    by_cases hkey : entry.1 = key
    · simp [setBucket, bucket, hkey]
    · simp [setBucket, bucket, hkey, ih]

theorem bucket_setBucket_of_ne (hne : key' ≠ key) :
    bucket key' (setBucket key window buckets) = bucket key' buckets := by
  induction buckets with
  | nil => simp [setBucket, bucket, hne.symm]
  | cons entry rest ih =>
    by_cases hkey : entry.1 = key
    · simp [setBucket, bucket, hkey, hne.symm]
    · by_cases hkey' : entry.1 = key'
      · simp [setBucket, bucket, hkey', hne]
      · simp [setBucket, bucket, hkey, hkey', ih]

theorem bucket_eq_none (h : ∀ entry ∈ buckets, entry.1 ≠ key) : bucket key buckets = none := by
  induction buckets with
  | nil => rfl
  | cons entry rest ih =>
    obtain ⟨hfirst, hrest⟩ := List.forall_mem_cons.1 h
    simp [bucket, hfirst, ih hrest]

/-- The keys are unique. -/
def Distinct (buckets : Buckets) : Prop := buckets.Pairwise fun a b => a.1 ≠ b.1

theorem mem_setBucket {entry : Text × Window} (h : entry ∈ setBucket key window buckets) :
    entry.1 = key ∨ entry ∈ buckets := by
  induction buckets with
  | nil => exact .inl (congrArg Prod.fst (List.mem_singleton.1 h))
  | cons first rest ih =>
    rw [setBucket] at h
    split_ifs at h
    · rcases List.mem_cons.1 h with rfl | hrest
      · exact .inl rfl
      · exact .inr (.tail _ hrest)
    · rcases List.mem_cons.1 h with rfl | hrest
      · exact .inr (.head _)
      · exact (ih hrest).imp_right (.tail _)

theorem Distinct.setBucket (h : Distinct buckets) : Distinct (setBucket key window buckets) := by
  induction buckets with
  | nil => exact List.pairwise_singleton _ _
  | cons first rest ih =>
    obtain ⟨hfirst, hrest⟩ := List.pairwise_cons.1 h
    rw [Auth.setBucket]
    split_ifs with hkey
    · exact List.pairwise_cons.2 ⟨fun entry hentry => hkey ▸ hfirst entry hentry, hrest⟩
    · refine List.pairwise_cons.2 ⟨fun entry hentry => ?_, ih hrest⟩
      rcases mem_setBucket hentry with heq | hold
      · rwa [heq]
      · exact hfirst entry hold

/-- **What is removed has ended.** -/
theorem bucket_removeExpired (h : Distinct buckets) :
    bucket key (removeExpired now buckets) = bucket key buckets ∨
      bucket key (removeExpired now buckets) = none ∧ ended now (bucket key buckets) = true := by
  induction buckets with
  | nil => exact .inl rfl
  | cons entry rest ih =>
    obtain ⟨hfirst, hrest⟩ := List.pairwise_cons.1 h
    by_cases hended : entry.2.resetAt ≤ now
    · have hremoved : removeExpired now (entry :: rest) = removeExpired now rest := by
        simp [removeExpired, hended]
      rw [hremoved]
      by_cases hkey : entry.1 = key
      · -- the keys are unique, so nothing is left under this one
        refine .inr ⟨bucket_eq_none fun other hother heq => ?_, ?_⟩
        · exact hfirst other (List.mem_filter.1 hother).1 (hkey.trans heq.symm)
        · simp [bucket, hkey, ended, hended]
      · simpa [bucket, hkey] using ih hrest
    · have hkept : removeExpired now (entry :: rest) = entry :: removeExpired now rest := by
        simp [removeExpired, Nat.lt_of_not_le hended]
      rw [hkept]
      by_cases hkey : entry.1 = key
      · exact .inl (by simp [bucket, hkey])
      · simpa [bucket, hkey] using ih hrest

/-! ### One window -/

theorem tidy_forgets (h : Distinct buckets) (key : Text) :
    Forgets now (bucket key buckets) (bucket key (consume.tidy now buckets)) ∧
      Distinct (consume.tidy now buckets) := by
  unfold consume.tidy
  split_ifs
  · exact ⟨bucket_removeExpired h, h.sublist List.filter_sublist⟩
  · exact ⟨.inl rfl, h⟩

/-- **One request for a window**: this window admits it or not, and the others stay or are forgotten
when they have ended. -/
theorem consume_spec (key : Text) (limit now : ℕ) (h : Distinct buckets) :
    Distinct (consume key limit now buckets).1 ∧
      (consume key limit now buckets).2 = (request windowMs limit now (bucket key buckets)).2 ∧
      bucket key (consume key limit now buckets).1 =
        (request windowMs limit now (bucket key buckets)).1 ∧
      ∀ key' ≠ key, Forgets now (bucket key' buckets)
        (bucket key' (consume key limit now buckets).1) := by
  have hnew : ∀ key', Forgets now (bucket key' (setBucket key ⟨1, now + windowMs⟩ buckets))
        (bucket key' (consume.tidy now (setBucket key ⟨1, now + windowMs⟩ buckets))) ∧
      Distinct (consume.tidy now (setBucket key ⟨1, now + windowMs⟩ buckets)) :=
    fun key' => tidy_forgets h.setBucket key'
  have hself : bucket key (consume.tidy now (setBucket key ⟨1, now + windowMs⟩ buckets)) =
      some ⟨1, now + windowMs⟩ := by
    rcases (hnew key).1 with heq | ⟨-, hended⟩
    · rw [heq, bucket_setBucket_self]
    · -- a window that begins now has not ended
      rw [bucket_setBucket_self] at hended
      have hle : now + windowMs ≤ now := of_decide_eq_true hended
      have hpos : 0 < windowMs := by decide
      omega
  have hother : ∀ key' ≠ key, Forgets now (bucket key' buckets)
      (bucket key' (consume.tidy now (setBucket key ⟨1, now + windowMs⟩ buckets))) := by
    intro key' hne
    have hforgets := (hnew key').1
    rwa [bucket_setBucket_of_ne hne] at hforgets
  unfold consume
  cases hbucket : bucket key buckets with
  | none => exact ⟨(hnew key).2, rfl, hself, hother⟩
  | some window =>
    simp only [request]
    split_ifs with hended hfull
    · exact ⟨(hnew key).2, rfl, hself, hother⟩
    · exact ⟨h, rfl, hbucket, fun _ _ => .inl rfl⟩
    · refine ⟨h.setBucket, rfl, bucket_setBucket_self, fun key' hne => .inl ?_⟩
      exact bucket_setBucket_of_ne hne

/-! ### The guard -/

section Guard

variable {t admitted now' : ℕ} {request : SignInRequest}

/-- A client's key is no endpoint's. -/
theorem clientKey_ne (client endpoint endpoint' : Text) :
    clientKey client endpoint ≠ endpointKey endpoint' := by
  intro h
  have hhead := congrArg List.head? h
  simp [clientKey, endpointKey] at hhead

theorem bounded_other (hbuckets : Distinct buckets) (hne : key' ≠ key) (hnow : now ≤ now')
    (limit' : ℕ) (h : Bounded windowMs limit t admitted (bucket key' buckets) now) :
    Bounded windowMs limit t admitted (bucket key' (consume key limit' now' buckets).1) now' :=
  h.of_forgets hnow ((consume_spec key limit' now' hbuckets).2.2.2 key' hne)

theorem bounded_self (hbuckets : Distinct buckets) (hnow : now ≤ now') (hlimit : 0 < limit)
    (h : Bounded windowMs limit t admitted (bucket key buckets) now) :
    Bounded windowMs limit t (admitted + ((consume key limit now' buckets).2 &&
      inInterval windowMs t now').toNat) (bucket key (consume key limit now' buckets).1) now' := by
  obtain ⟨-, hanswer, hbucket, -⟩ := consume_spec key limit now' hbuckets
  rw [hanswer, hbucket]
  exact h.request hlimit hnow

/-- What the guard does: the endpoint's window, and then the client's. -/
theorem canActivate_cases (request : SignInRequest) (buckets : Buckets) :
    ((consumeEndpoint request buckets).2 = true ∧
      canActivate request buckets = consumeClient request (consumeEndpoint request buckets).1) ∨
    ((consumeEndpoint request buckets).2 = false ∧
      canActivate request buckets =
        consumeEndpoint request buckets) := by
  unfold canActivate
  simp only
  cases hfirst : (consumeEndpoint request buckets).2 with
  | true => exact .inl ⟨rfl, if_pos rfl⟩
  | false => exact .inr ⟨rfl, if_neg Bool.false_ne_true⟩

theorem Distinct.consumeEndpoint (h : Distinct buckets) :
    Distinct (consumeEndpoint request buckets).1 :=
  (consume_spec _ _ _ h).1

theorem Distinct.canActivate (h : Distinct buckets) :
    Distinct (canActivate request buckets).1 := by
  rcases canActivate_cases request buckets with ⟨-, heq⟩ | ⟨-, heq⟩ <;> rw [heq]
  · exact (consume_spec _ _ _ h.consumeEndpoint).1
  · exact h.consumeEndpoint

/-- **One request**, for the window of an endpoint. -/
theorem bounded_endpoint (endpoint : Text) (hbuckets : Distinct buckets) (hnow : now ≤ request.now)
    (h : Bounded windowMs requestsPerEndpoint t admitted
      (bucket (endpointKey endpoint) buckets) now) :
    Bounded windowMs requestsPerEndpoint t (admitted + ((canActivate request buckets).2 &&
        decide (request.endpoint = endpoint) && inInterval windowMs t request.now).toNat)
      (bucket (endpointKey endpoint) (canActivate request buckets).1) request.now := by
  have hclient := (clientKey_ne request.client request.endpoint endpoint).symm
  by_cases hendpoint : request.endpoint = endpoint
  · rw [← hendpoint] at h hclient ⊢
    have hself : Bounded windowMs requestsPerEndpoint t (admitted +
          ((consumeEndpoint request buckets).2 && inInterval windowMs t request.now).toNat)
        (bucket (endpointKey request.endpoint) (consumeEndpoint request buckets).1) request.now :=
      bounded_self hbuckets hnow (by decide) h
    rcases canActivate_cases request buckets with ⟨htrue, heq⟩ | ⟨hfalse, heq⟩ <;> rw [heq]
    · refine (bounded_other hbuckets.consumeEndpoint hclient (Nat.le_refl _) _ hself).mono ?_
      rw [htrue]
      refine Nat.add_le_add_left ?_ _
      cases inInterval windowMs t request.now <;> simp [Bool.toNat_le]
    · rw [hfalse, Bool.false_and] at hself
      rwa [hfalse, Bool.false_and, Bool.false_and]
  · have hkey : endpointKey endpoint ≠ endpointKey request.endpoint := by
      intro heq
      exact hendpoint (List.append_cancel_left heq).symm
    have hother : Bounded windowMs requestsPerEndpoint t admitted
        (bucket (endpointKey endpoint) (consumeEndpoint request buckets).1) request.now :=
      bounded_other hbuckets hkey hnow _ h
    simp only [hendpoint, decide_false, Bool.and_false, Bool.false_and, Bool.toNat_false,
      Nat.add_zero]
    rcases canActivate_cases request buckets with ⟨-, heq⟩ | ⟨-, heq⟩ <;> rw [heq]
    · exact bounded_other hbuckets.consumeEndpoint hclient (Nat.le_refl _) _ hother
    · exact hother

/-- **One request**, for the window of a client. -/
theorem bounded_client (client endpoint : Text) (hbuckets : Distinct buckets)
    (hnow : now ≤ request.now) (h : Bounded windowMs requestsPerClient t admitted
      (bucket (clientKey client endpoint) buckets) now) :
    Bounded windowMs requestsPerClient t (admitted + ((canActivate request buckets).2 &&
        decide (request.client = client ∧ request.endpoint = endpoint) &&
        inInterval windowMs t request.now).toNat)
      (bucket (clientKey client endpoint) (canActivate request buckets).1) request.now := by
  have hother : Bounded windowMs requestsPerClient t admitted
      (bucket (clientKey client endpoint) (consumeEndpoint request buckets).1) request.now :=
    bounded_other hbuckets (clientKey_ne client endpoint request.endpoint) hnow _ h
  rcases canActivate_cases request buckets with ⟨-, heq⟩ | ⟨hfalse, heq⟩
  · rw [heq]
    by_cases hkey : clientKey client endpoint = clientKey request.client request.endpoint
    · rw [hkey] at hother ⊢
      have hself : Bounded windowMs requestsPerClient t (admitted +
          ((consumeClient request (consumeEndpoint request buckets).1).2 &&
            inInterval windowMs t request.now).toNat)
          (bucket (clientKey request.client request.endpoint)
            (consumeClient request (consumeEndpoint request buckets).1).1) request.now :=
        bounded_self hbuckets.consumeEndpoint (Nat.le_refl _) (by decide) hother
      refine hself.mono (Nat.add_le_add_left ?_ _)
      generalize (consumeClient request (consumeEndpoint request buckets).1).2 = answer
      cases answer <;> cases inInterval windowMs t request.now <;> simp [Bool.toNat_le]
    · -- another client
      have hclient : ¬(request.client = client ∧ request.endpoint = endpoint) := by
        rintro ⟨rfl, rfl⟩
        exact hkey rfl
      simp only [hclient, decide_false, Bool.and_false, Bool.false_and, Bool.toNat_false,
        Nat.add_zero]
      exact bounded_other hbuckets.consumeEndpoint hkey (Nat.le_refl _) _ hother
  · rw [heq, hfalse, Bool.false_and, Bool.false_and]
    exact hother

/-- **A list of requests.**  What every request keeps bounds what all of them get through. -/
theorem countP_decisions_lt (key : Text) {limit : ℕ} (P : SignInRequest → Bool)
    (hstep : ∀ request buckets now admitted, Distinct buckets → now ≤ request.now →
      Bounded windowMs limit t admitted (bucket key buckets) now →
      Bounded windowMs limit t (admitted + ((canActivate request buckets).2 && P request &&
        inInterval windowMs t request.now).toNat) (bucket key (canActivate request buckets).1)
          request.now)
    {requests : List SignInRequest} (hsorted : requests.Pairwise fun a b => a.now ≤ b.now)
    (hnow : ∀ request ∈ requests, now ≤ request.now) (hbuckets : Distinct buckets)
    (h : Bounded windowMs limit t admitted (bucket key buckets) now) :
    admitted + (decisions buckets requests).countP (fun decision => decision.2 && P decision.1 &&
      inInterval windowMs t decision.1.now) < 2 * limit := by
  induction requests generalizing buckets now admitted with
  | nil => exact h.le
  | cons request rest ih =>
    obtain ⟨hfirst, hrest⟩ := List.pairwise_cons.1 hsorted
    have hthen := ih hrest hfirst hbuckets.canActivate
      (hstep request buckets now admitted hbuckets (hnow request (.head _)) h)
    rw [decisions, List.countP_cons]
    refine Nat.lt_of_le_of_lt (Nat.le_of_eq ?_) hthen
    generalize List.countP _ _ = count
    cases ((canActivate request buckets).2 && P request && inInterval windowMs t request.now)
    · simp
    · simp only [if_true, Bool.toNat_true]
      omega

end Guard

/-- **The limits.**  Whatever the requests, as long as the clock does not go back: in any minute a
client gets through at most nineteen times to an endpoint, and an endpoint is reached at most 119
times. -/
theorem admitted_le {requests : List SignInRequest}
    (hsorted : requests.Pairwise fun a b => a.now ≤ b.now) (client endpoint : Text) (t : ℕ) :
    (decisions [] requests).countP (fun decision => decision.2 &&
      decide (decision.1.client = client ∧ decision.1.endpoint = endpoint) &&
      inInterval windowMs t decision.1.now) ≤ 2 * requestsPerClient - 1 ∧
    (decisions [] requests).countP (fun decision => decision.2 &&
      decide (decision.1.endpoint = endpoint) && inInterval windowMs t decision.1.now) ≤
        2 * requestsPerEndpoint - 1 := by
  have hclient := countP_decisions_lt (t := t) (clientKey client endpoint)
    (fun request => decide (request.client = client ∧ request.endpoint = endpoint))
    (fun _ _ _ _ hbuckets hnow h => bounded_client client endpoint hbuckets hnow h) hsorted
    (fun _ _ => Nat.zero_le _) List.Pairwise.nil (Bounded.start (by decide))
  have hendpoint := countP_decisions_lt (t := t) (endpointKey endpoint)
    (fun request => decide (request.endpoint = endpoint))
    (fun _ _ _ _ hbuckets hnow h => bounded_endpoint endpoint hbuckets hnow h) hsorted
    (fun _ _ => Nat.zero_le _) List.Pairwise.nil (Bounded.start (by decide))
  exact ⟨by omega, by omega⟩

/-- The limit is reached: one request, nine more at the end of its window, and ten at once after. -/
def crowd : List SignInRequest :=
  (0 :: List.replicate 9 59999 ++ List.replicate 10 60000).map fun now => ⟨[], [], now⟩

/-- The limit of an endpoint is reached in the same way by twelve clients. -/
def crowds : List SignInRequest :=
  (List.range 120).map fun i =>
    ⟨List.replicate (i / 10) 'a', [], if i = 0 then 0 else if i < 60 then 59999 else 60000⟩

theorem admitted_le_sample :
    (decisions [] crowd).countP (fun decision => decision.2 &&
      decide (decision.1.client = [] ∧ decision.1.endpoint = []) &&
      inInterval windowMs 1 decision.1.now) = 19 ∧
    (decisions [] crowds).countP (fun decision => decision.2 &&
      decide (decision.1.endpoint = []) && inInterval windowMs 1 decision.1.now) = 119 := by
  have hcrowd : crowd.Pairwise fun a b => a.now ≤ b.now := by decide
  have hcrowds : crowds.Pairwise fun a b => a.now ≤ b.now := by decide +kernel
  exact ⟨Nat.le_antisymm (admitted_le hcrowd [] [] 1).1 (by decide +kernel),
    Nat.le_antisymm (admitted_le hcrowds [] [] 1).2 (by decide +kernel)⟩

/-! ### A run in which windows are removed -/

section Removed

variable {key : Text} {buckets : Buckets} {now limit n : ℕ}

theorem setBucket_of_new {window : Window} (h : ∀ entry ∈ buckets, entry.1 ≠ key) :
    setBucket key window buckets = buckets ++ [(key, window)] := by
  induction buckets with
  | nil => rfl
  | cons entry rest ih =>
    obtain ⟨hfirst, hrest⟩ := List.forall_mem_cons.1 h
    rw [setBucket, if_neg hfirst, ih hrest, List.cons_append]

/-- The first request under a key. -/
theorem consume_of_new (h : ∀ entry ∈ buckets, entry.1 ≠ key) :
    consume key limit now buckets =
      (consume.tidy now (buckets ++ [(key, ⟨1, now + windowMs⟩)]), true) := by
  rw [consume, bucket_eq_none h, setBucket_of_new h]

theorem tidy_of_live (h : ∀ entry ∈ buckets, now < entry.2.resetAt) :
    consume.tidy now buckets = buckets := by
  unfold consume.tidy removeExpired
  split_ifs
  · exact List.filter_eq_self.2 fun entry hentry => decide_eq_true (Nat.not_le.2 (h entry hentry))
  · rfl

/-- The `n`-th visitor, at an endpoint of its own. -/
def visitor (now n : ℕ) : SignInRequest := ⟨List.replicate n 'a', List.replicate n 'a', now⟩

/-- The window of the visitor's endpoint, after the visit. -/
def endpointEntry (now n : ℕ) : Text × Window :=
  (endpointKey (List.replicate n 'a'), ⟨1, now + windowMs⟩)

/-- The window of the visitor, after the visit. -/
def clientEntry (now n : ℕ) : Text × Window :=
  (clientKey (List.replicate n 'a') (List.replicate n 'a'), ⟨1, now + windowMs⟩)

/-- The windows of the first `n` visitors, all of them at time 0. -/
structure Visited (n : ℕ) (buckets : Buckets) : Prop where
  length : buckets.length = 2 * n
  resetAt : ∀ entry ∈ buckets, entry.2.resetAt = windowMs
  keys : ∀ entry ∈ buckets, ∃ i < n, entry.1 = (endpointEntry 0 i).1 ∨
    entry.1 = (clientEntry 0 i).1

theorem Visited.endpoint_new (h : Visited n buckets) :
    ∀ entry ∈ buckets, entry.1 ≠ endpointKey (List.replicate n 'a') := by
  intro entry hentry heq
  obtain ⟨i, hi, hkey | hkey⟩ := h.keys entry hentry
  · have hlength := congrArg List.length (hkey.symm.trans heq)
    simp [endpointEntry, endpointKey] at hlength
    omega
  · exact clientKey_ne _ _ _ (hkey.symm.trans heq)

theorem Visited.client_new (h : Visited n buckets) :
    ∀ entry ∈ buckets, entry.1 ≠ clientKey (List.replicate n 'a') (List.replicate n 'a') := by
  intro entry hentry heq
  obtain ⟨i, hi, hkey | hkey⟩ := h.keys entry hentry
  · exact clientKey_ne _ _ _ (heq.symm.trans hkey)
  · have hlength := congrArg List.length (hkey.symm.trans heq)
    simp [clientEntry, clientKey] at hlength
    omega

theorem mem_of_tidy {entry : Text × Window} (h : entry ∈ consume.tidy now buckets) :
    entry ∈ buckets := by
  unfold consume.tidy at h
  split_ifs at h
  · exact List.mem_of_mem_filter h
  · exact h

/-- A visitor gets two new windows. -/
theorem Visited.activate (h : Visited n buckets) (now : ℕ) :
    (canActivate (visitor now n) buckets).1 = consume.tidy now
      (consume.tidy now (buckets ++ [endpointEntry now n]) ++ [clientEntry now n]) := by
  unfold canActivate consumeEndpoint consumeClient visitor
  rw [consume_of_new h.endpoint_new, if_pos rfl, consume_of_new]
  · rfl
  intro entry hentry
  obtain hold | hnew := List.mem_append.1 (mem_of_tidy hentry)
  · exact h.client_new entry hold
  · rw [List.mem_singleton.1 hnew]
    exact (clientKey_ne _ _ _).symm

/-- **One visitor more**, while all windows are live. -/
theorem Visited.next (h : Visited n buckets) :
    Visited (n + 1) (canActivate (visitor 0 n) buckets).1 := by
  have hfirst : ∀ entry ∈ buckets ++ [endpointEntry 0 n], entry.2.resetAt = windowMs :=
    List.forall_mem_append.2 ⟨h.resetAt, List.forall_mem_singleton.2 (Nat.zero_add _)⟩
  have hboth : ∀ entry ∈ buckets ++ [endpointEntry 0 n] ++ [clientEntry 0 n],
      entry.2.resetAt = windowMs :=
    List.forall_mem_append.2 ⟨hfirst, List.forall_mem_singleton.2 (Nat.zero_add _)⟩
  have hpos : 0 < windowMs := by decide
  have hkept : consume.tidy 0 (buckets ++ [endpointEntry 0 n]) = buckets ++ [endpointEntry 0 n] :=
    tidy_of_live fun entry hentry => (hfirst entry hentry).symm ▸ hpos
  rw [h.activate, hkept, tidy_of_live fun entry hentry => (hboth entry hentry).symm ▸ hpos]
  refine ⟨?_, hboth, ?_⟩
  · simp only [List.length_append, h.length, List.length_singleton]
    omega
  · intro entry hentry
    simp only [List.mem_append, List.mem_singleton] at hentry
    obtain (hold | rfl) | rfl := hentry
    · obtain ⟨i, hi, hkey⟩ := h.keys entry hold
      exact ⟨i, Nat.lt_succ_of_lt hi, hkey⟩
    · exact ⟨n, Nat.lt_succ_self n, .inl rfl⟩
    · exact ⟨n, Nat.lt_succ_self n, .inr rfl⟩

theorem visited_visitors (n : ℕ) : Visited n (((List.range n).map (visitor 0)).foldl
    (fun buckets request => (canActivate request buckets).1) []) := by
  induction n with
  | zero => exact ⟨rfl, by simp, by simp⟩
  | succ n ih =>
    rw [List.range_succ, List.map_append, List.foldl_append]
    exact ih.next

/-- A visitor who comes when all the windows have ended, and there are too many of them. -/
theorem Visited.last (h : Visited n buckets) (hn : 90 ≤ n) :
    (canActivate (visitor windowMs n) buckets).1.length = 2 := by
  have hended : ∀ entry ∈ buckets, ¬(¬entry.2.resetAt ≤ windowMs) := fun entry hentry =>
    not_not.2 (h.resetAt entry hentry).le
  have hmany : 2 * n + 1 > requestsPerEndpoint * 3 := by
    simp only [requestsPerEndpoint]
    omega
  have hfirst : consume.tidy windowMs (buckets ++ [endpointEntry windowMs n]) =
      [endpointEntry windowMs n] := by
    unfold consume.tidy removeExpired
    rw [if_pos (by rw [List.length_append, h.length]; exact hmany), List.filter_append,
      List.filter_eq_nil_iff.2 fun entry hentry => by simpa using hended entry hentry]
    rfl
  rw [h.activate, hfirst]
  rfl

end Removed

/-! ### The guard without a cleanup -/

section Plain

/-- `consume`, with a map that is never cleaned up. -/
def plainConsume (key : Text) (limit now : ℕ) (buckets : Buckets) : Buckets × Bool :=
  match bucket key buckets with
  | none => (setBucket key ⟨1, now + windowMs⟩ buckets, true)
  | some window =>
    if window.resetAt ≤ now then (setBucket key ⟨1, now + windowMs⟩ buckets, true)
    else if window.count ≥ limit then (buckets, false)
    else (setBucket key { window with count := window.count + 1 } buckets, true)

/-- `canActivate` without a cleanup. -/
def plainActivate (request : SignInRequest) (buckets : Buckets) : Buckets × Bool :=
  let first := plainConsume (endpointKey request.endpoint) requestsPerEndpoint request.now buckets
  if first.2 then
    plainConsume (clientKey request.client request.endpoint) requestsPerClient request.now first.1
  else first

/-- The answers without a cleanup. -/
def plainDecisions : Buckets → List SignInRequest → List (SignInRequest × Bool)
  | _, [] => []
  | buckets, request :: rest =>
    (request, (plainActivate request buckets).2) ::
      plainDecisions (plainActivate request buckets).1 rest

/-- The map after cleanups: windows that have ended are missing. -/
structure Cleaned (now : ℕ) (plain cleaned : Buckets) : Prop where
  distinct : Distinct cleaned
  forgets : ∀ key, Forgets now (bucket key plain) (bucket key cleaned)

variable {plain cleaned : Buckets} {now' : ℕ}

theorem plainConsume_spec (key : Text) (limit now : ℕ) (plain : Buckets) :
    (plainConsume key limit now plain).2 = (request windowMs limit now (bucket key plain)).2 ∧
      bucket key (plainConsume key limit now plain).1 =
        (request windowMs limit now (bucket key plain)).1 ∧
      ∀ key' ≠ key, bucket key' (plainConsume key limit now plain).1 = bucket key' plain := by
  unfold plainConsume
  cases hbucket : bucket key plain with
  | none => exact ⟨rfl, bucket_setBucket_self, fun _ hne => bucket_setBucket_of_ne hne⟩
  | some window =>
    simp only [request]
    split_ifs
    · exact ⟨rfl, bucket_setBucket_self, fun _ hne => bucket_setBucket_of_ne hne⟩
    · exact ⟨rfl, hbucket, fun _ _ => rfl⟩
    · exact ⟨rfl, bucket_setBucket_self, fun _ hne => bucket_setBucket_of_ne hne⟩

/-- **One request for a window** is answered alike. -/
theorem Cleaned.consume (h : Cleaned now plain cleaned) (hnow : now ≤ now') (key : Text)
    (limit : ℕ) : (consume key limit now' cleaned).2 = (plainConsume key limit now' plain).2 ∧
      Cleaned now' (plainConsume key limit now' plain).1 (consume key limit now' cleaned).1 := by
  obtain ⟨hdistinct, hanswer, hself, hothers⟩ := consume_spec key limit now' h.distinct
  obtain ⟨hanswer', hself', hothers'⟩ := plainConsume_spec key limit now' plain
  have hadmit : request windowMs limit now' (bucket key cleaned) =
      request windowMs limit now' (bucket key plain) := (h.forgets key).request_eq hnow
  refine ⟨?_, hdistinct, fun key' => ?_⟩
  · rw [hanswer, hadmit, hanswer']
  · by_cases hkey : key' = key
    · rw [hkey, hself, hself', hadmit]
      exact .inl rfl
    · rw [hothers' key' hkey]
      exact (h.forgets key').trans hnow (hothers key' hkey)

theorem Cleaned.canActivate (h : Cleaned now plain cleaned) {request : SignInRequest}
    (hnow : now ≤ request.now) :
    (canActivate request cleaned).2 = (plainActivate request plain).2 ∧
      Cleaned request.now (plainActivate request plain).1 (canActivate request cleaned).1 := by
  obtain ⟨hfirst, hthen⟩ := h.consume hnow (endpointKey request.endpoint) requestsPerEndpoint
  obtain ⟨hsecond, hlast⟩ := hthen.consume (Nat.le_refl _)
    (clientKey request.client request.endpoint) requestsPerClient
  unfold Auth.canActivate plainActivate consumeEndpoint consumeClient
  simp only [hfirst]
  split_ifs
  · exact ⟨hsecond, hlast⟩
  · exact ⟨hfirst, hthen⟩

theorem decisions_of_cleaned {requests : List SignInRequest}
    (hsorted : requests.Pairwise fun a b => a.now ≤ b.now)
    (hnow : ∀ request ∈ requests, now ≤ request.now) (h : Cleaned now plain cleaned) :
    decisions cleaned requests = plainDecisions plain requests := by
  induction requests generalizing plain cleaned now with
  | nil => rfl
  | cons request rest ih =>
    obtain ⟨hfirst, hrest⟩ := List.pairwise_cons.1 hsorted
    obtain ⟨hanswer, hthen⟩ := h.canActivate (hnow request (.head _))
    rw [decisions, plainDecisions, hanswer, ih hrest hfirst hthen]

end Plain

/-- **The cleanup changes no answer**, as long as the clock does not go back. -/
theorem decisions_plain {requests : List SignInRequest}
    (hsorted : requests.Pairwise fun a b => a.now ≤ b.now) :
    decisions [] requests = plainDecisions [] requests :=
  decisions_of_cleaned hsorted (fun _ _ => Nat.zero_le _) ⟨.nil, fun _ => .inl rfl⟩

/-- Ninety-one visitors, and another one when their windows have ended. -/
def visitors : List SignInRequest :=
  (List.range 91).map (visitor 0) ++ [visitor windowMs 91]

/-- Only the two windows of the last visitor are left. -/
theorem decisions_plain_sample : decisions [] visitors = plainDecisions [] visitors ∧
    (visitors.foldl (fun buckets request => (canActivate request buckets).1) []).length = 2 := by
  refine ⟨decisions_plain (by decide +kernel), ?_⟩
  rw [visitors, List.foldl_append, List.foldl_cons, List.foldl_nil]
  exact (visited_visitors 91).last (by decide)

end Auth

end PreCommunity
