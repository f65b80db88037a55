import PreCommunity.Paging.Cursors
import PreCommunity.Paging.Keyset
import Mathlib.Data.Char
import Mathlib.Data.List.Lex

/-!
# Lists that are read page by page

The contributions of a goal, the public topics of the forum and the replies of a topic are listed
by pages, the latest first.

* `Columns`, `Database` : how key columns are compared, and the rows.
* `contributions`, `list`, `replies`, `get` : the endpoints.
* `Covers` : the pages list rows once, in their order, with the cursors of their last rows.
* `serves_contributions`, `serves_list`, `serves_replies` : the endpoints answer by the page that
  is due.
* `cursor_pagination` : a client that follows the cursors reads everything once.
-/

namespace PreCommunity

namespace Paging

open Market (Text)

open Calendar (Date)

open Keyset (Comparison Page descending cut readOn readAll Serves)

open Community (ForumTopicStatus)

/-! ### Rows -/

/-- A row of `CryptoContribution`; `shown` is what only its view reads. -/
structure CryptoContribution (δ : Type) where
  id : Uuid
  goalId : Uuid
  txHash : HashText
  logIndex : Fin (2 ^ 31)
  blockNumber : ℕ
  shown : δ

/-- A row of `ForumTopic`. -/
structure ForumTopic (δ : Type) where
  id : Uuid
  slug : Text
  category : Text
  status : ForumTopicStatus
  lastActivityAt : Date
  deletedAt : Option Date
  removedAt : Option Date
  shown : δ

/-- A row of `ForumReply`. -/
structure ForumReply (δ : Type) where
  id : Uuid
  topicId : Uuid
  createdAt : Date
  shown : δ

/-- A row of `FundingGoal`, of the configured chain. -/
structure FundingGoal where
  id : Uuid
  slug : Text

/-- How the database reads and compares key columns. -/
structure Columns where
  /-- The id that a text stands for. -/
  readUuid : Text → Option Uuid
  readUuid_text : ∀ id, readUuid id.text = some id
  uuid : Comparison Uuid
  text : Comparison Text

/-- The rows; ids are primary keys. -/
structure Database (δ : Type) where
  goals : List FundingGoal
  contributions : List (CryptoContribution δ)
  categories : List Text
  topics : List (ForumTopic δ)
  replies : List (ForumReply δ)
  contributions_nodup : (contributions.map (·.id)).Nodup
  topics_nodup : (topics.map (·.id)).Nodup
  replies_nodup : (replies.map (·.id)).Nodup

variable {δ β σ : Type} (R : Runtime) (D : Columns) (db : Database δ)

/-- The value, or a refusal. -/
def orRefuse {α : Type} (value : Option α) (refusal : Refusal) : Except Refusal α :=
  value.elim (.error refusal) .ok

/-- A limit: a default, or an integer from 1 to a maximum. -/
def parsedLimit (default max : ℕ) (message : String) (value : Option Text) :
    Except Refusal ℕ :=
  orRefuse (((value.elim (some (default : ℤ)) R.toInteger).filter fun limit : ℤ =>
    decide (1 ≤ limit) && decide (limit ≤ max)).map Int.toNat) (.badRequest message)

/-! ### Contributions -/

/-- The sort key of a contribution. -/
def contributionKey (row : CryptoContribution δ) : ℕ × Text × ℕ × Uuid :=
  (row.blockNumber, row.txHash.text, row.logIndex, row.id)

/-- The columns of a contribution, in the order in which they are sorted. -/
def contributionOrder : Comparison (ℕ × Text × ℕ × Uuid) :=
  Comparison.standard.lex (D.text.lex (Comparison.standard.lex D.uuid))

/-- The cursor of a contribution. -/
def contributionCursor (row : CryptoContribution δ) : ContributionCursor where
  blockNumber := row.blockNumber
  txHash := row.txHash.text
  logIndex := row.logIndex
  id := row.id.text

/-- `after`, where the cursor's id is read as an id. -/
def contributionAfter (cursor : ContributionCursor) (id : Uuid) (row : CryptoContribution δ) :
    Bool :=
  decide (row.blockNumber < cursor.blockNumber ∨
    row.blockNumber = cursor.blockNumber ∧ D.text.lt row.txHash.text cursor.txHash ∨
    row.blockNumber = cursor.blockNumber ∧ row.txHash.text = cursor.txHash ∧
      row.logIndex < cursor.logIndex ∨
    row.blockNumber = cursor.blockNumber ∧ row.txHash.text = cursor.txHash ∧
      row.logIndex = cursor.logIndex ∧ D.uuid.lt row.id id)

/-- The condition of a cursor; a text that is no id fails the query. -/
def contributionCondition (cursor : Option ContributionCursor) :
    Except Refusal (CryptoContribution δ → Bool) :=
  cursor.elim (.ok fun _ => true) fun cursor =>
    (orRefuse (D.readUuid cursor.id) .query).map fun id => contributionAfter D cursor id

/-- The page of the rows that were found. -/
def contributionsPage (serialize : CryptoContribution δ → β) (rows : List (CryptoContribution δ))
    (limit : ℕ) : Page β Text :=
  let hasMore := limit < rows.length
  let page := if hasMore then rows.take limit else rows
  { items := page.map serialize
    nextCursor :=
      if hasMore then page.getLast?.map fun row => encodeContributionCursor (contributionCursor row)
      else none }

/-- The cursor of a request. -/
def contributionsCursor (cursorValue : Option Text) :
    Except Refusal (Option ContributionCursor) :=
  (given cursorValue).elim (.ok none) fun value =>
    (decodeContributionCursor R value).map some

/-- The limits of `contributions`. -/
def contributionsLimit (limitValue : Option Text) : Except Refusal ℕ :=
  parsedLimit R 25 100 "Limit must be an integer from 1 to 100" limitValue

/-- `contributions`, after `syncState`. -/
def contributions (serialize : CryptoContribution δ → β) (syncState : Except Refusal Unit)
    (slug : Text) (cursorValue limitValue : Option Text) : Except Refusal (Page β Text) := do
  syncState
  let limit ← contributionsLimit R limitValue
  let goal ← orRefuse (db.goals.find? fun goal => decide (goal.slug = slug))
    (.notFound "Goal not found in the confirmed ledger")
  let cursor ← contributionsCursor R cursorValue
  let after ← contributionCondition D cursor
  let rows := (descending (contributionOrder D) contributionKey (db.contributions.filter fun row =>
    decide (row.goalId = goal.id) && after row)).take (limit + 1)
  return contributionsPage serialize rows limit

/-! ### Topics -/

/-- The columns of a topic or a reply, in the order in which they are sorted. -/
def timedOrder : Comparison (Date × Uuid) :=
  (Comparison.standard.comap Date.time Date.eq_of_time).lex D.uuid

/-- The sort key of a topic. -/
def topicKey (row : ForumTopic δ) : Date × Uuid := (row.lastActivityAt, row.id)

/-- The sort key of a reply. -/
def replyKey (row : ForumReply δ) : Date × Uuid := (row.createdAt, row.id)

/-- `cursorWhere`, for a row with this time and this id. -/
def timedAfter (cursor : TimedCursor) (id : Uuid) (key : Date × Uuid) : Bool :=
  decide (key.1.time < cursor.time.time ∨ key.1 = cursor.time ∧ D.uuid.lt key.2 id)

/-- The condition of a cursor. -/
def timedCondition (cursor : Option TimedCursor) : Except Refusal (Date × Uuid → Bool) :=
  cursor.elim (.ok fun _ => true) fun cursor =>
    (orRefuse (D.readUuid cursor.id) .query).map fun id => timedAfter D cursor id

/-- `PUBLIC_STATUSES`, and neither deleted nor removed. -/
def isPublic (topic : ForumTopic δ) : Bool :=
  decide (topic.status = .published ∨ topic.status = .locked) && topic.deletedAt.isNone &&
    topic.removedAt.isNone

/-- `category`: `isCategoryValue` is its length and its pattern. -/
def checkCategory (isCategoryValue : Text → Bool) (category : Option Text) : Except Refusal Unit :=
  (given category).elim (.ok ()) fun value =>
    if isCategoryValue value then
      if db.categories.any fun known => known = value then .ok ()
      else .error (.badRequest "Forum category does not exist")
    else .error (.badRequest "Forum category is invalid")

/-- The topics of a list. -/
def listed (category : Option Text) (topic : ForumTopic δ) : Bool :=
  isPublic topic && category.all fun value => decide (topic.category = value)

/-- The limits of `list`. -/
def listLimit (rawLimit : Option Text) : Except Refusal ℕ :=
  parsedLimit R 20 50 "Forum limit must be between 1 and 50" rawLimit

/-- `list`. -/
def list (serializeForumSummary : ForumTopic δ → β) (isCategoryValue : Text → Bool)
    (category cursorValue rawLimit : Option Text) : Except Refusal (Page β Text) := do
  checkCategory db isCategoryValue category
  let cursor ← decodeForumCursor R cursorValue
  let limit ← listLimit R rawLimit
  let cursorWhere ← timedCondition D cursor
  let topics := (descending (timedOrder D) topicKey (db.topics.filter fun topic =>
    listed category topic && cursorWhere (topicKey topic))).take (limit + 1)
  let items := topics.take limit
  return {
    items := items.map serializeForumSummary
    nextCursor :=
      if limit < topics.length then
        items.getLast?.map fun topic => encodeForumCursor R topic.lastActivityAt topic.id.text
      else none }

/-! ### Replies -/

/-- `DEFAULT_REPLY_LIMIT`. -/
def defaultReplyLimit : ℕ := 50

/-- The topic that `forumTopicIdentity` finds. -/
def findTopic (value : Text) : Option (ForumTopic δ) :=
  db.topics.find? fun topic =>
    if uuidPattern value then decide (D.readUuid value = some topic.id)
    else decide (topic.slug = value)

/-- The topic, when it is public. -/
def publicTopic (value : Text) : Except Refusal (ForumTopic δ) :=
  orRefuse ((findTopic D db value).filter isPublic) (.notFound "Forum topic not found")

/-- The page of the replies that were found: the latest ones, shown in the order of time. -/
def repliesPage (serializeForumReply : ForumReply δ → β) (replies : List (ForumReply δ))
    (limit : ℕ) : Page β Text :=
  let page := replies.take limit
  { items := (page.map serializeForumReply).reverse
    nextCursor :=
      if limit < replies.length then
        page.getLast?.map fun reply => encodeReplyCursor R reply.createdAt reply.id.text
      else none }

/-- The limits of `replies`. -/
def repliesLimit (rawLimit : Option Text) : Except Refusal ℕ :=
  parsedLimit R defaultReplyLimit 100 "Forum reply limit must be between 1 and 100" rawLimit

/-- `replies`. -/
def replies (serializeForumReply : ForumReply δ → β) (slug : Text)
    (cursorValue rawLimit : Option Text) : Except Refusal (Page β Text) := do
  let cursor ← decodeReplyCursor R cursorValue
  let limit ← repliesLimit R rawLimit
  let topic ← publicTopic D db slug
  let cursorWhere ← timedCondition D cursor
  let replies := (descending (timedOrder D) replyKey (db.replies.filter fun reply =>
    decide (reply.topicId = topic.id) && cursorWhere (replyKey reply))).take (limit + 1)
  return repliesPage R serializeForumReply replies limit

/-- What a topic's detail shows: `topic` is all but its replies. -/
structure ForumDetail (σ β : Type) where
  topic : σ
  replies : List β
  nextReplyCursor : Option Text

/-- `get`: the replies are those of `topicInclude`, and their page is `serializeForumDetail`'s. -/
def get (serializeTopic : ForumTopic δ → σ) (serializeForumReply : ForumReply δ → β)
    (slug : Text) : Except Refusal (ForumDetail σ β) := do
  let topic ← publicTopic D db slug
  let replies := (descending (timedOrder D) replyKey (db.replies.filter fun reply =>
    decide (reply.topicId = topic.id))).take (defaultReplyLimit + 1)
  let page := repliesPage R serializeForumReply replies defaultReplyLimit
  return {
    topic := serializeTopic topic
    replies := page.items
    nextReplyCursor := page.nextCursor }

/-! ### The endpoints serve the sorted rows -/

theorem orRefuse_eq_ok {α : Type} {value : Option α} {refusal : Refusal} {a : α} :
    orRefuse value refusal = .ok a ↔ value = some a := by
  cases value <;> simp [orRefuse]

theorem positive_of_parsedLimit {default max : ℕ} {message : String} {value : Option Text}
    {limit : ℕ} (h : parsedLimit R default max message value = .ok limit) : 0 < limit := by
  obtain ⟨n, hn, rfl⟩ := Option.map_eq_some_iff.1 (orRefuse_eq_ok.1 h)
  obtain ⟨-, hn⟩ := Option.filter_eq_some_iff.1 hn
  simp only [Bool.and_eq_true, decide_eq_true_eq] at hn
  omega

/-- Keys differ when the ids in them do. -/
theorem nodup_of_ids {α κ : Type} {key : α → κ} {id : α → Uuid} (idOf : κ → Uuid)
    (hid : ∀ row, idOf (key row) = id row) {rows : List α} (h : (rows.map id).Nodup)
    (p : α → Bool) : ((rows.filter p).map key).Nodup := by
  refine List.Nodup.of_map idOf ?_
  rw [List.map_map, show idOf ∘ key = id from funext hid]
  exact h.sublist (List.filter_sublist.map id)

/-- **The four cases** of the condition are the comparison of the keys, column by column. -/
theorem contributionAfter_eq (row b : CryptoContribution δ) :
    contributionAfter D (contributionCursor row) row.id b =
      decide ((contributionOrder D).lt (contributionKey b) (contributionKey row)) := by
  rw [contributionAfter, decide_eq_decide]
  change _ ↔ b.blockNumber < row.blockNumber ∨ b.blockNumber = row.blockNumber ∧
    (D.text.lt b.txHash.text row.txHash.text ∨ b.txHash.text = row.txHash.text ∧
      ((b.logIndex : ℕ) < row.logIndex ∨ (b.logIndex : ℕ) = row.logIndex ∧
        D.uuid.lt b.id row.id))
  constructor
  · rintro (hblock | ⟨hblock, hhash⟩ | ⟨hblock, hhash, hindex⟩ | ⟨hblock, hhash, hindex, hid⟩)
    · exact .inl hblock
    · exact .inr ⟨hblock, .inl hhash⟩
    · exact .inr ⟨hblock, .inr ⟨hhash, .inl hindex⟩⟩
    · exact .inr ⟨hblock, .inr ⟨hhash, .inr ⟨hindex, hid⟩⟩⟩
  · rintro (hblock | ⟨hblock, hhash | ⟨hhash, hindex | ⟨hindex, hid⟩⟩⟩)
    · exact .inl hblock
    · exact .inr (.inl ⟨hblock, hhash⟩)
    · exact .inr (.inr (.inl ⟨hblock, hhash, hindex⟩))
    · exact .inr (.inr (.inr ⟨hblock, hhash, hindex, hid⟩))

theorem contributionsPage_eq (serialize : CryptoContribution δ → β)
    (rows : List (CryptoContribution δ)) (limit : ℕ) :
    contributionsPage serialize rows limit =
      cut (fun row => encodeContributionCursor (contributionCursor row)) (List.map serialize) rows
        limit := by
  rw [contributionsPage, cut]
  by_cases hmore : limit < rows.length
  · simp only [hmore, if_true]
  · simp only [hmore, if_false, List.take_of_length_le (not_lt.1 hmore)]

theorem filter_then {α : Type} (p q : α → Bool) (rows : List α) :
    (rows.filter p).filter q = rows.filter fun row => p row && q row := by
  rw [List.filter_filter]
  exact congrArg (List.filter · rows) (funext fun row => Bool.and_comm _ _)

theorem ok_bind {ε α γ : Type} (a : α) (f : α → Except ε γ) : (Except.ok a >>= f) = f a := rfl

variable {R D db}

/-- A page of contributions, when nothing refuses the request. -/
theorem contributions_ok (serialize : CryptoContribution δ → β) {slug : Text} {goal : FundingGoal}
    (hgoal : db.goals.find? (fun goal => decide (goal.slug = slug)) = some goal)
    {cursorValue limitValue : Option Text} {limit : ℕ}
    (hlimit : contributionsLimit R limitValue = .ok limit) {cursor : Option ContributionCursor}
    (hcursor : contributionsCursor R cursorValue = .ok cursor)
    {after : CryptoContribution δ → Bool} (hafter : contributionCondition D cursor = .ok after) :
    contributions R D db serialize (.ok ()) slug cursorValue limitValue =
      .ok (cut (fun row => encodeContributionCursor (contributionCursor row)) (List.map serialize)
        ((descending (contributionOrder D) contributionKey (db.contributions.filter fun row =>
          decide (row.goalId = goal.id) && after row)).take (limit + 1)) limit) := by
  simp only [contributions, hlimit, orRefuse_eq_ok.2 hgoal, hcursor, hafter, ok_bind,
    contributionsPage_eq]
  rfl

/-- The contributions of a goal, in the order of the endpoint. -/
theorem serves_contributions (hR : R.Specified) (serialize : CryptoContribution δ → β) {slug : Text}
    {goal : FundingGoal}
    (hgoal : db.goals.find? (fun goal => decide (goal.slug = slug)) = some goal) :
    Serves (contributions R D db serialize (.ok ()) slug)
      (fun value limit => contributionsLimit R value = .ok limit)
      (fun row => encodeContributionCursor (contributionCursor row)) (List.map serialize)
      (descending (contributionOrder D) contributionKey
        (db.contributions.filter fun row => decide (row.goalId = goal.id))) := by
  refine Keyset.serves_of_condition
    (nodup_of_ids (fun key => key.2.2.2) (fun _ => rfl) db.contributions_nodup _)
    (fun _ _ => positive_of_parsedLimit R) (fun value limit hvalid => ?_)
    (fun row _ value limit hvalid => ?_)
  · rw [contributions_ok serialize hgoal hvalid rfl rfl]
    simp only [Bool.and_true]
  · have hcursor : contributionsCursor R
        (some (encodeContributionCursor (contributionCursor row))) =
        .ok (some (contributionCursor row)) := by
      have hindex : (row.logIndex : ℕ) ≤ Ads.maxSafeInteger :=
        row.logIndex.isLt.le.trans (by decide)
      rw [contributionsCursor, encodeContributionCursor, given_encodeMembers, Option.elim_some,
        ← encodeContributionCursor, contributionCursor,
        decode_contributionCursor hR row.blockNumber row.txHash hindex row.id]
      rfl
    have hafter : contributionCondition (δ := δ) D (some (contributionCursor row)) =
        .ok (contributionAfter D (contributionCursor row) row.id) := by
      rw [contributionCondition, Option.elim_some, contributionCursor, D.readUuid_text]
      rfl
    rw [contributions_ok serialize hgoal hvalid hcursor hafter, filter_then]
    simp only [contributionAfter_eq]

/-- The condition of the cursor of a key. -/
theorem timedCondition_ok (time : Date) (id : Uuid) :
    timedCondition D (some ⟨time, id.text⟩) =
      .ok fun key => decide ((timedOrder D).lt key (time, id)) := by
  rw [timedCondition, Option.elim_some, D.readUuid_text]
  rfl

theorem decode_forumCursor (hR : R.Specified) (time : Date) (id : Uuid) :
    decodeForumCursor R (some (encodeForumCursor R time id.text)) = .ok (some ⟨time, id.text⟩) :=
  decode_timedCursor hR (Ads.plain_key rfl) (by decide) _ time id

theorem decode_replyCursor (hR : R.Specified) (time : Date) (id : Uuid) :
    decodeReplyCursor R (some (encodeReplyCursor R time id.text)) = .ok (some ⟨time, id.text⟩) :=
  decode_timedCursor hR (Ads.plain_key rfl) (by decide) _ time id

/-- A page of topics, when nothing refuses the request. -/
theorem list_ok (serializeForumSummary : ForumTopic δ → β) {isCategoryValue : Text → Bool}
    {category cursorValue rawLimit : Option Text}
    (hcategory : checkCategory db isCategoryValue category = .ok ()) {limit : ℕ}
    (hlimit : listLimit R rawLimit = .ok limit) {cursor : Option TimedCursor}
    (hcursor : decodeForumCursor R cursorValue = .ok cursor) {cursorWhere : Date × Uuid → Bool}
    (hwhere : timedCondition D cursor = .ok cursorWhere) :
    list R D db serializeForumSummary isCategoryValue category cursorValue rawLimit =
      .ok (cut (fun topic => encodeForumCursor R topic.lastActivityAt topic.id.text)
        (List.map serializeForumSummary)
        ((descending (timedOrder D) topicKey (db.topics.filter fun topic =>
          listed category topic && cursorWhere (topicKey topic))).take (limit + 1)) limit) := by
  simp only [list, hcategory, hlimit, hcursor, hwhere, ok_bind]
  rfl

/-- The public topics, in the order of the endpoint. -/
theorem serves_list (hR : R.Specified) (serializeForumSummary : ForumTopic δ → β)
    {isCategoryValue : Text → Bool} {category : Option Text}
    (hcategory : checkCategory db isCategoryValue category = .ok ()) :
    Serves (list R D db serializeForumSummary isCategoryValue category)
      (fun value limit => listLimit R value = .ok limit)
      (fun topic => encodeForumCursor R topic.lastActivityAt topic.id.text)
      (List.map serializeForumSummary)
      (descending (timedOrder D) topicKey (db.topics.filter (listed category))) := by
  refine Keyset.serves_of_condition
    (nodup_of_ids (fun key => key.2) (fun _ => rfl) db.topics_nodup _)
    (fun _ _ => positive_of_parsedLimit R) (fun value limit hvalid => ?_)
    (fun topic _ value limit hvalid => ?_)
  · rw [list_ok serializeForumSummary hcategory hvalid rfl rfl]
    simp only [Bool.and_true]
  · rw [list_ok serializeForumSummary hcategory hvalid (decode_forumCursor hR _ _)
      (timedCondition_ok _ _), filter_then]
    rfl

/-- A page of replies, when nothing refuses the request. -/
theorem replies_ok (serializeForumReply : ForumReply δ → β) {slug : Text} {topic : ForumTopic δ}
    (htopic : publicTopic D db slug = .ok topic) {cursorValue rawLimit : Option Text} {limit : ℕ}
    (hlimit : repliesLimit R rawLimit = .ok limit) {cursor : Option TimedCursor}
    (hcursor : decodeReplyCursor R cursorValue = .ok cursor) {cursorWhere : Date × Uuid → Bool}
    (hwhere : timedCondition D cursor = .ok cursorWhere) :
    replies R D db serializeForumReply slug cursorValue rawLimit =
      .ok (cut (fun reply => encodeReplyCursor R reply.createdAt reply.id.text)
        (fun rows => (rows.map serializeForumReply).reverse)
        ((descending (timedOrder D) replyKey (db.replies.filter fun reply =>
          decide (reply.topicId = topic.id) && cursorWhere (replyKey reply))).take (limit + 1))
        limit) := by
  simp only [replies, htopic, hlimit, hcursor, hwhere, ok_bind]
  rfl

/-- The replies of a topic, in the order of the endpoint; each page is shown in the order of
time. -/
theorem serves_replies (hR : R.Specified) (serializeForumReply : ForumReply δ → β) {slug : Text}
    {topic : ForumTopic δ} (htopic : publicTopic D db slug = .ok topic) :
    Serves (replies R D db serializeForumReply slug)
      (fun value limit => repliesLimit R value = .ok limit)
      (fun reply => encodeReplyCursor R reply.createdAt reply.id.text)
      (fun rows => (rows.map serializeForumReply).reverse)
      (descending (timedOrder D) replyKey
        (db.replies.filter fun reply => decide (reply.topicId = topic.id))) := by
  refine Keyset.serves_of_condition
    (nodup_of_ids (fun key => key.2) (fun _ => rfl) db.replies_nodup _)
    (fun _ _ => positive_of_parsedLimit R) (fun value limit hvalid => ?_)
    (fun reply _ value limit hvalid => ?_)
  · rw [replies_ok serializeForumReply htopic hvalid rfl rfl]
    simp only [Bool.and_true]
  · rw [replies_ok serializeForumReply htopic hvalid (decode_replyCursor hR _ _)
      (timedCondition_ok _ _), filter_then]
    rfl

/-- **The replies in a topic's detail** are the first page that is due. -/
theorem get_ok (serializeTopic : ForumTopic δ → σ) (serializeForumReply : ForumReply δ → β)
    {slug : Text} {topic : ForumTopic δ} (htopic : publicTopic D db slug = .ok topic) :
    ∃ page : Page β Text, page = cut
        (fun reply => encodeReplyCursor R reply.createdAt reply.id.text)
        (fun rows => (rows.map serializeForumReply).reverse)
        (descending (timedOrder D) replyKey
          (db.replies.filter fun reply => decide (reply.topicId = topic.id))) defaultReplyLimit ∧
      get R D db serializeTopic serializeForumReply slug =
        .ok ⟨serializeTopic topic, page.items, page.nextCursor⟩ := by
  refine ⟨_, Keyset.cut_take_succ _ _, ?_⟩
  simp only [get, htopic, ok_bind]
  rfl

/-! ### An instance -/

/-- Functions that do what is relied on. -/
def plainRuntime : Runtime where
  toCodecs := Ads.plainCodecs
  toDateTexts := Calendar.plainDates
  toInteger := fun text =>
    if text ≠ [] ∧ text.all Char.isDigit = true then some (Decimal.value text) else none

theorem plainRuntime_specified : plainRuntime.Specified where
  codecs := Ads.plainCodecs_specified
  dates := Calendar.plainDates_specified

/-- Columns that are compared as texts. -/
def plainColumns : Columns where
  readUuid := fun text =>
    if h : fitsPositions 36 fitsGenerated text = true then some ⟨text, h⟩ else none
  readUuid_text := fun id => dif_pos id.generated
  uuid := Comparison.standard.comap Uuid.text fun ⟨_, _⟩ ⟨_, _⟩ h => by
    dsimp only at h
    subst h
    rfl
  text := Comparison.standard

/-- An id that ends in a digit. -/
def sampleUuid (i : Fin 10) : Uuid where
  text := "00000000-0000-4000-8000-00000000000".toList ++ [i.val.digitChar]
  generated := by
    revert i
    decide

/-- A public topic. -/
def sampleTopic (i : Fin 10) : ForumTopic ℕ where
  id := sampleUuid i
  slug := [i.val.digitChar]
  category := []
  status := .published
  lastActivityAt := Calendar.epoch
  deletedAt := none
  removedAt := none
  shown := 0

/-- Two contributions of one transaction, and topics and replies of one time. -/
def sampleDatabase : Database ℕ where
  goals := [{ id := sampleUuid 1, slug := "roof".toList }]
  contributions := [2, 3].map fun i : Fin 10 =>
    { id := sampleUuid i
      goalId := sampleUuid 1
      txHash := ⟨Ads.hashText 7, Ads.isHexText_hashText (by decide)⟩
      logIndex := ⟨i.val, i.isLt.trans (by decide)⟩
      blockNumber := 100
      shown := 0 }
  categories := []
  topics := [4, 5].map sampleTopic
  replies := [6, 7].map fun i : Fin 10 =>
    { id := sampleUuid i, topicId := sampleUuid 4, createdAt := Calendar.epoch, shown := 0 }
  contributions_nodup := by decide
  topics_nodup := by decide
  replies_nodup := by decide

/-! ### Reading everything -/

/-- **Pages cover rows**: reading ends, the pages show all rows, each one once and in their order,
and the cursor of a page is read as the key of its last row.  `display` is how a page shows its
rows. -/
def Covers {α ι : Type} (C : α → α → Prop) (display : List α → List β)
    (decode : Text → Except Refusal ι) (keyOf : α → ι) (rows : List α)
    (pages : Option (List (Page β Text))) : Prop :=
  ∃ read chunks, pages = some read ∧ chunks.flatten.Perm rows ∧ chunks.flatten.Pairwise C ∧
    List.Forall₂ (fun page chunk => page.items = display chunk ∧
      ∀ cursor, page.nextCursor = some cursor →
        ∃ row, chunk.getLast? = some row ∧ decode cursor = .ok (keyOf row)) read chunks

/-- Pages that show the sorted rows cover the rows. -/
theorem covers_of_shows {α κ ι : Type} {C : Comparison κ} {key : α → κ} {rows : List α}
    (hnodup : (rows.map key).Nodup) {display : List α → List β} {encode : α → Text}
    {decode : Text → Except Refusal ι} {keyOf : α → ι}
    (hdecode : ∀ row, decode (encode row) = .ok (keyOf row)) {pages : Option (List (Page β Text))}
    (h : ∃ read chunks, pages = some read ∧ chunks.flatten = descending C key rows ∧
      List.Forall₂ (Keyset.Shows encode display) read chunks) :
    Covers (Keyset.Before C key) display decode keyOf rows pages := by
  obtain ⟨read, chunks, hpages, hflatten, hshows⟩ := h
  refine ⟨read, chunks, hpages, ?_, ?_, hshows.imp ?_⟩
  · rw [hflatten]
    exact Keyset.descending_perm rows
  · rw [hflatten]
    exact Keyset.descending_sorted hnodup
  · rintro page chunk ⟨hitems, hcursor⟩
    refine ⟨hitems, fun cursor hnext => ?_⟩
    obtain ⟨row, hlast, rfl⟩ := hcursor cursor hnext
    exact ⟨row, hlast, hdecode row⟩

theorem decode_row (hR : R.Specified) (row : CryptoContribution δ) :
    decodeContributionCursor R (encodeContributionCursor (contributionCursor row)) =
      .ok (contributionCursor row) :=
  decode_contributionCursor hR row.blockNumber row.txHash
    (row.logIndex.isLt.le.trans (by decide)) row.id

/-- **Cursor pagination**: a client that follows the cursors from the first page, with any valid
limits, reads the contributions of a goal, the public topics and the replies of a topic, each row
once and in order, and ends; the cursor of a page is read as the key of its last row.  The replies
in a topic's detail are such a first page. -/
theorem cursor_pagination (R : Runtime) (hR : R.Specified) (D : Columns) {δ β σ : Type}
    (db : Database δ) :
    (∀ (serialize : CryptoContribution δ → β) (slug : Text) (goal : FundingGoal),
      db.goals.find? (fun goal => decide (goal.slug = slug)) = some goal →
      ∀ limits : ℕ → Option Text, (∀ k, ∃ limit, contributionsLimit R (limits k) = .ok limit) →
      ∀ fuel, (db.contributions.filter fun row => decide (row.goalId = goal.id)).length < fuel →
      Covers (Keyset.Before (contributionOrder D) contributionKey) (List.map serialize)
        (decodeContributionCursor R) contributionCursor
        (db.contributions.filter fun row => decide (row.goalId = goal.id))
        (readAll (contributions R D db serialize (.ok ()) slug) fuel limits)) ∧
    (∀ (serializeForumSummary : ForumTopic δ → β) (isCategoryValue : Text → Bool)
      (category : Option Text), checkCategory db isCategoryValue category = .ok () →
      ∀ limits : ℕ → Option Text, (∀ k, ∃ limit, listLimit R (limits k) = .ok limit) →
      ∀ fuel, (db.topics.filter (listed category)).length < fuel →
      Covers (Keyset.Before (timedOrder D) topicKey) (List.map serializeForumSummary)
        (fun cursor => decodeForumCursor R (some cursor))
        (fun topic => some ⟨topic.lastActivityAt, topic.id.text⟩)
        (db.topics.filter (listed category))
        (readAll (list R D db serializeForumSummary isCategoryValue category) fuel limits)) ∧
    (∀ (serializeTopic : ForumTopic δ → σ) (serializeForumReply : ForumReply δ → β) (slug : Text)
      (topic : ForumTopic δ), publicTopic D db slug = .ok topic →
      ∀ limits : ℕ → Option Text, (∀ k, ∃ limit, repliesLimit R (limits k) = .ok limit) →
      ∀ fuel, (db.replies.filter fun reply => decide (reply.topicId = topic.id)).length < fuel →
      Covers (Keyset.Before (timedOrder D) replyKey)
        (fun rows => (rows.map serializeForumReply).reverse)
        (fun cursor => decodeReplyCursor R (some cursor))
        (fun reply => some ⟨reply.createdAt, reply.id.text⟩)
        (db.replies.filter fun reply => decide (reply.topicId = topic.id))
        (readAll (replies R D db serializeForumReply slug) fuel limits) ∧
      ∃ detail, get R D db serializeTopic serializeForumReply slug = .ok detail ∧
        Covers (Keyset.Before (timedOrder D) replyKey)
          (fun rows => (rows.map serializeForumReply).reverse)
          (fun cursor => decodeReplyCursor R (some cursor))
          (fun reply => some ⟨reply.createdAt, reply.id.text⟩)
          (db.replies.filter fun reply => decide (reply.topicId = topic.id))
          (readOn (replies R D db serializeForumReply slug) fuel limits
            ⟨detail.replies, detail.nextReplyCursor⟩)) := by
  refine ⟨?_, ?_, ?_⟩
  · intro serialize slug goal hgoal limits hlimits fuel hfuel
    refine covers_of_shows (nodup_of_ids (fun key => key.2.2.2) (fun _ => rfl)
      db.contributions_nodup _) (decode_row hR) (Keyset.readAll_complete
        (serves_contributions hR serialize hgoal) ?_ hlimits)
    rwa [(Keyset.descending_perm _).length_eq]
  · intro serializeForumSummary isCategoryValue category hcategory limits hlimits fuel hfuel
    refine covers_of_shows (nodup_of_ids (fun key => key.2) (fun _ => rfl) db.topics_nodup _)
      (fun topic => decode_forumCursor hR topic.lastActivityAt topic.id) (Keyset.readAll_complete
        (serves_list hR serializeForumSummary hcategory) ?_ hlimits)
    rwa [(Keyset.descending_perm _).length_eq]
  · intro serializeTopic serializeForumReply slug topic htopic limits hlimits fuel hfuel
    have hserves := serves_replies hR serializeForumReply htopic
    have hnodup : ((db.replies.filter fun reply => decide (reply.topicId = topic.id)).map
        replyKey).Nodup :=
      nodup_of_ids (fun key => key.2) (fun _ => rfl) db.replies_nodup _
    have hrows : (descending (timedOrder D) replyKey (db.replies.filter fun reply =>
        decide (reply.topicId = topic.id))).length < fuel := by
      rwa [(Keyset.descending_perm _).length_eq]
    have hdecode : ∀ reply : ForumReply δ, decodeReplyCursor R
        (some (encodeReplyCursor R reply.createdAt reply.id.text)) =
        .ok (some ⟨reply.createdAt, reply.id.text⟩) :=
      fun reply => decode_replyCursor hR reply.createdAt reply.id
    refine ⟨covers_of_shows hnodup hdecode (Keyset.readAll_complete hserves hrows hlimits), ?_⟩
    obtain ⟨page, hpage, hget⟩ := get_ok (R := R) serializeTopic serializeForumReply htopic
    refine ⟨_, hget, covers_of_shows hnodup hdecode ?_⟩
    have hread := Keyset.readOn_cut hserves fuel _ hrows [] rfl defaultReplyLimit (by decide)
      limits hlimits
    rwa [← hpage] at hread

theorem cursor_pagination_sample :
    Covers (Keyset.Before (contributionOrder plainColumns) contributionKey)
      (List.map CryptoContribution.id) (decodeContributionCursor plainRuntime) contributionCursor
      (sampleDatabase.contributions.filter fun row => decide (row.goalId = sampleUuid 1))
      (readAll (contributions plainRuntime plainColumns sampleDatabase CryptoContribution.id
        (.ok ()) "roof".toList) 3 fun _ => some ['1']) ∧
    Covers (Keyset.Before (timedOrder plainColumns) topicKey) (List.map ForumTopic.id)
      (fun cursor => decodeForumCursor plainRuntime (some cursor))
      (fun topic => some ⟨topic.lastActivityAt, topic.id.text⟩)
      (sampleDatabase.topics.filter (listed none))
      (readAll (list plainRuntime plainColumns sampleDatabase ForumTopic.id (fun _ => true) none) 3
        fun _ => some ['1']) ∧
    Covers (Keyset.Before (timedOrder plainColumns) replyKey)
      (fun rows => (rows.map ForumReply.id).reverse)
      (fun cursor => decodeReplyCursor plainRuntime (some cursor))
      (fun reply => some ⟨reply.createdAt, reply.id.text⟩)
      (sampleDatabase.replies.filter fun reply => decide (reply.topicId = sampleUuid 4))
      (readAll (replies plainRuntime plainColumns sampleDatabase ForumReply.id ['4']) 3
        fun _ => some ['1']) ∧
    ∃ detail, get plainRuntime plainColumns sampleDatabase ForumTopic.id ForumReply.id ['4'] =
        .ok detail ∧
      Covers (Keyset.Before (timedOrder plainColumns) replyKey)
        (fun rows => (rows.map ForumReply.id).reverse)
        (fun cursor => decodeReplyCursor plainRuntime (some cursor))
        (fun reply => some ⟨reply.createdAt, reply.id.text⟩)
        (sampleDatabase.replies.filter fun reply => decide (reply.topicId = sampleUuid 4))
        (readOn (replies plainRuntime plainColumns sampleDatabase ForumReply.id ['4']) 3
          (fun _ => some ['1']) ⟨detail.replies, detail.nextReplyCursor⟩) := by
  obtain ⟨hcontributions, hlist, hreplies⟩ :=
    cursor_pagination plainRuntime plainRuntime_specified plainColumns (β := Uuid) (σ := Uuid)
      sampleDatabase
  exact ⟨hcontributions CryptoContribution.id "roof".toList
      { id := sampleUuid 1, slug := "roof".toList } rfl (fun _ => some ['1']) (fun _ => ⟨1, rfl⟩) 3
      (by decide),
    hlist ForumTopic.id (fun _ => true) none rfl (fun _ => some ['1']) (fun _ => ⟨1, rfl⟩) 3
      (by decide),
    hreplies ForumTopic.id ForumReply.id ['4'] (sampleTopic 4) rfl (fun _ => some ['1'])
      (fun _ => ⟨1, rfl⟩) 3 (by decide)⟩

end Paging

end PreCommunity
