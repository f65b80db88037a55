import Mathlib.Data.Char
import Mathlib.Data.List.Lex
import Mathlib.Data.List.Sort
import PreCommunity.Community.Proposals

/-!
# The forum

Topics are written as drafts or at once, wait for review or are published, and collect replies.
What a user may write is limited, and the category of a topic must be active.

* `Texts` : the functions of names of categories.
* `createDraft`, `updateDraft`, `publishDraft`, `createTopic` : drafts and topics.
* `updateTopic`, `deleteTopic`, `moderateTopic` : what becomes of a topic.
* `reply`, `editReply`, `deleteReply`, `removeReply` : replies.
* `createCategory`, `updateCategory`, `updateForumSettings`, `updateMinimumPre` : administration.
-/

namespace PreCommunity

namespace Community

open Concurrent Store
open Routine (attempt)
open Escrow (Id Time Address Text)

/-- `MAX_DRAFTS`. -/
def maxDrafts : ℕ := 20

/-- The functions of the texts of categories. -/
structure Texts where
  /-- The value matches `CATEGORY_VALUE_PATTERN` and is not too long. -/
  isCategoryValue : Text → Bool
  /-- `normalizeCategoryLabel`. -/
  normalizeCategoryLabel : Text → Text
  /-- `categoryValueFromLabel`. -/
  categoryValueFromLabel : Text → Text
  /-- Two labels are the same in the mode `insensitive`. -/
  sameLabel : Text → Text → Bool

namespace Database

variable (db : Database)

/-- The number of active drafts of a user. -/
def activeDrafts (userId : Id) : ℕ :=
  db.topics.countP fun row => row.authorId = userId ∧ row.status = .draft ∧ row.deletedAt = none ∧
    row.removedAt = none

/-- The number of topics of a user, other than drafts, that were created since then. -/
def topicsSince (userId : Id) (since : Time) : ℕ :=
  db.topics.countP fun row => row.authorId = userId ∧ row.status ≠ .draft ∧ since ≤ row.createdAt

/-- The number of replies of a user that were created since then. -/
def repliesSince (userId : Id) (since : Time) : ℕ :=
  db.replies.countP fun row => row.authorId = userId ∧ since ≤ row.createdAt

/-- The number of active categories. -/
def activeCategories : ℕ := db.categories.countP fun row => row.archivedAt = none

/-- The category with this value is active. -/
def isActiveCategory (value : Text) : Bool :=
  db.categories.any fun row => row.value = value ∧ row.archivedAt = none

/-- Topics have to be reviewed. -/
def topicsModerated : Bool := (db.settings.map (·.forumTopicModerationEnabled)).getD false

/-- Proposals have to be reviewed. -/
def proposalsModerated : Bool := (db.settings.map (·.proposalModerationEnabled)).getD true

end Database

section

variable (texts : Texts) (communityMinimumRaw : ℕ)

/-! ### Checks -/

/-- `assertForumEligible`. -/
def assertForumEligible (address : Address) : Worker Unit := do
  let settings ← select (·.settings)
  let minimumRaw := ((settings.bind (·.forumMinimumPreRaw))).getD communityMinimumRaw
  assertCurrent address minimumRaw "write in the forum"

/-- `category`. -/
def category (value : Text) (activeOnly : Bool) : Worker ForumCategory := do
  if !texts.isCategoryValue value then throw (.badRequest "Forum category is invalid")
  else
    let found ← select fun db => db.categories.find? fun row => row.value = value
    match found with
    | none => throw (.badRequest "Forum category does not exist")
    | some category =>
      if activeOnly ∧ category.archivedAt.isSome then
        throw (.conflict "Forum category is archived")
      else return category

/-- The first active category by position and value. -/
def firstActiveCategory (db : Database) : Option ForumCategory :=
  let active := db.categories.filter fun row => row.archivedAt = none
  (active.insertionSort fun a b =>
    a.position < b.position ∨ (a.position = b.position ∧ a.value ≤ b.value)).head?

/-- `defaultCategory`. -/
def defaultCategory : Worker ForumCategory := do
  let found ← select firstActiveCategory
  match found with
  | none => throw (.conflict "The forum needs at least one active category")
  | some category => return category

/-! ### Drafts -/

/-- `ForumDraftDto`. -/
structure ForumDraft where
  title : Option Text
  body : Option Text
  category : Option Text
deriving DecidableEq, Repr

/-- `CreateForumTopicDto`. -/
structure CreateForumTopic where
  title : Text
  body : Text
  category : Text
deriving DecidableEq, Repr

/-- The row of a new topic. -/
def ForumTopic.new (id authorId : Id) (title body category : Text) (status : ForumTopicStatus)
    (createdAt : Time) : ForumTopic where
  id := id
  authorId := authorId
  title := title
  body := body
  category := category
  status := status
  replyCount := 0
  lastActivityAt := createdAt
  editedAt := none
  deletedAt := none
  lockedAt := none
  removedAt := none
  moderatedBy := none
  moderationNote := none
  createdAt := createdAt

/-- A new topic. -/
def insertTopicTx (authorId : Id) (title body category : Text) (status : ForumTopicStatus)
    (createdAt : Time) (_ : Time) (db : Database) : Except Failure (Database × ForumTopic) :=
  let row := ForumTopic.new db.nextId authorId title body category status createdAt
  .ok ({ db with topics := db.topics ++ [row], nextId := db.nextId + 1 }, row)

/-- The category of a new draft: the chosen one or the default. -/
def draftCategory (chosen : Option Text) : Worker ForumCategory :=
  match chosen.filter (· ≠ []) with
  | some value => category texts value true
  | none => defaultCategory

/-- `ForumService.createDraft`. -/
def createDraft (n : ℕ) (dto : ForumDraft) (actor : Principal) : Worker ForumTopic :=
  transactionally n do
    lock n .project .shared
    lock n (.user actor.userId) .exclusive
    let category ← draftCategory texts dto.category
    let draftCount ← select fun db => db.activeDrafts actor.userId
    if maxDrafts ≤ draftCount then
      throw (.conflict "Delete an existing draft before creating more than 20")
    else
      let createdAt ← now
      commit n [] (insertTopicTx actor.userId (dto.title.getD []) (dto.body.getD [])
        category.value .draft createdAt)

/-- A draft that its author may change; `text` says what is wrong when it is none any more. -/
def checkDraft (draft : Option ForumTopic) (actor : Principal) (forbidden text : String) :
    Except Failure ForumTopic :=
  match draft with
  | none => .error (.notFound "Forum draft not found")
  | some draft =>
    if draft.authorId ≠ actor.userId then .error (.forbidden forbidden)
    else if draft.status ≠ .draft ∨ draft.deletedAt.isSome ∨ draft.removedAt.isSome then
      .error (.conflict text)
    else .ok draft

/-- A category that is chosen anew must be active. -/
def checkNewCategory (chosen : Option Text) (current : Text) : Worker Unit :=
  match chosen.filter fun value => value ≠ [] ∧ value ≠ current with
  | none => return ()
  | some value => do
    let _ ← category texts value true
    return ()

/-- `ForumService.updateDraft`. -/
def updateDraft (n : ℕ) (id : Id) (dto : ForumDraft) (actor : Principal) : Worker Unit :=
  transactionally n do
    lockIf (dto.category.any (· ≠ [])) n .project .shared
    lock n (.topic id) .exclusive
    let found ← select fun db => db.topic? id
    let draft ← attempt (checkDraft found actor "Only the author can edit this draft"
      "Only an active draft can be saved")
    checkNewCategory texts dto.category draft.category
    commit n [.topic id] fun _ db => .ok (db.updateTopics (fun row => row.id = id) fun row =>
      { row with
        title := dto.title.getD row.title
        body := dto.body.getD row.body
        category := dto.category.getD row.category }, ())

/-! ### Topics -/

/-- The status of a topic that is published now. -/
def publishedStatus (settings : Option CommunitySettings) : ForumTopicStatus :=
  if (settings.map (·.forumTopicModerationEnabled)).getD false then .pendingReview else .published

/-- At most three topics in an hour. -/
def checkTopicLimit (userId : Id) : Worker Unit := do
  let checked ← now
  let recent ← select fun db => db.topicsSince userId (checked - 60 * 60 * 1000)
  if 3 ≤ recent then throw (.tooManyRequests "Topic limit reached; try again later")
  else return ()

/-- A draft after it was published. -/
def ForumTopic.publish (row : ForumTopic) (dto : CreateForumTopic) (category : Text)
    (status : ForumTopicStatus) (publishedAt : Time) : ForumTopic :=
  { row with
    title := dto.title
    body := dto.body
    category := category
    status := status
    createdAt := publishedAt
    lastActivityAt := publishedAt
    editedAt := none }

/-- `ForumService.publishDraft`. -/
def publishDraft (n : ℕ) (id : Id) (dto : CreateForumTopic) (actor : Principal) : Worker Unit := do
  assertForumEligible communityMinimumRaw actor.address
  transactionally n do
    lock n .project .shared
    let category ← category texts dto.category true
    lock n (.user actor.userId) .exclusive
    let found ← select fun db => db.topic? id
    let _ ← attempt (checkDraft found actor "Only the author can publish this draft"
      "Only an active draft can be published")
    checkTopicLimit actor.userId
    let settings ← select (·.settings)
    let publishedAt ← now
    commit n [.topic id] fun _ db => .ok (db.updateTopics (fun row => row.id = id) fun row =>
      row.publish dto category.value (publishedStatus settings) publishedAt, ())

/-- `ForumService.create`. -/
def createTopic (n : ℕ) (dto : CreateForumTopic) (actor : Principal) : Worker ForumTopic := do
  assertForumEligible communityMinimumRaw actor.address
  transactionally n do
    lock n .project .shared
    let category ← category texts dto.category true
    let settings ← select (·.settings)
    lock n (.user actor.userId) .exclusive
    checkTopicLimit actor.userId
    let createdAt ← now
    commit n [] (insertTopicTx actor.userId (trim dto.title) (trim dto.body) category.value
      (publishedStatus settings) createdAt)

/-- `UpdateForumTopicDto`. -/
structure UpdateForumTopic where
  title : Option Text
  body : Option Text
  category : Option Text
deriving DecidableEq, Repr

/-- The topic is published or locked, and neither deleted nor removed. -/
def ForumTopic.isPublic (row : ForumTopic) : Bool :=
  row.deletedAt = none ∧ row.removedAt = none ∧ (row.status = .published ∨ row.status = .locked)

/-- The author or a moderator may still edit the topic. -/
def ForumTopic.isEditable (row : ForumTopic) (asModerator : Bool) (userId : Id) : Bool :=
  if asModerator then row.isPublic
  else row.authorId = userId ∧ row.deletedAt = none ∧ row.removedAt = none ∧
    (row.status = .pendingReview ∨ row.status = .published)

/-- `ForumService.update`. -/
def updateTopic (n : ℕ) (id : Id) (dto : UpdateForumTopic) (actor : Principal) : Worker Unit := do
  assertForumEligible communityMinimumRaw actor.address
  transactionally n do
    lockIf (dto.category.any (· ≠ []) || actor.canModerate) n .project .shared
    let found ← select fun db => db.topic? id
    match found with
    | none => throw (.notFound "Forum topic not found")
    | some topic =>
      let asModerator := actor.canModerate && topic.isPublic
      if topic.authorId ≠ actor.userId ∧ !asModerator then
        throw (if actor.canModerate then
          .conflict "Only active published or locked topics can be edited by an administrator"
          else .forbidden "Only the author can edit this topic")
      else
        checkNewCategory texts dto.category topic.category
        let editedAt ← now
        commit n [.topic id] fun _ db =>
          let isEditable := fun row : ForumTopic =>
            row.id = id ∧ row.isEditable asModerator actor.userId
          if db.topics.any isEditable then
            .ok (db.updateTopics isEditable fun row =>
              { row with
                title := (dto.title.map trim).getD row.title
                body := (dto.body.map trim).getD row.body
                category := dto.category.getD row.category
                editedAt := some editedAt }, ())
          else .error (.conflict "A locked, removed or declined topic cannot be edited")

/-- `ForumService.delete`. -/
def deleteTopic (n : ℕ) (id : Id) (actor : Principal) : Worker Unit :=
  transactionally n do
    lock n (.topic id) .exclusive
    let found ← select fun db => db.topic? id
    match found with
    | none => throw (.notFound "Forum topic not found")
    | some topic =>
      if topic.authorId ≠ actor.userId then
        throw (.forbidden "Only the author can delete this topic")
      else if topic.deletedAt.isSome ∨ topic.removedAt.isSome then rollback n
      else
        let deletedAt ← now
        commit n [.topic id] fun _ db => .ok (db.updateTopics (fun row => row.id = id) fun row =>
          { row with deletedAt := some deletedAt }, ())

/-- What a moderator may do with a topic. -/
inductive ModerationAction where
  | approve | decline | lock | unlock | remove
deriving DecidableEq, Repr

/-- The change of a topic by a moderator, where it is allowed. -/
def ForumTopic.moderate (topic : ForumTopic) (action : ModerationAction) (note : Option Text)
    (actor : Address) (now : Time) : Option (ForumTopic → ForumTopic) :=
  let moderated := fun row : ForumTopic =>
    { row with moderatedBy := some actor, moderationNote := note }
  if topic.deletedAt.isSome ∨ topic.removedAt.isSome then none
  else match action, topic.status with
    | .approve, .pendingReview => some fun row => { moderated row with status := .published }
    | .decline, .pendingReview => some fun row => { moderated row with status := .declined }
    | .lock, .published => some fun row =>
      { moderated row with status := .locked, lockedAt := some now }
    | .unlock, .locked => some fun row =>
      { moderated row with status := .published, lockedAt := none }
    | .remove, .draft => none
    | .remove, _ => some fun row => { moderated row with removedAt := some now }
    | _, _ => none

/-- `ForumService.moderateTopic`. -/
def moderateTopic (n : ℕ) (id : Id) (action : ModerationAction) (note : Option Text)
    (actor : Principal) : Worker Unit :=
  transactionally n do
    lock n (.topic id) .exclusive
    let found ← select fun db => db.topic? id
    match found with
    | none => throw (.notFound "Forum topic not found")
    | some topic =>
      let current ← now
      match topic.moderate action note actor.address current with
      | none => throw (.conflict "Topic cannot be changed in its current state")
      | some change =>
        commit n [.topic id] fun _ db =>
          .ok (db.updateTopics (fun row => row.id = id) change, ())

/-! ### Replies -/

/-- `ForumReplyDto`. -/
structure ForumReplyRequest where
  body : Text
  parentReplyId : Option Id
deriving DecidableEq, Repr

/-- The topic takes replies. -/
def ForumTopic.isOpen (row : ForumTopic) : Bool :=
  row.status = .published ∧ row.deletedAt = none ∧ row.removedAt = none

/-- The writes of a reply: the counter and the row. -/
def replyTx (topicId authorId : Id) (dto : ForumReplyRequest) (activityAt createdAt : Time)
    (_ : Time) (db : Database) : Except Failure (Database × ForumReply) :=
  let row : ForumReply :=
    { id := db.nextId
      topicId := topicId
      authorId := authorId
      body := trim dto.body
      parentReplyId := dto.parentReplyId
      editedAt := none
      deletedAt := none
      removedAt := none
      createdAt := createdAt }
  .ok ({ db.updateTopics (fun row => row.id = topicId) fun row =>
      { row with replyCount := row.replyCount + 1, lastActivityAt := activityAt } with
    replies := db.replies ++ [row]
    nextId := db.nextId + 1 }, row)

/-- `ForumService.reply`; the `updateMany` of the topic locks its row, and what it writes is seen
when the transaction commits. -/
def reply (n : ℕ) (topicId : Id) (dto : ForumReplyRequest) (actor : Principal) :
    Worker ForumReply := do
  assertForumEligible communityMinimumRaw actor.address
  let found ← select fun db => db.topic? topicId
  match found with
  | none => throw (.notFound "Forum topic not found")
  | some topic =>
    if !topic.isOpen then throw (.conflict "This topic is not open for replies")
    else
      let activityAt ← now
      transactionally n do
        lock n (.user actor.userId) .exclusive
        let checked ← now
        let recent ← select fun db => db.repliesSince actor.userId (checked - 60000)
        if 10 ≤ recent then
          throw (.tooManyRequests "Reply limit reached; wait a moment before posting again")
        else
          lock n (.topic topicId) .exclusive
          let stillOpen ← select fun db =>
            db.topics.any fun row => row.id = topicId ∧ row.isOpen
          if !stillOpen then throw (.conflict "This topic is not open for replies")
          else
            let parentReply ← select fun db => db.replies.find? fun row =>
              dto.parentReplyId = some row.id ∧ row.topicId = topicId ∧ row.deletedAt = none ∧
                row.removedAt = none
            if dto.parentReplyId.isSome ∧ parentReply = none then
              throw (.badRequest "Quoted reply is unavailable or belongs to another topic")
            else
              let createdAt ← now
              commit n [.topic topicId] (replyTx topicId actor.userId dto activityAt createdAt)

/-- The reply may still be edited. -/
def ForumReply.isEditable (row : ForumReply) (topics : List ForumTopic) (asModerator : Bool)
    (userId : Id) : Bool :=
  (asModerator ∨ row.authorId = userId) ∧ row.deletedAt = none ∧ row.removedAt = none ∧
    topics.any fun topic => topic.id = row.topicId ∧
      if asModerator then topic.isPublic else topic.isOpen

/-- `ForumService.editReply`. -/
def editReply (n : ℕ) (id : Id) (dto : ForumReplyRequest) (actor : Principal) : Worker Unit := do
  assertForumEligible communityMinimumRaw actor.address
  let (found, topics) ← select fun db => (db.reply? id, db.topics)
  match found with
  | none => throw (.notFound "Forum reply not found")
  | some reply =>
    let asModerator := actor.canModerate && reply.deletedAt = none && reply.removedAt = none &&
      topics.any fun topic => topic.id = reply.topicId ∧ topic.isPublic
    if reply.authorId ≠ actor.userId ∧ !asModerator then
      throw (if actor.canModerate then .conflict
        "Only active responses in published or locked topics can be edited by an administrator"
        else .forbidden "Only the author can edit this reply")
    else
      let editedAt ← now
      commit n [] fun _ db =>
        let isEditable := fun row : ForumReply =>
          row.id = id ∧ row.isEditable db.topics asModerator actor.userId
        if db.replies.any isEditable then
          .ok (db.updateReplies isEditable fun row =>
            { row with body := trim dto.body, editedAt := some editedAt }, ())
        else .error (.conflict "A reply in a locked or removed topic cannot be edited")

/-- `ForumService.deleteReply`. -/
def deleteReply (n : ℕ) (id : Id) (actor : Principal) : Worker Unit := do
  let found ← select fun db => db.reply? id
  match found with
  | none => throw (.notFound "Forum reply not found")
  | some reply =>
    if reply.authorId ≠ actor.userId then
      throw (.forbidden "Only the author can delete this reply")
    else if reply.deletedAt.isSome ∨ reply.removedAt.isSome then return ()
    else
      let deletedAt ← now
      commit n [] fun _ db => .ok (db.updateReplies (fun row => row.id = id) fun row =>
        { row with deletedAt := some deletedAt }, ())

/-- `ForumService.removeReply`. -/
def removeReply (n : ℕ) (id : Id) : Worker Unit := do
  let found ← select fun db => db.reply? id
  match found with
  | none => throw (.notFound "Forum reply not found")
  | some _ =>
    let removedAt ← now
    commit n [] fun _ db => .ok (db.updateReplies (fun row => row.id = id) fun row =>
      { row with removedAt := some removedAt }, ())

/-! ### Administration -/

/-- `ForumService.createCategory`. -/
def createCategory (n : ℕ) (rawLabel : Text) : Worker Unit := do
  let label := texts.normalizeCategoryLabel rawLabel
  let value := texts.categoryValueFromLabel label
  if value = [] then throw (.badRequest "Forum category needs a usable name")
  else transactionally n do
    lock n .project .exclusive
    let duplicate ← select fun db => db.categories.any fun row =>
      row.value = value ∨ texts.sameLabel row.label label
    if duplicate then throw (.conflict "Forum category already exists")
    else
      let last ← select fun db => (db.categories.map (·.position)).max?
      commit n [] fun _ db => .ok ({ db with
        categories := db.categories ++ [⟨value, label, (last.map (· + 1)).getD 0, none⟩] }, ())

/-- `UpdateForumCategoryDto`. -/
structure UpdateForumCategory where
  label : Option Text
  archived : Option Bool
deriving DecidableEq, Repr

/-- Another category has the label. -/
def checkLabel (value : Text) (label : Text) (changed : Bool) : Worker Unit :=
  if !changed then return ()
  else do
    let duplicate ← select fun db => db.categories.any fun row =>
      row.value ≠ value ∧ texts.sameLabel row.label label
    if duplicate then throw (.conflict "Forum category name already exists") else return ()

/-- The last active category is not archived. -/
def checkArchive (archiving : Bool) : Worker Unit :=
  if !archiving then return ()
  else do
    let activeCount ← select (·.activeCategories)
    if activeCount ≤ 1 then throw (.conflict "The forum needs at least one active category")
    else return ()

/-- `ForumService.updateCategory`. -/
def updateCategory (n : ℕ) (value : Text) (dto : UpdateForumCategory) : Worker Unit := do
  if dto.label = none ∧ dto.archived = none then
    throw (.badRequest "Provide a category name or archive state")
  else transactionally n do
    lock n .project .exclusive
    let current ← category texts value false
    let label := (dto.label.map texts.normalizeCategoryLabel).getD current.label
    let archiveChanged := dto.archived.any (· ≠ current.archivedAt.isSome)
    checkLabel texts value label (label ≠ current.label)
    checkArchive (archiveChanged && dto.archived = some true)
    if label = current.label ∧ !archiveChanged then rollback n
    else
      let archivedAt ← now
      commit n [] fun _ db => .ok ({ db with
        categories := updateWhere (fun row => row.value = value) (fun row =>
          { row with
            label := label
            archivedAt := if archiveChanged then
                if dto.archived = some true then some archivedAt else none
              else row.archivedAt }) db.categories }, ())

/-- `ForumService.updateSettings`. -/
def updateForumSettings (n : ℕ) (topicModerationEnabled : Bool) (actor : Principal) :
    Worker Unit :=
  transactionally n do
    lock n .project .exclusive
    commit n [] fun _ db => .ok (db.upsertSettings (fun settings =>
      { settings with
        forumTopicModerationEnabled := topicModerationEnabled
        updatedBy := some actor.address }) ⟨actor.address, .forumTopicModerationEnabled
          db.topicsModerated topicModerationEnabled⟩, ())

/-- `ForumService.updateMinimumPre`. -/
def updateMinimumPre (n : ℕ) (minimumRaw : ℕ) (actor : Principal) : Worker Unit := do
  if 2 ^ 256 ≤ minimumRaw then
    throw (.badRequest "The forum PRE minimum exceeds the token range")
  else transactionally n do
    lock n .project .exclusive
    commit n [] fun _ db => .ok (db.upsertSettings (fun settings =>
      { settings with forumMinimumPreRaw := some minimumRaw, updatedBy := some actor.address })
        ⟨actor.address, .forumMinimumPreRaw ((db.settings.bind (·.forumMinimumPreRaw)).getD
          communityMinimumRaw) minimumRaw⟩, ())

end

end Community

end PreCommunity
