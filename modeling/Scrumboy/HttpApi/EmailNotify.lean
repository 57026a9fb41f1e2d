import Mathlib.Data.List.Perm.Basic
import Scrumboy.Go.Strings

/-!
# The e-mails of a card change

A REST change of a card publishes an event for its assignment or for the refresh of the board, and
a third one about the creator of the card. The notifier turns each into jobs for the mail queue,
which are done in any order.
-/

namespace Scrumboy

open Go

inductive EmailCategory
  | assigned
  | createdByMe
  | cardActivity
  deriving DecidableEq, Repr

structure EmailNotifyPref where
  enabled : Bool := false
  assigned : Bool := true
  createdByMe : Bool := false
  cardActivity : Bool := false
  deriving DecidableEq, Repr

def categoryEnabled (pref : EmailNotifyPref) : EmailCategory → Bool
  | .assigned => pref.assigned
  | .createdByMe => pref.createdByMe
  | .cardActivity => pref.cardActivity

inductive ActivityReason
  | todoCreated
  | todoUpdated
  | todoMoved
  deriving DecidableEq, Repr

/-- `refreshReasonInfo`: the phrase of the subject line. -/
def refreshReasonSubject : ActivityReason → String
  | .todoCreated => "card created"
  | .todoUpdated => "card updated"
  | .todoMoved => "card moved"

structure MailUser where
  name : String
  email : String
  deriving DecidableEq, Repr

/-- What the notifier reads of the store about a project: the row, the members in the order of
their list, the users and the preferences that can be read. -/
structure NotifyStore where
  projectID : ℕ
  slug : String
  name : String
  durable : Bool
  members : List ℕ
  users : ℕ → Option MailUser
  prefs : ℕ → Option EmailNotifyPref
  projectID_pos : 0 < projectID
  slug_ne : slug ≠ ""
  name_trimmed : trimSpace name = name
  members_nodup : members.Nodup
  members_pos : ∀ u ∈ members, 0 < u

/-- An e-mail for a user. -/
structure NotifyMail where
  userID : ℕ
  category : EmailCategory
  address : String
  subject : String
  deriving DecidableEq, Repr

/-- `mailer.validateHeaderValue` accepts the value. -/
def validateHeaderValue (value : String) : Bool :=
  !value.toList.any fun c => c == '\r' || c == '\n'

/-! ## Subjects -/

structure CardEntity where
  localID : ℕ
  title : String
  fromName : String := ""
  toName : String := ""

def cardIdentity (localID : ℕ) (title : String) : Option String :=
  let title := trimSpace title
  if localID = 0 ∨ title = "" then none else some ("#" ++ formatInt localID ++ " " ++ title)

def moveDestinationName (reason : ActivityReason) (fromName toName : String) : String :=
  if reason ≠ .todoMoved then ""
  else
    let fromName := trimSpace fromName
    let toName := trimSpace toName
    if fromName = "" ∨ toName = "" ∨ fromName = toName then "" else toName

def cardMovedSubject (projectName card destination : String) : String :=
  let projectName := trimSpace projectName
  let card := trimSpace card
  let destination := trimSpace destination
  if card ≠ "" ∧ destination ≠ "" then projectName ++ ": " ++ card ++ " Moved to " ++ destination
  else if card ≠ "" then projectName ++ ": " ++ card ++ " Moved"
  else projectName ++ ": card moved"

/-- The subject that `activityCopy` makes. -/
def activitySubject (projectName : String) (reason : ActivityReason) (entity : CardEntity) : String :=
  match reason, cardIdentity entity.localID entity.title with
  | .todoMoved, card => cardMovedSubject projectName (card.getD "")
      (moveDestinationName reason entity.fromName entity.toName)
  | _, some card => projectName ++ ": " ++ refreshReasonSubject reason ++ " — " ++ card
  | _, none => projectName ++ ": " ++ refreshReasonSubject reason

/-! ## Events -/

/-- The payload of `todo.assigned`, with the mutation facts that come along. -/
structure TodoAssigned where
  projectID : ℕ
  todoID : ℕ
  localID : ℕ
  title : String
  activityReason : ActivityReason
  toAssignee : Option ℕ
  actor : ℕ
  createdBy : Option ℕ
  durableProject : Bool

/-- A request to tell the creator of a card, and the same when it was authorized. -/
structure CreatorNotification where
  projectID : ℕ
  todoID : ℕ
  localID : ℕ
  title : String
  activityReason : ActivityReason
  fromName : String
  toName : String
  recipient : ℕ
  actor : ℕ
  materialChanged : Bool
  assignmentChanged : Bool
  toAssignee : Option ℕ
  cardActivityCandidate : Bool

/-- The payload of `board.refresh_needed`, with the request that comes along. -/
structure RefreshNeeded where
  projectID : ℕ
  reason : ActivityReason
  actor : ℕ
  entity : CardEntity
  request : Option CreatorNotification

inductive NotifyEvent
  | todoAssigned (event : TodoAssigned)
  | refreshNeeded (event : RefreshNeeded)
  | creatorAuthorized (event : CreatorNotification)

/-- What is put in the mail queue: an e-mail, one that counts for the debounce, or a candidate that
is prepared when it is sent. -/
inductive MailJob
  | send (mail : NotifyMail)
  | activity (mail : NotifyMail)
  | candidate (notification : CreatorNotification)

namespace NotifyStore

/-- The user, when mail of the category is on. -/
def mailUser (st : NotifyStore) (u : ℕ) (category : EmailCategory) : Option MailUser :=
  match st.prefs u, st.users u with
  | some pref, some user =>
      if pref.enabled = true ∧ categoryEnabled pref category = true ∧ user.email ≠ "" then some user
      else none
  | _, _ => none

def listProjectMembers (st : NotifyStore) (userID : ℕ) : Option (List ℕ) :=
  if userID ∈ st.members then some (st.members.filter fun u => (st.users u).isSome) else none

def handleAssignment (st : NotifyStore) (event : TodoAssigned) (assignee : ℕ) : Option NotifyMail :=
  if event.actor ≠ 0 ∧ event.actor = assignee then none
  else (st.mailUser assignee .assigned).map fun user =>
    ⟨assignee, .assigned, user.email, "Assigned to you: " ++ event.title⟩

def creatorCandidateForAssignmentMutation (projectID : ℕ) (event : TodoAssigned) : Option ℕ :=
  event.createdBy.filter fun creator =>
    event.durableProject = true ∧ 0 < projectID ∧ event.projectID = projectID ∧ 0 < event.todoID ∧
      0 < event.localID ∧ 0 < event.actor ∧ 0 < creator ∧ creator ≠ event.actor ∧
      (event.activityReason = .todoUpdated ∨ event.activityReason = .todoMoved)

def handleActivity (st : NotifyStore) (reason : ActivityReason) (actor : ℕ) (entity : CardEntity)
    (excluded : List ℕ) : List NotifyMail :=
  if actor = 0 then []
  else
    match st.listProjectMembers actor with
    | none => []
    | some members => members.filterMap fun u =>
        if u = actor ∨ u ∈ excluded then none
        else (st.mailUser u .cardActivity).map fun user =>
          ⟨u, .cardActivity, user.email, activitySubject st.name reason entity⟩

def handleTodoAssigned (st : NotifyStore) (event : TodoAssigned) : List MailJob :=
  let creator := creatorCandidateForAssignmentMutation st.projectID event
  let assignment := event.toAssignee.bind fun assignee =>
    if creator = some assignee then none else st.handleAssignment event assignee
  assignment.toList.map .send ++
    (st.handleActivity event.activityReason event.actor ⟨event.localID, event.title, "", ""⟩
      (creator.toList ++ assignment.toList.map (·.userID))).map .activity

def handleRefreshNeeded (st : NotifyStore) (event : RefreshNeeded) : List MailJob :=
  let excluded := (event.request.filter fun request => request.cardActivityCandidate = true ∧
    request.projectID = event.projectID ∧ request.activityReason = event.reason).toList.map (·.recipient)
  (st.handleActivity event.reason event.actor event.entity excluded).map .activity

/-- `validAuthorizedCreatorNotification` -/
def ValidAuthorized (c : CreatorNotification) : Prop :=
  0 < c.projectID ∧ 0 < c.todoID ∧ 0 < c.localID ∧ 0 < c.recipient ∧ 0 < c.actor ∧
    c.recipient ≠ c.actor ∧ (c.activityReason = .todoUpdated ∨ c.activityReason = .todoMoved)

/-- `ReauthorizeRecipient`: the creator has access to the durable project now. -/
def Reauthorizes (st : NotifyStore) (c : CreatorNotification) : Prop :=
  ValidAuthorized c ∧ st.projectID = c.projectID ∧ st.durable = true ∧ st.slug ≠ "" ∧
    c.recipient ∈ st.members

instance (st : NotifyStore) (c : CreatorNotification) : Decidable (st.Reauthorizes c) :=
  inferInstanceAs (Decidable ((_ ∧ _) ∧ _))

def handleCreatorCandidate (st : NotifyStore) (c : CreatorNotification) : List MailJob :=
  if 0 < c.projectID ∧ c.materialChanged = true ∧ st.Reauthorizes c then [.candidate c] else []

def handle (st : NotifyStore) : NotifyEvent → List MailJob
  | .todoAssigned event => st.handleTodoAssigned event
  | .refreshNeeded event => st.handleRefreshNeeded event
  | .creatorAuthorized event => st.handleCreatorCandidate event

def selectCreatorEmailCategory (pref : EmailNotifyPref) (c : CreatorNotification) :
    Option EmailCategory :=
  if c.assignmentChanged = true ∧ c.toAssignee = some c.recipient ∧ pref.assigned = true then
    some .assigned
  else if pref.createdByMe then some .createdByMe
  else if c.cardActivityCandidate = true ∧ pref.cardActivity = true then some .cardActivity
  else none

/-- The subject that `renderCreatorEmail` makes. -/
def creatorSubject (st : NotifyStore) (c : CreatorNotification) : EmailCategory → String
  | .assigned => "Assigned to you: " ++ c.title
  | .createdByMe =>
      if c.activityReason = .todoMoved then
        cardMovedSubject st.name ((cardIdentity c.localID c.title).getD "")
          (moveDestinationName c.activityReason c.fromName c.toName)
      else "A card you opened was updated: " ++ c.title
  | .cardActivity => activitySubject st.name c.activityReason ⟨c.localID, c.title, c.fromName, c.toName⟩

/-- `creatorEmailWork.prepare` up to the debounce. -/
def prepare (st : NotifyStore) (c : CreatorNotification) : Option NotifyMail :=
  if st.Reauthorizes c ∧ c.materialChanged = true then
    match st.prefs c.recipient, st.users c.recipient with
    | some pref, some user =>
        if pref.enabled = true ∧ user.email ≠ "" then
          (selectCreatorEmailCategory pref c).map fun category =>
            ⟨c.recipient, category, user.email, st.creatorSubject c category⟩
        else none
    | _, _ => none
  else none

end NotifyStore

/-! ## The queue -/

structure NotifyDebounceKey where
  projectID : ℕ
  category : EmailCategory
  userID : ℕ
  deriving DecidableEq, Repr

/-- `refreshNotifyDebounce`, in nanoseconds. -/
def refreshNotifyDebounce : ℤ := 120000000000

/-- The state of the notifier, and the e-mails handed to the mailer. -/
structure EmailNotifier where
  lastSent : NotifyDebounceKey → Option ℤ
  mails : List NotifyMail := []

def MailJob.mail (st : NotifyStore) : MailJob → Option NotifyMail
  | .send mail | .activity mail => some mail
  | .candidate c => st.prepare c

namespace EmailNotifier

/-- `enqueueActivity` and `claimActivityDebounce`; other e-mails are not debounced. -/
def hand (n : EmailNotifier) (projectID : ℕ) (mail : NotifyMail) (now : ℤ) : EmailNotifier :=
  if mail.category = .cardActivity then
    let key : NotifyDebounceKey := ⟨projectID, .cardActivity, mail.userID⟩
    if (n.lastSent key).any fun last => now - last < refreshNotifyDebounce then n
    else ⟨Function.update n.lastSent key (some now), n.mails ++ [mail]⟩
  else { n with mails := n.mails ++ [mail] }

/-- A job is done at a time. -/
def doJob (st : NotifyStore) (n : EmailNotifier) (job : MailJob × ℤ) : EmailNotifier :=
  match job.1.mail st with
  | some mail => n.hand st.projectID mail job.2
  | none => n

def doJobs (st : NotifyStore) (n : EmailNotifier) (jobs : List (MailJob × ℤ)) : EmailNotifier :=
  jobs.foldl (doJob st) n

end EmailNotifier

/-! ## Changes -/

inductive CardMutation
  | create
  | update (fromAssignee : Option ℕ) (otherwiseChanged : Bool)
  | move (fromName toName : String) (changed : Bool)
  deriving DecidableEq, Repr

/-- The mutation assigns the card anew, so that it is the given user's or nobody's. -/
def CardMutation.assignmentChanged (assignee : Option ℕ) : CardMutation → Bool
  | .create => assignee.isSome
  | .update fromAssignee _ => fromAssignee != assignee
  | .move _ _ _ => false

/-- A REST change of a card that the store committed, with the card after it. `actor` is 0 when no
user is signed in. -/
structure CardChange (st : NotifyStore) where
  mutation : CardMutation
  todoID : ℕ
  localID : ℕ
  title : String
  createdBy : Option ℕ
  assignee : Option ℕ
  actor : ℕ
  todoID_pos : 0 < todoID
  localID_pos : 0 < localID
  title_trimmed : trimSpace title = title
  title_ne : title ≠ ""
  createdBy_pos : ∀ u ∈ createdBy, 0 < u
  /-- A new assignee is a member. -/
  assignee_member : mutation.assignmentChanged assignee = true → ∀ u ∈ assignee, u ∈ st.members

namespace CardChange

variable {st : NotifyStore}

def assignmentChanged (c : CardChange st) : Bool := c.mutation.assignmentChanged c.assignee

def materialChanged (c : CardChange st) : Bool :=
  match c.mutation with
  | .create => false
  | .update _ otherwiseChanged => c.assignmentChanged || otherwiseChanged
  | .move _ _ changed => changed

def reason (c : CardChange st) : ActivityReason :=
  match c.mutation with
  | .create => .todoCreated
  | .update _ _ => .todoUpdated
  | .move _ _ _ => .todoMoved

def fromName (c : CardChange st) : String :=
  match c.mutation with
  | .move fromName _ _ => fromName
  | _ => ""

def toName (c : CardChange st) : String :=
  match c.mutation with
  | .move _ toName _ => toName
  | _ => ""

/-- `publishCreatorNotificationRequest`, which a create does not call. -/
def creatorRequest (c : CardChange st) : Option CreatorNotification :=
  if c.mutation ≠ .create ∧ st.durable = true ∧ 0 < c.actor then
    (c.createdBy.filter fun creator => c.actor ≠ creator).map fun creator =>
      { projectID := st.projectID
        todoID := c.todoID
        localID := c.localID
        title := c.title
        activityReason := c.reason
        fromName := c.fromName
        toName := c.toName
        recipient := creator
        actor := c.actor
        materialChanged := c.materialChanged
        assignmentChanged := c.assignmentChanged
        toAssignee := c.assignee
        cardActivityCandidate := true }
  else none

/-- The events of the change. -/
def publish (c : CardChange st) : List NotifyEvent :=
  (if c.assignmentChanged then
    [NotifyEvent.todoAssigned ⟨st.projectID, c.todoID, c.localID, c.title, c.reason, c.assignee, c.actor,
      c.createdBy, st.durable⟩]
  else
    [NotifyEvent.refreshNeeded ⟨st.projectID, c.reason, c.actor, ⟨c.localID, c.title, c.fromName, c.toName⟩,
      c.creatorRequest⟩]) ++
  (c.creatorRequest.filter fun request => st.Reauthorizes request).toList.map NotifyEvent.creatorAuthorized

def jobs (c : CardChange st) : List MailJob := c.publish.flatMap st.handle

/-! ## The claim -/

/-- What the e-mails about a change must be. -/
structure Told (c : CardChange st) (mails : List NotifyMail) : Prop where
  once : (mails.map (·.userID)).Nodup
  notActor : ∀ mail ∈ mails, mail.userID ≠ c.actor
  /-- Some preference for the change is on. -/
  wanted : ∀ mail ∈ mails, ∃ pref ∈ st.prefs mail.userID, pref.enabled = true ∧
    (pref.assigned = true ∧ c.assignmentChanged = true ∧ c.assignee = some mail.userID ∨
      pref.createdByMe = true ∧ c.createdBy = some mail.userID ∨ pref.cardActivity = true)
  assignee : ∀ u, c.assignmentChanged = true → c.assignee = some u → u ≠ c.actor →
    (∃ pref ∈ st.prefs u, pref.enabled = true ∧ pref.assigned = true) →
    (∃ user ∈ st.users u, user.email ≠ "") → ∃ mail ∈ mails, mail.userID = u ∧ mail.category = .assigned
  subjects : ∀ mail ∈ mails, validateHeaderValue mail.subject = true

/-- Whatever the notifier sent before, and in whichever order and at which times it does the jobs. -/
def ToldRightly (c : CardChange st) : Prop :=
  ∀ lastSent (jobs : List (MailJob × ℤ)), (jobs.map (·.1)).Perm c.jobs →
    c.Told (EmailNotifier.doJobs st { lastSent } jobs).mails

/-- The creator is told as such, and not with the other members. -/
def TellsCreator (c : CardChange st) (u : ℕ) : Prop :=
  c.mutation ≠ .create ∧ st.durable = true ∧ c.createdBy = some u ∧ 0 < c.actor ∧ u ∈ st.members

instance (c : CardChange st) (u : ℕ) : Decidable (c.TellsCreator u) :=
  inferInstanceAs (Decidable (_ ∧ _ ∧ _ ∧ _ ∧ _))

/-- The e-mail that a user is due, when no activity e-mail was sent lately. -/
def due (c : CardChange st) (u : ℕ) : Option EmailCategory :=
  match st.prefs u, st.users u with
  | some pref, some user =>
      if pref.enabled = false ∨ user.email = "" ∨ u = c.actor then none
      else if c.assignmentChanged = true ∧ c.assignee = some u ∧ pref.assigned = true then some .assigned
      else if c.TellsCreator u then
        if c.materialChanged = false then none
        else if pref.createdByMe then some .createdByMe
        else if pref.cardActivity then some .cardActivity
        else none
      else if c.actor ∈ st.members ∧ u ∈ st.members ∧ pref.cardActivity = true then some .cardActivity
      else none
  | _, _ => none

/-- The texts of users that the subject of an e-mail has. -/
def subjectTexts (c : CardChange st) : EmailCategory → List String
  | .assigned => [c.title]
  | .createdByMe =>
      if c.reason = .todoMoved then
        [st.name, c.title, moveDestinationName c.reason c.fromName c.toName]
      else [c.title]
  | .cardActivity => [st.name, c.title, moveDestinationName c.reason c.fromName c.toName]

end CardChange

end Scrumboy
