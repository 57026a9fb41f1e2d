import Scrumboy.HttpApi.EmailNotify

/-!
# Who is told of a card change

The jobs of a change hold one e-mail for each user who is due one, so in any order of the jobs no
user is told twice. What can go wrong is the subject, which is made of texts that may have line
breaks.
-/

namespace Scrumboy

open Go

/-! ## The queue -/

namespace EmailNotifier

variable {st : NotifyStore}

@[simp] theorem doJobs_cons (n : EmailNotifier) (job : MailJob × ℤ) (jobs : List (MailJob × ℤ)) :
    doJobs st n (job :: jobs) = doJobs st (doJob st n job) jobs := rfl

/-- The e-mails that the jobs may hand over. -/
def mailsOf (st : NotifyStore) (jobs : List (MailJob × ℤ)) : List NotifyMail :=
  (jobs.map (·.1)).filterMap (·.mail st)

theorem hand_mails (n : EmailNotifier) (projectID : ℕ) (mail : NotifyMail) (now : ℤ) :
    (n.hand projectID mail now).mails = n.mails ∧ mail.category = .cardActivity ∨
      (n.hand projectID mail now).mails = n.mails ++ [mail] := by
  unfold hand
  split
  · rename_i hcategory
    dsimp only
    split
    · exact .inl ⟨rfl, hcategory⟩
    · exact .inr rfl
  · exact .inr rfl

theorem mailsOf_cons (job : MailJob × ℤ) (jobs : List (MailJob × ℤ)) :
    mailsOf st (job :: jobs) = (job.1.mail st).toList ++ mailsOf st jobs := by
  unfold mailsOf
  rw [List.map_cons, List.filterMap_cons]
  cases job.1.mail st <;> rfl

/-- Each job hands over its e-mail or none. -/
theorem doJobs_mails (n : EmailNotifier) (jobs : List (MailJob × ℤ)) :
    ∃ handed, (doJobs st n jobs).mails = n.mails ++ handed ∧ handed.Sublist (mailsOf st jobs) ∧
      ∀ mail ∈ mailsOf st jobs, mail.category ≠ .cardActivity → mail ∈ handed := by
  induction jobs generalizing n with
  | nil => exact ⟨[], (List.append_nil _).symm, List.Sublist.refl _, nofun⟩
  | cons job jobs ih =>
      obtain ⟨handed, hmails, hsub, hother⟩ := ih (doJob st n job)
      rw [doJobs_cons, hmails, mailsOf_cons]
      unfold doJob
      cases job.1.mail st with
      | none => exact ⟨handed, rfl, hsub, hother⟩
      | some mail =>
          dsimp only
          rcases hand_mails n st.projectID mail job.2 with ⟨hsame, hactivity⟩ | hhanded
          · refine ⟨handed, by rw [hsame], hsub.cons mail, fun mail' hmem hcategory => ?_⟩
            rcases List.mem_cons.mp hmem with rfl | hmem
            · exact absurd hactivity hcategory
            · exact hother mail' hmem hcategory
          · refine ⟨mail :: handed, by rw [hhanded, List.append_assoc, List.singleton_append],
              hsub.cons_cons mail, fun mail' hmem hcategory => ?_⟩
            rcases List.mem_cons.mp hmem with rfl | hmem
            · exact List.mem_cons_self
            · exact List.mem_cons_of_mem _ (hother mail' hmem hcategory)

/-- When no activity e-mail was sent lately, each e-mail for another user is handed over. -/
theorem doJobs_fresh {n : EmailNotifier} {jobs : List (MailJob × ℤ)}
    (hnodup : ((mailsOf st jobs).map (·.userID)).Nodup)
    (hfresh : ∀ mail ∈ mailsOf st jobs, n.lastSent ⟨st.projectID, .cardActivity, mail.userID⟩ = none) :
    (doJobs st n jobs).mails = n.mails ++ mailsOf st jobs := by
  induction jobs generalizing n with
  | nil => exact (List.append_nil _).symm
  | cons job jobs ih =>
      rw [mailsOf_cons] at hnodup hfresh ⊢
      rw [doJobs_cons]
      unfold doJob
      cases hmail : job.1.mail st with
      | none =>
          rw [hmail] at hnodup hfresh
          exact ih hnodup hfresh
      | some mail =>
          rw [hmail] at hnodup hfresh
          have hfirst := hfresh mail List.mem_cons_self
          obtain ⟨hnew, hrest⟩ := List.nodup_cons.mp hnodup
          have hother : ∀ mail' ∈ mailsOf st jobs, mail'.userID ≠ mail.userID := by
            intro mail' hmem heq
            exact hnew (List.mem_map.mpr ⟨mail', hmem, heq⟩)
          dsimp only [Option.toList_some]
          have hhand : (n.hand st.projectID mail job.2).mails = n.mails ++ [mail] := by
            unfold hand
            split
            · dsimp only
              rw [hfirst]
              rfl
            · rfl
          rw [ih hrest fun mail' hmem => ?_, hhand, List.append_assoc]
          unfold hand
          split
          · dsimp only
            rw [hfirst]
            rw [Option.any_none, if_neg Bool.false_ne_true]
            dsimp only
            rw [Function.update_of_ne]
            · exact hfresh mail' (List.mem_cons_of_mem _ hmem)
            · exact fun heq => hother mail' hmem (congrArg NotifyDebounceKey.userID heq)
          · exact hfresh mail' (List.mem_cons_of_mem _ hmem)

end EmailNotifier

/-! ## The e-mails of a change -/

theorem NotifyStore.mailUser_eq_some {st : NotifyStore} {u : ℕ} {category : EmailCategory}
    {user : MailUser} : st.mailUser u category = some user ↔ ∃ pref, st.prefs u = some pref ∧
      pref.enabled = true ∧ categoryEnabled pref category = true ∧ st.users u = some user ∧
        user.email ≠ "" := by
  unfold mailUser
  cases hpref : st.prefs u with
  | none => simp
  | some pref =>
      cases huser : st.users u with
      | none => simp
      | some user' =>
          constructor
          · intro h
            dsimp only at h
            split at h
            · rename_i hon
              cases h
              exact ⟨pref, rfl, hon.1, hon.2.1, rfl, hon.2.2⟩
            · cases h
          · rintro ⟨_, heq, henabled, hcategory, heq', hemail⟩
            cases heq
            cases heq'
            exact if_pos ⟨henabled, hcategory, hemail⟩

namespace CardChange

variable {st : NotifyStore} {c : CardChange st}

/-- The creator, who is told apart from the other members. -/
def teller (c : CardChange st) : Option ℕ :=
  if c.mutation ≠ .create ∧ st.durable = true ∧ 0 < c.actor then
    c.createdBy.filter fun creator => c.actor ≠ creator
  else none

def notification (c : CardChange st) (creator : ℕ) : CreatorNotification where
  projectID := st.projectID
  todoID := c.todoID
  localID := c.localID
  title := c.title
  activityReason := c.reason
  fromName := c.fromName
  toName := c.toName
  recipient := creator
  actor := c.actor
  materialChanged := c.materialChanged
  assignmentChanged := c.assignmentChanged
  toAssignee := c.assignee
  cardActivityCandidate := true

theorem creatorRequest_eq (c : CardChange st) : c.creatorRequest = c.teller.map c.notification := by
  unfold creatorRequest teller
  split <;> rfl

theorem teller_eq_some {u : ℕ} : c.teller = some u ↔ c.mutation ≠ .create ∧ st.durable = true ∧
    0 < c.actor ∧ c.createdBy = some u ∧ c.actor ≠ u := by
  unfold teller
  split
  · rename_i hcond
    rw [Option.filter_eq_some_iff, decide_eq_true_iff]
    exact ⟨fun h => ⟨hcond.1, hcond.2.1, hcond.2.2, h.1, h.2⟩, fun h => ⟨h.2.2.2.1, h.2.2.2.2⟩⟩
  · rename_i hcond
    exact ⟨nofun, fun h => absurd ⟨h.1, h.2.1, h.2.2.1⟩ hcond⟩

theorem reason_of_ne_create (h : c.mutation ≠ .create) :
    c.reason = .todoUpdated ∨ c.reason = .todoMoved := by
  unfold reason
  cases hm : c.mutation with
  | create => exact absurd hm h
  | update fromAssignee changed => exact .inl rfl
  | move fromName toName changed => exact .inr rfl

theorem reason_create (h : c.mutation = .create) : c.reason = .todoCreated := by
  unfold reason
  rw [h]

/-- Both events leave the same creator to the third one. -/
theorem creatorCandidate_eq (c : CardChange st) :
    NotifyStore.creatorCandidateForAssignmentMutation st.projectID
      ⟨st.projectID, c.todoID, c.localID, c.title, c.reason, c.assignee, c.actor, c.createdBy,
        st.durable⟩ = c.teller := by
  refine Option.ext fun u => ?_
  rw [teller_eq_some, NotifyStore.creatorCandidateForAssignmentMutation, Option.filter_eq_some_iff,
    decide_eq_true_iff]
  constructor
  · rintro ⟨hcreator, hdurable, -, -, -, -, hactor, -, hne, hreason⟩
    refine ⟨fun hcreate => ?_, hdurable, hactor, hcreator, hne.symm⟩
    rcases hreason with hreason | hreason <;>
    · rw [reason_create hcreate] at hreason
      cases hreason
  · rintro ⟨hmutation, hdurable, hactor, hcreator, hne⟩
    exact ⟨hcreator, hdurable, st.projectID_pos, rfl, c.todoID_pos, c.localID_pos, hactor,
      c.createdBy_pos u hcreator, hne.symm, reason_of_ne_create hmutation⟩

/-- The subject of an e-mail about the change. -/
def subject (c : CardChange st) : EmailCategory → String
  | .assigned => "Assigned to you: " ++ c.title
  | .createdByMe =>
      if c.reason = .todoMoved then
        cardMovedSubject st.name ((cardIdentity c.localID c.title).getD "")
          (moveDestinationName c.reason c.fromName c.toName)
      else "A card you opened was updated: " ++ c.title
  | .cardActivity => activitySubject st.name c.reason ⟨c.localID, c.title, c.fromName, c.toName⟩

theorem creatorSubject_notification (c : CardChange st) (u : ℕ) (category : EmailCategory) :
    st.creatorSubject (c.notification u) category = c.subject category := by
  cases category <;> rfl

/-- The e-mail of the category. -/
def mailFor (c : CardChange st) (u : ℕ) (category : EmailCategory) (user : MailUser) : NotifyMail :=
  ⟨u, category, user.email, c.subject category⟩

def assignmentMail (c : CardChange st) : Option NotifyMail :=
  if c.assignmentChanged then
    c.assignee.bind fun assignee =>
      if c.teller = some assignee ∨ c.actor = assignee then none
      else (st.mailUser assignee .assigned).map (c.mailFor assignee .assigned)
  else none

def activityMails (c : CardChange st) : List NotifyMail :=
  st.handleActivity c.reason c.actor ⟨c.localID, c.title, c.fromName, c.toName⟩
    (c.teller.toList ++ c.assignmentMail.toList.map (·.userID))

def creatorMail (c : CardChange st) : Option NotifyMail :=
  c.teller.bind fun creator => st.prepare (c.notification creator)

theorem names_of_assignmentChanged (h : c.assignmentChanged = true) :
    c.fromName = "" ∧ c.toName = "" := by
  unfold assignmentChanged at h
  unfold fromName toName
  cases hm : c.mutation with
  | create => exact ⟨rfl, rfl⟩
  | update fromAssignee changed => exact ⟨rfl, rfl⟩
  | move fromName toName changed =>
      rw [hm] at h
      cases h

theorem filterMap_send (st : NotifyStore) (l : List NotifyMail) :
    (l.map MailJob.send).filterMap (·.mail st) = l := by
  rw [List.filterMap_map]
  exact List.filterMap_some

theorem filterMap_activity (st : NotifyStore) (l : List NotifyMail) :
    (l.map MailJob.activity).filterMap (·.mail st) = l := by
  rw [List.filterMap_map]
  exact List.filterMap_some

/-- The new assignee is a member, and no member has the number 0. -/
theorem handleAssignment_eq (h : c.assignmentChanged = true) {assignee : ℕ}
    (hassignee : c.assignee = some assignee) :
    st.handleAssignment ⟨st.projectID, c.todoID, c.localID, c.title, c.reason, c.assignee, c.actor,
      c.createdBy, st.durable⟩ assignee =
    if c.actor = assignee then none
    else (st.mailUser assignee .assigned).map (c.mailFor assignee .assigned) := by
  have hpos := st.members_pos assignee (c.assignee_member h assignee hassignee)
  unfold NotifyStore.handleAssignment
  by_cases heq : c.actor = assignee
  · have hactor : c.actor ≠ 0 := by omega
    rw [if_pos heq, if_pos ⟨hactor, heq⟩]
  · rw [if_neg heq, if_neg fun hand => heq hand.2]
    rfl

theorem handle_first (c : CardChange st) :
    (st.handle (if c.assignmentChanged then
      .todoAssigned ⟨st.projectID, c.todoID, c.localID, c.title, c.reason, c.assignee, c.actor,
        c.createdBy, st.durable⟩
    else
      .refreshNeeded ⟨st.projectID, c.reason, c.actor, ⟨c.localID, c.title, c.fromName, c.toName⟩,
        c.creatorRequest⟩)).filterMap (·.mail st) =
    c.assignmentMail.toList ++ c.activityMails := by
  cases hchanged : c.assignmentChanged with
  | true =>
      have hassignment : (c.assignee.bind fun assignee => if c.teller = some assignee then none else
          st.handleAssignment ⟨st.projectID, c.todoID, c.localID, c.title, c.reason, c.assignee, c.actor,
            c.createdBy, st.durable⟩ assignee) = c.assignmentMail := by
        unfold assignmentMail
        rw [if_pos hchanged]
        refine Option.bind_congr fun assignee hassignee => ?_
        rw [handleAssignment_eq hchanged hassignee]
        by_cases hteller : c.teller = some assignee
        · rw [if_pos hteller, if_pos (.inl hteller)]
        · rw [if_neg hteller]
          by_cases heq : c.actor = assignee
          · rw [if_pos heq, if_pos (.inr heq)]
          · rw [if_neg heq, if_neg (not_or.mpr ⟨hteller, heq⟩)]
      rw [if_pos rfl, NotifyStore.handle, NotifyStore.handleTodoAssigned]
      dsimp only
      rw [creatorCandidate_eq, hassignment, List.filterMap_append, filterMap_send, filterMap_activity,
        activityMails, (names_of_assignmentChanged hchanged).1, (names_of_assignmentChanged hchanged).2]
  | false =>
      have hassignment : c.assignmentMail = none := by
        rw [assignmentMail, hchanged]
        rfl
      have hexcluded : ((c.creatorRequest.filter fun request => request.cardActivityCandidate = true ∧
          request.projectID = st.projectID ∧ request.activityReason = c.reason).toList.map (·.recipient)) =
            c.teller.toList := by
        rw [creatorRequest_eq]
        cases c.teller with
        | none => rfl
        | some u =>
            rw [Option.map_some, Option.filter_some, if_pos (decide_eq_true ⟨rfl, rfl, rfl⟩)]
            rfl
      rw [if_neg Bool.false_ne_true, NotifyStore.handle, NotifyStore.handleRefreshNeeded]
      dsimp only
      rw [hexcluded, filterMap_activity, activityMails, hassignment]
      simp

theorem handle_authorized (c : CardChange st) :
    (((c.creatorRequest.filter fun request => st.Reauthorizes request).toList.map
      NotifyEvent.creatorAuthorized).flatMap st.handle).filterMap (·.mail st) = c.creatorMail.toList := by
  rw [creatorRequest_eq, creatorMail]
  cases c.teller with
  | none => rfl
  | some u =>
      rw [Option.map_some, Option.filter_some, Option.bind_some]
      by_cases hreauth : st.Reauthorizes (c.notification u)
      · rw [if_pos (decide_eq_true hreauth)]
        cases hmaterial : c.materialChanged with
        | true =>
            have hhandle : st.handleCreatorCandidate (c.notification u) = [.candidate (c.notification u)] :=
              if_pos ⟨st.projectID_pos, hmaterial, hreauth⟩
            have hmail : (MailJob.candidate (c.notification u)).mail st = st.prepare (c.notification u) := rfl
            cases hprepare : st.prepare (c.notification u) <;>
              simp [NotifyStore.handle, hhandle, hmail, hprepare]
        | false =>
            have hhandle : st.handleCreatorCandidate (c.notification u) = [] :=
              if_neg fun h => Bool.false_ne_true (hmaterial.symm.trans h.2.1)
            have hprepare : st.prepare (c.notification u) = none :=
              if_neg fun h => Bool.false_ne_true (hmaterial.symm.trans h.2)
            simp [NotifyStore.handle, hhandle, hprepare]
      · have hprepare : st.prepare (c.notification u) = none := if_neg fun h => hreauth h.1
        rw [if_neg (by simpa using hreauth), hprepare]
        rfl

/-- The e-mails of all the jobs. -/
theorem jobs_mails (c : CardChange st) : c.jobs.filterMap (·.mail st) =
    c.assignmentMail.toList ++ c.activityMails ++ c.creatorMail.toList := by
  rw [← handle_first, ← handle_authorized, ← List.filterMap_append, jobs, publish]
  cases c.assignmentChanged <;> simp

/-! ## Who is due one -/

theorem assignmentMail_eq_some {mail : NotifyMail} : c.assignmentMail = some mail ↔
    ∃ u user, c.assignmentChanged = true ∧ c.assignee = some u ∧ c.teller ≠ some u ∧ c.actor ≠ u ∧
      st.mailUser u .assigned = some user ∧ mail = c.mailFor u .assigned user := by
  unfold assignmentMail
  constructor
  · intro h
    split at h
    · rename_i hchanged
      obtain ⟨u, hassignee, h⟩ := Option.bind_eq_some_iff.mp h
      split at h
      · cases h
      · rename_i hother
        obtain ⟨user, huser, rfl⟩ := Option.map_eq_some_iff.mp h
        exact ⟨u, user, hchanged, hassignee, (not_or.mp hother).1, (not_or.mp hother).2, huser, rfl⟩
    · cases h
  · rintro ⟨u, user, hchanged, hassignee, hteller, hactor, huser, rfl⟩
    rw [if_pos hchanged, hassignee, Option.bind_some, if_neg (not_or.mpr ⟨hteller, hactor⟩), huser]
    rfl

theorem mem_activityMails {mail : NotifyMail} : mail ∈ c.activityMails ↔
    ∃ u user, c.actor ∈ st.members ∧ u ∈ st.members ∧ u ≠ c.actor ∧ c.teller ≠ some u ∧
      (∀ mail' ∈ c.assignmentMail, mail'.userID ≠ u) ∧ st.mailUser u .cardActivity = some user ∧
        mail = c.mailFor u .cardActivity user := by
  have hexcluded (u : ℕ) : u ∈ c.teller.toList ++ c.assignmentMail.toList.map (·.userID) ↔
      ¬ (c.teller ≠ some u ∧ ∀ mail' ∈ c.assignmentMail, mail'.userID ≠ u) := by
    rw [List.mem_append, Option.mem_toList, List.mem_map]
    simp only [Option.mem_toList, not_and_or, not_not, not_forall, exists_prop]
    rfl
  unfold activityMails NotifyStore.handleActivity NotifyStore.listProjectMembers
  constructor
  · intro h
    split at h
    · cases h
    · split at h
      · cases h
      · rename_i members hmembers
        split at hmembers
        · rename_i hactor
          cases hmembers
          obtain ⟨u, hu, h⟩ := List.mem_filterMap.mp h
          split at h
          · cases h
          · rename_i hother
            obtain ⟨user, huser, rfl⟩ := Option.map_eq_some_iff.mp h
            obtain ⟨hne, hincluded⟩ := not_or.mp hother
            obtain ⟨hteller, hassigned⟩ := not_not.mp (mt (hexcluded u).mpr hincluded)
            exact ⟨u, user, hactor, List.mem_of_mem_filter hu, hne, hteller, hassigned, huser, rfl⟩
        · cases hmembers
  · rintro ⟨u, user, hactor, hu, hne, hteller, hassigned, huser, rfl⟩
    have hpos := st.members_pos c.actor hactor
    obtain ⟨pref, -, -, -, hsome, -⟩ := NotifyStore.mailUser_eq_some.mp huser
    rw [if_neg (by omega), if_pos hactor]
    refine List.mem_filterMap.mpr ⟨u, List.mem_filter.mpr ⟨hu, by rw [hsome]; rfl⟩, ?_⟩
    rw [if_neg (not_or.mpr ⟨hne, fun hin => (hexcluded u).mp hin ⟨hteller, hassigned⟩⟩), huser]
    rfl

theorem tellsCreator_iff {u : ℕ} (hne : u ≠ c.actor) :
    c.TellsCreator u ↔ c.teller = some u ∧ u ∈ st.members := by
  rw [teller_eq_some]
  exact ⟨fun h => ⟨⟨h.1, h.2.1, h.2.2.2.1, h.2.2.1, hne.symm⟩, h.2.2.2.2⟩,
    fun h => ⟨h.1.1, h.1.2.1, h.1.2.2.2.1, h.1.2.2.1, h.2⟩⟩

theorem reauthorizes_notification {u : ℕ} (h : c.teller = some u) :
    st.Reauthorizes (c.notification u) ↔ u ∈ st.members := by
  obtain ⟨hmutation, hdurable, hactor, hcreator, hne⟩ := teller_eq_some.mp h
  exact ⟨fun hreauth => hreauth.2.2.2.2, fun hmember =>
    ⟨⟨st.projectID_pos, c.todoID_pos, c.localID_pos, c.createdBy_pos u hcreator, hactor, hne.symm,
      reason_of_ne_create hmutation⟩, rfl, hdurable, st.slug_ne, hmember⟩⟩

theorem creatorMail_eq_some {mail : NotifyMail} : c.creatorMail = some mail ↔
    ∃ u pref user category, c.teller = some u ∧ u ∈ st.members ∧ c.materialChanged = true ∧
      st.prefs u = some pref ∧ st.users u = some user ∧ pref.enabled = true ∧ user.email ≠ "" ∧
        NotifyStore.selectCreatorEmailCategory pref (c.notification u) = some category ∧
          mail = c.mailFor u category user := by
  unfold creatorMail NotifyStore.prepare
  constructor
  · intro h
    obtain ⟨u, hteller, h⟩ := Option.bind_eq_some_iff.mp h
    split at h
    · rename_i hcond
      split at h
      · rename_i pref user hpref huser
        split at h
        · rename_i hon
          obtain ⟨category, hselect, rfl⟩ := Option.map_eq_some_iff.mp h
          exact ⟨u, pref, user, category, hteller, (reauthorizes_notification hteller).mp hcond.1,
            hcond.2, hpref, huser, hon.1, hon.2, hselect, by rw [creatorSubject_notification]; rfl⟩
        · cases h
      · cases h
    · cases h
  · rintro ⟨u, pref, user, category, hteller, hmember, hmaterial, hpref, huser, henabled, hemail, hselect,
      rfl⟩
    have hrecipient : (c.notification u).recipient = u := rfl
    rw [hteller, Option.bind_some, if_pos ⟨(reauthorizes_notification hteller).mpr hmember, hmaterial⟩,
      hrecipient, hpref, huser]
    dsimp only
    rw [if_pos ⟨henabled, hemail⟩, hselect, Option.map_some, creatorSubject_notification]
    rfl

variable {u : ℕ} {pref : EmailNotifyPref} {user : MailUser}

/-- A user whose mail is on and who did not make the change. -/
theorem due_eq (hpref : st.prefs u = some pref) (huser : st.users u = some user)
    (henabled : pref.enabled = true) (hemail : user.email ≠ "") (hne : u ≠ c.actor) :
    c.due u =
      if c.assignmentChanged = true ∧ c.assignee = some u ∧ pref.assigned = true then some .assigned
      else if c.TellsCreator u then
        if c.materialChanged = false then none
        else if pref.createdByMe then some .createdByMe
        else if pref.cardActivity then some .cardActivity
        else none
      else if c.actor ∈ st.members ∧ u ∈ st.members ∧ pref.cardActivity = true then some .cardActivity
      else none := by
  unfold due
  rw [hpref, huser]
  dsimp only
  rw [if_neg]
  rintro (hoff | hempty | hactor)
  · rw [henabled] at hoff
    cases hoff
  · exact hemail hempty
  · exact hne hactor

theorem exists_of_due {category : EmailCategory} (h : c.due u = some category) :
    ∃ pref user, st.prefs u = some pref ∧ st.users u = some user ∧ pref.enabled = true ∧
      user.email ≠ "" ∧ u ≠ c.actor := by
  unfold due at h
  split at h
  · rename_i pref user hpref huser
    split at h
    · cases h
    · rename_i hon
      obtain ⟨henabled, hemail, hne⟩ := not_or.mp hon |>.imp id not_or.mp
      exact ⟨pref, user, hpref, huser, by simpa using henabled, hemail, hne⟩
  · cases h

theorem material_of_assigned (hchanged : c.assignmentChanged = true) (hmutation : c.mutation ≠ .create) :
    c.materialChanged = true := by
  unfold materialChanged
  cases hm : c.mutation with
  | create => exact absurd hm hmutation
  | update fromAssignee changed =>
      dsimp only
      rw [hchanged, Bool.true_or]
  | move fromName toName changed =>
      rw [assignmentChanged, hm] at hchanged
      cases hchanged

theorem select_notification (c : CardChange st) (pref : EmailNotifyPref) (u : ℕ) :
    NotifyStore.selectCreatorEmailCategory pref (c.notification u) =
      if c.assignmentChanged = true ∧ c.assignee = some u ∧ pref.assigned = true then some .assigned
      else if pref.createdByMe then some .createdByMe
      else if pref.cardActivity then some .cardActivity
      else none := by
  unfold NotifyStore.selectCreatorEmailCategory notification
  simp

/-- The jobs hold the e-mails that are due, and no others. -/
theorem mem_jobs_mails {mail : NotifyMail} : mail ∈ c.jobs.filterMap (·.mail st) ↔
    ∃ u category user, c.due u = some category ∧ st.users u = some user ∧
      mail = c.mailFor u category user := by
  rw [jobs_mails, List.mem_append, List.mem_append, Option.mem_toList, Option.mem_toList]
  constructor
  · rintro ((hmail | hmail) | hmail)
    · obtain ⟨u, user, hchanged, hassignee, -, hactor, hto, rfl⟩ := assignmentMail_eq_some.mp hmail
      obtain ⟨pref, hpref, henabled, hassigned, huser, hemail⟩ := NotifyStore.mailUser_eq_some.mp hto
      refine ⟨u, .assigned, user, ?_, huser, rfl⟩
      rw [due_eq hpref huser henabled hemail (Ne.symm hactor), if_pos ⟨hchanged, hassignee, hassigned⟩]
    · obtain ⟨u, user, hactor, hu, hne, hteller, hother, hto, rfl⟩ := mem_activityMails.mp hmail
      obtain ⟨pref, hpref, henabled, hactivity, huser, hemail⟩ := NotifyStore.mailUser_eq_some.mp hto
      refine ⟨u, .cardActivity, user, ?_, huser, rfl⟩
      rw [due_eq hpref huser henabled hemail hne, if_neg, if_neg, if_pos ⟨hactor, hu, hactivity⟩]
      · exact fun htells => hteller ((tellsCreator_iff hne).mp htells).1
      · rintro ⟨hchanged, hassignee, hassigned⟩
        have hassignment := assignmentMail_eq_some.mpr ⟨u, user, hchanged, hassignee, hteller, Ne.symm hne,
          NotifyStore.mailUser_eq_some.mpr ⟨pref, hpref, henabled, hassigned, huser, hemail⟩, rfl⟩
        exact hother _ hassignment rfl
    · obtain ⟨u, pref, user, category, hteller, hu, hmaterial, hpref, huser, henabled, hemail, hselect, rfl⟩ :=
        creatorMail_eq_some.mp hmail
      have hne : u ≠ c.actor := Ne.symm (teller_eq_some.mp hteller).2.2.2.2
      refine ⟨u, category, user, ?_, huser, rfl⟩
      have hnot : ¬ c.materialChanged = false := by simp [hmaterial]
      rw [due_eq hpref huser henabled hemail hne, ← hselect, select_notification]
      by_cases hassigned : c.assignmentChanged = true ∧ c.assignee = some u ∧ pref.assigned = true
      · rw [if_pos hassigned, if_pos hassigned]
      · rw [if_neg hassigned, if_neg hassigned, if_pos ((tellsCreator_iff hne).mpr ⟨hteller, hu⟩),
          if_neg hnot]
  · rintro ⟨u, category, user, hdue, huser, rfl⟩
    obtain ⟨pref, user', hpref, huser', henabled, hemail, hne⟩ := exists_of_due hdue
    cases huser.symm.trans huser'
    rw [due_eq hpref huser henabled hemail hne] at hdue
    by_cases hassigned : c.assignmentChanged = true ∧ c.assignee = some u ∧ pref.assigned = true
    · rw [if_pos hassigned] at hdue
      cases hdue
      by_cases hteller : c.teller = some u
      · refine .inr (creatorMail_eq_some.mpr ⟨u, pref, user, .assigned, hteller,
          c.assignee_member hassigned.1 u hassigned.2.1,
          material_of_assigned hassigned.1 (teller_eq_some.mp hteller).1, hpref, huser, henabled, hemail,
          if_pos hassigned, rfl⟩)
      · exact .inl (.inl (assignmentMail_eq_some.mpr ⟨u, user, hassigned.1, hassigned.2.1, hteller,
          Ne.symm hne, NotifyStore.mailUser_eq_some.mpr
            ⟨pref, hpref, henabled, hassigned.2.2, huser, hemail⟩, rfl⟩))
    · rw [if_neg hassigned] at hdue
      by_cases htells : c.TellsCreator u
      · rw [if_pos htells] at hdue
        obtain ⟨hteller, hu⟩ := (tellsCreator_iff hne).mp htells
        split at hdue
        · cases hdue
        · rename_i hmaterial
          refine .inr (creatorMail_eq_some.mpr ⟨u, pref, user, category, hteller, hu,
            by simpa using hmaterial, hpref, huser, henabled, hemail, ?_, rfl⟩)
          rw [← hdue, select_notification, if_neg hassigned]
      · rw [if_neg htells] at hdue
        split at hdue
        · rename_i hactivity
          cases hdue
          refine .inl (.inr (mem_activityMails.mpr ⟨u, user, hactivity.1, hactivity.2.1, hne,
            fun hteller => htells ((tellsCreator_iff hne).mpr ⟨hteller, hactivity.2.1⟩),
            fun mail' hmail' heq => ?_, NotifyStore.mailUser_eq_some.mpr
              ⟨pref, hpref, henabled, hactivity.2.2, huser, hemail⟩, rfl⟩))
          obtain ⟨u', user', hchanged, hassignee, -, -, hmail, rfl⟩ := assignmentMail_eq_some.mp hmail'
          obtain ⟨pref', hpref', -, hassigned', -, -⟩ := NotifyStore.mailUser_eq_some.mp hmail
          have hsame : u' = u := heq
          subst hsame
          cases hpref.symm.trans hpref'
          exact hassigned ⟨hchanged, hassignee, hassigned'⟩
        · cases hdue

theorem map_filterMap_sublist {f : ℕ → Option NotifyMail}
    (hf : ∀ u mail, f u = some mail → mail.userID = u) (l : List ℕ) :
    ((l.filterMap f).map (·.userID)).Sublist l := by
  induction l with
  | nil => exact List.Sublist.refl _
  | cons u l ih =>
      rw [List.filterMap_cons]
      cases hmail : f u with
      | none => exact ih.cons u
      | some mail =>
          have hsame := hf u mail hmail
          rw [List.map_cons, hsame]
          exact ih.cons_cons u

/-- The activity e-mails follow the list of members. -/
theorem activityMails_sublist (c : CardChange st) :
    (c.activityMails.map (·.userID)).Sublist st.members := by
  unfold activityMails NotifyStore.handleActivity NotifyStore.listProjectMembers
  split
  · exact List.nil_sublist _
  · split
    · exact List.nil_sublist _
    · rename_i members hmembers
      split at hmembers
      · cases hmembers
        refine (map_filterMap_sublist (fun u mail hmail => ?_) _).trans List.filter_sublist
        split at hmail
        · cases hmail
        · obtain ⟨user, -, rfl⟩ := Option.map_eq_some_iff.mp hmail
          rfl
      · cases hmembers

/-- No user has two e-mails among the jobs. -/
theorem nodup_jobs_mails (c : CardChange st) :
    ((c.jobs.filterMap (·.mail st)).map (·.userID)).Nodup := by
  have htoList (o : Option NotifyMail) : (o.toList.map (·.userID)).Nodup := by
    cases o with
    | none => exact List.nodup_nil
    | some mail => exact List.nodup_singleton _
  rw [jobs_mails, List.map_append, List.map_append, List.nodup_append, List.nodup_append]
  refine ⟨⟨htoList _, st.members_nodup.sublist c.activityMails_sublist, ?_⟩, htoList _, ?_⟩
  · rintro _ hassigned _ hactivity rfl
    obtain ⟨mail, hmail, hsame⟩ := List.mem_map.mp hassigned
    obtain ⟨mail', hmail', heq⟩ := List.mem_map.mp hactivity
    obtain ⟨u, user, -, -, -, -, hother, -, rfl⟩ := mem_activityMails.mp hmail'
    exact hother mail (Option.mem_toList.mp hmail) (hsame.trans heq.symm)
  · rintro _ hfirst _ hcreator rfl
    obtain ⟨mail', hmail', heq⟩ := List.mem_map.mp hcreator
    obtain ⟨u, pref, user, category, hteller, -, -, -, -, -, -, -, rfl⟩ :=
      creatorMail_eq_some.mp (Option.mem_toList.mp hmail')
    rcases List.mem_append.mp hfirst with hassigned | hactivity
    · obtain ⟨mail, hmail, hsame⟩ := List.mem_map.mp hassigned
      obtain ⟨u', user', -, -, hnot, -, -, rfl⟩ :=
        assignmentMail_eq_some.mp (Option.mem_toList.mp hmail)
      exact hnot (hteller.trans (congrArg some (heq.trans hsame.symm)))
    · obtain ⟨mail, hmail, hsame⟩ := List.mem_map.mp hactivity
      obtain ⟨u', user', -, -, -, hnot, -, -, rfl⟩ := mem_activityMails.mp hmail
      exact hnot (hteller.trans (congrArg some (heq.trans hsame.symm)))

end CardChange

/-! ## Subjects -/

/-- The text is on one line. -/
def LineFree (s : String) : Prop := '\r' ∉ s.toList ∧ '\n' ∉ s.toList

instance (s : String) : Decidable (LineFree s) := inferInstanceAs (Decidable (_ ∧ _))

theorem validateHeaderValue_iff (s : String) : validateHeaderValue s = true ↔ LineFree s := by
  unfold validateHeaderValue LineFree
  rw [Bool.not_eq_true', List.any_eq_false]
  constructor
  · intro h
    exact ⟨fun hmem => h _ hmem rfl, fun hmem => h _ hmem rfl⟩
  · rintro ⟨hreturn, hnewline⟩ c hmem hc
    rw [Bool.or_eq_true, beq_iff_eq, beq_iff_eq] at hc
    rcases hc with rfl | rfl
    · exact hreturn hmem
    · exact hnewline hmem

@[simp] theorem lineFree_append (s t : String) : LineFree (s ++ t) ↔ LineFree s ∧ LineFree t := by
  unfold LineFree
  rw [String.toList_append, List.mem_append, List.mem_append, not_or, not_or]
  exact and_and_and_comm

theorem lineFree_formatInt (n : ℤ) : LineFree (formatInt n) := by
  constructor <;>
  · intro hmem
    rcases isDigit_of_mem_formatInt hmem with h | h
    · exact absurd h (by decide)
    · exact absurd h (by decide)

theorem trimSpace_destination (reason : ActivityReason) (fromName toName : String) :
    trimSpace (moveDestinationName reason fromName toName) = moveDestinationName reason fromName toName := by
  have hempty : trimSpace "" = "" := trimSpace_eq_self "" nofun
  unfold moveDestinationName
  split
  · exact hempty
  · dsimp only
    split
    · exact hempty
    · exact trimSpace_trimSpace _

namespace CardChange

variable {st : NotifyStore} {c : CardChange st}

/-- The number and the title of the card. -/
def card (c : CardChange st) : String := "#" ++ formatInt c.localID ++ " " ++ c.title

theorem cardIdentity_eq (c : CardChange st) : cardIdentity c.localID c.title = some c.card := by
  have hpos := c.localID_pos
  unfold cardIdentity
  dsimp only
  rw [c.title_trimmed, if_neg]
  · rfl
  · rintro (h | h)
    · omega
    · exact c.title_ne h

theorem trimSpace_card (c : CardChange st) : trimSpace c.card = c.card := by
  have hlist : c.card.toList = '#' :: ((formatInt c.localID).toList ++ ' ' :: c.title.toList) := by
    unfold card
    simp
  unfold trimSpace
  refine trimFunc_eq_self_of_ends isSpace c.card ?_ ?_
  · intro ch hhead
    rw [hlist] at hhead
    cases hhead
    decide
  · intro ch hlast
    have hne : c.title.toList ≠ [] := fun h => c.title_ne (String.toList_inj.mp h)
    rw [hlist, List.getLast?_cons, List.getLast?_append, List.getLast?_cons,
      List.getLast?_eq_some_getLast hne] at hlast
    have hsame : c.title.toList.getLast hne = ch := by simpa using hlast
    have htrimmed := getLast_rdropWhile isSpace (c.title.toList.dropWhile isSpace) ch
    rw [← toList_trimFunc] at htrimmed
    apply htrimmed
    have htitle := c.title_trimmed
    unfold trimSpace at htitle
    rw [htitle, List.getLast?_eq_some_getLast hne, hsame]

theorem card_ne (c : CardChange st) : c.card ≠ "" := by
  intro h
  have hlist := congrArg String.toList h
  unfold card at hlist
  simp at hlist

theorem lineFree_card (c : CardChange st) : LineFree c.card ↔ LineFree c.title := by
  unfold card
  rw [lineFree_append, lineFree_append, lineFree_append]
  exact ⟨fun h => h.2, fun h => ⟨⟨⟨by decide, lineFree_formatInt _⟩, by decide⟩, h⟩⟩

theorem lineFree_cardMovedSubject (c : CardChange st) :
    LineFree (cardMovedSubject st.name ((cardIdentity c.localID c.title).getD "")
      (moveDestinationName c.reason c.fromName c.toName)) ↔
    LineFree st.name ∧ LineFree c.title ∧ LineFree (moveDestinationName c.reason c.fromName c.toName) := by
  have hempty : LineFree "" := by decide
  unfold cardMovedSubject
  dsimp only
  rw [cardIdentity_eq, Option.getD_some, st.name_trimmed, trimSpace_card, trimSpace_destination]
  by_cases hdestination : moveDestinationName c.reason c.fromName c.toName = ""
  · rw [if_neg fun h => h.2 hdestination, if_pos c.card_ne, hdestination]
    simp only [lineFree_append, lineFree_card]
    exact ⟨fun h => ⟨h.1.1.1, h.1.2, hempty⟩, fun h => ⟨⟨⟨h.1, by decide⟩, h.2.1⟩, by decide⟩⟩
  · rw [if_pos ⟨c.card_ne, hdestination⟩]
    simp only [lineFree_append, lineFree_card]
    exact ⟨fun h => ⟨h.1.1.1.1, h.1.1.2, h.2⟩, fun h => ⟨⟨⟨⟨h.1, by decide⟩, h.2.1⟩, by decide⟩, h.2.2⟩⟩

theorem lineFree_activitySubject (c : CardChange st) :
    LineFree (activitySubject st.name c.reason ⟨c.localID, c.title, c.fromName, c.toName⟩) ↔
    LineFree st.name ∧ LineFree c.title ∧ LineFree (moveDestinationName c.reason c.fromName c.toName) := by
  have hother (hreason : c.reason ≠ .todoMoved) :
      moveDestinationName c.reason c.fromName c.toName = "" := if_pos hreason
  have hphrase (reason : ActivityReason) : LineFree (refreshReasonSubject reason) := by
    cases reason <;> decide
  by_cases hreason : c.reason = .todoMoved
  · have hmoved := lineFree_cardMovedSubject c
    unfold activitySubject
    rw [hreason] at hmoved ⊢
    exact hmoved
  · have hsubject : activitySubject st.name c.reason ⟨c.localID, c.title, c.fromName, c.toName⟩ =
        st.name ++ ": " ++ refreshReasonSubject c.reason ++ " — " ++ c.card := by
      unfold activitySubject
      dsimp only
      rw [cardIdentity_eq]
      cases hr : c.reason with
      | todoMoved => exact absurd hr hreason
      | todoCreated => rfl
      | todoUpdated => rfl
    rw [hsubject, hother hreason]
    simp only [lineFree_append, lineFree_card]
    exact ⟨fun h => ⟨h.1.1.1.1, h.2, by decide⟩,
      fun h => ⟨⟨⟨⟨h.1, by decide⟩, hphrase _⟩, by decide⟩, h.2.1⟩⟩

/-- The header check looks at the texts of users in the subject. -/
theorem validateHeaderValue_subject (c : CardChange st) (category : EmailCategory) :
    validateHeaderValue (c.subject category) = true ↔ ∀ text ∈ c.subjectTexts category, LineFree text := by
  rw [validateHeaderValue_iff]
  cases category with
  | assigned =>
      unfold subject subjectTexts
      rw [lineFree_append, List.forall_mem_singleton]
      exact ⟨fun h => h.2, fun h => ⟨by decide, h⟩⟩
  | createdByMe =>
      unfold subject subjectTexts
      dsimp only
      split
      · rw [lineFree_cardMovedSubject]
        simp
      · rw [lineFree_append, List.forall_mem_singleton]
        exact ⟨fun h => h.2, fun h => ⟨by decide, h⟩⟩
  | cardActivity =>
      unfold subject subjectTexts
      rw [lineFree_activitySubject]
      simp

/-! ## Every change -/

theorem told_of_lineFree
    (h : ∀ u category, c.due u = some category → ∀ text ∈ c.subjectTexts category, LineFree text) :
    c.ToldRightly := by
  intro lastSent jobs hperm
  obtain ⟨handed, hmails, hsub, hother⟩ := @EmailNotifier.doJobs_mails st { lastSent } jobs
  have hall : (EmailNotifier.mailsOf st jobs).Perm (c.jobs.filterMap (·.mail st)) := hperm.filterMap _
  have hdue : ∀ mail ∈ handed, ∃ u category user, c.due u = some category ∧ st.users u = some user ∧
      mail = c.mailFor u category user :=
    fun mail hmail => mem_jobs_mails.mp (hall.mem_iff.mp (hsub.subset hmail))
  rw [hmails, List.nil_append]
  refine ⟨?_, ?_, ?_, ?_, ?_⟩
  · exact ((hall.map _).nodup_iff.mpr c.nodup_jobs_mails).sublist (hsub.map _)
  · intro mail hmail
    obtain ⟨u, category, user, hcategory, -, rfl⟩ := hdue mail hmail
    obtain ⟨-, -, -, -, -, -, hne⟩ := exists_of_due hcategory
    exact hne
  · intro mail hmail
    obtain ⟨u, category, user, hcategory, huser, rfl⟩ := hdue mail hmail
    obtain ⟨pref, user', hpref, huser', henabled, hemail, hne⟩ := exists_of_due hcategory
    refine ⟨pref, hpref, henabled, ?_⟩
    rw [due_eq hpref huser' henabled hemail hne] at hcategory
    split at hcategory
    · rename_i hassigned
      exact .inl ⟨hassigned.2.2, hassigned.1, hassigned.2.1⟩
    · split at hcategory
      · rename_i htells
        split at hcategory
        · cases hcategory
        · split at hcategory
          · rename_i hcreated
            exact .inr (.inl ⟨hcreated, htells.2.2.1⟩)
          · split at hcategory
            · rename_i hactivity
              exact .inr (.inr hactivity)
            · cases hcategory
      · split at hcategory
        · rename_i hactivity
          exact .inr (.inr hactivity.2.2)
        · cases hcategory
  · rintro u hchanged hassignee hne ⟨pref, hpref, henabled, hassigned⟩ ⟨user, huser, hemail⟩
    have hcategory : c.due u = some .assigned := by
      rw [due_eq hpref huser henabled hemail hne, if_pos ⟨hchanged, hassignee, hassigned⟩]
    refine ⟨c.mailFor u .assigned user, hother _ ?_ nofun, rfl, rfl⟩
    exact hall.mem_iff.mpr (mem_jobs_mails.mpr ⟨u, .assigned, user, hcategory, huser, rfl⟩)
  · intro mail hmail
    obtain ⟨u, category, user, hcategory, -, rfl⟩ := hdue mail hmail
    exact (validateHeaderValue_subject c category).mpr (h u category hcategory)

theorem lineFree_of_told (h : c.ToldRightly) {u : ℕ} {category : EmailCategory}
    (hdue : c.due u = some category) : ∀ text ∈ c.subjectTexts category, LineFree text := by
  obtain ⟨pref, user, hpref, huser, -, -, -⟩ := exists_of_due hdue
  have hjobs : ((c.jobs.map fun job => (job, (0 : ℤ))).map (·.1)) = c.jobs := by
    rw [List.map_map]
    exact List.map_id _
  have htold := h (fun _ => none) (c.jobs.map fun job => (job, 0)) (by rw [hjobs])
  have hmails : EmailNotifier.mailsOf st (c.jobs.map fun job => (job, (0 : ℤ))) =
      c.jobs.filterMap (·.mail st) := by
    unfold EmailNotifier.mailsOf
    rw [hjobs]
  have hfresh := @EmailNotifier.doJobs_fresh st { lastSent := fun _ => none }
    (c.jobs.map fun job => (job, (0 : ℤ))) (by rw [hmails]; exact c.nodup_jobs_mails)
    fun _ _ => rfl
  rw [hmails, List.nil_append] at hfresh
  refine (validateHeaderValue_subject c category).mp (htold.subjects (c.mailFor u category user) ?_)
  rw [hfresh]
  exact mem_jobs_mails.mpr ⟨u, category, user, hdue, huser, rfl⟩

end CardChange

/-- The e-mails about a change are right in every order exactly when no user is due one whose subject
has a text with a line break. -/
theorem told_rightly_iff {st : NotifyStore} (c : CardChange st) : c.ToldRightly ↔
    ∀ u category, c.due u = some category → ∀ text ∈ c.subjectTexts category, LineFree text :=
  ⟨fun h _ _ hdue => CardChange.lineFree_of_told h hdue, CardChange.told_of_lineFree⟩

/-- A project of two, where the second has mail for assignments on. -/
def pairStore : NotifyStore where
  projectID := 1
  slug := "plan"
  name := "Plan"
  durable := true
  members := [1, 2]
  users u := if u = 1 then some ⟨"Ann", "ann@example.com"⟩ else some ⟨"Bob", "bob@example.com"⟩
  prefs _ := some { enabled := true }
  projectID_pos := by decide
  slug_ne := by decide
  name_trimmed := by decide +kernel
  members_nodup := by decide
  members_pos := by decide

/-- The first assigns a card, whose title has two lines, to the second. -/
def twoLineTitle : CardChange pairStore where
  mutation := .update none false
  todoID := 7
  localID := 3
  title := "Fix\nlogin"
  createdBy := some 1
  assignee := some 2
  actor := 1
  todoID_pos := by decide
  localID_pos := by decide
  title_trimmed := by decide +kernel
  title_ne := by decide
  createdBy_pos := by simp
  assignee_member := by simp [pairStore]

/-- The mailer refuses the e-mail for the assignee. -/
theorem two_line_subject : ¬ ∀ (st : NotifyStore) (c : CardChange st), c.ToldRightly := by
  intro h
  have hfree := @CardChange.lineFree_of_told pairStore twoLineTitle (h pairStore twoLineTitle) 2 .assigned
    (by decide +kernel)
  exact absurd (hfree "Fix\nlogin" (by decide +kernel)) (by decide)

end Scrumboy
