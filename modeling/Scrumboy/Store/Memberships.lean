import Scrumboy.Go.Strings
import Scrumboy.Store.Access
import Scrumboy.Transition.Runs

/-!
# Changing memberships

Removing a member and changing a member's role, as they run next to each other.
A request reads the role of its requester, then the role of its target, then
perhaps the number of maintainers, each in a statement of its own, and writes in
a transaction at the end. So a request is a small program whose steps interleave
with those of other requests, and a schedule says whose step comes next.

The system also records which projects lost a maintainer, and a request records
how often that had happened to its project when it counted. No step reads these
records; they say which counts are still fresh.
-/

set_option linter.dupNamespace false

namespace Scrumboy

open Go Sql

inductive MemberRequest
  | remove (requesterID projectID targetUserID : ℤ)
  | updateRole (requesterID projectID targetUserID : ℤ) (newRole : String)
  deriving DecidableEq, Repr

namespace MemberRequest

def requesterID : MemberRequest → ℤ
  | .remove requesterID _ _ => requesterID
  | .updateRole requesterID _ _ _ => requesterID

def projectID : MemberRequest → ℤ
  | .remove _ projectID _ => projectID
  | .updateRole _ projectID _ _ => projectID

def targetUserID : MemberRequest → ℤ
  | .remove _ _ targetUserID => targetUserID
  | .updateRole _ _ targetUserID _ => targetUserID

end MemberRequest

/-- The roles that a request may give. -/
def parseMemberRole (s : String) : Option ProjectRole :=
  match toLower (trimSpace s) with
  | "maintainer" => some .maintainer
  | "contributor" => some .contributor
  | "viewer" => some .viewer
  | _ => none

/-- The members that count as maintainers. -/
def MemberRow.isMaintainer (m : MemberRow) : Bool := m.role == .maintainer || m.role == .owner

def countMaintainers (db : DB) (projectID : ℤ) : ℕ :=
  db.members.countP fun m => m.projectID == projectID && m.isMaintainer

/-- Where a request stands, or how it ended. -/
inductive MemberPC
  | readRequester
  | readTarget
  | count
  | write (seen : Option ℕ)
  | done (result : Result Unit)
  deriving Repr

namespace MemberRequest

/-- After the role of the requester was read. -/
def afterRequester (req : MemberRequest) (role : Option ProjectRole) : MemberPC :=
  if hasMinimumRole role .maintainer then
    match req with
    | .remove .. => .readTarget
    | .updateRole _ _ _ newRole =>
        if (parseMemberRole newRole).isNone then .done (.error ⟨.validation, "invalid role"⟩)
        else .readTarget
  else .done (.error ⟨.unauthorized, ""⟩)

/-- After the role of the target was read. -/
def afterTarget (req : MemberRequest) (role : Option ProjectRole) : MemberPC :=
  match role with
  | none => .done (.error ⟨.notFound, ""⟩)
  | some current =>
      match req with
      | .remove .. => if hasMinimumRole (some current) .maintainer then .count else .write none
      | .updateRole requesterID _ targetUserID newRole =>
          let role := parseMemberRole newRole
          let demotes := role == some .contributor || role == some .viewer
          if role = some current then .done (.ok ())
          else if requesterID == targetUserID && demotes then
            .done (.error ⟨.conflict, "cannot demote yourself"⟩)
          else if hasMinimumRole (some current) .maintainer && demotes then .count
          else .write none

/-- After the maintainers were counted. -/
def afterCount (req : MemberRequest) (n lost : ℕ) : MemberPC :=
  if n ≤ 1 then
    .done (.error (match req with
      | .remove .. => ⟨.validation, "cannot remove last maintainer"⟩
      | .updateRole .. => ⟨.conflict, "cannot demote the last maintainer"⟩))
  else .write (some lost)

/-- The transaction at the end. A removed member loses the active todos that were
assigned to them. -/
def commit (req : MemberRequest) (db : DB) : Result DB :=
  if (getProjectRole db req.projectID req.targetUserID).isNone then .error ⟨.notFound, ""⟩
  else
    match req with
    | .remove _ projectID targetUserID => .ok { db with
        todos := updateWhere (fun t => t.projectID == projectID &&
          t.assigneeUserID == some targetUserID && t.archivedAt == none)
          (fun t => { t with assigneeUserID := none }) db.todos
        members := deleteWhere (fun m => m.projectID == projectID && m.userID == targetUserID)
          db.members }
    | .updateRole _ projectID targetUserID newRole => .ok { db with
        members := updateWhere (fun m => m.projectID == projectID && m.userID == targetUserID)
          (fun m => { m with role := (parseMemberRole newRole).getD m.role }) db.members }

/-- How a request that has read everything ends. -/
def finish (req : MemberRequest) (db : DB) : MemberPC → Result DB
  | .write _ => req.commit db
  | .done result => (fun _ => db) <$> result
  | _ => .error ⟨.internal, ""⟩

/-- The request on its own: its steps on one database, without others in between. -/
def exec (req : MemberRequest) (db : DB) : Result DB :=
  match req.afterRequester (getProjectRole db req.projectID req.requesterID) with
  | .readTarget =>
      match req.afterTarget (getProjectRole db req.projectID req.targetUserID) with
      | .count => req.finish db (req.afterCount (countMaintainers db req.projectID) 0)
      | pc => req.finish db pc
  | pc => req.finish db pc

/-- The role that the write of a request leaves its target with, if any. -/
def leaves : MemberRequest → Option ProjectRole
  | .remove .. => none
  | .updateRole _ _ _ newRole => parseMemberRole newRole

/-- The write of a request takes a maintainer away from its project. -/
def takesMaintainer (req : MemberRequest) (db : DB) : Bool :=
  hasMinimumRole (getProjectRole db req.projectID req.targetUserID) .maintainer &&
    !hasMinimumRole req.leaves .maintainer

end MemberRequest

def addProjectMember (ctx : Ctx) (db : DB) (requesterID projectID targetUserID : ℤ)
    (role : ProjectRole) : Result DB := do
  let _ ← getProject db projectID
  reject (targetUserID ∉ db.users) ⟨.notFound, ""⟩
  reject (hasMinimumRole (getProjectRole db projectID requesterID) .maintainer = false)
    ⟨.unauthorized, ""⟩
  reject (getProjectRole db projectID targetUserID ≠ none)
    ⟨.conflict, "user is already a member"⟩
  pure { db with members := db.members ++ [⟨projectID, targetUserID, role, ctx.nowMs⟩] }

/-- Requests under way on one database. -/
structure MemberSystem where
  db : DB
  procs : List (MemberRequest × MemberPC)
  lost : List ℤ

namespace MemberSystem

def start (db : DB) (reqs : List MemberRequest) : MemberSystem :=
  ⟨db, reqs.map fun req => (req, .readRequester), []⟩

/-- Request `i` is at `pc` now. -/
def goto (s : MemberSystem) (i : ℕ) (req : MemberRequest) (pc : MemberPC) : MemberSystem :=
  { s with procs := s.procs.set i (req, pc) }

/-- The next database step of request `i`. -/
def step (s : MemberSystem) (i : ℕ) : MemberSystem :=
  match s.procs[i]? with
  | none => s
  | some (req, pc) =>
      match pc with
      | .readRequester =>
          s.goto i req (req.afterRequester (getProjectRole s.db req.projectID req.requesterID))
      | .readTarget =>
          s.goto i req (req.afterTarget (getProjectRole s.db req.projectID req.targetUserID))
      | .count =>
          s.goto i req (req.afterCount (countMaintainers s.db req.projectID)
            (s.lost.count req.projectID))
      | .write _ =>
          match req.commit s.db with
          | .error e => s.goto i req (.done (.error e))
          | .ok db =>
              { db := db
                procs := s.procs.set i (req, .done (.ok ()))
                lost := if req.takesMaintainer s.db then req.projectID :: s.lost else s.lost }
      | .done _ => s

/-- If the next step of request `i` takes a maintainer away from the project, then
the request has counted, and no maintainer was lost since. -/
def FreshCount (projectID : ℤ) (s : MemberSystem) (i : ℕ) : Prop :=
  ∀ req seen, s.procs[i]? = some (req, .write seen) → req.projectID = projectID →
    req.takesMaintainer s.db = true → seen = some (s.lost.count projectID)

instance (projectID : ℤ) (s : MemberSystem) (i : ℕ) : Decidable (s.FreshCount projectID i) :=
  match hproc : s.procs[i]? with
  | some (req, .write seen) =>
      decidable_of_iff (req.projectID = projectID → req.takesMaintainer s.db = true →
        seen = some (s.lost.count projectID)) (by
          constructor
          · intro h req' seen' heq
            cases hproc.symm.trans heq
            exact h
          · intro h
            exact h req seen hproc)
  | none | some (_, .readRequester) | some (_, .readTarget) | some (_, .count) | some (_, .done _) =>
      .isTrue fun _ _ heq => by cases hproc.symm.trans heq

end MemberSystem

/-! ## What a write does to the number of maintainers -/

/-- The primary key of the table of members. -/
def MemberRow.key (m : MemberRow) : ℤ × ℤ := (m.projectID, m.userID)

theorem MemberRow.beq_key (m : MemberRow) (projectID userID : ℤ) :
    (m.projectID == projectID && m.userID == userID) = (m.key == (projectID, userID)) := rfl

/-- The role of a member is that of the row under its key. -/
theorem getProjectRole_eq_some {db : DB} {projectID userID : ℤ} {role : ProjectRole}
    (h : getProjectRole db projectID userID = some role) :
    ∃ m ∈ db.members, m.key = (projectID, userID) ∧ m.role = role := by
  obtain ⟨m, hfind, hrole⟩ := Option.map_eq_some_iff.mp h
  have hkey := List.find?_some hfind
  rw [MemberRow.beq_key, beq_iff_eq] at hkey
  exact ⟨m, List.mem_of_find?_eq_some hfind, hkey, hrole⟩

theorem hasMinimumRole_maintainer (m : MemberRow) :
    hasMinimumRole (some m.role) .maintainer = m.isMaintainer := by
  unfold MemberRow.isMaintainer
  cases m.role <;> rfl

section

variable {db db' : DB} {req : MemberRequest}

/-- The requests that ask for a role ask for a known one. -/
def MemberRequest.RoleOk : MemberRequest → Prop
  | .remove .. => True
  | .updateRole _ _ _ newRole => (parseMemberRole newRole).isSome

/-- A write that succeeds changes the one row of its target, which gets the role
that the request leaves, or goes. -/
theorem commit_spec (hkeys : (db.members.map MemberRow.key).Nodup) (hreq : req.RoleOk)
    (h : req.commit db = .ok db') :
    ∃ l₁, ∃ m : MemberRow, ∃ l₂, db.members = l₁ ++ m :: l₂ ∧ m.projectID = req.projectID ∧
      req.takesMaintainer db = (m.isMaintainer && !hasMinimumRole req.leaves .maintainer) ∧
      db'.members = l₁ ++ (req.leaves.map fun role => { m with role := role }).toList ++ l₂ := by
  unfold MemberRequest.commit at h
  split at h
  · cases h
  · rename_i hsome
    have hsome : ∃ role, getProjectRole db req.projectID req.targetUserID = some role :=
      Option.ne_none_iff_exists'.mp (by simpa using hsome)
    obtain ⟨role, hrole⟩ := hsome
    obtain ⟨m, hm, hkey, hmrole⟩ := getProjectRole_eq_some hrole
    obtain ⟨l₁, l₂, hsplit, hne⟩ := exists_split_key hkeys hm
    have hpid : m.projectID = req.projectID := congrArg Prod.fst hkey
    refine ⟨l₁, m, l₂, hsplit, hpid, ?_, ?_⟩
    · rw [MemberRequest.takesMaintainer, hrole, ← hmrole, hasMinimumRole_maintainer]
    · cases req with
      | remove requesterID projectID targetUserID =>
          cases h
          have hkey : m.key = (projectID, targetUserID) := hkey
          simp only [MemberRow.beq_key, MemberRequest.leaves, hsplit, ← hkey]
          rw [deleteWhere_split hne]
          simp
      | updateRole requesterID projectID targetUserID newRole =>
          cases h
          have hkey : m.key = (projectID, targetUserID) := hkey
          obtain ⟨new, hnew⟩ := Option.isSome_iff_exists.mp hreq
          simp only [MemberRow.beq_key, MemberRequest.leaves, hsplit, ← hkey, hnew]
          rw [updateWhere_split hne]
          simp

theorem commit_keys (hkeys : (db.members.map MemberRow.key).Nodup) (hreq : req.RoleOk)
    (h : req.commit db = .ok db') : (db'.members.map MemberRow.key).Nodup := by
  obtain ⟨l₁, m, l₂, hsplit, _, _, heq⟩ := commit_spec hkeys hreq h
  refine hkeys.sublist ?_
  rw [hsplit, heq]
  cases req.leaves with
  | none => simp
  | some role => simp [MemberRow.key]

/-- A write lowers the number of maintainers by at most one, and only if it takes a
maintainer away. -/
theorem commit_count (hkeys : (db.members.map MemberRow.key).Nodup) (hreq : req.RoleOk)
    (h : req.commit db = .ok db') (lost : List ℤ) (projectID : ℤ) :
    countMaintainers db projectID + lost.count projectID ≤
      countMaintainers db' projectID +
        (if req.takesMaintainer db then req.projectID :: lost else lost).count projectID := by
  obtain ⟨l₁, m, l₂, hsplit, hpid, htakes, heq⟩ := commit_spec hkeys hreq h
  rw [countMaintainers, countMaintainers, hsplit, heq, htakes]
  by_cases hp : req.projectID = projectID
  · have hm : m.projectID = projectID := hpid.trans hp
    cases hleaves : req.leaves with
    | none =>
        have hnone : hasMinimumRole none .maintainer = false := rfl
        cases hcount : m.isMaintainer <;> simp [hnone, hcount, hm, hp]
        omega
    | some role =>
        have hm' : MemberRow.projectID { m with role := role } = projectID := hm
        rw [hasMinimumRole_maintainer { m with role := role }, Option.map_some, Option.toList_some]
        generalize ({ m with role := role } : MemberRow) = m' at hm' ⊢
        cases hcount : m.isMaintainer <;> cases hcount' : m'.isMaintainer <;>
          simp [hcount, hcount', hm, hm', hp]
        omega
  · have hm : m.projectID ≠ projectID := hpid ▸ hp
    have hcount : (if (m.isMaintainer && !hasMinimumRole req.leaves .maintainer) = true then
        req.projectID :: lost else lost).count projectID = lost.count projectID := by
      split <;> simp [hp]
    rw [hcount]
    cases req.leaves <;> simp [hm]

end

/-! ## The last maintainer -/

/-- What a request knows at its place: that it asks for a known role, and that there
were two maintainers when it counted. -/
def MemberPC.Knows (projectID : ℤ) (total : ℕ) (req : MemberRequest) : MemberPC → Prop
  | .readRequester | .done _ => True
  | .readTarget | .count => req.RoleOk
  | .write seen => req.RoleOk ∧ ∀ n ∈ seen, req.projectID = projectID → 2 + n ≤ total

structure MaintainerInv (projectID : ℤ) (s : MemberSystem) : Prop where
  keys : (s.db.members.map MemberRow.key).Nodup
  pos : 1 ≤ countMaintainers s.db projectID
  knows : ∀ p ∈ s.procs,
    p.2.Knows projectID (countMaintainers s.db projectID + s.lost.count projectID) p.1

section

variable {projectID : ℤ} {s : MemberSystem}

theorem MemberPC.Knows.mono {req : MemberRequest} {pc : MemberPC} {m n : ℕ} (hmn : m ≤ n)
    (h : pc.Knows projectID m req) : pc.Knows projectID n req := by
  cases pc with
  | write seen => exact ⟨h.1, fun k hk hp => (h.2 k hk hp).trans hmn⟩
  | readRequester => trivial
  | readTarget => exact h
  | count => exact h
  | done result => trivial

/-- A step that writes nothing. -/
theorem MaintainerInv.goto (h : MaintainerInv projectID s) {i : ℕ} {req : MemberRequest}
    {pc : MemberPC} (hpc : pc.Knows projectID
      (countMaintainers s.db projectID + s.lost.count projectID) req) :
    MaintainerInv projectID (s.goto i req pc) where
  keys := h.keys
  pos := h.pos
  knows p hp := by
    rcases List.mem_or_eq_of_mem_set hp with hp | rfl
    · exact h.knows p hp
    · exact hpc

theorem knows_afterRequester (req : MemberRequest) (role : Option ProjectRole) (total : ℕ) :
    (req.afterRequester role).Knows projectID total req := by
  unfold MemberRequest.afterRequester
  split
  · cases req with
    | remove requesterID projectID targetUserID => trivial
    | updateRole requesterID projectID targetUserID newRole =>
        dsimp only
        split
        · trivial
        · rename_i hsome
          simpa [MemberPC.Knows, MemberRequest.RoleOk, Option.isSome_iff_ne_none] using hsome
  · trivial

theorem knows_afterTarget {req : MemberRequest} (hreq : req.RoleOk) (role : Option ProjectRole)
    (total : ℕ) : (req.afterTarget role).Knows projectID total req := by
  have hwrite : (MemberPC.write none).Knows projectID total req :=
    ⟨hreq, fun n hn => by cases hn⟩
  unfold MemberRequest.afterTarget
  cases role with
  | none => trivial
  | some current =>
      cases req with
      | remove requesterID projectID targetUserID =>
          dsimp only
          split
          · exact hreq
          · exact hwrite
      | updateRole requesterID projectID targetUserID newRole =>
          dsimp only
          split
          · trivial
          split
          · trivial
          split
          · exact hreq
          · exact hwrite

theorem knows_afterCount {req : MemberRequest} (hreq : req.RoleOk) (db : DB) (lost : List ℤ) :
    (req.afterCount (countMaintainers db req.projectID) (lost.count req.projectID)).Knows projectID
      (countMaintainers db projectID + lost.count projectID) req := by
  unfold MemberRequest.afterCount
  split
  · trivial
  · rename_i hn
    refine ⟨hreq, fun n hmem hp => ?_⟩
    cases hmem
    rw [hp] at hn ⊢
    omega

/-- A request on its own changes nothing, or does its write for a known role. -/
theorem MemberRequest.exec_eq_ok {req : MemberRequest} {db db' : DB} (h : req.exec db = .ok db') :
    db' = db ∨ req.RoleOk ∧ req.commit db = .ok db' := by
  have hfinish : ∀ (pc : MemberPC) (total : ℕ), pc.Knows 0 total req → req.finish db pc = .ok db' →
      db' = db ∨ req.RoleOk ∧ req.commit db = .ok db' := by
    intro pc total hknows hok
    cases pc with
    | write seen => exact .inr ⟨hknows.1, hok⟩
    | done result =>
        obtain ⟨_, _, rfl⟩ := map_eq_ok.mp hok
        exact .inl rfl
    | readRequester => cases hok
    | readTarget => cases hok
    | count => cases hok
  have hrequester : (req.afterRequester (getProjectRole db req.projectID req.requesterID)).Knows 0 0
      req := knows_afterRequester req _ 0
  unfold MemberRequest.exec at h
  split at h
  · rename_i heq
    have hreq : req.RoleOk := by
      rw [heq] at hrequester
      exact hrequester
    split at h
    · exact hfinish _ _ (knows_afterCount hreq db []) h
    · exact hfinish _ 0 (knows_afterTarget hreq _ 0) h
  · exact hfinish _ 0 hrequester h

theorem MaintainerInv.step (h : MaintainerInv projectID s) {i : ℕ}
    (hfresh : s.FreshCount projectID i) : MaintainerInv projectID (s.step i) := by
  unfold MemberSystem.step
  cases hproc : s.procs[i]? with
  | none => exact h
  | some p =>
      obtain ⟨req, pc⟩ := p
      have hknows := h.knows _ (List.mem_of_getElem? hproc)
      cases pc with
      | readRequester => exact h.goto (knows_afterRequester req _ _)
      | readTarget => exact h.goto (knows_afterTarget hknows _ _)
      | count => exact h.goto (knows_afterCount hknows _ _)
      | done result => exact h
      | write seen =>
          obtain ⟨hreq, hseen⟩ := hknows
          dsimp only
          cases hcommit : req.commit s.db with
          | error e => exact h.goto trivial
          | ok db' =>
              have hcount := commit_count h.keys hreq hcommit s.lost projectID
              refine ⟨commit_keys h.keys hreq hcommit, ?_, fun p hp => ?_⟩
              · have hpos := h.pos
                by_cases htakes : req.takesMaintainer s.db = true ∧ req.projectID = projectID
                · have hn := hseen _ (hfresh req seen hproc htakes.2 htakes.1) htakes.2
                  simp only [htakes, if_true, List.count_cons_self] at hcount
                  dsimp only
                  omega
                · have hlost : (if req.takesMaintainer s.db then req.projectID :: s.lost
                      else s.lost).count projectID = s.lost.count projectID := by
                    split
                    · rename_i ht
                      exact List.count_cons_of_ne fun heq => htakes ⟨ht, heq⟩
                    · rfl
                  rw [hlost] at hcount
                  dsimp only
                  omega
              · rcases List.mem_or_eq_of_mem_set hp with hp | rfl
                · exact (h.knows p hp).mono hcount
                · trivial

theorem MaintainerInv.start {db : DB} (hkeys : (db.members.map MemberRow.key).Nodup)
    (hpos : 1 ≤ countMaintainers db projectID) (reqs : List MemberRequest) :
    MaintainerInv projectID (.start db reqs) where
  keys := hkeys
  pos := hpos
  knows p hp := by
    obtain ⟨req, _, rfl⟩ := List.mem_map.mp hp
    trivial

end

/-- As long as every write that takes a maintainer away rests on a count that is still
fresh, a project with a maintainer has one after every step. -/
theorem maintainer_remains {db : DB} {projectID : ℤ} {reqs : List MemberRequest}
    {schedule : List ℕ} (hkeys : (db.members.map MemberRow.key).Nodup)
    (hpos : 1 ≤ countMaintainers db projectID)
    (hfresh : Transition.Along (MemberSystem.FreshCount projectID) MemberSystem.step
      (.start db reqs) schedule) :
    ∀ past future, schedule = past ++ future →
      1 ≤ countMaintainers (Transition.run MemberSystem.step (.start db reqs) past).db projectID := by
  rintro past future rfl
  have hinv := Transition.run_along (I := MaintainerInv projectID) (fun _ _ h hstep => h.step hstep)
    (.start hkeys hpos reqs) hfresh.of_append
  exact hinv.pos

/-- A project with two maintainers and a contributor. -/
def twoMaintainers : DB :=
  { members := [⟨1, 1, .maintainer, 0⟩, ⟨1, 2, .maintainer, 0⟩, ⟨1, 3, .contributor, 0⟩] }

/-- The second maintainer is made a contributor, and then removed by the first. -/
theorem maintainer_remains_demoted :
    countMaintainers (Transition.run MemberSystem.step (.start twoMaintainers
        [.updateRole 1 1 2 " Contributor", .remove 1 1 2]) [0, 0, 1, 0, 0, 1, 1]).db 1 = 1 ∧
      1 ≤ countMaintainers (Transition.run MemberSystem.step (.start twoMaintainers
        [.updateRole 1 1 2 " Contributor", .remove 1 1 2]) [0, 0, 1, 0, 0, 1, 1]).db 1 :=
  ⟨by decide +kernel, maintainer_remains (by decide) (by decide) (by decide +kernel) _ []
    (List.append_nil [0, 0, 1, 0, 0, 1, 1]).symm⟩

/-- Each of two maintainers removes the other one, and both have counted two
maintainers before either writes. -/
theorem maintainers_remove_each_other :
    countMaintainers twoMaintainers 1 = 2 ∧
      countMaintainers (Transition.run MemberSystem.step
        (.start twoMaintainers [.remove 1 1 2, .remove 2 1 1]) [0, 0, 0, 1, 1, 1, 0, 1]).db 1 = 0 := by
  decide +kernel

end Scrumboy
