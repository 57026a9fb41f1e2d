import Scrumboy.Auth.Users
import Scrumboy.Transition.Pool

/-!
# The last owner

Changes of system roles and deletions of users as they run next to each other. A deletion
is one transaction. A change of a role reads the role of its requester, then that of its
target, then perhaps the number of owners, each in a statement of its own, and writes in a
transaction at the end.

The shared state also counts how often an owner was lost, and a request records that
number when it counts the owners. No step reads these records; they say which counts are
still fresh.
-/

set_option linter.dupNamespace false

namespace Scrumboy

open Go Sql Transition

inductive UserRequest
  | deleteUser (requesterID targetUserID : ℤ)
  | updateUserRole (requesterID targetUserID : ℤ) (newRole : String)
  deriving DecidableEq, Repr

/-- Where a request stands, or how it ended. -/
inductive UserPC
  | start
  | readTarget
  | count
  | write (seen : Option ℕ)
  | done (result : Result Unit)
  deriving Repr

structure OwnerState where
  site : Site
  lost : ℕ

abbrev UserProc := UserRequest × UserPC

namespace Site

/-- After the role of the requester was read. -/
def afterRequester (site : Site) (requesterID : ℤ) : UserPC :=
  match site.requireOwner requesterID with
  | .ok () => .readTarget
  | .error e => .done (.error e)

/-- After the target was read. -/
def afterTarget (site : Site) (targetUserID : ℤ) (newRole : SystemRole) : UserPC :=
  match site.getUser targetUserID with
  | .ok target => if target.isOwner ∧ newRole ≠ .owner then .count else .write none
  | .error e => .done (.error e)

/-- After the owners were counted. -/
def afterCount (site : Site) (lost : ℕ) : UserPC :=
  if site.countOwners ≤ 1 then .done (.error ⟨.validation, "cannot demote the last owner"⟩)
  else .write (some lost)

/-- The write of a role takes an owner away. -/
def takesOwner (site : Site) (targetUserID : ℤ) (newRole : SystemRole) : Bool :=
  (site.setRole targetUserID newRole).countOwners < site.countOwners

end Site

/-- A transaction commits. -/
def OwnerState.commit (s : OwnerState) (site : Site) : OwnerState :=
  ⟨site, s.lost + (s.site.countOwners - site.countOwners)⟩

/-- A step of `UpdateUserRole`, whose last one is the transaction. -/
def updateUserRoleStep (s : OwnerState) (requesterID targetUserID : ℤ) (newRole : SystemRole) :
    UserPC → OwnerState × UserPC
  | .start => (s, s.site.afterRequester requesterID)
  | .readTarget => (s, s.site.afterTarget targetUserID newRole)
  | .count => (s, s.site.afterCount s.lost)
  | .write _ => (s.commit (s.site.setRole targetUserID newRole), .done (.ok ()))
  | .done result => (s, .done result)

/-- The transaction of `DeleteUser`. -/
def deleteUserStep (s : OwnerState) (requesterID targetUserID : ℤ) : UserPC → OwnerState × UserPC
  | .start =>
      match s.site.deleteUser requesterID targetUserID with
      | .ok site => (s.commit site, .done (.ok ()))
      | .error e => (s, .done (.error e))
  | pc => (s, pc)

def userStep (s : OwnerState) (p : UserProc) (_ : Unit) : OwnerState × UserProc :=
  match p.1 with
  | .deleteUser requesterID targetUserID =>
      ((deleteUserStep s requesterID targetUserID p.2).1, p.1,
        (deleteUserStep s requesterID targetUserID p.2).2)
  | .updateUserRole requesterID targetUserID newRole =>
      match parseSystemRole newRole with
      | none => (s, p.1, .done (.error ⟨.validation, "invalid system role"⟩))
      | some role =>
          ((updateUserRoleStep s requesterID targetUserID role p.2).1, p.1,
            (updateUserRoleStep s requesterID targetUserID role p.2).2)

abbrev OwnerSystem := Pool OwnerState UserProc

def OwnerSystem.start (site : Site) (reqs : List UserRequest) : OwnerSystem :=
  ⟨⟨site, 0⟩, reqs.map fun req => (req, .start)⟩

/-- If the next step of request `i` is the write of a role that takes an owner away, then the
request has counted the owners, and none was lost since. -/
def FreshOwnerCount (s : OwnerSystem) (i : ℕ × Unit) : Prop :=
  ∀ requesterID targetUserID newRole seen role,
    s.procs[i.1]? = some (.updateUserRole requesterID targetUserID newRole, .write seen) →
    parseSystemRole newRole = some role → s.shared.site.takesOwner targetUserID role = true →
    seen = some s.shared.lost

instance (s : OwnerSystem) (i : ℕ × Unit) : Decidable (FreshOwnerCount s i) :=
  match hproc : s.procs[i.1]? with
  | some (.updateUserRole requesterID targetUserID newRole, .write seen) =>
      decidable_of_iff (∀ role ∈ parseSystemRole newRole,
        s.shared.site.takesOwner targetUserID role = true → seen = some s.shared.lost) (by
          constructor
          · intro h requesterID' targetUserID' newRole' seen' role heq hrole
            cases hproc.symm.trans heq
            exact h role hrole
          · intro h role hrole
            exact h requesterID targetUserID newRole seen role hproc hrole)
  | none | some (.deleteUser _ _, _) | some (_, .start) | some (_, .readTarget) | some (_, .count)
  | some (_, .done _) => .isTrue fun _ _ _ _ _ heq => by cases hproc.symm.trans heq

/-! ## What a write does to the number of owners -/

section

variable {site site' : Site} {userID : ℤ} {u : UserRow}

theorem getUser_eq_ok (h : site.getUser userID = .ok u) : u ∈ site.users ∧ u.id = userID := by
  unfold Site.getUser at h
  split at h
  · rename_i v hfind
    cases h
    exact ⟨List.mem_of_find?_eq_some hfind, by simpa using List.find?_some hfind⟩
  · cases h

theorem one_le_countOwners : 1 ≤ site.countOwners ↔ ∃ u ∈ site.users, u.systemRole = .owner := by
  rw [Site.countOwners, Nat.one_le_iff_ne_zero, Ne, List.countP_eq_zero]
  simp only [UserRow.isOwner, beq_iff_eq, not_forall, not_not, exists_prop]

theorem users_setRole (site : Site) (userID : ℤ) (role : SystemRole) : (site.setRole userID role).users =
    updateWhere (·.id == userID) (fun u => { u with systemRole := role }) site.users := rfl

theorem users_without (site : Site) (userID : ℤ) :
    (site.without userID).users = deleteWhere (·.id == userID) site.users := rfl

theorem countOwners_setRole (userID : ℤ) (role : SystemRole) :
    site.countOwners ≤ (site.setRole userID role).countOwners + 1 := by
  by_cases h : ∃ u ∈ site.users, u.id = userID
  · obtain ⟨u, hu, rfl⟩ := h
    obtain ⟨l₁, l₂, hsplit, hne⟩ := exists_split_key site.ids hu
    rw [Site.countOwners, Site.countOwners, users_setRole, hsplit, updateWhere_split hne,
      List.countP_append, List.countP_append, List.countP_cons, List.countP_cons]
    split
    · omega
    · omega
  · have hsame : (site.setRole userID role).users = site.users := by
      rw [users_setRole, updateWhere]
      refine (List.map_congr_left fun u hu => if_neg ?_).trans (List.map_id' site.users)
      rw [beq_iff_eq]
      exact fun hid => h ⟨u, hu, hid⟩
    rw [Site.countOwners, Site.countOwners, hsame]
    omega

/-- The deletion of a user lowers the number of owners if the user is one. -/
theorem countOwners_without (hu : u ∈ site.users) :
    site.countOwners = (site.without u.id).countOwners + if u.isOwner then 1 else 0 := by
  obtain ⟨l₁, l₂, hsplit, hne⟩ := exists_split_key site.ids hu
  rw [Site.countOwners, Site.countOwners, users_without, hsplit, deleteWhere_split hne,
    List.countP_append, List.countP_append, List.countP_cons]
  omega

theorem deleteUser_keeps_owner {requesterID targetUserID : ℤ} (howner : 1 ≤ site.countOwners)
    (h : site.deleteUser requesterID targetUserID = .ok site') : 1 ≤ site'.countOwners := by
  have heq := deleteUser_eq_ok h
  simp only [Site.deleteUser, bind_eq_ok] at h
  obtain ⟨_, _, _, _, target, htarget, _, hlast, _⟩ := h
  obtain ⟨hmem, rfl⟩ := getUser_eq_ok htarget
  have hcount := countOwners_without hmem
  unfold Site.keepLastOwner at hlast
  rw [heq]
  split at hlast
  · rename_i hisOwner
    rw [if_pos hisOwner] at hcount
    rw [reject_eq_ok] at hlast
    omega
  · rename_i hisOwner
    rw [if_neg hisOwner] at hcount
    omega

end

/-! ## An owner remains -/

/-- What a request knows at its place: there were two owners when it counted. -/
def UserPC.Knows (total : ℕ) : UserPC → Prop
  | .write (some n) => 2 + n ≤ total
  | _ => True

def OwnerState.total (s : OwnerState) : ℕ := s.site.countOwners + s.lost

section

variable {s : OwnerState} (requesterID targetUserID : ℤ) (newRole : SystemRole)

theorem UserPC.Knows.mono {pc : UserPC} {m n : ℕ} (hmn : m ≤ n) (h : pc.Knows m) : pc.Knows n := by
  cases pc with
  | write seen =>
      cases seen with
      | none => trivial
      | some k => exact le_trans h hmn
  | start => trivial
  | readTarget => trivial
  | count => trivial
  | done result => trivial

theorem total_le_commit (s : OwnerState) (site : Site) : s.total ≤ (s.commit site).total := by
  unfold OwnerState.total OwnerState.commit
  dsimp only
  omega

theorem knows_afterTarget_role (total : ℕ) : (s.site.afterTarget targetUserID newRole).Knows total := by
  unfold Site.afterTarget
  split
  · split
    · trivial
    · trivial
  · trivial

theorem knows_afterCount_owners : (s.site.afterCount s.lost).Knows s.total := by
  unfold Site.afterCount
  split
  · trivial
  · rename_i hcount
    have htwo : 2 + s.lost ≤ s.site.countOwners + s.lost := by omega
    exact htwo

/-- A step of a change of a role. -/
theorem updateUserRoleStep_spec {pc : UserPC} (howner : 1 ≤ s.site.countOwners) (hpc : pc.Knows s.total)
    (hfresh : ∀ seen, pc = .write seen → s.site.takesOwner targetUserID newRole = true →
      seen = some s.lost) :
    1 ≤ (updateUserRoleStep s requesterID targetUserID newRole pc).1.site.countOwners ∧
      (updateUserRoleStep s requesterID targetUserID newRole pc).2.Knows
        (updateUserRoleStep s requesterID targetUserID newRole pc).1.total ∧
      s.total ≤ (updateUserRoleStep s requesterID targetUserID newRole pc).1.total := by
  cases pc with
  | start =>
      refine ⟨howner, ?_, le_refl _⟩
      unfold updateUserRoleStep Site.afterRequester
      dsimp only
      split
      · trivial
      · trivial
  | readTarget => exact ⟨howner, knows_afterTarget_role _ _ _, le_refl _⟩
  | count => exact ⟨howner, knows_afterCount_owners, le_refl _⟩
  | done result => exact ⟨howner, trivial, le_refl _⟩
  | write seen =>
      refine ⟨?_, trivial, total_le_commit s _⟩
      have hlower : s.site.countOwners ≤ (s.site.setRole targetUserID newRole).countOwners + 1 :=
        countOwners_setRole targetUserID newRole
      change 1 ≤ (s.site.setRole targetUserID newRole).countOwners
      by_cases htakes : s.site.takesOwner targetUserID newRole = true
      · rw [hfresh seen rfl htakes] at hpc
        have htwo : 2 + s.lost ≤ s.site.countOwners + s.lost := hpc
        omega
      · rw [Site.takesOwner, decide_eq_true_eq] at htakes
        omega

theorem deleteUserStep_spec {pc : UserPC} (howner : 1 ≤ s.site.countOwners) (hpc : pc.Knows s.total) :
    1 ≤ (deleteUserStep s requesterID targetUserID pc).1.site.countOwners ∧
      (deleteUserStep s requesterID targetUserID pc).2.Knows
        (deleteUserStep s requesterID targetUserID pc).1.total ∧
      s.total ≤ (deleteUserStep s requesterID targetUserID pc).1.total := by
  unfold deleteUserStep
  split
  · split
    · rename_i site' hok
      exact ⟨deleteUser_keeps_owner howner hok, trivial, total_le_commit s site'⟩
    · exact ⟨howner, trivial, le_refl _⟩
  · exact ⟨howner, hpc, le_refl _⟩

end

def OwnerInv (s : OwnerSystem) : Prop :=
  s.Inv (fun s => 1 ≤ s.site.countOwners) fun s p => p.2.Knows s.total

theorem OwnerInv.step {s : OwnerSystem} (h : OwnerInv s) {i : ℕ × Unit} (hfresh : FreshOwnerCount s i) :
    OwnerInv (s.step userStep i) := by
  refine Pool.Inv.step h fun p hp hknows => ?_
  have hothers : ∀ s' : OwnerState, s.shared.total ≤ s'.total → ∀ q : UserProc,
      q.2.Knows s.shared.total → q.2.Knows s'.total := fun _ hle _ hq => hq.mono hle
  obtain ⟨req, pc⟩ := p
  unfold userStep
  cases req with
  | deleteUser requesterID targetUserID =>
      obtain ⟨howner, hself, hle⟩ := deleteUserStep_spec requesterID targetUserID h.shared
        hknows
      exact ⟨howner, hself, hothers _ hle⟩
  | updateUserRole requesterID targetUserID newRole =>
      cases hrole : parseSystemRole newRole with
      | none =>
          simp only [hrole]
          exact ⟨h.shared, trivial, fun _ hq => hq⟩
      | some role =>
          simp only [hrole]
          have hcount : ∀ seen, pc = .write seen → s.shared.site.takesOwner targetUserID role = true →
              seen = some s.shared.lost := by
            rintro seen rfl htakes
            exact hfresh _ _ _ _ _ hp hrole htakes
          obtain ⟨howner, hself, hle⟩ := updateUserRoleStep_spec requesterID targetUserID role
            h.shared hknows hcount
          exact ⟨howner, hself, hothers _ hle⟩

/-- As long as every write of a role that takes an owner away rests on a count that is still
fresh, a server with an owner has one after every step. -/
theorem owner_remains {site : Site} {reqs : List UserRequest} {schedule : List (ℕ × Unit)}
    (howner : ∃ u ∈ site.users, u.systemRole = .owner)
    (hfresh : Along FreshOwnerCount (Pool.step userStep) (OwnerSystem.start site reqs) schedule) :
    ∀ past future, schedule = past ++ future →
      ∃ u ∈ (run (Pool.step userStep) (OwnerSystem.start site reqs) past).shared.site.users,
        u.systemRole = .owner := by
  rintro past future rfl
  have hstart : OwnerInv (OwnerSystem.start site reqs) := by
    refine ⟨one_le_countOwners.mpr howner, fun p hp => ?_⟩
    obtain ⟨req, _, rfl⟩ := List.mem_map.mp hp
    trivial
  have hinv := run_along (I := OwnerInv) (fun _ _ h hstep => h.step hstep) hstart hfresh.of_append
  exact one_le_countOwners.mp hinv.shared

theorem nodup_twoOwners : (([⟨1, .owner⟩, ⟨2, .owner⟩] : List UserRow).map (·.id)).Nodup := by decide

/-- Two owners. -/
def twoOwners : Site where
  users := [⟨1, .owner⟩, ⟨2, .owner⟩]
  db := { users := [1, 2] }
  ids := nodup_twoOwners
  agree := rfl

/-- An owner is demoted by the other one, who is then not to be deleted. -/
theorem owner_remains_demoted :
    Along FreshOwnerCount (Pool.step userStep) (OwnerSystem.start twoOwners
      [.updateUserRole 1 2 "admin", .deleteUser 2 1]) [(0, ()), (0, ()), (0, ()), (0, ()), (1, ())] ∧
    ∃ u ∈ (run (Pool.step userStep) (OwnerSystem.start twoOwners
      [.updateUserRole 1 2 "admin", .deleteUser 2 1])
      [(0, ()), (0, ()), (0, ()), (0, ()), (1, ())]).shared.site.users, u.systemRole = .owner := by
  have hfresh : Along FreshOwnerCount (Pool.step userStep) (OwnerSystem.start twoOwners
      [.updateUserRole 1 2 "admin", .deleteUser 2 1]) [(0, ()), (0, ()), (0, ()), (0, ()), (1, ())] := by
    decide +kernel
  exact ⟨hfresh, owner_remains (by decide) hfresh _ [] (List.append_nil _).symm⟩

/-- Each of two owners demotes the other one, and both have counted two owners before either
writes. -/
theorem owners_demote_each_other :
    (∃ u ∈ twoOwners.users, u.systemRole = .owner) ∧
    ¬ ∃ u ∈ (run (Pool.step userStep) (OwnerSystem.start twoOwners
      [.updateUserRole 1 2 "user", .updateUserRole 2 1 "user"])
      [(0, ()), (0, ()), (0, ()), (1, ()), (1, ()), (1, ()), (0, ()), (1, ())]).shared.site.users,
        u.systemRole = .owner := by
  decide +kernel

end Scrumboy
