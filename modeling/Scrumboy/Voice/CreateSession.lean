import Mathlib.Data.Int.Notation
import Scrumboy.Transition.Async

/-!
# Creating a story by voice

A session turns an utterance into a plan, prepares a command from it against the board, shows
the command for review, and executes it when the review is confirmed. Its methods wait for the
planner, the board, the members, the tags and the repair of tags, and what the user does
meanwhile runs in these waits.

The functions that classify utterances, check plans and prepare commands do not wait and do
not touch the session; they are a library that the session is given. Reviews carry the number
under which they were shown, and the state records reviews, cancellations, accepted reviews
and executions. These numbers and records are not stored, and nothing reads them.
-/

set_option linter.dupNamespace false

namespace Scrumboy

open Transition

/-- The codes of `VoiceCreatePlanError`, and one for everything else that is thrown. -/
inductive CreateErrorCode
  | invalidPlan | invalidJson | notObject | wrongVersion | invalidKind | unknownFields
  | missingRequiredField | invalidTitle | invalidLane | invalidAssignee | invalidTags | invalidNotes
  | invalidUnhandled | outputTooLarge | surroundingProse | incompleteRequest | missingTitle
  | staleContext | unauthorized | lane | member | tag | network | other
  deriving DecidableEq, Repr

/-- `result` is the field of this name of the details. -/
structure CreateError where
  code : CreateErrorCode
  result : String := ""
  deriving DecidableEq, Repr

structure CreatePlan where
  title : Option String
  lane : Option String
  assignee : Option String
  tags : Option (List String)
  notes : Option String
  unhandled : List String
  deriving DecidableEq, Repr

inductive CreatePlanResult
  | create (plan : CreatePlan)
  | notCreate
  deriving DecidableEq, Repr

structure CreateMember where
  userId : ℤ
  name : String
  email : String
  role : String
  deriving DecidableEq, Repr

structure CreateMemberChoice where
  userId : ℤ
  name : String
  email : String
  deriving DecidableEq, Repr

structure TagBinding where
  referenceIndex : ℕ
  tag : String
  deriving DecidableEq, Repr

structure TagSuggestion where
  referenceIndex : ℕ
  reference : String
  tag : String
  deriving DecidableEq, Repr

/-- The command `todos.create`. -/
structure CreateCommandIR where
  projectId : ℤ
  projectSlug : String
  title : String
  columnKey : String
  assigneeUserId : Option ℤ
  tags : List String
  body : String
  deriving DecidableEq, Repr

structure CreateCommand where
  ir : CreateCommandIR
  summary : String
  deriving DecidableEq, Repr

structure PreparedVoiceCreate where
  plan : CreatePlan
  command : CreateCommand
  fingerprint : String
  member : Option CreateMemberChoice
  deriving DecidableEq, Repr

inductive CreatePreparation
  | prepared (value : PreparedVoiceCreate)
  | memberChoice (choices : List CreateMemberChoice)
  | tagSuggestion (suggestion : TagSuggestion)
  deriving DecidableEq, Repr

inductive TagRepairOutcome
  | selected
  | ambiguous
  | invalid
  | none
  deriving DecidableEq, Repr

structure TagRepairResult where
  result : TagRepairOutcome
  bindings : List TagBinding
  deriving DecidableEq, Repr

inductive BinaryDecision
  | yes
  | no
  | cancel
  | unknown
  deriving DecidableEq, Repr

inductive ReviewDecision
  | confirm
  | cancel
  | unknown
  deriving DecidableEq, Repr

inductive PendingDecision
  | tagSuggestion
  | finalConfirmation
  deriving DecidableEq, Repr

inductive VoiceView
  | question (text : String) (choices : List String)
  | confirmation (text : String)
  | success (text : String)
  | error (text : String)
  deriving DecidableEq, Repr

/-- `review` is the number of the review of `prepared`. -/
structure CreateTask where
  transcript : String
  plan : CreatePlan
  choices : List CreateMemberChoice
  prepared : Option PreparedVoiceCreate
  member : Option CreateMemberChoice
  tagBindings : List TagBinding
  tagSuggestion : Option TagSuggestion
  modelCalls : ℕ
  review : ℕ := 0
  deriving DecidableEq, Repr

inductive CreateEvent
  | shown (review : ℕ) (prepared : PreparedVoiceCreate)
  | cancelled
  | accepted (review : ℕ)
  | executed (review : ℕ) (ir : CreateCommandIR) (fresh : PreparedVoiceCreate)
  deriving DecidableEq, Repr

def CreateEvent.shown? : CreateEvent → Option ℕ
  | .shown review _ => some review
  | _ => none

def CreateEvent.executed? : CreateEvent → Option ℕ
  | .executed review _ _ => some review
  | _ => none

section

variable (Board : Type)

structure VoiceContext where
  userId : ℤ
  projectId : ℤ
  projectSlug : String
  board : Board
  role : Option String

/-- What a method finds at a moment: the server, its signal, and the context of the board. -/
structure CreateMoment where
  serverOrigin : String
  aborted : Bool
  context : Option (VoiceContext Board)

inductive CreateAnswer
  | ok
  | members (members : List CreateMember)
  | tags (names : List String)
  | planned (result : CreatePlanResult)
  | repaired (result : TagRepairResult)
  | failed (e : CreateError)

structure CreateInput where
  now : CreateMoment Board
  answer : CreateAnswer

structure CreateSession where
  now : CreateMoment Board
  task : Option CreateTask := none
  binaryClarification : Option PendingDecision := none
  revision : ℕ := 0
  working : Bool := false
  reviews : ℕ := 0
  log : List CreateEvent := []

structure CreateLibrary where
  canShowVoiceCommands : VoiceContext Board → Bool
  canRunVoiceMutationInContext : VoiceContext Board → Bool
  executableCreatePlan : CreatePlan → Except CreateError CreatePlan
  guardCreateRequest : CreatePlan → String → Except CreateError Unit
  prepareVoiceCreate : CreatePlan → VoiceContext Board → List CreateMember → List String →
    Option CreateMemberChoice → List TagBinding → Except CreateError CreatePreparation
  /-- Whether `createVoiceCreateTagRepairRequest` finds something to ask. -/
  tagRepairRequest : String → CreatePlan → List TagBinding → List String → Bool
  classifyVoiceBinaryDecision : String → BinaryDecision
  wholeUtterance : String → String
  /-- The number in `/^(?:option )?([1-9]\d*)$/`. -/
  optionNumber : String → Option ℕ
  formatVoiceCreateMember : CreateMemberChoice → String

structure CreateOptions where
  library : CreateLibrary Board
  initialUserId : ℤ
  initialProjectId : ℤ
  initialProjectSlug : String
  tagRepair : Bool
  origin : String

end

abbrev CreateM (Board : Type) := Async (CreateSession Board) (CreateInput Board)

def noReviewText : String := "There is no create awaiting confirmation."

def failureText (e : CreateError) : String :=
  match e.code with
  | .missingTitle => "Please restate the create request with a title."
  | .incompleteRequest =>
      "The complete create request could not be prepared safely. Please restate the complete request."
  | .lane => "The requested lane or authoritative lane order is unavailable or ambiguous. No create was prepared."
  | .member => "Assignee was not found in this project."
  | .tag => "A requested tag is unavailable or ambiguous. The complete request was not prepared."
  | .unauthorized => "Only maintainers can run mutating commands."
  | .staleContext => "The reviewed context changed. Restate the request for a fresh review."
  | _ => "The create request could not be prepared safely. Please try again."

def voiceCreateDecision : BinaryDecision → ReviewDecision
  | .yes => .confirm
  | .no => .cancel
  | .cancel => .cancel
  | .unknown => .unknown

section

variable {Board : Type} {α : Type}

/-- Waits for a port; a port that rejects throws. -/
def awaitPort : ExceptT CreateError (CreateM Board) CreateAnswer := do
  let input ← (Async.answer : CreateM Board (CreateInput Board))
  modify fun s => { s with now := input.now }
  match input.answer with
  | .failed e => throw e
  | answer => pure answer

/-- Waits for an asynchronous function of the program itself. -/
def awaitCall (x : ExceptT CreateError (CreateM Board) α) : ExceptT CreateError (CreateM Board) α :=
  ExceptT.mk do
    let r ← x.run
    let input ← Async.answer
    modify fun s => { s with now := input.now }
    pure r

/-- What a `catch` finds. -/
def attempt (x : ExceptT CreateError (CreateM Board) α) :
    ExceptT CreateError (CreateM Board) (Except CreateError α) :=
  ExceptT.mk do
    let r ← x.run
    pure (.ok r)

def ofExcept : Except CreateError α → ExceptT CreateError (CreateM Board) α
  | .ok a => pure a
  | .error e => throw e

def throwIf (c : Prop) [Decidable c] (e : CreateError) : ExceptT CreateError (CreateM Board) Unit :=
  if c then throw e else pure ()

variable (options : CreateOptions Board)

/-- `getActiveVoiceCommandContext`. -/
def CreateOptions.activeContext (now : CreateMoment Board) : Option (VoiceContext Board) :=
  now.context.filter fun context => context.userId == options.initialUserId &&
    context.projectId == options.initialProjectId && context.projectSlug == options.initialProjectSlug &&
    options.library.canShowVoiceCommands context

def CreateOptions.context : ExceptT CreateError (CreateM Board) (VoiceContext Board) := do
  let s ← get
  throwIf (s.now.aborted ∨ s.now.serverOrigin ≠ options.origin) ⟨.staleContext, ""⟩
  let some context := options.activeContext s.now | throw ⟨.staleContext, ""⟩
  throwIf (options.library.canRunVoiceMutationInContext context = false) ⟨.unauthorized, ""⟩
  pure context

def CreateOptions.check (revision : ℕ) : ExceptT CreateError (CreateM Board) (VoiceContext Board) := do
  let context ← options.context
  let s ← get
  throwIf (revision ≠ s.revision) ⟨.staleContext, ""⟩
  pure context

structure CreateAuthority (Board : Type) where
  context : VoiceContext Board
  members : List CreateMember
  tags : List String

def readPlannedMembers (plan : CreatePlan) : ExceptT CreateError (CreateM Board) (List CreateMember) :=
  if plan.assignee.isSome then do
    match ← awaitPort with
    | .members members => pure members
    | _ => throw ⟨.network, ""⟩
  else pure []

def readPlannedTags (plan : CreatePlan) : ExceptT CreateError (CreateM Board) (List String) :=
  if (plan.tags.getD []).isEmpty then pure []
  else do
    match ← awaitPort with
    | .tags tags => pure tags
    | _ => throw ⟨.network, ""⟩

def readVoiceCreatePreparationAuthority (plan : CreatePlan) (revision : ℕ) :
    ExceptT CreateError (CreateM Board) (CreateAuthority Board) := do
  let _ ← options.check revision
  let _ ← awaitPort
  let _ ← options.check revision
  let members ← readPlannedMembers plan
  let tags ← readPlannedTags plan
  let context ← options.check revision
  pure ⟨context, members, tags⟩

def prepareVoiceCreateAgainstCurrentContext (plan : CreatePlan) (revision : ℕ)
    (selection : Option CreateMemberChoice) (tagBindings : List TagBinding) :
    ExceptT CreateError (CreateM Board) CreatePreparation := do
  let authority ← awaitCall (readVoiceCreatePreparationAuthority options plan revision)
  ofExcept (options.library.prepareVoiceCreate plan authority.context authority.members authority.tags
    selection tagBindings)

structure ContextPreparation where
  preparation : CreatePreparation
  tagBindings : List TagBinding
  tagRepairAttempted : Bool

/-- An unavailable tag, or a suggestion for one, is what the repair may help with. -/
def wantsTagRepair : Except CreateError CreatePreparation → Bool
  | .ok (.tagSuggestion _) => true
  | .ok _ => false
  | .error e => e.code = .tag ∧ e.result = "unavailable"

def prepareVoiceCreateWithTagRepairAgainstCurrentContext (plan : CreatePlan) (transcript : String)
    (revision : ℕ) (selection : Option CreateMemberChoice) (tagBindings : List TagBinding) :
    ExceptT CreateError (CreateM Board) ContextPreparation := do
  let authority ← awaitCall (readVoiceCreatePreparationAuthority options plan revision)
  let initial := options.library.prepareVoiceCreate plan authority.context authority.members
    authority.tags selection tagBindings
  if wantsTagRepair initial && options.tagRepair &&
      options.library.tagRepairRequest transcript plan tagBindings authority.tags then
    match ← attempt awaitPort with
    | .ok (.repaired ⟨.selected, bindings⟩) => do
        let preparation ← awaitCall (prepareVoiceCreateAgainstCurrentContext options plan revision
          selection (tagBindings ++ bindings))
        pure ⟨preparation, tagBindings ++ bindings, true⟩
    | _ => do
        let preparation ← ofExcept initial
        pure ⟨preparation, tagBindings, true⟩
  else do
    let preparation ← ofExcept initial
    pure ⟨preparation, tagBindings, false⟩

/-- The plan that was made of the transcript, with its preparation. -/
def evaluateVoiceCreateSemantics (transcript : String) (revision : ℕ) :
    ExceptT CreateError (CreateM Board) (CreatePlan × ContextPreparation) := do
  let _ ← options.check revision
  let planned ← awaitPort
  let _ ← options.check revision
  match planned with
  | .planned (.create plan) => do
      let plan ← ofExcept (options.library.executableCreatePlan plan)
      ofExcept (options.library.guardCreateRequest plan transcript)
      let prepared ← awaitCall (prepareVoiceCreateWithTagRepairAgainstCurrentContext options plan
        transcript revision none [])
      pure (plan, prepared)
  | _ => throw ⟨.incompleteRequest, "not_create"⟩

namespace VoiceCreateSession

def invalidate : CreateM Board Unit :=
  modify fun s => { s with
    revision := s.revision + 1, task := none, binaryClarification := none, log := s.log ++ [CreateEvent.cancelled] }

def cancel : CreateM Board VoiceView := do
  invalidate
  pure (.success "Cancelled.")

def fail (e : CreateError) : CreateM Board VoiceView := do
  modify fun s => { s with task := none, binaryClarification := none }
  pure (.error (failureText e))

def binaryQuestion (pending : PendingDecision) : CreateM Board VoiceView := do
  modify fun s => { s with binaryClarification := some pending }
  pure (.confirmation "Is that a yes or no?")

def choiceView (choices : List CreateMemberChoice) : VoiceView :=
  .question "Which person? Select a name or say its option number."
    (choices.zipIdx.map fun (member, index) =>
      toString (index + 1) ++ ". " ++ options.library.formatVoiceCreateMember member)

/-- Shows a prepared command; it becomes the task in the same step. -/
def presentReview (task : CreateTask) (prepared : PreparedVoiceCreate) : CreateM Board VoiceView := do
  modify fun s => { s with
    task := some { task with
      choices := [], prepared := some prepared, member := prepared.member, tagSuggestion := none
      review := s.reviews }
    reviews := s.reviews + 1
    log := s.log ++ [CreateEvent.shown s.reviews prepared] }
  pure (.confirmation prepared.command.summary)

def presentPreparation (task : CreateTask) (result : CreatePreparation)
    (member : Option CreateMemberChoice) : CreateM Board VoiceView := do
  modify fun s => { s with binaryClarification := none }
  match result with
  | .memberChoice choices => do
      modify fun s => { s with
        task := some { task with
          choices := choices, prepared := none, member := member, tagSuggestion := none } }
      pure (choiceView options choices)
  | .tagSuggestion suggestion => do
      modify fun s => { s with
        task := some { task with
          choices := [], prepared := none, member := member, tagSuggestion := some suggestion } }
      pure (.confirmation ("Did you mean tag `" ++ suggestion.tag ++ "`?"))
  | .prepared value => presentReview task value

/-- The end of a preparation: what it made is presented, or its failure, which says nothing about a
task that was made after it began. -/
def present (revision : ℕ) (member : Option CreateMemberChoice)
    (r : Except CreateError (CreateTask × ContextPreparation)) : CreateM Board VoiceView := do
  match r with
  | .ok (task, result) => presentPreparation options { task with
      tagBindings := result.tagBindings
      modelCalls := task.modelCalls + if result.tagRepairAttempted then 1 else 0 } result.preparation member
  | .error e => do
      let s ← get
      if revision = s.revision then fail e else pure (.error (failureText e))

def acceptTagSuggestion : CreateM Board VoiceView := do
  let s ← get
  match s.task, s.task.bind (·.tagSuggestion), s.working with
  | some task, some suggestion, false => do
      modify fun s => { s with working := true }
      let tagBindings := task.tagBindings ++ [⟨suggestion.referenceIndex, suggestion.tag⟩]
      let r ← (awaitCall (prepareVoiceCreateWithTagRepairAgainstCurrentContext options task.plan
        task.transcript s.revision task.member tagBindings)).run
      let view ← present options s.revision task.member
        (r.map fun result => ({ task with tagSuggestion := none }, result))
      modify fun s => { s with working := false }
      pure view
  | _, _, _ => pure (.error noReviewText)

def choose (index : ℕ) : CreateM Board VoiceView := do
  let s ← get
  match s.task, s.task.bind (·.choices[index]?), s.working with
  | some task, some member, false => do
      modify fun s => { s with working := true }
      let r ← (awaitCall (prepareVoiceCreateWithTagRepairAgainstCurrentContext options task.plan
        task.transcript s.revision (some member) task.tagBindings)).run
      let view ← present options s.revision (some member)
        (r.map fun result => ({ task with member := some member }, result))
      modify fun s => { s with working := false }
      pure view
  | _, _, _ => pure (.error (failureText ⟨.staleContext, ""⟩))

/-- The part of `confirm` before the command is sent. -/
def revalidate (revision : ℕ) (task : CreateTask) (prepared : PreparedVoiceCreate) :
    ExceptT CreateError (CreateM Board) PreparedVoiceCreate := do
  let fresh ← awaitCall (prepareVoiceCreateAgainstCurrentContext options prepared.plan revision
    prepared.member task.tagBindings)
  match fresh with
  | .prepared value => do
      throwIf (value.fingerprint ≠ prepared.fingerprint) ⟨.staleContext, ""⟩
      let _ ← options.check revision
      pure value
  | _ => throw ⟨.staleContext, ""⟩

/-- The call of the execution port, and the refresh of the board after it. -/
def dispatch (review : ℕ) (prepared fresh : PreparedVoiceCreate) : CreateM Board VoiceView := do
  modify fun s => { s with log := s.log ++ [CreateEvent.executed review prepared.command.ir fresh] }
  let sent : Except CreateError CreateAnswer ← awaitPort.run
  let refreshed : Except CreateError CreateAnswer ← awaitPort.run
  match sent, refreshed with
  | .ok _, .ok _ => pure (.success "Done.")
  | .ok _, .error _ => pure (.success
      "Story created. The board could not refresh; refresh it before trying another create.")
  | .error _, _ => pure (.error ("Creation failed or could not be confirmed. Check the board before " ++
      "trying again; the request will not be retried automatically."))

/-- The part of `confirm` after it: the failure, or the execution. -/
def settle (review : ℕ) (prepared : PreparedVoiceCreate) :
    Except CreateError PreparedVoiceCreate → CreateM Board VoiceView
  | .error e => fail e
  | .ok fresh => dispatch review prepared fresh

def confirm : CreateM Board VoiceView := do
  let s ← get
  if (s.task.bind (·.tagSuggestion)).isSome then acceptTagSuggestion options
  else
    match s.task, s.task.bind (·.prepared), s.working with
    | some task, some prepared, false => do
        -- consent is consumed before any asynchronous work
        modify fun s => { s with
          working := true, binaryClarification := none, task := none
          log := s.log ++ [CreateEvent.accepted task.review] }
        let r ← (revalidate options s.revision task prepared).run
        let view ← settle task.review prepared r
        modify fun s => { s with working := false }
        pure view
    | _, _, _ => pure (.error noReviewText)

/-- The option that an utterance names. -/
def selectedIndex (transcript : String) (choices : List CreateMemberChoice) : Option ℕ :=
  let normalized := options.library.wholeUtterance transcript
  let named := choices.zipIdx.filter fun (member, _) =>
    normalized = options.library.wholeUtterance member.name ||
      normalized = options.library.wholeUtterance member.email
  let index := match options.library.optionNumber normalized, named with
    | some n, _ => some (n - 1)
    | none, [(_, index)] => some index
    | none, _ => none
  index.filter (· < choices.length)

/-- The part of `submit` that plans a new story. -/
def plan (transcript : String) : CreateM Board VoiceView := do
  modify fun s => { s with binaryClarification := none, revision := s.revision + 1, working := true }
  let revision := (← get).revision
  let r ← (awaitCall (evaluateVoiceCreateSemantics options transcript revision)).run
  let view ← present options revision none
    (r.map fun (plan, result) => (⟨transcript, plan, [], none, none, [], none, 1, 0⟩, result))
  modify fun s => { s with working := false }
  pure view

def submit (transcript : String) : CreateM Board VoiceView := do
  let s ← get
  let binaryDecision := options.library.classifyVoiceBinaryDecision transcript
  let decision := voiceCreateDecision binaryDecision
  if s.working then pure (.error (failureText ⟨.staleContext, ""⟩))
  else if (s.task.bind (·.tagSuggestion)).isSome then
    match binaryDecision with
    | .yes => acceptTagSuggestion options
    | .no => fail ⟨.tag, "unavailable"⟩
    | .cancel => cancel
    | .unknown => binaryQuestion .tagSuggestion
  else if (s.task.bind (·.prepared)).isSome then
    match decision with
    | .confirm => confirm options
    | .cancel => cancel
    | .unknown => binaryQuestion .finalConfirmation
  else
    match (s.task.map (·.choices)).getD [] with
    | [] =>
        if decision ≠ .unknown then pure (.error noReviewText) else plan options transcript
    | choices =>
        if decision = .cancel then cancel
        else
          match selectedIndex options transcript choices with
          | some index => choose options index
          | none => pure (choiceView options choices)

end VoiceCreateSession

inductive CreateCall
  | submit (transcript : String)
  | choose (index : ℕ)
  | confirm
  | cancel
  | invalidate
  deriving DecidableEq, Repr

open VoiceCreateSession in
/-- A call of a method at a moment. -/
def createCall (c : CreateCall) (input : CreateInput Board) : CreateM Board VoiceView := do
  modify fun s => { s with now := input.now }
  match c with
  | .submit transcript => submit options transcript
  | .choose index => choose options index
  | .confirm => confirm options
  | .cancel => cancel
  | .invalidate => do
      invalidate
      pure (.success "")

end

end Scrumboy
