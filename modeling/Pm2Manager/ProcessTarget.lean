import Pm2Manager.FieldChecks

/-!
# The target of a single-process request

The route parameter is trimmed and checked, an all-digit text becomes a
number, and PM2 applies its own rules to what it is given.  PM2 is the last
definition before the results; its regular expressions are a parameter.
-/

namespace Pm2Manager

open ScriptText FieldCheck

/-! ## The route parameters -/

def notAll : FieldCheck :=
  pattern (fun value => foldCase value ≠ foldCase "all")
    "The reserved target \"all\" is not allowed here"

def processTargetChecks : List FieldCheck :=
  [minLength 1 "String must contain at least 1 character(s)", maxLength 200,
    notAll]

/-- `DELETE /:idOrName`. -/
def processIdParamSchema (idOrName : String) : Except AppError String :=
  let idOrName := trim idOrName
  parsed (issues "idOrName" processTargetChecks idOrName) idOrName

inductive SingleAction
  | start | stop | restart | reload
deriving DecidableEq, Repr

def singleAction (text : String) : Option SingleAction :=
  match text with
  | "start" => some .start
  | "stop" => some .stop
  | "restart" => some .restart
  | "reload" => some .reload
  | _ => none

/-- `POST /:idOrName/:action`. -/
def processActionParamSchema (idOrName action : String) :
    Except AppError (String × SingleAction) :=
  let idOrName := trim idOrName
  let found := issues "idOrName" processTargetChecks idOrName
  match singleAction action with
  | some action => parsed found (idOrName, action)
  | none => .error (.validation (found ++ [("action",
      "Invalid enum value. Expected 'start' | 'stop' | 'restart' | 'reload', " ++
        s!"received '{action}'")]))

/-! ## The command for PM2 -/

inductive Target
  | number (pmId : ℤ)
  | text (text : String)
deriving DecidableEq, Repr

/-- An all-digit value is a numeric `pm_id`. -/
def resolveTarget (idOrName : String) : Target :=
  if isNumeral idOrName then .number (toNumber idOrName) else .text idOrName

inductive Pm2Method
  | restart | stop | reload | delete
deriving DecidableEq, Repr

structure Pm2Command where
  method : Pm2Method
  target : Target
deriving DecidableEq, Repr

/-- `pm2Service.start` restarts: PM2's own `start` is for new processes. -/
def SingleAction.method : SingleAction → Pm2Method
  | .start => .restart
  | .stop => .stop
  | .restart => .restart
  | .reload => .reload

inductive SingleRequest
  | action (idOrName verb : String)
  | remove (idOrName : String)
deriving DecidableEq, Repr

def SingleRequest.idOrName : SingleRequest → String
  | .action idOrName _ => idOrName
  | .remove idOrName => idOrName

/-- The validation of a request and the command its controller issues. -/
def SingleRequest.command : SingleRequest → Except AppError Pm2Command
  | .action idOrName verb =>
      (processActionParamSchema idOrName verb).map fun params =>
        { method := params.2.method, target := resolveTarget params.1 }
  | .remove idOrName =>
      (processIdParamSchema idOrName).map fun idOrName =>
        { method := .delete, target := resolveTarget idOrName }

/-! ## PM2's selection -/

structure ManagedProcess where
  pmId : ℕ
  name : String
  pmNamespace : String
deriving DecidableEq, Repr

/-- The expression in a text of the form `/re/`. -/
def regexForm (text : String) : Option String :=
  match text.toList with
  | '/' :: rest =>
      if rest.getLast? = some '/' then some (String.ofList rest.dropLast)
      else none
  | _ => none

/-- The processes PM2 applies a command to. -/
def pm2Selects (regexMatches : String → String → Bool)
    (processes : List ManagedProcess) : Target → List ManagedProcess
  | .number pmId => processes.filter fun process => process.pmId = pmId
  | .text text =>
      if text = "all" then
        processes
      else
        match regexForm text with
        | some regex =>
            processes.filter fun process => regexMatches regex process.name
        | none =>
            if processes.any fun process => process.name = text then
              processes.filter fun process => process.name = text
            else
              processes.filter fun process => process.pmNamespace = text

/-! ## What a request acts on -/

variable {regexMatches : String → String → Bool}
variable {processes : List ManagedProcess}
variable {request : SingleRequest} {command : Pm2Command}

/-- An accepted request passes every check on its trimmed parameter, which
then is its target. -/
theorem command_eq_ok (hcommand : request.command = .ok command) :
    issues "idOrName" processTargetChecks (trim request.idOrName) = [] ∧
      command.target = resolveTarget (trim request.idOrName) := by
  cases request with
  | action idOrName verb =>
      simp only [SingleRequest.command, SingleRequest.idOrName] at hcommand ⊢
      obtain ⟨params, hparams, rfl⟩ := except_map_ok hcommand
      unfold processActionParamSchema at hparams
      dsimp only at hparams
      split at hparams
      · obtain ⟨hfound, rfl⟩ := parsed_eq_ok hparams
        simp only [hfound, and_self]
      · simp at hparams
  | remove idOrName =>
      simp only [SingleRequest.command, SingleRequest.idOrName] at hcommand ⊢
      obtain ⟨value, hvalue, rfl⟩ := except_map_ok hcommand
      obtain ⟨hfound, rfl⟩ := parsed_eq_ok hvalue
      simp only [hfound, and_self]

theorem command_ne_all (hcommand : request.command = .ok command) :
    foldCase (trim request.idOrName) ≠ foldCase "all" := by
  obtain ⟨hchecks, _⟩ := command_eq_ok hcommand
  have hmem : notAll ∈ processTargetChecks := by simp [processTargetChecks]
  have hpasses := issues_eq_nil_iff.mp hchecks notAll hmem
  simp only [notAll, pattern, decide_eq_true_eq] at hpasses
  exact hpasses

/-- An accepted request whose trimmed parameter is a numeral acts on the
process with this number as `pm_id`; one whose trimmed parameter is the name
of a process, and no regular expression, acts on the processes of this name.
The parameter is never `all`. -/
theorem affected_of_command (hcommand : request.command = .ok command) :
    foldCase (trim request.idOrName) ≠ foldCase "all" ∧
      (isNumeral (trim request.idOrName) = true →
        pm2Selects regexMatches processes command.target =
          processes.filter fun process =>
            process.pmId = toNumber (trim request.idOrName)) ∧
      (isNumeral (trim request.idOrName) = false →
        regexForm (trim request.idOrName) = none →
        (∃ process ∈ processes, process.name = trim request.idOrName) →
        pm2Selects regexMatches processes command.target =
          processes.filter fun process =>
            process.name = trim request.idOrName) := by
  obtain ⟨_, htarget⟩ := command_eq_ok hcommand
  have hall := command_ne_all hcommand
  generalize trim request.idOrName = value at htarget hall
  refine ⟨hall, fun hnumeral => ?_, fun hnumeral hregex hnamed => ?_⟩
  · rw [htarget, resolveTarget, if_pos hnumeral]
    simp only [pm2Selects, Int.natCast_inj]
  · have hne : value ≠ "all" := fun heq => hall (heq ▸ rfl)
    obtain ⟨process, hmem, hname⟩ := hnamed
    have hany : (processes.any fun process => process.name = value) = true :=
      List.any_eq_true.mpr ⟨process, hmem, by simpa using hname⟩
    rw [htarget, resolveTarget, hnumeral, if_neg Bool.false_ne_true, pm2Selects,
      if_neg hne, hregex]
    simp only [hany, if_true]

def sampleProcesses : List ManagedProcess :=
  [{ pmId := 0, name := "web", pmNamespace := "default" },
    { pmId := 7, name := "worker", pmNamespace := "default" }]

theorem affected_of_command_sampleProcesses :
    pm2Selects (fun _ _ => true) sampleProcesses
        (resolveTarget (trim " web")) =
      [{ pmId := 0, name := "web", pmNamespace := "default" }] := by
  have hcommand : (SingleRequest.remove " web").command =
      .ok { method := .delete, target := resolveTarget (trim " web") } := by
    decide +kernel
  exact ((affected_of_command hcommand).2.2 (by decide +kernel)
    (by decide +kernel) (by decide +kernel)).trans (by decide +kernel)

/-- White space around a name and leading zeros of a `pm_id` do not count. -/
theorem affected_other_than_parameter :
    (∃ command, (SingleRequest.remove " web").command = .ok command ∧
        ∃ process ∈ pm2Selects (fun _ _ => true) sampleProcesses command.target,
          process.name ≠ " web" ∧ toString process.pmId ≠ " web") ∧
      ∃ command, (SingleRequest.remove "007").command = .ok command ∧
        ∃ process ∈ pm2Selects (fun _ _ => true) sampleProcesses command.target,
          process.name ≠ "007" ∧ toString process.pmId ≠ "007" := by
  refine ⟨⟨{ method := .delete, target := .text "web" }, by decide +kernel, ?_⟩,
    ⟨{ method := .delete, target := .number 7 }, by decide +kernel, ?_⟩⟩
  · decide +kernel
  · decide +kernel

end Pm2Manager
