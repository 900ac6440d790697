import N8n.PythonRunner.PipeMessages

/-! The process of a Python task, and the threads that execute and stop it
(`packages/@n8n/task-runner-python/src/task_executor.py`, with the exceptions of
`packages/@n8n/task-runner-python/src/errors`). A thread is cut where it waits.
-/

namespace N8n.PythonRunner

def SIGTERM_EXIT_CODE : Int := -15
def SIGKILL_EXIT_CODE : Int := -9

/-- What a task can end with. `SyntaxError` and `SecurityViolationError` come from the analyzer,
and `other` is an exception of a call to Python's own library or to the connection.
-/
inductive TaskException where
  | cancelled
  | killed
  | missing (task_id : String)
  | resultMissing
  | resultRead
  | runtime (message description : Json)
  | subprocessFailed (exit_code : Int)
  | timeout (task_timeout : Int)
  | syntaxError (text : String)
  | securityViolation (message description : String)
  | other (text : String)

namespace TaskException

/-- `str(e)`; `str` is Python's, on a value that comes out of JSON. -/
def text (str : Json → String) : TaskException → String
  | cancelled => "Task was cancelled"
  | killed => "Process was forcefully killed (SIGKILL)"
  | missing task_id =>
      "Failed to find task " ++ task_id ++ ". This is likely an internal error."
  | resultMissing =>
      "Process completed but returned no result. This is likely an internal error."
  | resultRead => "Failed to read result from child process"
  | runtime message _ => str message
  | subprocessFailed exit_code => "Task subprocess exited with code " ++ toString exit_code
  | timeout task_timeout =>
      "Task execution timed out after " ++ toString task_timeout ++ " "
        ++ if task_timeout = 1 then "second" else "seconds"
  | syntaxError text => text
  | securityViolation message _ => message
  | other text => text

/-- The error of the message to the broker. -/
def error (str : Json → String) (e : TaskException) : Json :=
  match e with
  | cancelled => .dict [("message", .str (e.text str))]
  | syntaxError text => .dict [("message", .str text)]
  | runtime _ description => .dict [("message", .str (e.text str)), ("description", description)]
  | securityViolation message description =>
      .dict [("message", .str message), ("description", .str description)]
  | _ => .dict [("message", .str (e.text str)), ("description", .str "")]

end TaskException

def Json.truthy : Json → Bool
  | .null => false
  | .bool value => value
  | .int value => value ≠ 0
  | .float text => text ≠ "0.0" && text ≠ "-0.0"
  | .str value => value ≠ ""
  | .list items => !items.isEmpty
  | .dict entries => !entries.isEmpty

/-- `TaskRuntimeError(task_error_info)`, or the `KeyError` of an info without a message. -/
def taskRuntimeError (task_error_info : List (String × Json)) : TaskException :=
  match lookup task_error_info "message" with
  | none => .other "'message'"
  | some message =>
      let description := (lookup task_error_info "description").getD (.str "")
      .runtime message
        (if description.truthy then description
         else (lookup task_error_info "stderr").getD (.str ""))

inductive Signal where
  | sigterm
  | sigkill
  deriving DecidableEq, Repr

/-- A process object, with the signals sent to it. -/
structure Process where
  started : Bool
  signals : List Signal
  exitcode : Option Int
  deriving DecidableEq, Repr

def Process.new : Process := ⟨false, [], none⟩

def Process.isAlive (self : Process) : Bool := self.started && self.exitcode.isNone

def Process.signal (self : Process) (signal : Signal) : Process :=
  { self with signals := self.signals ++ [signal] }

/-- How a wait turns out. -/
inductive Happening where
  | goesOn
  | timesOut
  | fails (e : TaskException)
  /-- The pipe reader, or nothing while it is still alive. -/
  | reads (pipe_reader : Option PipeReader)

/-- Where `stop_process` stands: before its first look at the process, in the grace period, or
after the kill.
-/
inductive StopPoint where
  | begun
  | waiting
  | killed
  deriving DecidableEq, Repr

/-- `stop_process` up to its next wait, or to its end. It ends also where the process turns out
to be dead or unreachable.
-/
def StopPoint.step (process : Process) : StopPoint → Happening → Option (Process × Option StopPoint)
  | .begun, .goesOn =>
      if process.isAlive then some (process.signal .sigterm, some .waiting)
      else some (process, none)
  | .waiting, .goesOn => if process.isAlive then none else some (process, none)
  | .waiting, .timesOut =>
      if process.isAlive then some (process.signal .sigkill, some .killed)
      else some (process, none)
  | .killed, .goesOn => if process.isAlive then none else some (process, none)
  | _, .fails _ => some (process, none)
  | _, _ => none

/-- What `execute_process` returns, but for the size, which is only logged. -/
structure Executed where
  result : Json
  print_args : List Json

abbrev Outcome := Except TaskException Executed

/-- The `except` clause around the execution. -/
def conclude (str : Json → String) (continue_on_fail : Bool) (e : TaskException) : Outcome :=
  if continue_on_fail then
    .ok ⟨.list [.dict [("json", .dict [("error", .str (e.text str))])]], []⟩
  else .error e

/-- The exception of a process that has exited. -/
def exitException (exitcode : Int) : Option TaskException :=
  if exitcode = SIGTERM_EXIT_CODE then some .cancelled
  else if exitcode = SIGKILL_EXIT_CODE then some .killed
  else if exitcode ≠ 0 then some (.subprocessFailed exitcode)
  else none

/-- What the reader took from the pipe. That a message is a dict, its error a dict and its
`print_args` a list has been checked by the reader.
-/
def takeMessage (pipe_reader : Option PipeReader) : Outcome :=
  match pipe_reader with
  | none => .error .resultRead
  | some pipe_reader =>
      if pipe_reader.error.isSome then .error .resultRead
      else
        match pipe_reader.pipe_message with
        | some (.dict returned) =>
            match lookup returned "error", lookup returned "result" with
            | some (.dict task_error_info), _ => .error (taskRuntimeError task_error_info)
            | none, some result =>
                match lookup returned "print_args" with
                | some (.list print_args) => .ok ⟨result, print_args⟩
                | _ => .ok ⟨result, []⟩
            | _, _ => .error .resultMissing
        | _ => .error .resultMissing

/-- Where `execute_process` stands. -/
inductive ExecutePoint where
  | starting
  | joining
  | stopping (point : StopPoint)
  | reading
  deriving DecidableEq, Repr

inductive Progress where
  | reaches (point : ExecutePoint)
  | returns (outcome : Outcome)

section

variable (str : Json → String) (task_timeout : Int) (continue_on_fail : Bool)

/-- After the process has been joined. -/
def joined (process : Process) : Option Progress :=
  process.exitcode.map (fun exitcode =>
    match exitException exitcode with
    | some e => .returns (conclude str continue_on_fail e)
    | none => .reaches .reading)

/-- `execute_process` up to its next wait, or to its end. -/
def ExecutePoint.step (process : Process)
    : ExecutePoint → Happening → Option (Process × Progress)
  | .starting, .goesOn => some ({ process with started := true }, .reaches .joining)
  | .starting, .fails _ =>
      some (process, .returns (conclude str continue_on_fail (.subprocessFailed (-1))))
  | .joining, .goesOn => (joined str continue_on_fail process).map (process, ·)
  | .joining, .timesOut =>
      if process.isAlive then some (process, .reaches (.stopping .begun))
      else (joined str continue_on_fail process).map (process, ·)
  | .stopping point, happening =>
      (point.step process happening).map (fun (process, next) =>
        match next with
        | some point => (process, .reaches (.stopping point))
        | none => (process, .returns (conclude str continue_on_fail (.timeout task_timeout))))
  | .reading, .reads pipe_reader =>
      match takeMessage pipe_reader with
      | .ok executed => some (process, .returns (.ok executed))
      | .error e => some (process, .returns (conclude str continue_on_fail e))
  | _, _ => none

end

end N8n.PythonRunner
