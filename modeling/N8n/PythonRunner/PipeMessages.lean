import N8n.Library.ByteStreams

/-! The messages that the process of a Python task writes to its pipe, and the thread that reads
them.
-/

namespace N8n.PythonRunner

open N8n.ByteStreams

def PIPE_MSG_PREFIX_LENGTH : Nat := 4

def MAX_PRINT_ARGS_ALLOWED : Nat := 100

/-- The values that `json.loads` returns; a float stands for itself by its text. -/
inductive Json where
  | null
  | bool (value : Bool)
  | int (value : Int)
  | float (text : String)
  | str (value : String)
  | list (items : List Json)
  | dict (entries : List (String × Json))

namespace Json

/-- `type(msg).__name__`. -/
def typeName : Json → String
  | null => "NoneType"
  | bool _ => "bool"
  | int _ => "int"
  | float _ => "float"
  | str _ => "str"
  | list _ => "list"
  | dict _ => "dict"

def isList : Json → Bool
  | list _ => true
  | _ => false

def isDict : Json → Bool
  | dict _ => true
  | _ => false

end Json

/-- `msg[key]`, where the key is present. -/
def lookup (entries : List (String × Json)) (key : String) : Option Json :=
  (entries.find? (fun entry => entry.1 = key)).map Prod.snd

/-- `json.dumps(message, default=str, ensure_ascii=False).encode("utf-8")` and
`json.loads(data.decode("utf-8"))`, which is nothing where it raises.
-/
structure JsonCodec where
  dumps : Json → List UInt8
  loads : List UInt8 → Option Json

/-- Args to all `print()` calls in a Python code task, formatted. -/
abbrev PrintArgs := List (List String)

/-- Truncate print_args to prevent pipe buffer overflow. -/
def truncatePrintArgs (print_args : PrintArgs) : PrintArgs :=
  if print_args.length ≤ MAX_PRINT_ARGS_ALLOWED then print_args
  else
    print_args.take MAX_PRINT_ARGS_ALLOWED
      ++ [["[Output truncated - " ++ toString (print_args.length - MAX_PRINT_ARGS_ALLOWED)
            ++ " more print statements]"]]

def printArgsJson (print_args : PrintArgs) : Json :=
  .list (print_args.map (fun args => .list (args.map .str)))

/-- An exception that a task ends with; `code` is what a `SystemExit` has. -/
structure RaisedException where
  text : String
  code : Option String
  description : Option Json
  traceback : String

/-- The calls that put a message into the pipe. -/
inductive PutCall where
  | result (result : Json) (print_args : PrintArgs)
  | error (e : RaisedException) (stderr : String) (print_args : Option PrintArgs)

def taskErrorInfo (e : RaisedException) (stderr : String) : Json :=
  .dict
    [("message",
        .str (match e.code with
          | some code => "Process exited with code " ++ code
          | none => e.text)),
      ("description", e.description.getD (.str "")),
      ("stack", .str e.traceback),
      ("stderr", .str stderr)]

/-- The message of `_put_result` or `_put_error`. -/
def PutCall.message : PutCall → Json
  | .result value print_args =>
      .dict [("result", value), ("print_args", printArgsJson (truncatePrintArgs print_args))]
  | .error e stderr print_args =>
      .dict
        [("error", taskErrorInfo e stderr),
          ("print_args", printArgsJson (truncatePrintArgs (print_args.getD [])))]

inductive PipeError where
  | writeFailed
  /-- A length that does not fit the prefix. -/
  | overflow
  | closed
  | invalidLength (length : Nat)
  | invalidJson
  | invalidContent (message : String)
deriving DecidableEq

/-- What arrives in the pipe, and the next call. -/
def writeBytes (chunks : Chunks) (call : Nat) (data : List UInt8)
    : Except PipeError (List UInt8 × Nat) :=
  (writeAll chunks call data).mapError (fun _ => .writeFailed)

/-- `len(data).to_bytes(PIPE_MSG_PREFIX_LENGTH, "big")`. -/
def lengthBytes (data : List UInt8) : Except PipeError (List UInt8) :=
  if data.length < 256 ^ PIPE_MSG_PREFIX_LENGTH then
    .ok (bigEndian PIPE_MSG_PREFIX_LENGTH data.length)
  else .error .overflow

/-- What `_put_result` and `_put_error` leave in the pipe. -/
def PutCall.put (codec : JsonCodec) (chunks : Chunks) (put : PutCall)
    : Except PipeError (List UInt8) := do
  let data := codec.dumps put.message
  let length_bytes ← lengthBytes data
  let (arrived, call) ← writeBytes chunks 0 length_bytes
  let (others, _) ← writeBytes chunks call data
  return arrived ++ others

structure PipeReader where
  pipe_message : Option Json
  /-- In bytes. -/
  message_size : Option Nat
  error : Option PipeError

namespace PipeReader

def validatePipeMessage (msg : Json) : Except PipeError Json :=
  match msg with
  | .dict entries =>
      match lookup entries "print_args" with
      | none => .error (.invalidContent "Message missing 'print_args' key")
      | some print_args =>
          if !print_args.isList then .error (.invalidContent "'print_args' must be a list")
          else
            match lookup entries "result", lookup entries "error" with
            | none, none => .error (.invalidContent "Msg is missing 'result' or 'error' key")
            | some _, some _ =>
                .error (.invalidContent "Msg has both 'result' and 'error' keys")
            | some _, none => .ok msg
            | none, some error =>
                if !error.isDict then .error (.invalidContent "'error' must be a dict")
                else .ok msg
  | _ => .error (.invalidContent ("Expected dict, got " ++ msg.typeName))

/-- Read exactly n bytes from file descriptor. -/
def readExactBytes (chunks : Chunks) (call : Nat) (stream : List UInt8) (n : Nat)
    : Except PipeError (List UInt8 × Nat × List UInt8) :=
  (readExact chunks call stream n []).mapError (fun _ => .closed)

/-- The reader once the length of the message is read. -/
def readMessage (codec : JsonCodec) (chunks : Chunks) (call : Nat) (stream : List UInt8)
    (length_int : Nat)
    : PipeReader :=
  match readExactBytes chunks call stream length_int with
  | .error error => ⟨none, some length_int, some error⟩
  | .ok (data, _, _) =>
      match codec.loads data with
      | none => ⟨none, some length_int, some .invalidJson⟩
      | some parsed_msg =>
          match validatePipeMessage parsed_msg with
          | .error error => ⟨none, some length_int, some error⟩
          | .ok message => ⟨some message, some length_int, none⟩

/-- The reader of a pipe in which the bytes arrive before it is closed. -/
def run (codec : JsonCodec) (chunks : Chunks) (stream : List UInt8) : PipeReader :=
  match readExactBytes chunks 0 stream PIPE_MSG_PREFIX_LENGTH with
  | .error error => ⟨none, none, some error⟩
  | .ok (length_bytes, call, rest) =>
      let length_int := fromBigEndian length_bytes
      if length_int = 0 then ⟨none, none, some (.invalidLength length_int)⟩
      else readMessage codec chunks call rest length_int

end PipeReader

end N8n.PythonRunner
