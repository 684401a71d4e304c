import StackLang.Execution
import StackLang.Inputs
import StackLang.Service.Reply
import StackLang.Service.Validation

/-!
# The service

Programs can be compiled and run by requests. There are four routes; a known path with another
method is refused, and a known path with slashes at its end is redirected.

Requests share one bench, so that files, names and the library are those of the service. They share
one assembler, too, which is made when the service starts: with settings that no assembler can be
made of there is no service.

## Main definitions

* `Service.start`: what a service works with
* `Service.Route`, `Service.routes`: the routes
* `Service.compileReply`, `Service.runReply`: the two routes for programs
* `Service.handle`: the reply to a request
-/

namespace StackLang

namespace Service

/-- The version that the service reports. -/
def version : String := "0.1.0"

/-- What a service works with, once it has made its assembler. -/
def start (settings : Settings) (tool : Tool) : Except Fault Execution.Session := do
  let assembler ← Assembler.create settings [] "" none
  return ⟨settings, tool, .ok assembler⟩

/-! ## Routes -/

/-- What can be asked for. -/
inductive Route
  | health
  | vocabulary
  | compile
  | run
  deriving DecidableEq, Repr

/-- The routes with their paths and methods. -/
def routes : List (String × String × Route) :=
  [("/programs/compile", "POST", .compile), ("/programs/run", "POST", .run),
    ("/opcodes", "GET", .vocabulary), ("/health", "GET", .health)]

/-- Where a request leads to. -/
inductive Target
  | route (route : Route)
  | otherMethod
  | redirect
  | unknown
  deriving DecidableEq, Repr

/-- A path without one line break at its end. -/
def dropBreak (path : String) : String :=
  match path.toList.reverse with
  | '\n' :: cs => String.ofList cs.reverse
  | _ => path

/-- The route at a path, with its method. A line break at the end of the path does not matter. -/
def routeAt? (path : String) : Option (String × Route) := routes.lookup (dropBreak path)

/-- A path without the slashes at its end. -/
def dropSlashes (path : String) : String :=
  String.ofList (path.toList.reverse.dropWhile (· = '/')).reverse

/-- Where a method and a path lead to. -/
def locate (method path : String) : Target :=
  match routeAt? path with
  | some (m, route) => if m = method then .route route else .otherMethod
  | none => if (routeAt? (dropSlashes path)).isSome then .redirect else .unknown

/-! ## Replies without a body to check -/

/-- A reply that all is well. -/
def healthReply : Reply :=
  ⟨200, .json (.obj [("status", .str "ok"), ("version", .str version)]), none⟩

/-- One row of the vocabulary. -/
def vocabularyRow (name : String) (pops pushes : Nat) (text : String) : Json :=
  .obj [("name", .str name), ("pops", .int pops), ("pushes", .int pushes), ("wat", .str text)]

/-- The words of the language and the literals. -/
def vocabularyReply : Reply :=
  let words := Token.vocabulary.map fun (name, i) => vocabularyRow name i.pops i.pushes i.text
  let literals := vocabularyRow "<digits>" (Instr.push 0).pops (Instr.push 0).pushes
    "i32.const <digits>"
  ⟨200, .json (.arr (words ++ [literals])), none⟩

/-! ## Programs -/

/-- The reply for a fault, with a record in the log when it is not the program's. -/
def failedReply (path : String) (fault : Fault) (b : Bench) : Reply × Bench :=
  let reply := Reply.ofFault fault
  if fault.kind?.isSome && fault.status ≥ 500 then (reply, b.tell (.failure path)) else (reply, b)

/-- Work as a reply. -/
def answer {α : Type} (path : String) (work : Work α) (render : α → Json) (b : Bench) :
    Reply × Bench :=
  match work.run.run b with
  | (.ok a, b') => (⟨200, .json (render a), none⟩, b')
  | (.error fault, b') => failedReply path fault b'

/-- What is said about a compiled program. -/
def programJson (p : Program) : Json :=
  .obj [("tokens", .strs p.tokens), ("wat", .str p.text), ("imports", .strs p.imports),
    ("depths", .ints p.depths)]

/-- Compile a program. -/
def compileReply (path : String) (tokens : List RawText) (b : Bench) : Reply × Bench :=
  answer path (Execution.compileRaw tokens) programJson b

/-- The inputs of a request, or those that are set. -/
def inputsOf (s : Execution.Session) (r : RunRequest) : Except Fault (Int × Int) :=
  match r.inputs with
  | some pair => .ok pair
  | none => Inputs.parseRaw s.settings.inputs

/-- The integer that a value is, if it is one. -/
def integerOf? : Value → Option Int
  | .int n => some n
  | .float x => (floatValue x).toOption
  | .other _ => none

/-- Run a program on the inputs of a request. A reply needs a result that is an integer. -/
def runWork [Engine] (s : Execution.Session) (r : RunRequest) : Work ((Int × Int) × Int) := do
  let inputs ← Work.ofExcept (inputsOf s r)
  match (← Execution.runRaw s true r.tokens inputs).bind integerOf? with
  | some result => return (inputs, result)
  | none => throw .noResult

/-- What is said about a run. -/
def runJson (tokens : List RawText) (outcome : (Int × Int) × Int) : Json :=
  .obj [("tokens", .arr (tokens.map .str)), ("inputs", .ints [outcome.1.1, outcome.1.2]),
    ("result", .int outcome.2)]

/-- Run a program. -/
def runReply [Engine] (s : Execution.Session) (path : String) (r : RunRequest) (b : Bench) :
    Reply × Bench :=
  answer path (runWork s r) (runJson r.tokens) b

/-! ## Requests -/

/-- Check a body and go on with what it says. -/
def withBody {α : Type} (r : Request) (check : Json → Checked α)
    (next : α → Bench → Reply × Bench) (b : Bench) : Reply × Bench :=
  match readBody r with
  | .error .unreadable => (.detail 400 "There was an error parsing the body", b)
  | .error (.complaint c) => (.ofComplaints [c], b)
  | .ok v =>
    match check v with
    | .error es => (.ofComplaints es, b)
    | .ok a => next a b

/-- The reply to a request. -/
def handle [Engine] (s : Execution.Session) (r : Request) (b : Bench) : Reply × Bench :=
  match locate r.method r.path with
  | .unknown => (.detail 404 "Not Found", b)
  | .otherMethod => (.detail 405 "Method Not Allowed", b)
  | .redirect => (⟨307, .text "", none⟩, b)
  | .route .health => (healthReply, b)
  | .route .vocabulary => (vocabularyReply, b)
  | .route .compile => withBody r checkCompile (compileReply (dropBreak r.path)) b
  | .route .run => withBody r checkRun (runReply s (dropBreak r.path)) b

end Service

end StackLang
