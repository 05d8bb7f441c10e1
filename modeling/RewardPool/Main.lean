import RewardPool.Keccak
import RewardPool.Program

/-!
The program itself. Files are those of the machine. Everything else that the program asks of the
outside goes through a gateway: a directory with two pipes, named by a variable of the environment.
Each request is one line of the first pipe, and its answer is one line of the second. The claim is
printed on standard output, and a failure on standard error.
-/
namespace RewardPool

namespace Gateway

/-- The variable that names the directory of the gateway. -/
def directoryName : String := "GATEWAY_DIR"

structure Pipes where
  requests : IO.FS.Handle
  answers : IO.FS.Handle

def openPipes (dir : String) : IO Pipes := do
  let requests ← IO.FS.Handle.mk (joinPath dir ["requests"]) .write
  let answers ← IO.FS.Handle.mk (joinPath dir ["answers"]) .read
  return ⟨requests, answers⟩

/-- Sends a request and waits for its answer; a line that is no value counts as null. -/
def ask (g : Pipes) (request : List (String × Json)) : IO Json := do
  g.requests.putStrLn (Json.object request).compact
  g.requests.flush
  return (Json.parse? (← g.answers.getLine)).getD .null

def isTrue : Json → Bool
  | .bool b => b
  | _ => false

def replyOf (j : Json) : Reply :=
  match j.columns? ["status", "body"] with
  | some [some status, some body] =>
    match status.nat?, body.text? with
    | some status, some body => .answered status body
    | _, _ => .unreachable
  | _ => .unreachable

def fetch (g : Pipes) (url : String) : IO Reply := do
  return replyOf (← ask g [("get", .ofText url)])

def call (g : Pipes) (url method : String) (parameters : List Json) : IO (Except RpcFault Json) := do
  let answer ← ask g
    [("node", .ofText url), ("method", .ofText method), ("params", .array parameters)]
  return RpcFault.ofResponse method answer

def connect (g : Pipes) (url : String) : IO (Except RpcFault (RpcNode IO)) := do
  if isTrue (← ask g [("connect", .ofText url)]) then return .ok ⟨call g url⟩
  else return .error (.unreadable url)

def requestJson (t : TransactionRequest) : Json :=
  .object
    [("type", .ofQuantity 2), ("chainId", .ofQuantity t.chainId), ("nonce", .ofQuantity t.nonce),
     ("gas", .ofQuantity t.gas), ("maxFeePerGas", .ofQuantity t.feeCap),
     ("maxPriorityFeePerGas", .ofQuantity t.tipCap), ("to", .ofText t.recipient.text),
     ("value", .ofQuantity 0), ("input", .ofBytes t.input)]

/-- The owner of a private key; signatures are made behind the gateway. -/
def wallet (g : Pipes) (key : Hash) : Wallet IO where
  address := Secp256k1.address key
  sign t := do
    let answer ← ask g [("sign", requestJson t), ("key", .ofText key.text)]
    return answer.bytes?.getD []

def clock (g : Pipes) : Clock IO where
  stopped := return isTrue (← ask g [("stopped", .null)])
  pause seconds := return !isTrue (← ask g [("pause", .ofNat seconds)])

end Gateway

namespace Machine

def faultOf (e : IO.Error) : DiskFault :=
  match e with
  | .noFileOrDirectory .. => .notFound
  | .alreadyExists .. => .alreadyExists
  | .inappropriateType .. => .isADirectory
  | e => .other (toString e)

/-- Turns the exception of a file operation into a fault. -/
def attempt {α : Type} (op : IO α) : IO (Except DiskFault α) := do
  match ← op.toBaseIO with
  | .ok a => return .ok a
  | .error e => return .error (faultOf e)

def disk (dir : String) : Disk IO where
  makeDirs p := attempt (IO.FS.createDirAll (joinPath dir p))
  isThere p := do
    match ← attempt (IO.FS.realPath (joinPath dir p)) with
    | .ok _ => return true
    | .error _ => return false
  read p := attempt (IO.FS.readFile (joinPath dir p))
  write p text := attempt (IO.FS.writeFile (joinPath dir p) text)
  rename source target := attempt (IO.FS.rename (joinPath dir source) (joinPath dir target))

/-- The variables of the environment that options may come from. -/
def environment : IO Arguments.Values := do
  let names := (CommandLine.outer.flags ++ (CommandLine.inner CommandLine.runName).flags).filterMap
    (·.envName)
  names.filterMapM fun name => do return (← IO.getEnv name).map (name, ·)

def host (g : Gateway.Pipes) : Host IO where
  fetch := Gateway.fetch g
  connect := Gateway.connect g
  wallet := Gateway.wallet g
  disk := disk
  clock := Gateway.clock g
  print text := do
    let out ← IO.getStdout
    out.putStr text
    out.flush

/-- More attempts and rounds than a machine gets to make. -/
def budget : Nat := 1 <<< 62

/-- Prints a failure and what lies behind it. -/
def fail (message : String) (cause : Option String) : IO UInt32 := do
  IO.eprintln ("Error: " ++ message)
  if let some cause := cause then IO.eprintln ("Caused by: " ++ cause)
  return 1

def execute (command : Command) : IO UInt32 := do
  let g ← Gateway.openPipes ((← IO.getEnv Gateway.directoryName).getD ".")
  let result ← match command with
    | .run s => (Program.run Keccak.digest (host g) s budget).run
    | .claim c address => (Program.claim (host g) c address).run
  match result with
  | .ok _ => return 0
  | .error e => fail e.message e.cause?

def program (words : List String) : IO UInt32 := do
  match CommandLine.read (← environment) words with
  | .error e =>
    IO.eprintln ("error: " ++ e.name)
    return 2
  | .ok (.run s) =>
    match s.error? with
    | some e => fail e.message e.cause?
    | none => execute (.run s)
  | .ok command => execute command

end Machine

end RewardPool

def main (words : List String) : IO UInt32 := RewardPool.Machine.program words
