import RewardPool.Program
import RewardPool.Rehearsal

/-!
Canned answers of the nodes. Each document and each kind of call has a list of answers that are given
one after the other, the last one from then on. A call may have answers for its most telling
parameter; they win over those for its name alone. The request to stop can be made to come with a
request of a given number, or when the answers about the finalized slot are used up.
-/
namespace RewardPool

structure Answers where
  /-- Documents by their paths. -/
  documents : List (String × List Reply)
  /-- Values and faults by what is called. -/
  calls : List (String × List (Except RpcFault Json))
  /-- The request for a document that fails and brings the request to stop. -/
  stopAtRequest : Option Nat
  /-- Whether polls beyond the listed ones bring the request to stop. -/
  stopAfterPolls : Bool
  /-- Whether the execution node can be connected to. -/
  connected : Bool

namespace Answers

def next {α : Type} (name : String) (answers : List α) : Play (Option α) := do
  let n := (← get).used.countP (· = name)
  modify fun s => { s with used := name :: s.used }
  return answers[n]?.or answers.getLast?

/-- The path in an address: what follows the scheme and the host. -/
def pathOf (url : String) : String :=
  let cs := url.toList
  let rest := (Uri.dropScheme? cs).getD cs
  String.ofList (rest.dropWhile (· ≠ '/'))

def finalizedPath : String := "/eth/v1/beacon/headers/finalized"

def isFinalized (path : String) : Bool := finalizedPath.toList.isSuffixOf path.toList

/-- Answers a request for a document; paths without answers are not found. -/
def fetch (a : Answers) (url : String) : Play Reply := do
  let path := pathOf url
  let listed := (a.documents.lookup path).getD []
  let polls := (← get).documents.countP (· = path)
  modify fun s =>
    { s with
      documents := s.documents ++ [path]
      stopped := s.stopped
        || (a.stopAfterPolls && isFinalized path && listed.length ≤ polls) }
  if a.stopAtRequest = some (← get).documents.length then
    modify fun s => { s with stopped := true }
    return .unreachable
  return (← next path listed).getD (.answered 404 "")

/-- The first characters of a text in an object. -/
def beginning (j : Option Json) (name : String) : String :=
  match j with
  | some (.object fields) =>
    String.ofList ((((fields.lookup name).bind Json.text?).getD "").toList.take 10)
  | _ => ""

/-- The most telling part of the parameters of a call. -/
def detail (method : String) (parameters : List Json) : String :=
  if method = "eth_call" then beginning parameters.head? "input"
  else if method = "eth_getLogs" then
    match parameters.head? with
    | some (.object fields) =>
      let topic := match fields.lookup "topics" with
        | some (.array (topic :: _)) => (topic.text?.getD "").toList.take 10
        | _ => []
      String.ofList topic ++ " " ++ ((fields.lookup "fromBlock").bind Json.text?).getD ""
    | _ => ""
  else (parameters.head?.bind Json.text?).getD ""

def unknown : RpcFault := .refused "-32601" "method not found" none

def call (a : Answers) (method : String) (parameters : List Json) : Play (Except RpcFault Json) := do
  modify fun s => { s with nodeCalls := s.nodeCalls ++ [(method, parameters)] }
  let narrow := method ++ " " ++ detail method parameters
  let (name, answers) := match a.calls.lookup narrow with
    | some answers => (narrow, answers)
    | none => (method, (a.calls.lookup method).getD [])
  return (← next name answers).getD (.error unknown)

def node (a : Answers) : RpcNode Play := ⟨a.call⟩

def connect (a : Answers) (url : String) : Play (Except RpcFault (RpcNode Play)) := do
  modify fun s => { s with sockets := s.sockets ++ [url] }
  if a.connected then return .ok a.node else return .error (.unreadable url)

/-- The owner of a private key, whose signatures are left blank. -/
def wallet (key : Hash) : Wallet Play := ⟨Secp256k1.address key, fun _ => pure []⟩

/-- A whole world for the program, whose files are those of the stage. -/
def host (a : Answers) (dir : Path) : Host Play where
  fetch := a.fetch
  connect := a.connect
  wallet := wallet
  disk _ := Stage.disk dir
  clock := Stage.clock
  print text := modify fun s => { s with printed := s.printed ++ text }

end Answers

end RewardPool
