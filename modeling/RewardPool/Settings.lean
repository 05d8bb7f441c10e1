import RewardPool.Arguments
import RewardPool.Config
import RewardPool.Secp256k1

/-!
The command line of the oracle. One command follows the chain, the other one shows what an address
can claim; both need the execution node, the pool and the place of the store. What a run is told is
checked as a whole before anything is opened.
-/
namespace RewardPool

open Arguments (Flag Level UsageError Values)

/-- What every command needs. -/
structure Connection where
  executionUrl : String
  poolAddress : Address
  stateDir : String
deriving DecidableEq

/-- What a run is told. -/
structure Settings where
  config : Config
  consensusUrl : String
  executionUrl : String
  stateDir : String
  /-- The private key that pays for submissions, as it is spelled. -/
  key : Option String
  gasLimit : Option UInt64
  /-- Seconds between two attempts of a read. -/
  retryDelay : UInt64
  receiptConcurrency : UInt64
  /-- Where metrics are sent to. -/
  metricsEndpoint : Option String
deriving DecidableEq

inductive Command where
  | run (settings : Settings)
  | claim (connection : Connection) (address : Address)
deriving DecidableEq

/-- What is wrong with settings that could be read. -/
inductive SettingsError where
  | configuration (error : ConfigError)
  | noConcurrency
  | privateKey
deriving DecidableEq

namespace SettingsError

def message : SettingsError → String
  | configuration _ => "Invalid oracle configuration"
  | noConcurrency => "receipt fetch concurrency must be positive"
  | privateKey => "Invalid private key"

def cause? : SettingsError → Option String
  | configuration error => some error.message
  | noConcurrency | privateKey => none

end SettingsError

namespace Settings

/-- Without a key no root is ever submitted. -/
def isDryRun (s : Settings) : Bool := s.key.isNone

/-- The first thing that is wrong with settings. -/
def error? (s : Settings) : Option SettingsError :=
  match s.config.fault? with
  | some e => some (.configuration e)
  | none =>
    if s.receiptConcurrency = 0 then some .noConcurrency
    else
      match s.key with
      | none => none
      | some key =>
        if (Secp256k1.privateKey? key.toList).isNone then some .privateKey else none

end Settings

namespace CommandLine

def executionUrl : Flag := ⟨"execution-url", .text, some "EXECUTION_URL", none, true⟩
def poolAddress : Flag := ⟨"pool-address", .address, some "POOL_ADDRESS", none, true⟩
def stateDir : Flag := ⟨"state-dir", .path, some "STATE_DIR", some "oracle-data", false⟩

def consensusUrl : Flag := ⟨"consensus-url", .text, some "CONSENSUS_URL", none, true⟩
def deployedSlot : Flag := ⟨"deployed-slot", .word, some "DEPLOYED_SLOT", none, true⟩
def deployedBlock : Flag := ⟨"deployed-block", .word, some "DEPLOYED_BLOCK", none, true⟩
def checkpointSize : Flag := ⟨"checkpoint-size", .word, some "CHECKPOINT_SIZE", some "7200", false⟩
def feePercent : Flag := ⟨"pool-fee-percent", .word, some "POOL_FEE_PERCENT", some "0", false⟩
def feeAddress : Flag := ⟨"pool-fee-address", .address, some "POOL_FEE_ADDRESS", none, true⟩
def collateral : Flag := ⟨"collateral-wei", .amount, some "COLLATERAL_WEI", none, true⟩
def eligibility : Flag :=
  ⟨"eligibility", .eligibility, some "ELIGIBILITY", some "active_only", false⟩
def privateKey : Flag := ⟨"private-key", .text, some "PRIVATE_KEY", none, false⟩
def gasLimit : Flag := ⟨"gas-limit", .word, some "GAS_LIMIT", none, false⟩
def retryDelay : Flag := ⟨"retry-delay-secs", .word, some "RETRY_DELAY_SECS", some "15", false⟩
def concurrency : Flag :=
  ⟨"receipt-fetch-concurrency", .word, some "RECEIPT_FETCH_CONCURRENCY", some "16", false⟩
def metricsEndpoint : Flag := ⟨"otlp-endpoint", .text, some "OTLP_ENDPOINT", none, false⟩

def address : Flag := ⟨"address", .address, none, none, true⟩

def runName : String := "run"
def claimName : String := "claim"

/-- The options in front of a command. -/
def outer : Level := ⟨[executionUrl, poolAddress, stateDir], [runName, claimName]⟩

/-- The options of a command. -/
def inner (name : String) : Level :=
  if name = runName then
    ⟨[consensusUrl, deployedSlot, deployedBlock, checkpointSize, feePercent, feeAddress, collateral,
      eligibility, privateKey, gasLimit, retryDelay, concurrency, metricsEndpoint], []⟩
  else ⟨[address], []⟩

/-- The value of an option, which has been checked to be there and to be readable. -/
def value {α : Type} (values : Values) (flag : Flag) (read : String → Option α) :
    Except UsageError α :=
  match values.lookup flag.name >>= read with
  | some a => .ok a
  | none => .error .valueValidation

def readWord (text : String) : Option UInt64 := Numeral.signed? text.toList >>= Numeral.word64?

def readAddress (text : String) : Option Address := FixedBytes.ofText? text.toList

def connection (values : Values) : Except UsageError Connection := do
  return { executionUrl := ← value values executionUrl some
           poolAddress := ← value values poolAddress readAddress
           stateDir := ← value values stateDir some }

def settings (c : Connection) (values : Values) : Except UsageError Settings := do
  let config : Config :=
    { poolAddress := c.poolAddress
      deployedSlot := ← value values deployedSlot readWord
      deployedBlock := ← value values deployedBlock readWord
      checkpointSize := ← value values checkpointSize readWord
      feePercent := ← value values feePercent readWord
      feeAddress := ← value values feeAddress readAddress
      collateral := ← value values collateral fun text => Wei.ofText? text.toList
      eligibility := ← value values eligibility Eligibility.ofText? }
  return { config
           consensusUrl := ← value values consensusUrl some
           executionUrl := c.executionUrl
           stateDir := c.stateDir
           key := values.lookup privateKey.name
           gasLimit := (values.lookup gasLimit.name).bind readWord
           retryDelay := ← value values retryDelay readWord
           receiptConcurrency := ← value values concurrency readWord
           metricsEndpoint := values.lookup metricsEndpoint.name }

/-- Reads a command line, without the name of the program. -/
def read (environment : Values) (words : List String) : Except UsageError Command := do
  let (common, name, values) ← outer.read inner environment words
  let c ← connection common
  if name = runName then return .run (← settings c values)
  else return .claim c (← value values address readAddress)

end CommandLine

end RewardPool
