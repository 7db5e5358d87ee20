import Attestor.Address
import Attestor.Key.Basic
import Attestor.Text.Digits
import Attestor.Text.SocketAddress

/-! The configuration, read from named variables. A variable that holds nothing but blanks
counts as unset; the first variable that is missing or wrong is reported, in a fixed order.
Secrets are not shown. -/

namespace Attestor

structure Config where
  apiHost : Text.SocketAddress
  databaseUrl : String
  databaseConnections : UInt32
  oracleKey : SigningKey
  contract : Option Address
  /-- In seconds, as are all durations. -/
  transferExpiration : UInt64
  identityExpiration : UInt64
  network : Network
  isTest : Bool
  nodeUrl : String
  nodeUser : Option String
  nodePassword : Option String
  headerOffset : UInt64
  pollInterval : UInt64
  startHeight : Option UInt32
  maxBatch : UInt32
  snapshotFile : String
  approverUrl : Option String
  allowedOrigins : List String
  shutdownTimeout : UInt64

namespace Config

inductive Error where
  | missing (name : String)
  | invalid (name reason : String)
  deriving DecidableEq

def Error.message : Error → String
  | .missing name => name ++ " must be set"
  | .invalid name reason => name ++ " is invalid: " ++ reason

/-- The values of variables. -/
abbrev Variables := String → Option String

/-- The value of a variable that is set. -/
def value? (vars : Variables) (name : String) : Option String :=
  (vars name).filter fun v => !(Text.trimChars v.toList).isEmpty

def demand (vars : Variables) (name : String) : Except Error String :=
  match value? vars name with
  | some v => .ok v
  | none => .error (.missing name)

variable {α : Type}

/-- Reads a variable if it is set; `read` tells what is wrong with a value. -/
def read? (vars : Variables) (name : String) (read : String → Except String α) :
    Except Error (Option α) :=
  match value? vars name with
  | none => .ok none
  | some v =>
    match read v with
    | .ok a => .ok (some a)
    | .error reason => .error (.invalid name reason)

/-- Reads a variable without the blanks around it, or takes the default. -/
def readOr (vars : Variables) (name : String) (default : α) (read : String → Except String α) :
    Except Error α :=
  (read? vars name (fun v => read (Text.trim v))).map (·.getD default)

def natural (bound : Nat) (s : String) : Except String Nat :=
  (Text.Decimal.read bound s).mapError Text.Decimal.Error.message

def uint32 (s : String) : Except String UInt32 := (natural UInt32.size s).map UInt32.ofNat

def uint64 (s : String) : Except String UInt64 := (natural UInt64.size s).map UInt64.ofNat

def boolean (s : String) : Except String Bool :=
  if s = "true" then .ok true
  else if s = "false" then .ok false
  else .error "provided string was not `true` or `false`"

def socketAddress (s : String) : Except String Text.SocketAddress :=
  match Text.SocketAddress.parse? s with
  | some a => .ok a
  | none => .error "invalid socket address syntax"

def ofKey (r : Except Key.Error α) : Except String α := r.mapError Key.Error.message

/-- The parts of a list that are not blank, without the blanks around them. -/
def origins (s : String) : List String := ((Text.split ',' s).map Text.trim).filter (· ≠ "")

def ofVariables (vars : Variables) : Except Error Config := do
  let network ← readOr vars "BITCOIN_CHAIN" .mainnet fun s => ofKey (Network.parse s)
  let keyText ← demand vars "ORACLE_KEY"
  let oracleKey ← (ofKey (SigningKey.parse keyText)).mapError (.invalid "ORACLE_KEY")
  let contract ← read? vars "ORACLE_CONTRACT_ADDRESS" fun s => ofKey (Address.parse network s)
  let headerOffset ← readOr vars "HEADER_OFFSET" 5 uint64
  if headerOffset = 0 then throw (.invalid "HEADER_OFFSET" "must be at least 1")
  let apiHost ← readOr vars "API_HOST" (.v4 [0, 0, 0, 0] 8080) socketAddress
  let databaseUrl ← demand vars "DATABASE_URL"
  let databaseConnections ← readOr vars "DATABASE_MAX_CONNECTIONS" 10 uint32
  let transferExpiration ← readOr vars "TRANSFER_EXPIRATION_DURATION_SECONDS" 21600 uint64
  let identityExpiration ← readOr vars "IDENTITY_EXPIRATION_DURATION_SECONDS" 21600 uint64
  let isTest ← readOr vars "IS_TEST" true boolean
  let nodeUrl ← demand vars "NODE_RPC_URL"
  let pollInterval ← readOr vars "FEED_POLL_INTERVAL_SECONDS" 10 uint64
  let startHeight ← read? vars "FEED_START_HEIGHT" fun s => uint32 (Text.trim s)
  let maxBatch ← readOr vars "FEED_MAX_BATCH" 100 uint32
  let shutdownTimeout ← readOr vars "SHUTDOWN_TIMEOUT_SECONDS" 5 uint64
  return {
    apiHost, databaseUrl, databaseConnections, oracleKey, contract, transferExpiration,
    identityExpiration, network, isTest, nodeUrl, headerOffset, pollInterval, startHeight,
    maxBatch, shutdownTimeout
    nodeUser := value? vars "NODE_RPC_USER"
    nodePassword := value? vars "NODE_RPC_PASSWORD"
    snapshotFile := (value? vars "HEADER_SNAPSHOT_FILE").getD "./data/headers.bin"
    approverUrl := value? vars "APPROVER_URL"
    allowedOrigins := origins ((value? vars "CORS_ALLOWED_ORIGINS").getD "http://localhost:3000") }

namespace Shown

/-- Items between square brackets. -/
def list (items : List String) : String := "[" ++ ", ".intercalate items ++ "]"

/-- Named fields between braces. -/
def record (name : String) (fields : List (String × String)) : String :=
  name ++ " \x7b " ++ ", ".intercalate (fields.map fun (k, v) => k ++ ": " ++ v) ++ " \x7d"

def optional (v : Option String) : String :=
  match v with
  | some s => "Some(" ++ s ++ ")"
  | none => "None"

def bytes (b : Bytes) : String := list (b.map fun x => toString x.toNat)

def address : Address → String
  | .keyHash hash => "PublicKeyHash(" ++ bytes hash.toList ++ ")"
  | .scriptHash hash => "ScriptHash(" ++ bytes hash.toList ++ ")"
  | .multiKey required hashes =>
    record "MultiPublicKeyHash" [("required", toString required.toNat),
      ("hashes", list (hashes.map fun h => bytes h.toList))]

def network : Network → String
  | .mainnet => "Mainnet"
  | .testnet => "Testnet"

/-- No time at all is given in the smallest unit. -/
def seconds (s : UInt64) : String := if s = 0 then "0ns" else toString s.toNat ++ "s"

/-- Tells only whether a secret is set. -/
def secret (v : Option String) : String :=
  Text.quoted (if v.isSome then "<redacted>" else "<unset>")

end Shown

/-- The configuration as it is shown to a person. -/
def shown (c : Config) : String :=
  Shown.record "Config"
    [("api_host", c.apiHost.text), ("database_url", Text.quoted "<redacted>"),
      ("database_max_connections", toString c.databaseConnections.toNat),
      ("oracle_key", c.oracleKey.shown),
      ("contract_address", Shown.optional (c.contract.map Shown.address)),
      ("transfer_expiration", Shown.seconds c.transferExpiration),
      ("identity_expiration", Shown.seconds c.identityExpiration),
      ("network", Shown.network c.network), ("is_test", if c.isTest then "true" else "false"),
      ("node_rpc_url", Text.quoted c.nodeUrl),
      ("node_rpc_user", Shown.optional (c.nodeUser.map Text.quoted)),
      ("node_rpc_password", Shown.secret c.nodePassword),
      ("header_offset", toString c.headerOffset.toNat),
      ("feed_poll_interval", Shown.seconds c.pollInterval),
      ("feed_start_height", Shown.optional (c.startHeight.map fun h => toString h.toNat)),
      ("feed_max_batch", toString c.maxBatch.toNat),
      ("header_snapshot_file", Text.quoted c.snapshotFile),
      ("approver_url", Shown.optional (c.approverUrl.map Text.quoted)),
      ("cors_allowed_origins", Shown.list (c.allowedOrigins.map Text.quoted)),
      ("shutdown_timeout", Shown.seconds c.shutdownTimeout)]

end Config

end Attestor
