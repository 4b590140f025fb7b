import GamePath.Relay.Turns

/-!
# The registry of enrolled clients

`relay/src/client_registry.rs`: a directory of enrolment records is read (`read_record_files`), the
records are checked as one set (`validate_records`), and the clients behind the packet lock are
brought to that set (`reconcile_clients`).

A directory is what `fs::read_dir` yields, in its own order: the whole listing or one entry of it
may be an error, and so may the reading of a file. Base64 and the JSON of a record are read by
other crates and are parameters, a `Codec`. `serve` of `Relay.Serve` knows of a record only its key
and address: `view` forgets the rest, and `view_refresh` says that a reload here is `reload` there.
-/

namespace GamePath.Relay.ClientRegistry

open Lib Engine Engine.Protocol

def maxClients : Nat := 253

def maxRecordBytes : Nat := 4096

/-- `io::Error`: of the operating system, or made with a message of the relay's own. -/
inductive IoError where
  | os (code : Int)
  | invalidData (message : String)
  | other (message : String)

structure ClientRecord where
  name : String
  version : UInt8
  clientId : String
  preSharedKey : String
  virtualIpv4 : Octets

structure EnrollmentToken where
  version : UInt8
  clientId : String
  preSharedKey : String
  virtualIpv4 : Octets

/-- What other crates read: `URL_SAFE_NO_PAD.decode`, and `serde_json::from_slice` of a record. -/
structure Codec where
  base64 : String → Option Bytes
  fromSlice : Bytes → Option ClientRecord

def ClientRecord.token (r : ClientRecord) : EnrollmentToken :=
  ⟨r.version, r.clientId, r.preSharedKey, r.virtualIpv4⟩

/-- `try_into` from a vector of bytes to an array of `n`. -/
def toArray (n : Nat) (bytes : Bytes) : Option (Vector UInt8 n) :=
  if h : bytes.length = n then some ⟨bytes.toArray, by simpa using h⟩ else none

variable (codec : Codec)

/-- `material`: the id and the key of a token. -/
def EnrollmentToken.material (token : EnrollmentToken) :
    Except String (ClientId × Vector UInt8 32) :=
  if token.version ≠ 1 then .error "unsupported GamePath enrollment version"
  else
    match codec.base64 token.clientId with
    | none => .error "invalid enrollment client ID"
    | some id =>
      match codec.base64 token.preSharedKey with
      | none => .error "invalid enrollment pre-shared key"
      | some key =>
        match toArray 16 id, toArray 32 key with
        | none, _ => .error "client ID must be 16 bytes"
        | some _, none => .error "pre-shared key must be 32 bytes"
        | some id, some key => .ok (id, key)

/-- One entry of a directory: the name of the file and what opening and reading it gives. -/
structure DirEntry where
  name : Bytes
  contents : Except IoError Bytes

/-- What `fs::read_dir` gives. -/
abbrev Directory := Except IoError (List (Except IoError DirEntry))

/-- `Path::extension` of a file name: what follows its last dot, if anything stands before it. -/
def extension (name : Bytes) : Option Bytes :=
  let after := (name.reverse.takeWhile (· ≠ 0x2e)).reverse
  let before := name.take (name.length - after.length - 1)
  if name = [0x2e, 0x2e] ∨ 0x2e ∉ name ∨ before = [] then none else some after

-- A hidden file named `.json` has no extension, and `a.json` has.
example : extension [0x2e, 0x6a, 0x73, 0x6f, 0x6e] = none ∧
    extension [0x61, 0x2e, 0x6a, 0x73, 0x6f, 0x6e] = some [0x6a, 0x73, 0x6f, 0x6e] := by decide

/-- `path.extension() == Some("json")`. -/
def DirEntry.isRecord (entry : DirEntry) : Bool :=
  decide (extension entry.name = some [0x6a, 0x73, 0x6f, 0x6e])

/-- The record in one file. -/
def readRecord (entry : DirEntry) : Except IoError ClientRecord :=
  match entry.contents with
  | .error error => .error error
  | .ok bytes =>
    let source := bytes.take (maxRecordBytes + 1)
    if maxRecordBytes < source.length then .error (.invalidData "client record is too large")
    else
      match codec.fromSlice source with
      | none => .error (.invalidData "invalid client record JSON")
      | some record => .ok record

/-- The loop of `read_record_files`. -/
def readEntries (codec : Codec) :
    List (Bytes × ClientRecord) → List (Except IoError DirEntry) →
      Except IoError (List (Bytes × ClientRecord))
  | records, [] => .ok records
  | _, .error error :: _ => .error error
  | records, .ok entry :: rest =>
    if entry.isRecord then
      if maxClients ≤ records.length then .error (.invalidData "too many enrolled clients")
      else
        match readRecord codec entry with
        | .error error => .error error
        | .ok record => readEntries codec (records ++ [(entry.name, record)]) rest
    else readEntries codec records rest

def readRecordFiles (directory : Directory) :
    Except IoError (List (Bytes × ClientRecord)) :=
  directory.bind (readEntries codec [])

def readRecords (directory : Directory) : Except IoError (List ClientRecord) :=
  (readRecordFiles codec directory).map (List.map Prod.snd)

/-- `RelayClient`, with its whole record. -/
structure RegisteredClient where
  record : ClientRecord
  clientId : ClientId
  key : Vector UInt8 32
  sessions : KeyedMap UInt64 SessionState

/-- The clients behind the packet lock. -/
abbrev Registry := KeyedMap ClientId RegisteredClient

/-- `address[..3] == [10, 203, 0] && (2..=254).contains(&address[3])`. -/
def inPool (address : Octets) : Bool :=
  decide (address.1 = 10 ∧ address.2.1 = 203 ∧ address.2.2.1 = 0 ∧ 2 ≤ address.2.2.2 ∧
    address.2.2.2 ≤ 254)

/-- The loop of `validate_records`, with the clients and the addresses taken so far. -/
def validateFrom (codec : Codec) :
    Registry → List Octets → List ClientRecord → Except IoError Registry
  | clients, _, [] => .ok clients
  | clients, addresses, record :: rest =>
    match record.token.material codec with
    | .error message => .error (.other message)
    | .ok (clientId, key) =>
      if ¬ inPool record.virtualIpv4 then
        .error (.invalidData "client address must be in 10.203.0.2-254")
      else if (clients.get? clientId).isSome ∨ record.virtualIpv4 ∈ addresses then
        .error (.invalidData "duplicate client ID or virtual address")
      else
        validateFrom codec
          (clients.insert clientId ⟨record, clientId, key, KeyedMap.empty⟩)
          (record.virtualIpv4 :: addresses) rest

def validateRecords (records : List ClientRecord) : Except IoError Registry :=
  validateFrom codec KeyedMap.empty [] records

def loadClients (directory : Directory) : Except IoError Registry :=
  (readRecords codec directory).bind (validateRecords codec)

/-- The guard of `reconcile_clients`: the key and the address stand. -/
def RegisteredClient.stands (current client : RegisteredClient) : Bool :=
  decide (current.key = client.key ∧ current.record.virtualIpv4 = client.record.virtualIpv4)

/-- One turn of the second pass of `reconcile_clients`. -/
def reconcileOne (s : Registry × Bool) (e : ClientId × RegisteredClient) : Registry × Bool :=
  match s.1.get? e.1 with
  | some current =>
    if current.stands e.2 then (s.1.insert e.1 { current with record := e.2.record }, s.2)
    else (s.1.insert e.1 e.2, true)
  | none => (s.1.insert e.1 e.2, true)

/-- `reconcile_clients`: what is no longer enrolled goes, then every loaded client is brought in. -/
def reconcileClients (active next : Registry) : Registry × Bool :=
  let kept := active.retain fun id _ => (next.get? id).isSome
  let removed := active.entries.any fun e => (next.get? e.1).isNone
  next.entries.foldl reconcileOne (kept, removed)

/-- `refresh_clients`: the clients after it and what it returns. -/
def refreshClients (directory : Directory) (active : Registry) :
    Registry × Except IoError (Option Nat) :=
  match loadClients codec directory with
  | .error error => (active, .error error)
  | .ok next =>
    let reconciled := reconcileClients active next
    (reconciled.1, .ok (if reconciled.2 then some reconciled.1.size else none))

/-! ## What packets see of the registry -/

/-- What packets see of a client. -/
def RegisteredClient.view (client : RegisteredClient) : RelayClient :=
  ⟨⟨client.record.virtualIpv4, client.key.toList⟩, client.sessions⟩

/-- What packets see of the registry. -/
def view (active : Registry) : Clients := active.mapValues fun _ client => client.view

/-- The registry after a turn that left the clients as given: a turn changes sessions only. -/
def withSessions (active : Registry) (clients : Clients) : Registry :=
  active.mapValues fun id client =>
    { client with sessions := ((clients.get? id).map RelayClient.sessions).getD client.sessions }

/-- What happens to the registry while the relay serves: a turn of a packet loop, or a reload. -/
inductive RegistryEvent where
  | frame (endpoint : SocketAddr) (bytes : Bytes) (env : Environment)
  | reply (packet : Bytes) (env : Environment)
  | flush (now : Instant) (env : ClientId → UInt64 → Environment)
  | refresh (directory : Directory)

/-- What an event answers. -/
inductive Answer where
  | turn (outcome : Outcome)
  | refreshed (result : Except IoError (Option Nat))

/-- A turn of a packet loop. -/
def turn (crypto : SessionCrypto) (active : Registry) (event : Event) : Registry × Answer :=
  let result := Relay.step crypto (view active) event
  (withSessions active result.1, .turn result.2)

/-- One event under the packet lock. -/
def step (crypto : SessionCrypto) (active : Registry) :
    RegistryEvent → Registry × Answer
  | .frame endpoint bytes env => turn crypto active (.frame endpoint bytes env)
  | .reply packet env => turn crypto active (.reply packet env)
  | .flush now env => turn crypto active (.flush now env)
  | .refresh directory =>
    let result := refreshClients codec directory active
    (result.1, .refreshed result.2)

end GamePath.Relay.ClientRegistry
