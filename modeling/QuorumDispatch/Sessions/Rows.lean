import QuorumDispatch.Kill.Process

/-!
The rows of the session list, and what each of them is made of. A row is made of one source: a
live entry, a transcript, a pane, a tombstone, or a cold thread of another provider.
-/

namespace QuorumDispatch.Sessions

open Kill (SessionBranch)

/-! ### Lanes -/

inductive Harness where
  | claudeCode
  | codex
  | pi
  | opencode
deriving DecidableEq, Repr

inductive Mode where
  | pane
  | daemon
  | extension
  | appServer
  | acp
deriving DecidableEq, Repr

structure Lane where
  harness : Harness
  mode : Mode
deriving DecidableEq, Repr

def Harness.rowDefaultMode : Harness → Mode
  | claudeCode => .pane
  | codex | pi => .daemon
  | opencode => .acp

def Harness.supports : Harness → Mode → Bool
  | claudeCode, .daemon | claudeCode, .extension | claudeCode, .appServer => false
  | opencode, .pane | opencode, .daemon | opencode, .extension | opencode, .appServer => false
  | codex, .extension => false
  | pi, .appServer => false
  | codex, .acp | pi, .acp => false
  | _, _ => true

def Mode.fromHostingToken (s : String) : Option Mode :=
  match s with
  | "mux-pane" => some pane
  | "daemon" => some daemon
  | "extension" => some extension
  | "app-server" => some appServer
  | "acp" => some acp
  | _ => none

def harnessAndPinnedMode (id : String) : Option (Harness × Option Mode) :=
  match id with
  | "claude-code" => some (.claudeCode, none)
  | "codex" => some (.codex, none)
  | "pi" => some (.pi, none)
  | "opencode" => some (.opencode, none)
  | "acp/claude-code" => some (.claudeCode, some .acp)
  | "acp/opencode" => some (.opencode, some .acp)
  | _ => none

def Lane.new (harness : Harness) (mode : Mode) : Option Lane :=
  if harness.supports mode then some { harness, mode } else none

def laneFor (providerId : String) (hostingField : Option String) : Option Lane := do
  let (harness, pinned) ← harnessAndPinnedMode providerId
  match pinned with
  | some mode => Lane.new harness mode
  | none =>
      let recorded := (hostingField.bind Mode.fromHostingToken).filter harness.supports
      return { harness, mode := recorded.getD harness.rowDefaultMode }

def rowIsAcp (providerId : String) (hostingField : Option String) : Bool :=
  (laneFor providerId hostingField).any (·.mode = .acp)

/-! ### Sources -/

inductive SessionStatus where
  | idle
  | busy
  | shell
  | cold
  | killed
deriving DecidableEq, Repr

def SessionStatus.parse (s : String) : Option SessionStatus :=
  match s with
  | "idle" => some idle
  | "busy" => some busy
  | "shell" => some shell
  | "cold" => some cold
  | "killed" => some killed
  | _ => none

structure MuxSession where
  name : String
  pid : Int32
  clients : UInt32 := 0
  created : Int64 := 0
  startDir : String := ""
  socketDir : Option String := none
deriving DecidableEq, Repr

structure RegistryEntry where
  pid : Option Int64 := none
  sessionId : Option String := none
  cwd : Option String := none
  startedAt : Option Int64 := none
  updatedAt : Option Int64 := none
  status : Option String := none
  name : Option String := none
  version : Option String := none
  entrypoint : Option String := none
  provider : Option String := none
  hosting : Option String := none
deriving DecidableEq, Repr

structure TranscriptMeta where
  sessionId : String
  path : String
  mtimeMs : Int64
  projectDir : String
deriving DecidableEq, Repr

structure TurnPreview where
  role : String
  text : String
  timestamp : Option String
deriving DecidableEq, Repr

structure JsonlStats where
  turns : UInt64 := 0
  tokens : UInt64 := 0
  name : Option String := none
  userNamed : Bool := false
  lastTimestamp : Option String := none
  gitBranch : Option String := none
  cwd : Option String := none
  lastTurns : Option (List TurnPreview) := none
deriving DecidableEq, Repr

structure CodexColdRow where
  id : String
  name : Option String
  cwd : Option String
  jsonlPath : Option String
  lastActiveMs : Option Int64
deriving DecidableEq, Repr

structure OpencodeColdRow where
  id : String
  name : Option String
  cwd : Option String
  turns : UInt64
  tokens : UInt64
  lastActiveMs : Option Int64
deriving DecidableEq, Repr

structure RelayHealth where
  port : UInt16
  pid : Int32
deriving DecidableEq, Repr

structure JoinInputs where
  zmxSessions : List MuxSession := []
  registry : List RegistryEntry := []
  tombstoned : List RegistryEntry := []
  relays : List RelayHealth := []
  ppidMap : Int32 → Option Int32 := fun _ => none
  transcripts : List TranscriptMeta := []
  statsFor : String → Option JsonlStats := fun _ => none
  jsonlPathFor : String → Option String := fun _ => none
  matchLiveByName : Bool := false
  codexStatusFor : String → Option SessionStatus := fun _ => none
  codexCold : List CodexColdRow := []
  piStatusFor : String → Option SessionStatus := fun _ => none
  piTurnsFor : String → Option UInt64 := fun _ => none
  piCold : List TranscriptMeta := []
  opencodeCold : List OpencodeColdRow := []

structure JoinOpts where
  includeAll : Bool := false
  includeTombstoned : Bool := false
  limit : Option Int64 := none
deriving DecidableEq, Repr

/-! ### Times -/

def isAsciiDigit (b : UInt8) : Bool := 48 ≤ b && b ≤ 57

def decimal (bytes : List UInt8) : Nat := bytes.foldl (fun n b => 10 * n + (b.toNat - 48)) 0

/-- `str::parse::<i64>` of few bytes. -/
def parseI64 (bytes : List UInt8) : Option Int :=
  let digits := match bytes with
    | 43 :: rest | 45 :: rest => rest
    | _ => bytes
  if digits ≠ [] ∧ digits.all isAsciiDigit then
    some (if bytes.head? = some 45 then -(decimal digits : Int) else decimal digits)
  else none

def daysFromCivil (y m d : Int) : Option Int :=
  if ¬(1 ≤ m ∧ m ≤ 12) ∨ ¬(1 ≤ d ∧ d ≤ 31) then none
  else
    let y := if m ≤ 2 then y - 1 else y
    let era := (if 0 ≤ y then y else y - 399).tdiv 400
    let yoe := y - era * 400
    let doy := (153 * (if 2 < m then m - 3 else m + 9) + 2).tdiv 5 + d - 1
    let doe := yoe * 365 + yoe.tdiv 4 - yoe.tdiv 100 + doy
    some (era * 146097 + doe - 719468)

def fractionMillis (rest : List UInt8) : Int :=
  match rest with
  | 46 :: frac =>
      let digits := frac.takeWhile isAsciiDigit
      if digits = [] then 0 else decimal ((digits ++ [48, 48]).take 3)
  | _ => 0

/-- `YYYY-MM-DDTHH:MM:SS[.fff][Z]`. -/
def parseIsoMs (ts : String) : Option Int64 := do
  let bytes := ts.toUTF8.toList
  guard (19 ≤ bytes.length)
  guard (bytes[4]? = some 45 ∧ bytes[7]? = some 45 ∧ bytes[10]? = some 84 ∧ bytes[13]? = some 58 ∧
    bytes[16]? = some 58)
  let num (a b : Nat) : Option Int := parseI64 ((bytes.drop a).take (b - a))
  let year ← num 0 4
  let month ← num 5 7
  let day ← num 8 10
  let hour ← num 11 13
  let min ← num 14 16
  let sec ← num 17 19
  let days ← daysFromCivil year month day
  return Int64.ofInt ((days * 86400 + hour * 3600 + min * 60 + sec) * 1000 +
    fractionMillis (bytes.drop 19))

/-! ### Rows -/

structure Session where
  name : Option String := none
  userNamed : Option Bool := none
  sessionId : String := ""
  code : Option String := none
  qdId : Option String := none
  pid : Option Int64 := none
  status : SessionStatus
  zmxName : Option String := none
  zmxClients : Option UInt32 := none
  socketDir : Option String := none
  relayPort : Option UInt16 := none
  turns : UInt64 := 0
  tokens : UInt64 := 0
  cwd : Option String := none
  lastActiveMs : Option Int64 := none
  version : Option String := none
  startedAtMs : Option Int64 := none
  gitBranch : Option String := none
  jsonlPath : Option String := none
  lastTurns : Option (List TurnPreview) := none
  provider : String
  entrypoint : Option String := none
  lineage : Option String := none
  hosting : Option String := none
  whichBranch : SessionBranch
deriving DecidableEq, Repr

def nonempty (v : Option String) : Option String := v.filter (!·.isEmpty)

/-- At most `n` parents upwards, and to a relay every one of them belongs. -/
def relayAncestors (ppidMap : Int32 → Option Int32) : Nat → Int32 → List Int32
  | 0, _ => []
  | n + 1, current =>
      match ppidMap current with
      | none => []
      | some parent => if parent ≤ 1 then [] else parent :: relayAncestors ppidMap n parent

/-- `match_by_ancestry`: a later relay overwrites an earlier one. -/
def matchByAncestry (relays : List RelayHealth) (ppidMap : Int32 → Option Int32) (pid : Int32) :
    Option UInt16 :=
  (relays.reverse.find? fun r => (relayAncestors ppidMap 5 r.pid).contains pid).map (·.port)

def JoinInputs.stats (inputs : JoinInputs) (path : Option String) : JsonlStats :=
  (path.bind inputs.statsFor).getD {}

/-- `parse_status` of the provider with this id, of a registry string; an unknown provider is read
as Claude. -/
def parseStatus (providerId status : String) : Option SessionStatus :=
  match providerId with
  | "codex" | "pi" | "acp/claude-code" | "opencode" | "acp/opencode" => none
  | _ => SessionStatus.parse status

def liveStatus (inputs : JoinInputs) (providerId sid : String) (status : Option String) :
    SessionStatus :=
  if providerId = "codex" then (inputs.codexStatusFor sid).getD .idle
  else if providerId = "pi" then (inputs.piStatusFor sid).getD .idle
  else (parseStatus providerId (status.getD "")).getD .idle

def liveSession (inputs : JoinInputs) (p : RegistryEntry) (zmxMatch : Option MuxSession) : Session :=
  let sid := p.sessionId.getD ""
  let jsonlPath := inputs.jsonlPathFor sid
  let stats := inputs.stats jsonlPath
  let providerId := p.provider.getD "claude-code"
  { name := (nonempty p.name).or stats.name
    userNamed := some ((nonempty p.name).isSome || stats.userNamed)
    sessionId := sid
    pid := p.pid
    status := liveStatus inputs providerId sid p.status
    zmxName := zmxMatch.map (·.name)
    zmxClients := zmxMatch.map (·.clients)
    socketDir := zmxMatch.bind (·.socketDir)
    relayPort := p.pid.bind fun pid => matchByAncestry inputs.relays inputs.ppidMap pid.toInt32
    turns := if providerId = "pi" then (inputs.piTurnsFor sid).getD stats.turns else stats.turns
    tokens := stats.tokens
    cwd := p.cwd
    lastActiveMs := p.updatedAt
    version := p.version
    startedAtMs := p.startedAt
    gitBranch := stats.gitBranch
    jsonlPath
    lastTurns := stats.lastTurns
    provider := providerId
    entrypoint := p.entrypoint
    hosting := p.hosting
    whichBranch := .liveRegistry }

def transcriptLastActive (stats : JsonlStats) (jf : TranscriptMeta) : Int64 :=
  (stats.lastTimestamp.bind parseIsoMs).getD jf.mtimeMs

def coldSession (inputs : JoinInputs) (jf : TranscriptMeta) (zmxMatch : Option MuxSession) : Session :=
  let stats := inputs.stats (some jf.path)
  { name := stats.name
    userNamed := some stats.userNamed
    sessionId := jf.sessionId
    pid := zmxMatch.map (·.pid.toInt64)
    status := .cold
    zmxName := zmxMatch.map (·.name)
    zmxClients := zmxMatch.map (·.clients)
    socketDir := zmxMatch.bind (·.socketDir)
    turns := stats.turns
    tokens := stats.tokens
    cwd := (nonempty stats.cwd).or (some jf.projectDir)
    lastActiveMs := some (transcriptLastActive stats jf)
    gitBranch := stats.gitBranch
    jsonlPath := some jf.path
    lastTurns := stats.lastTurns
    provider := "claude-code"
    whichBranch := .coldJsonl }

def zmxOnlySession (z : MuxSession) : Session where
  name := some z.name
  pid := some z.pid.toInt64
  status := .cold
  zmxName := some z.name
  zmxClients := some z.clients
  socketDir := z.socketDir
  cwd := nonempty (some z.startDir)
  lastActiveMs := some (z.created * 1000)
  provider := "claude-code"
  whichBranch := .zmxOnly

def tombstonedSession (inputs : JoinInputs) (t : RegistryEntry) : Session :=
  let sid := t.sessionId.getD ""
  let jsonlPath := inputs.jsonlPathFor sid
  let stats := inputs.stats jsonlPath
  { name := (nonempty t.name).or stats.name
    userNamed := some ((nonempty t.name).isSome || stats.userNamed)
    sessionId := sid
    pid := t.pid
    status := .killed
    turns := stats.turns
    tokens := stats.tokens
    cwd := t.cwd
    lastActiveMs := t.updatedAt
    version := t.version
    startedAtMs := t.startedAt
    gitBranch := stats.gitBranch
    jsonlPath
    lastTurns := stats.lastTurns
    provider := t.provider.getD "claude-code"
    hosting := t.hosting
    whichBranch := .tombstoned }

def codexSession (cold : CodexColdRow) : Session :=
  let name := nonempty cold.name
  { name
    userNamed := some name.isSome
    sessionId := cold.id
    status := .cold
    cwd := nonempty cold.cwd
    lastActiveMs := cold.lastActiveMs
    jsonlPath := cold.jsonlPath
    provider := "codex"
    whichBranch := .coldJsonl }

def piSession (inputs : JoinInputs) (jf : TranscriptMeta) : Session :=
  let stats := inputs.stats (some jf.path)
  { name := stats.name
    userNamed := some stats.userNamed
    sessionId := jf.sessionId
    status := .cold
    turns := stats.turns
    tokens := stats.tokens
    cwd := nonempty stats.cwd
    lastActiveMs := some (transcriptLastActive stats jf)
    gitBranch := stats.gitBranch
    jsonlPath := some jf.path
    lastTurns := stats.lastTurns
    provider := "pi"
    whichBranch := .coldJsonl }

def opencodeSession (cold : OpencodeColdRow) : Session :=
  let name := nonempty cold.name
  { name
    userNamed := some name.isSome
    sessionId := cold.id
    status := .cold
    turns := cold.turns
    tokens := cold.tokens
    cwd := nonempty cold.cwd
    lastActiveMs := cold.lastActiveMs
    provider := "opencode"
    whichBranch := .coldJsonl }

end QuorumDispatch.Sessions
