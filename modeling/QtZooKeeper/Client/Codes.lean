-- SUMMARY: Result codes, session states, event types and create flags, as the wrapper casts them from `int`.
import QtZooKeeper.Base.CString

/-!
# Codes of the client

The C client reports everything as `int`. The wrapper casts these integers to
its enumerations; a C++ enumeration holds any integer, so each type here has a
constructor for the values without a name.
-/

namespace QtZooKeeper

/-- Qt's string type, as the sequence of its characters. -/
abbrev QString := String

/-- Qt's byte array. -/
abbrev QByteArray := Bytes

/-! ## Result codes -/

/-- `ZooKeeperError`. -/
inductive ZooKeeperError where
  | noError
  | systemError
  | runtimeInconsistency
  | dataInconsistency
  | connectionLoss
  | marshallingError
  | unimplemented
  | operationTimeout
  | badArguments
  | invliadState
  | apiError
  | noNode
  | noAuth
  | badVersion
  | noChildrenForEphemeral
  | nodeExists
  | notEmpty
  | sessionExpired
  | invalidCallback
  | invalidAcl
  | authFailed
  | closure
  | nothing
  | sessionMoved
  /-- A code the enumeration has no name for. -/
  | unlisted (rc : Int)
  deriving DecidableEq, Repr

/-- The value of an enumerator. -/
def ZooKeeperError.toInt : ZooKeeperError → Int
  | noError => 0
  | systemError => -1
  | runtimeInconsistency => -2
  | dataInconsistency => -3
  | connectionLoss => -4
  | marshallingError => -5
  | unimplemented => -6
  | operationTimeout => -7
  | badArguments => -8
  | invliadState => -9
  | apiError => -100
  | noNode => -101
  | noAuth => -102
  | badVersion => -103
  | noChildrenForEphemeral => -108
  | nodeExists => -110
  | notEmpty => -111
  | sessionExpired => -112
  | invalidCallback => -113
  | invalidAcl => -114
  | authFailed => -115
  | closure => -116
  | nothing => -117
  | sessionMoved => -118
  | unlisted rc => rc

/-- The named enumerators. -/
def ZooKeeperError.named : List ZooKeeperError :=
  [noError, systemError, runtimeInconsistency, dataInconsistency, connectionLoss,
    marshallingError, unimplemented, operationTimeout, badArguments, invliadState, apiError,
    noNode, noAuth, badVersion, noChildrenForEphemeral, nodeExists, notEmpty, sessionExpired,
    invalidCallback, invalidAcl, authFailed, closure, nothing, sessionMoved]

/-- The cast `ZooKeeperError(rc)`. -/
def ZooKeeperError.ofInt (rc : Int) : ZooKeeperError :=
  (named.find? fun e => e.toInt = rc).getD (unlisted rc)

/-- Casting back gives the code that was cast. -/
@[simp] theorem ZooKeeperError.toInt_ofInt (rc : Int) : (ofInt rc).toInt = rc := by
  unfold ofInt
  cases h : named.find? fun e => e.toInt = rc with
  | none => rfl
  | some e => simpa using List.find?_some h

theorem ZooKeeperError.ofInt_injective {rc rc' : Int} (h : ofInt rc = ofInt rc') : rc = rc' := by
  simpa using congrArg toInt h

/-- `ZOK` is what the wrapper sees as `NoError`. -/
@[simp] theorem ZooKeeperError.ofInt_eq_noError {rc : Int} : ofInt rc = noError ↔ rc = 0 :=
  ⟨fun h => ofInt_injective h, by rintro rfl; rfl⟩

/-! ## Session states and events -/

/-- `ZooKeeperState`. -/
inductive ZooKeeperState where
  | closed
  | connecting
  | assoctating
  | connected
  | expiredSession
  | authFailed
  | notConnected
  /-- A state the enumeration has no name for. -/
  | unlisted (state : Int)
  deriving DecidableEq, Repr

/-- The value of an enumerator. -/
def ZooKeeperState.toInt : ZooKeeperState → Int
  | closed => 0
  | connecting => 1
  | assoctating => 2
  | connected => 3
  | expiredSession => -112
  | authFailed => -113
  | notConnected => 999
  | unlisted state => state

/-- The named enumerators. -/
def ZooKeeperState.named : List ZooKeeperState :=
  [closed, connecting, assoctating, connected, expiredSession, authFailed, notConnected]

/-- The cast `ZooKeeperState(state)`. -/
def ZooKeeperState.ofInt (state : Int) : ZooKeeperState :=
  (named.find? fun s => s.toInt = state).getD (unlisted state)

/-- The name `QMetaEnum::valueToKey` has for a state; null, hence empty, without one. -/
def ZooKeeperState.key : ZooKeeperState → QString
  | closed => "Closed"
  | connecting => "Connecting"
  | assoctating => "Assoctating"
  | connected => "Connected"
  | expiredSession => "ExpiredSession"
  | authFailed => "AuthFailed"
  | notConnected => "NotConnected"
  | unlisted _ => ""

/-- `error2string`. -/
def error2string : ZooKeeperState → QString
  | .authFailed => "ZooKeeper Error: 认证失败."
  | .expiredSession => "ZooKeeper Error: 会话已经过期."
  | .closed => "ZooKeeper Error: 连接关闭."
  | .notConnected => "ZooKeeper Error: 未连接."
  | state => "ZooKeeper Error: State " ++ state.key ++ "."

/-- `ZooKeeperType`, the type of a watch event. -/
inductive ZooKeeperType where
  | createdEvent
  | deletedEvent
  | changedEvent
  | childEvent
  | sessionEvent
  | notWatchingEvent
  deriving DecidableEq, Repr

/-! ## Node types and create flags -/

/-- `ZooKeeperNode::ZooKeeperNodeType`. -/
inductive ZooKeeperNodeType where
  | persistentNode
  | sequenceNode
  | ephemeralNode
  | sequenceAndEphemeralNode
  deriving DecidableEq, Repr

/-- `ZOO_EPHEMERAL` -/
def zooEphemeral : Nat := 1

/-- `ZOO_SEQUENCE` -/
def zooSequence : Nat := 2

/-- The `switch` on the node type in `createNode` and `createNodeSync`. -/
def ZooKeeperNodeType.flag : ZooKeeperNodeType → Nat
  | persistentNode => 0
  | sequenceNode => zooSequence
  | ephemeralNode => zooEphemeral
  | sequenceAndEphemeralNode => zooSequence ||| zooEphemeral

/-- The types that ask the server for a numbered name. -/
def ZooKeeperNodeType.isSequence : ZooKeeperNodeType → Bool
  | sequenceNode | sequenceAndEphemeralNode => true
  | persistentNode | ephemeralNode => false

/-- The types of the nodes that go with their session. -/
def ZooKeeperNodeType.isEphemeral : ZooKeeperNodeType → Bool
  | ephemeralNode | sequenceAndEphemeralNode => true
  | persistentNode | sequenceNode => false

/-! ## Encodings -/

/-- `QString::toLatin1`: a character outside Latin-1 becomes one question mark
for each of its UTF-16 units. -/
def toLatin1 (s : QString) : Bytes :=
  s.toList.flatMap fun c =>
    if c.toNat ≤ 0xFF then [c.toNat.toUInt8]
    else if c.toNat ≤ 0xFFFF then [63]
    else [63, 63]

/-- `QString::toUtf8` -/
def toUtf8 (s : QString) : Bytes := s.toList.flatMap String.utf8EncodeChar

/-- What a C function sees of the byte array it is handed as `constData()`. -/
def constData (bs : Bytes) : Bytes := bs.untilZero

end QtZooKeeper
