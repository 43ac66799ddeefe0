-- SUMMARY: The node objects and the node pool: the parts of the manager's functions that read and write them.
import QtZooKeeper.Base.Heap
import QtZooKeeper.Base.KeyTable
import QtZooKeeper.Client.Codes

/-!
# The node pool

`m_nodePool` maps paths to `ZooKeeperNode` objects. This module has the objects,
the pool, the signals the objects emit, and what each function of the manager
and each completion does to them. What the functions do besides, on the handle
and with the client, is in `Manager/Operations.lean`.

Every access through a node pointer goes through `Heap.deref`, so using a null
pointer or a node scheduled for deletion is a fault.
-/

namespace QtZooKeeper

/-- The fields of `ZooKeeperNodePrivate`. Only the creating functions set the
type; a node made by a read has none. -/
structure ZooKeeperNode where
  exists_ : Bool := false
  path : QString
  value : QByteArray := []
  type : Option ZooKeeperNodeType := none
  deriving DecidableEq, Repr

abbrev NodeId := Nat

/-- `ZooKeeperNode *` -/
abbrev NodePtr := Option NodeId

/-- The signals of a node, each with what an observer reads back when it arrives. -/
inductive NodeSignal where
  | created (node : NodeId)
  | valueChanged (node : NodeId) (value : QByteArray)
  | existsChanged (node : NodeId) (exists_ : Bool)
  deriving DecidableEq, Repr

/-- The node a signal is emitted on. -/
def NodeSignal.node : NodeSignal → NodeId
  | created n | valueChanged n _ | existsChanged n _ => n

/-- `m_nodePool`, the node objects, and the signals they have emitted so far. -/
structure Pool where
  nodePool : KeyTable QString NodePtr := ∅
  nodes : Heap NodeId ZooKeeperNode := Heap.empty
  signals : List NodeSignal := []

namespace Pool

/-! ## Elementary reads and writes -/

/-- The entry of the pool at a path. -/
def lookup (p : Pool) (path : QString) : Option NodePtr := p.nodePool.lookup path

/-- `m_nodePool.contains(path)` -/
def contains (p : Pool) (path : QString) : Bool := p.nodePool.contains path

/-- `m_nodePool[path]` where the key is known to be there. -/
def value (p : Pool) (path : QString) : NodePtr := p.nodePool.value path

/-- `m_nodePool[path]` where it may be missing: the operator adds a null entry. -/
def index (p : Pool) (path : QString) : NodePtr × Pool :=
  ((p.nodePool.index path).1, { p with nodePool := (p.nodePool.index path).2 })

/-- `m_nodePool[path] = node` -/
def insert (p : Pool) (path : QString) (node : NodePtr) : Pool :=
  { p with nodePool := p.nodePool.insert path node }

/-- `m_nodePool.remove(path)` -/
def remove (p : Pool) (path : QString) : Pool := { p with nodePool := p.nodePool.erase path }

/-- Write the fields of a node object. -/
def write (p : Pool) (n : NodeId) (d : ZooKeeperNode) : Pool := { p with nodes := p.nodes.put n d }

/-- Mark a node object as scheduled for deletion. -/
def schedule (p : Pool) (n : NodeId) : Pool := { p with nodes := p.nodes.schedule n }

def emit (p : Pool) (s : NodeSignal) : Pool := { p with signals := p.signals ++ [s] }

/-! ## Functions of a node -/

/-- `node->deleteLater()` -/
def deleteLater (node : NodePtr) (p : Pool) : Except AccessFault Pool := do
  let (n, _) ← p.nodes.deref node
  pure (p.schedule n)

/-- `ZooKeeperNode::setExists`, on a node with the fields `d`. -/
def storeExists (n : NodeId) (d : ZooKeeperNode) (exists_ : Bool) (p : Pool) : Pool :=
  if d.exists_ ≠ exists_ then
    (p.write n { d with exists_ := exists_ }).emit (.existsChanged n exists_)
  else p

/-- `ZooKeeperNode::setExists` -/
def setExists (node : NodePtr) (exists_ : Bool) (p : Pool) : Except AccessFault Pool := do
  let (n, d) ← p.nodes.deref node
  pure (p.storeExists n d exists_)

/-- The update of `m_value` after a read, with its signal, on a node with the
fields `d`. -/
def storeValue (n : NodeId) (d : ZooKeeperNode) (value : QByteArray) (p : Pool) : Pool :=
  if d.value ≠ value then
    (p.write n { d with value := value }).emit (.valueChanged n value)
  else p

/-- The update of `m_value` after a read. -/
def setValue (node : NodePtr) (value : QByteArray) (p : Pool) : Except AccessFault Pool := do
  let (n, d) ← p.nodes.deref node
  pure (p.storeValue n d value)

/-- What `agetCompletion`, `getNodeValueSync` and `wgetNodeValue` do with the
answer of a read. -/
def takeAnswer (node : NodePtr) (error : ZooKeeperError) (value : QByteArray) (p : Pool) :
    Except AccessFault Pool :=
  match error with
  | .noError => do
    let p ← p.setValue node value
    p.setExists node true
  | .noNode => p.setExists node false
  | _ => pure p

/-! ## Functions of the manager -/

/-- The end of `createNode`, once the client has accepted the request: the new
node `n` goes into the pool. -/
def createNode (type : ZooKeeperNodeType) (path : QString) (value : QByteArray) (n : NodeId)
    (p : Pool) : Pool :=
  (p.write n { path := path, value := value, type := some type }).insert path (some n)

/-- The end of `createNodeSync`, once the client has reported `newPath`. -/
def createNodeSync (type : ZooKeeperNodeType) (path : QString) (value : QByteArray)
    (newPath : QString) (n : NodeId) (p : Pool) : Pool :=
  let p := p.write n { exists_ := true, path := newPath, value := value, type := some type }
  -- reported under the requested path itself, the new node loses its entry here
  let p := (p.insert newPath (some n)).remove path
  p.emit (.created n)

/-- The beginning of `deleteNode` and `deleteNodeSync`. -/
def deleteNode (path : QString) (p : Pool) : Except AccessFault Pool :=
  if p.contains path then do
    let p' ← p.deleteLater (p.value path)
    pure (p'.remove path)
  else pure p

/-- The beginning of `getNodeValue`, `getNodeValueSync` and `wgetNodeValue`: the
pooled node of the path, or a new node `n` put into the pool. -/
def readNode (path : QString) (n : NodeId) (p : Pool) : NodePtr × Pool :=
  if p.contains path then (p.value path, p)
  else (some n, (p.write n { path := path }).insert path (some n))

/-- `getNodeValueSync` and the first read of `wgetNodeValue`, given the answer of
the client. The debug output at the end reads the node's value once more. -/
def readNodeSync (path : QString) (n : NodeId) (error : ZooKeeperError) (value : QByteArray)
    (p : Pool) : Except AccessFault (NodePtr × Pool) := do
  let (node, p) := p.readNode path n
  let p ← p.takeAnswer node error value
  -- `node->value()` in the debug output
  let _ ← p.nodes.deref node
  pure (node, p)

/-! ## Completions -/

/-- The renaming in `acreateCompletion`: the node pooled under `pathOld` moves
to `path`. -/
def rename (node : NodePtr) (pathOld path : QString) (p : Pool) : Except AccessFault Pool := do
  let (n, d) ← p.nodes.deref node
  pure (((p.write n { d with path := path }).insert path node).remove pathOld)

/-- The lookup in `acreateCompletion`: the node pooled under `pathOld`, moved to
`path` if that is another name, or null. -/
def completedNode (pathOld path : QString) (p : Pool) : Except AccessFault (NodePtr × Pool) :=
  if path ≠ pathOld then
    if p.contains pathOld then do
      let p' ← p.rename (p.value pathOld) pathOld path
      pure (p.value pathOld, p')
    -- nothing is looked up under the reported name
    else pure (none, p)
  else if p.contains path then pure (p.value path, p)
  else pure (none, p)

/-- What `acreateCompletion` does with the node it found. -/
def finishCreate (node : NodePtr) (error : ZooKeeperError) (path : QString) (p : Pool) :
    Except AccessFault Pool :=
  match error with
  | .noError => do
    let p ← p.setExists node true
    let (n, _) ← p.nodes.deref node
    pure (p.emit (.created n))
  | .nodeExists => p.setExists node true
  -- the entry goes before the pointer is used
  | _ => (p.remove path).deleteLater node

/-- The path `acreateCompletion` works with: the reported name, or the
requested path when none is reported. -/
def reportedPath (name : Option QString) (pathOld : QString) : QString :=
  if name.getD "" = "" then pathOld else name.getD ""

/-- `acreateCompletion`: a request for the empty path has no node to update. -/
def acreateCompletion (error : ZooKeeperError) (name : Option QString) (pathOld : QString)
    (p : Pool) : Except AccessFault Pool :=
  if pathOld ≠ "" then do
    let path := reportedPath name pathOld
    let (node, p) ← p.completedNode pathOld path
    p.finishCreate node error path
  else pure p

/-- `agetCompletion` -/
def agetCompletion (error : ZooKeeperError) (nodeValue : QByteArray) (path : QString)
    (p : Pool) : Except AccessFault Pool :=
  -- not preceded by `contains`
  let (node, p) := p.index path
  p.takeAnswer node error nodeValue

/-! ## The end of a session -/

/-- The loop of `processDisconnected` over the entries of the pool. -/
def deleteAll : List NodePtr → Pool → Except AccessFault Pool
  | [], p => pure p
  | node :: rest, p => do
    let p ← p.deleteLater node
    deleteAll rest p

/-- `processDisconnected`: every pooled node is deleted and the pool cleared. -/
def processDisconnected (p : Pool) : Except AccessFault Pool := do
  let p ← p.deleteAll p.nodePool.values
  pure { p with nodePool := ∅ }

end Pool

end QtZooKeeper
