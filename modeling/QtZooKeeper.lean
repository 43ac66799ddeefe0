import QtZooKeeper.Base.Runs
import QtZooKeeper.Base.Components
import QtZooKeeper.Base.Typestate
import QtZooKeeper.Base.Heap
import QtZooKeeper.Base.KeyTable
import QtZooKeeper.Base.CString
import QtZooKeeper.Base.Utf8
import QtZooKeeper.Base.ByteOrder
import QtZooKeeper.Base.Reader
import QtZooKeeper.Base.Framing
import QtZooKeeper.Base.Chains
import QtZooKeeper.Client.Codes
import QtZooKeeper.Client.Reads
import QtZooKeeper.Client.Decoding
import QtZooKeeper.Client.Chroot
import QtZooKeeper.Client.Paths
import QtZooKeeper.Client.Addresses
import QtZooKeeper.Client.Watches
import QtZooKeeper.Client.Hashtable
import QtZooKeeper.Client.Archive
import QtZooKeeper.Client.InputArchive
import QtZooKeeper.Client.Jute
import QtZooKeeper.Client.Packets
import QtZooKeeper.Client.Buffers
import QtZooKeeper.Client.Handshake
import QtZooKeeper.Client.Handle
import QtZooKeeper.Client.Multi
import QtZooKeeper.Client.HandleMachine
import QtZooKeeper.Client.Moves
import QtZooKeeper.Client.Invariants
import QtZooKeeper.Client.RequestNumbers
import QtZooKeeper.Manager.Pool
import QtZooKeeper.Manager.PoolLaws
import QtZooKeeper.Manager.PoolMachine
import QtZooKeeper.Manager.PooledNodes
import QtZooKeeper.Manager.Cells
import QtZooKeeper.Manager.Session
import QtZooKeeper.Manager.Operations
import QtZooKeeper.Manager.SessionMachine
import QtZooKeeper.Manager.System
import QtZooKeeper.Manager.Steps
import QtZooKeeper.Manager.Outputs
import QtZooKeeper.Manager.NodeHistory
import QtZooKeeper.Manager.CreateHistory
import QtZooKeeper.Manager.SplitCreate
import QtZooKeeper.Manager.WatchMachine
import QtZooKeeper.Verification.PoolSafety
import QtZooKeeper.Verification.HandleTypestate
import QtZooKeeper.Verification.Creation
import QtZooKeeper.Verification.Correlation
import QtZooKeeper.Verification.CreateRace
import QtZooKeeper.Verification.ErrorFrame
import QtZooKeeper.Verification.ReadPaths
import QtZooKeeper.Verification.ValueCoherence
import QtZooKeeper.Verification.WatchRearm
import QtZooKeeper.Verification.PathEncoding
import QtZooKeeper.Verification.CreatedPaths
import QtZooKeeper.Verification.Displacement
import QtZooKeeper.Verification.ConnectionStatus
import QtZooKeeper.Verification.ExistsCoherence
import QtZooKeeper.Verification.SessionEnd
import QtZooKeeper.Verification.Accounting
import QtZooKeeper.Verification.Interference
import QtZooKeeper.Verification.Notifications
import QtZooKeeper.Verification.ChildNodes
import QtZooKeeper.Verification.WireFormat
import QtZooKeeper.Verification.Completions
import QtZooKeeper.Verification.HandleStates
import QtZooKeeper.Verification.Transit
import QtZooKeeper.Verification.Answers
import QtZooKeeper.Verification.WatcherCalls
import QtZooKeeper.Verification.Reconnection
import QtZooKeeper.Verification.MultiResults
import QtZooKeeper.Verification.WatchTables
import QtZooKeeper.Verification.ConnectString
import QtZooKeeper.Verification.RequestNumbers
