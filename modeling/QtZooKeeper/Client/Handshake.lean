-- SUMMARY: The connect request and its response, which are laid out by hand and not by the generated code.
import QtZooKeeper.Client.Buffers

/-!
# The handshake

The first packet in either direction has a layout of fixed size. The client copies
the fields of `connect_req` into 44 bytes behind their length, and takes those of
`prime_struct` out of 40 bytes that begin with the length.
-/

namespace QtZooKeeper

/-- A session password. -/
abbrev Passwd := {bs : Bytes // bs.length = 16}

/-- `struct connect_req` -/
structure ConnectReq where
  protocolVersion : Int32
  lastZxidSeen : Int64
  timeOut : Int32
  sessionId : Int64
  passwdLen : Int32
  passwd : Passwd
  deriving DecidableEq, Repr

/-- `struct prime_struct` -/
structure PrimeStruct where
  len : Int32
  protocolVersion : Int32
  timeOut : Int32
  sessionId : Int64
  passwdLen : Int32
  passwd : Bytes
  deriving DecidableEq, Repr

/-- The password of a response, where it has 16 bytes. -/
def PrimeStruct.newPasswd (r : PrimeStruct) (old : Passwd) : Passwd :=
  if h : r.passwd.length = 16 then ⟨r.passwd, h⟩ else old

section Layout

variable [Host]

/-- `serialize_prime_connect` -/
def serializePrimeConnect (req : ConnectReq) : Bytes :=
  intBytes (htonl req.protocolVersion.toUInt32) ++
    (longBytes (zooHtonll req.lastZxidSeen.toUInt64) ++
      (intBytes (htonl req.timeOut.toUInt32) ++
        (longBytes (zooHtonll req.sessionId.toUInt64) ++
          (intBytes (htonl req.passwdLen.toUInt32) ++ req.passwd.1))))

/-- An `int32_t` at an offset of the buffer, swapped. -/
def intAt (buffer : Bytes) (offset : Nat) : Int32 :=
  (htonl (intValue ((buffer.drop offset).take 4))).toInt32

/-- An `int64_t` at an offset of the buffer, swapped. -/
def longAt (buffer : Bytes) (offset : Nat) : Int64 :=
  (zooHtonll (longValue ((buffer.drop offset).take 8))).toInt64

/-- `deserialize_prime_response` -/
def deserializePrimeResponse (buffer : Bytes) : PrimeStruct where
  len := intAt buffer 0
  protocolVersion := intAt buffer 4
  timeOut := intAt buffer 8
  sessionId := longAt buffer 12
  passwdLen := intAt buffer 20
  passwd := (buffer.drop 24).take 16

end Layout

/-! ## On the wire -/

/-- The connect request in the format. -/
def connectWire (req : ConnectReq) : Bytes :=
  intWire req.protocolVersion ++ (longWire req.lastZxidSeen ++ (intWire req.timeOut ++
    (longWire req.sessionId ++ (intWire req.passwdLen ++ req.passwd.1))))

/-- The connect response in the format, without the length in front. -/
def primeWire (r : PrimeStruct) : Bytes :=
  intWire r.protocolVersion ++ (intWire r.timeOut ++ (longWire r.sessionId ++
    (intWire r.passwdLen ++ r.passwd)))

section Laws

variable {req : ConnectReq} {r : PrimeStruct}

@[simp] theorem length_connectWire : (connectWire req).length = 44 := by
  simp only [connectWire, List.length_append, length_intWire, length_longWire, req.passwd.2]

theorem length_primeWire (h : r.passwd.length = 16) : (primeWire r).length = 36 := by
  simp only [primeWire, List.length_append, length_intWire, length_longWire, h]

variable [Host]

theorem serializePrimeConnect_eq : serializePrimeConnect req = connectWire req := by
  simp only [serializePrimeConnect, intBytes_htonl, longBytes_zooHtonll, connectWire, intWire, longWire]

end Laws

end QtZooKeeper
