-- SUMMARY: The connect string: how the servers are read from it, looked up and shuffled, and what is behind them.
import QtZooKeeper.Client.Codes
import QtZooKeeper.Client.Paths

/-!
# The connect string

`zookeeper_init` gets one string with the servers and a chroot behind them. `getaddrs` takes
the servers apart with the functions of the C library, looks each of them up, and shuffles
the addresses.

`getaddrinfo` is an argument here, as is the sequence of numbers that `random` returns.
-/

universe u

namespace QtZooKeeper

def comma : UInt8 := 44

def colon : UInt8 := 58

/-! ## The C library -/

/-- `isspace` -/
def isSpace (c : UInt8) : Bool := c = 32 || (9 ≤ c && c ≤ 13)

/-- The value of a digit in base 36. -/
def digitValue (c : UInt8) : Nat :=
  if 48 ≤ c ∧ c ≤ 57 then c.toNat - 48
  else if 97 ≤ c ∧ c ≤ 122 then c.toNat - 87
  else if 65 ≤ c ∧ c ≤ 90 then c.toNat - 55
  else 36

/-- The prefix of a number in base 0, which is part of the number if no digit follows. -/
def basePrefix : Bytes → Nat × Bytes
  | 48 :: x :: d :: s =>
    if (x = 120 ∨ x = 88) ∧ digitValue d < 16 then (16, d :: s) else (8, 48 :: x :: d :: s)
  | 48 :: s => (8, 48 :: s)
  | s => (10, s)

/-- The sign of a number. -/
def sign : Bytes → Int × Bytes
  | 45 :: s => (-1, s)
  | 43 :: s => (1, s)
  | s => (1, s)

/-- `strtol` in base 0, with a `long` of 64 bits: the value, and what is not part of the
number. -/
def strtol (nptr : Bytes) : Int × Bytes :=
  let (sgn, s) := sign (nptr.dropWhile isSpace)
  let (base, s) := basePrefix s
  let digits := s.takeWhile (digitValue · < base)
  if digits = [] then (0, nptr)
  else
    let value := sgn * (digits.foldl (fun n c => n * base + digitValue c) 0 : Nat)
    let value :=
      if value < -0x8000000000000000 then -0x8000000000000000
      else if 0x7fffffffffffffff < value then 0x7fffffffffffffff
      else value
    (value, s.drop digits.length)

/-- The tokens of `strtok_r` with a comma, behind what has been read of the first one. -/
def strtok (token : Bytes) : Bytes → List Bytes
  | [] => if token = [] then [] else [token]
  | c :: s =>
    if c = comma then
      if token = [] then strtok [] s else token :: strtok [] s
    else strtok (token ++ [c]) s

/-- `strrchr` with a colon: what is in front of the last one, and what is behind it. -/
def strrchr (token : Bytes) : Option (Bytes × Bytes) :=
  match token.reverse.dropWhile (· ≠ colon) with
  | [] => none
  | _ :: host => some (host.reverse, (token.reverse.takeWhile (· ≠ colon)).reverse)

/-! ## getaddrs -/

/-- The check of a port. -/
def isPort (port : Bytes) : Bool :=
  port ≠ [] && (strtol port).2 = [] && Int.bmod (strtol port).1 0x100000000 ≠ 0

/-- The host and the port of a token. -/
def parseServer (token : Bytes) : Except ZooKeeperError (Bytes × Bytes) :=
  match strrchr token with
  | none => .error .badArguments
  | some (host, port) =>
    if isPort port then .ok (host.dropWhile isSpace, port) else .error .badArguments

section

variable {α : Type u}

/-- The loop of `getaddrs` over the tokens. `inet` says which addresses are copied. -/
def lookupAll (getaddrinfo : Bytes → Bytes → Option (List α)) (inet : α → Bool) :
    List Bytes → List α → Except ZooKeeperError (List α)
  | [], addrs => .ok addrs
  | token :: tokens, addrs =>
    match parseServer token with
    | .error rc => .error rc
    | .ok (host, port) =>
      match getaddrinfo host port with
      | none => .error .systemError
      | some res => lookupAll getaddrinfo inet tokens (addrs ++ res.filter inet)

/-- Exchange two addresses. -/
def swap (addrs : List α) (i j : Nat) : List α :=
  match addrs[i]?, addrs[j]? with
  | some a, some b => (addrs.set i b).set j a
  | _, _ => addrs

/-- The loop that permutes the addresses from the index `i` down. -/
def permute (random : Nat → Nat) : Nat → List α → List α
  | 0, addrs => addrs
  | i + 1, addrs => permute random i (swap addrs (i + 1) (random (i + 1) % (i + 2)))

/-- `getaddrs` -/
def getaddrs (getaddrinfo : Bytes → Bytes → Option (List α)) (inet : α → Bool) (random : Nat → Nat)
    (disableConnPermute : Bool) (hostname : Bytes) : Except ZooKeeperError (List α) :=
  match lookupAll getaddrinfo inet (strtok [] hostname) [] with
  | .error rc => .error rc
  | .ok addrs =>
    .ok (if disableConnPermute then addrs else permute random (addrs.length - 1) addrs)

/-- `zookeeper_init`, as far as the connect string goes: the chroot and the addresses. -/
def connectString (getaddrinfo : Bytes → Bytes → Option (List α)) (inet : α → Bool)
    (random : Nat → Nat) (disableConnPermute : Bool) (host : Bytes) : Option (Option Bytes × List α) :=
  if host = [] then none
  else if (chrootOf host).any (isValidPath · 0 = false) then none
  else
    match getaddrs getaddrinfo inet random disableConnPermute (host.takeWhile (· ≠ slash)) with
    | .error _ => none
    | .ok addrs => some (chrootOf host, addrs)

end

end QtZooKeeper
