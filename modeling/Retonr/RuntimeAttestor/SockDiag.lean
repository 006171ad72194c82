import Retonr.Lib.Except
import Retonr.Lib.Text

/-! The socket-diagnostics exchange: netlink datagrams are cut into aligned messages, each message
moves the exchange of one request on, and a budget bounds the bytes and records of the whole.
The byte order of the machine and the operating system's error names are parameters. -/

namespace Retonr.SockDiag
open Retonr.Except

inductive Endian where
  | little
  | big

/-- The error names the protocol tells apart. -/
inductive Errno where
  | noent
  | srch
  | perm
  | access
  | nobufs
  | intr
  | nomem
  | msgsize
  | other

structure Platform where
  endian : Endian
  errno : Int32 → Errno

def afInet : UInt8 := 2
def afInet6 : UInt8 := 10
def sockDiagByFamily : UInt16 := 20
def nlmsgHeaderBytes : Nat := 16
def inetDiagMessageBytes : Nat := 72
def requestBytes : Nat := 72
def nlmFMulti : UInt16 := 0x02
def nlmFDumpIntr : UInt16 := 0x10
def nlmFDumpFiltered : UInt16 := 0x20
def nlmFCapped : UInt16 := 0x100
def nlmFAckTlvs : UInt16 := 0x200
def nlmsgError : UInt16 := 2
def nlmsgDone : UInt16 := 3
def nlmsgOverrun : UInt16 := 4

inductive IpAddr where
  | v4 (first second third fourth : UInt8)
  | v6 (octets : Bytes)

structure SocketAddr where
  ip : IpAddr
  port : UInt16

structure InetDiagRecord where
  state : UInt8
  (localAddr remote : SocketAddr)
  interface : UInt32
  cookie : UInt32 × UInt32
  (uid inode : UInt32)

inductive RequestKind where
  | point
  | dump
  deriving DecidableEq

inductive DiagError where
  | accessDenied
  | incomplete
  | interrupted
  | notFound
  | resourceLimit
  | platform
  deriving DecidableEq

/-- The ceilings of a socket table. -/
structure AttachedProcessWitnessLimits where
  (maximumSocketTableBytes maximumSocketTableEntries : UInt64)

structure ExchangeBudget where
  (bytes records : Nat)

namespace ExchangeBudget

def new : ExchangeBudget := ⟨0, 0⟩

def admitDatagram (budget : ExchangeBudget) (bytes : Nat) (limits : AttachedProcessWitnessLimits) : Except DiagError ExchangeBudget := do
  require (budget.bytes + bytes < usizeLimit) .resourceLimit
  require (budget.bytes + bytes ≤ limits.maximumSocketTableBytes.toNat) .resourceLimit
  pure { budget with bytes := budget.bytes + bytes }

def admitRecord (budget : ExchangeBudget) (limits : AttachedProcessWitnessLimits) : Except DiagError ExchangeBudget := do
  require (budget.records + 1 < usizeLimit) .resourceLimit
  require (budget.records + 1 ≤ limits.maximumSocketTableEntries.toNat) .resourceLimit
  pure { budget with records := budget.records + 1 }

end ExchangeBudget

/-- The bytes at an offset, when all of them are there. -/
def field (bytes : Bytes) (offset width : Nat) : Except DiagError Bytes := do
  require (offset + width ≤ bytes.length) .incomplete
  pure ((bytes.drop offset).take width)

def tail (bytes : Bytes) (offset : Nat) : Except DiagError Bytes := do
  require (offset ≤ bytes.length) .incomplete
  pure (bytes.drop offset)

/-- The number the bytes spell, the most significant first. -/
def bigEndianNat (bytes : Bytes) : Nat := bytes.foldl (fun value byte => value * 256 + byte.toNat) 0

def Endian.nat : Endian → Bytes → Nat
  | .little, bytes => bigEndianNat bytes.reverse
  | .big, bytes => bigEndianNat bytes

variable (platform : Platform)

def readU16 (bytes : Bytes) (offset : Nat) : Except DiagError UInt16 :=
  (field bytes offset 2).map fun value => UInt16.ofNat (platform.endian.nat value)

def readU32 (bytes : Bytes) (offset : Nat) : Except DiagError UInt32 :=
  (field bytes offset 4).map fun value => UInt32.ofNat (platform.endian.nat value)

def readI32 (bytes : Bytes) (offset : Nat) : Except DiagError Int32 := (readU32 platform bytes offset).map UInt32.toInt32

def align4 (value : Nat) : Except DiagError Nat := do
  require (value + 3 < usizeLimit) .incomplete
  pure ((value + 3) / 4 * 4)

def decodeAddress (family : UInt8) (bytes : Bytes) : Except DiagError IpAddr :=
  if family = afInet then
    match bytes with
    | first :: second :: third :: fourth :: rest =>
        if bytes.length = 16 ∧ rest.all (· == 0) then .ok (.v4 first second third fourth) else .error .incomplete
    | _ => .error .incomplete
  else if family = afInet6 then
    if bytes.length = 16 then .ok (.v6 bytes) else .error .incomplete
  else .error .incomplete

def decodeRecord (payload : Bytes) : Except DiagError InetDiagRecord := do
  require (inetDiagMessageBytes ≤ payload.length) .incomplete
  let family := payload.headD 0
  let localIp ← decodeAddress family ((payload.drop 8).take 16)
  let remoteIp ← decodeAddress family ((payload.drop 24).take 16)
  let interface ← readU32 platform payload 40
  let first ← readU32 platform payload 44
  let second ← readU32 platform payload 48
  let uid ← readU32 platform payload 64
  let inode ← readU32 platform payload 68
  pure {
    state := (payload.drop 1).headD 0
    localAddr := ⟨localIp, UInt16.ofNat (bigEndianNat ((payload.drop 4).take 2))⟩
    remote := ⟨remoteIp, UInt16.ofNat (bigEndianNat ((payload.drop 6).take 2))⟩
    interface
    cookie := (first, second)
    uid
    inode }

/-- The walk over the attributes; each one is at least four bytes long. -/
def attributesFrom : Nat → Bytes → Except DiagError Unit
  | _, [] => .ok ()
  | 0, _ :: _ => .error .incomplete
  | fuel + 1, attributes => do
      require (4 ≤ attributes.length) .incomplete
      let length ← readU16 platform attributes 0
      require (4 ≤ length.toNat ∧ length.toNat ≤ attributes.length) .incomplete
      let aligned ← align4 length.toNat
      require (aligned ≤ attributes.length) .incomplete
      attributesFrom fuel (attributes.drop aligned)

def validateAttributes (attributes : Bytes) : Except DiagError Unit := attributesFrom platform attributes.length attributes

def mapKernelErrno (errno : Int32) : DiagError :=
  match platform.errno errno with
  | .noent | .srch => .notFound
  | .perm | .access => .accessDenied
  | .nobufs | .intr => .interrupted
  | .nomem | .msgsize => .resourceLimit
  | .other => .platform

def saturatingNeg (value : Int32) : Int32 := if value = Int32.minValue then Int32.maxValue else -value

def validateEchoedHeader (echoed : Bytes) (request : Vector UInt8 requestBytes) : Except DiagError Unit :=
  require (echoed = request.toList.take nlmsgHeaderBytes) .incomplete

structure ExchangeState where
  kind : RequestKind
  (sequence portId : UInt32)
  request : Vector UInt8 requestBytes
  records : List InetDiagRecord
  (ack done : Bool)

namespace ExchangeState

def new (kind : RequestKind) (sequence portId : UInt32) (request : Vector UInt8 requestBytes) : ExchangeState :=
  ⟨kind, sequence, portId, request, [], false, false⟩

def complete (state : ExchangeState) : Bool :=
  match state.kind with
  | .point => state.ack && !state.records.isEmpty
  | .dump => state.done

def finish (state : ExchangeState) : Except DiagError (List InetDiagRecord) :=
  if state.complete then .ok state.records else .error .incomplete

def allowedFlags : RequestKind → UInt16
  | .point => 0
  | .dump => nlmFMulti ||| nlmFDumpFiltered

def consumeRecord (limits : AttachedProcessWitnessLimits) (state : ExchangeState) (budget : ExchangeBudget) (message : Bytes)
    (flags : UInt16) : Except DiagError (ExchangeState × ExchangeBudget) := do
  require (¬(flags &&& ~~~allowedFlags state.kind ≠ 0 ∨ state.kind = .point ∧ flags ≠ 0 ∨
    state.kind = .dump ∧ flags &&& nlmFMulti = 0)) .incomplete
  let payload ← tail message nlmsgHeaderBytes
  let record ← decodeRecord platform payload
  let attributes ← tail payload inetDiagMessageBytes
  validateAttributes platform attributes
  let budget ← budget.admitRecord limits
  pure ({ state with records := state.records ++ [record] }, budget)

def consumeError (state : ExchangeState) (message : Bytes) (flags : UInt16) : Except DiagError ExchangeState := do
  require (state.done = false ∧ state.ack = false ∧ flags &&& ~~~nlmFCapped = 0) .incomplete
  let payload ← tail message nlmsgHeaderBytes
  require (20 ≤ payload.length) .incomplete
  validateEchoedHeader ((payload.drop 4).take 16) state.request
  let error ← readI32 platform payload 0
  if error = 0 then
    require (state.kind = .point ∧ payload.length = 20) .incomplete
    pure { state with ack := true }
  else if 0 < error then .error .incomplete
  else
    require (if flags &&& nlmFCapped ≠ 0 then payload.length = 20 else payload.drop 4 = state.request.toList) .incomplete
    let mapped := mapKernelErrno platform (saturatingNeg error)
    .error (if state.kind = .dump ∧ mapped = .incomplete then .interrupted else mapped)

def consumeDone (state : ExchangeState) (message : Bytes) (flags : UInt16) : Except DiagError ExchangeState := do
  require (state.kind = .dump ∧ state.done = false ∧ flags &&& nlmFMulti ≠ 0 ∧
    flags &&& ~~~(nlmFMulti ||| nlmFDumpFiltered) = 0) .incomplete
  let payload ← tail message nlmsgHeaderBytes
  require (payload.length = 4) .incomplete
  let status ← readI32 platform payload 0
  if status < 0 then .error (mapKernelErrno platform (saturatingNeg status))
  else
    require (status = 0) .incomplete
    pure { state with done := true }

def consumeMessage (limits : AttachedProcessWitnessLimits) (state : ExchangeState) (budget : ExchangeBudget) (message : Bytes) :
    Except DiagError (ExchangeState × ExchangeBudget) := do
  let messageType ← readU16 platform message 4
  let flags ← readU16 platform message 6
  let sequence ← readU32 platform message 8
  require (sequence = state.sequence) .incomplete
  let portId ← readU32 platform message 12
  require (portId = state.portId) .incomplete
  require (flags &&& nlmFAckTlvs = 0) .incomplete
  require (flags &&& nlmFDumpIntr = 0) (if state.kind = .dump then .interrupted else .incomplete)
  if messageType = sockDiagByFamily then state.consumeRecord platform limits budget message flags
  else if messageType = nlmsgError then do
    let state ← state.consumeError platform message flags
    pure (state, budget)
  else if messageType = nlmsgDone then do
    let state ← state.consumeDone platform message flags
    pure (state, budget)
  else if messageType = nlmsgOverrun ∧ state.kind = .dump then .error .interrupted
  else .error .incomplete

/-- The loop over what is left of a datagram. Each message takes at least its header from it, and
the offset never passes its end. -/
def consumeFrom (limits : AttachedProcessWitnessLimits) :
    Nat → ExchangeState → ExchangeBudget → Bytes → Except DiagError (ExchangeState × ExchangeBudget)
  | _, state, budget, [] => .ok (state, budget)
  | 0, _, _, _ :: _ => .error .incomplete
  | fuel + 1, state, budget, rest => do
      require (nlmsgHeaderBytes ≤ rest.length) .incomplete
      let length ← readU32 platform rest 0
      require (nlmsgHeaderBytes ≤ length.toNat ∧ length.toNat ≤ rest.length) .incomplete
      let aligned ← align4 length.toNat
      require (aligned ≤ rest.length) .incomplete
      let (state, budget) ← state.consumeMessage platform limits budget (rest.take length.toNat)
      require (¬(state.complete = true ∧ rest.drop aligned ≠ [])) .incomplete
      consumeFrom limits fuel state budget (rest.drop aligned)

def consumeDatagram (limits : AttachedProcessWitnessLimits) (state : ExchangeState) (budget : ExchangeBudget) (datagram : Bytes) :
    Except DiagError (ExchangeState × ExchangeBudget) := do
  require (datagram ≠ [] ∧ state.complete = false) .incomplete
  state.consumeFrom platform limits datagram.length budget datagram

/-- The datagrams of one exchange, in the order they arrive; the first error ends it. -/
def exchange (limits : AttachedProcessWitnessLimits) :
    ExchangeState → ExchangeBudget → List Bytes → Except DiagError (ExchangeState × ExchangeBudget)
  | state, budget, [] => .ok (state, budget)
  | state, budget, datagram :: datagrams => do
      let budget ← budget.admitDatagram datagram.length limits
      let (state, budget) ← state.consumeDatagram platform limits budget datagram
      state.exchange limits budget datagrams

end ExchangeState

end Retonr.SockDiag
