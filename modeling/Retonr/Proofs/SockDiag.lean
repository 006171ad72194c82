import Retonr.RuntimeAttestor.SockDiag

/-! An exchange is a run over messages: where the datagrams are cut does not matter, and a run that
finishes has heard exactly what its result says. -/

namespace Retonr.SockDiag
open List hiding Vector
open Retonr.Except

variable (platform : Platform)

/-- A message with the padding that follows it in a datagram. -/
structure PaddedMessage where
  bytes : Bytes
  length : UInt32
  declared : readU32 platform bytes 0 = .ok length
  headed : nlmsgHeaderBytes ≤ length.toNat
  padded : align4 length.toNat = .ok bytes.length

variable {platform}

theorem align4_eq_ok {value aligned : Nat} : align4 value = .ok aligned ↔ value + 3 < usizeLimit ∧ (value + 3) / 4 * 4 = aligned := by
  simp [align4, bind_eq_ok, pure, Except.pure]

variable {bytes : Bytes} {offset : Nat}

theorem readU32_append {value : UInt32} (read : readU32 platform bytes offset = .ok value) (rest : Bytes) :
    readU32 platform (bytes ++ rest) offset = .ok value := by
  simp only [readU32, field, map_eq_ok, bind_eq_ok, require_eq_ok, exists_unit, pure, Except.pure, Except.ok.injEq]
    at read ⊢
  obtain ⟨found, ⟨inside, rfl⟩, rfl⟩ := read
  refine ⟨_, ⟨by rw [length_append]; omega, rfl⟩, ?_⟩
  rw [drop_append_of_le_length (by omega), take_append_of_le_length (by simp only [length_drop]; omega)]

theorem readU32_take {width : Nat} {value : UInt32} (read : readU32 platform bytes offset = .ok value)
    (inside : offset + 4 ≤ width) : readU32 platform (bytes.take width) offset = .ok value := by
  simp only [readU32, field, map_eq_ok, bind_eq_ok, require_eq_ok, exists_unit, pure, Except.pure, Except.ok.injEq]
    at read ⊢
  obtain ⟨found, ⟨fits, rfl⟩, rfl⟩ := read
  refine ⟨_, ⟨by rw [length_take]; omega, rfl⟩, ?_⟩
  rw [drop_take, take_take, Nat.min_eq_left (by omega)]

namespace PaddedMessage

/-- The message without its padding. -/
def text (message : PaddedMessage platform) : Bytes := message.bytes.take message.length.toNat

theorem length_le (message : PaddedMessage platform) : message.length.toNat ≤ message.bytes.length := by
  have padded := (align4_eq_ok.mp message.padded).2
  omega

theorem bytes_pos (message : PaddedMessage platform) : 0 < message.bytes.length := by
  have headed := message.headed
  have length := message.length_le
  simp only [nlmsgHeaderBytes] at headed
  omega

end PaddedMessage

namespace ExchangeState

/-- The exchange as a run over messages, wherever the datagrams were cut. -/
def runMessages (limits : AttachedProcessWitnessLimits) :
    ExchangeState → ExchangeBudget → List (PaddedMessage platform) → Except DiagError (ExchangeState × ExchangeBudget)
  | state, budget, [] => .ok (state, budget)
  | state, budget, message :: messages => do
      require (state.complete = false) .incomplete
      let (state, budget) ← state.consumeMessage platform limits budget message.text
      state.runMessages limits budget messages

variable {limits : AttachedProcessWitnessLimits}

variable {fuel : Nat} {state : ExchangeState} {budget : ExchangeBudget}

theorem consumeFrom_cons (message : PaddedMessage platform) (rest : Bytes) :
    consumeFrom platform limits (fuel + 1) state budget (message.bytes ++ rest) = (do
      let (state, budget) ← state.consumeMessage platform limits budget message.text
      require (¬(state.complete = true ∧ rest ≠ [])) .incomplete
      consumeFrom platform limits fuel state budget rest) := by
  have length := message.length_le
  have headed := message.headed
  obtain ⟨byte, bytes, spelled⟩ := exists_cons_of_length_pos message.bytes_pos
  have taken : (message.bytes ++ rest).take message.length.toNat = message.text := take_append_of_le_length length
  have dropped : (message.bytes ++ rest).drop message.bytes.length = rest := drop_left
  have long : message.length.toNat ≤ (message.bytes ++ rest).length := by rw [length_append]; omega
  have header : nlmsgHeaderBytes ≤ (message.bytes ++ rest).length := Nat.le_trans headed long
  have whole : message.bytes.length ≤ (message.bytes ++ rest).length := by simp
  rw [consumeFrom.eq_3]
  · simp only [readU32_append message.declared rest, require, header, headed, long, message.padded, whole, taken, dropped,
      if_true, and_self, ok_bind]
  · simp [spelled]

/-- The bytes of a group of messages. -/
def joined (messages : List (PaddedMessage platform)) : Bytes := messages.flatMap (·.bytes)

variable {messages : List (PaddedMessage platform)}

theorem joined_eq_nil : joined messages = [] ↔ messages = [] := by
  cases messages with
  | nil => simp [joined]
  | cons message messages =>
    have nonempty : message.bytes ≠ [] := ne_nil_of_length_pos message.bytes_pos
    simp [joined, nonempty]

theorem consumeFrom_joined (enough : (joined messages).length ≤ fuel) (opened : messages = [] ∨ state.complete = false) :
    consumeFrom platform limits fuel state budget (joined messages) = runMessages limits state budget messages := by
  induction messages generalizing fuel state budget with
  | nil => simp [joined, consumeFrom, runMessages]
  | cons message messages ih =>
    have opened : state.complete = false := opened.resolve_left (by simp)
    have split : joined (message :: messages) = message.bytes ++ joined messages := rfl
    have positive := message.bytes_pos
    rw [split, length_append] at enough
    obtain ⟨fuel, rfl⟩ := Nat.exists_eq_add_of_lt (Nat.lt_of_lt_of_le positive (by omega : message.bytes.length ≤ fuel))
    rw [split, Nat.zero_add, consumeFrom_cons, runMessages, require, if_pos opened, ok_bind]
    refine congrArg (Except.bind (state.consumeMessage platform limits budget message.text)) (funext ?_)
    rintro ⟨next, spent⟩
    show (require _ _ >>= fun _ => _) = _
    by_cases last : messages = []
    · subst last
      simp [joined, require, consumeFrom, runMessages]
    by_cases completed : next.complete = true
    · obtain ⟨other, others, rfl⟩ := exists_cons_of_ne_nil last
      simp [require, completed, joined_eq_nil, runMessages, bind, Except.bind]
    · rw [require, if_pos (by simp [completed]), ok_bind]
      exact ih (by omega) (.inr (by simpa using completed))

variable {result : ExchangeState × ExchangeBudget}

theorem joined_of_consumeFrom {rest : Bytes} (consumed : consumeFrom platform limits fuel state budget rest = .ok result) :
    ∃ messages : List (PaddedMessage platform), rest = joined messages := by
  induction fuel generalizing state budget rest with
  | zero =>
    cases rest with
    | nil => exact ⟨[], rfl⟩
    | cons byte rest => cases consumed
  | succ fuel ih =>
    cases rest with
    | nil => exact ⟨[], rfl⟩
    | cons byte rest =>
      simp only [consumeFrom, bind_eq_ok, require_eq_ok, exists_unit, Prod.exists] at consumed
      obtain ⟨-, length, declared, ⟨headed, fits⟩, aligned, padded, whole, next, spent, -, -, rest⟩ := consumed
      obtain ⟨messages, tail⟩ := ih rest
      have width : ((byte :: _).take aligned).length = aligned := length_take_of_le whole
      have inside := (align4_eq_ok.mp padded).2
      refine ⟨⟨_, length, readU32_take declared ?_, headed, width ▸ padded⟩ :: messages, ?_⟩
      · simp only [nlmsgHeaderBytes] at headed
        omega
      · rw [joined, flatMap_cons, ← joined, ← tail, take_append_drop]

theorem consumeDatagram_joined (nonempty : messages ≠ []) (state : ExchangeState) (budget : ExchangeBudget) :
    consumeDatagram platform limits state budget (joined messages) = runMessages limits state budget messages := by
  have present : joined messages ≠ [] := mt joined_eq_nil.mp nonempty
  by_cases completed : state.complete = true
  · obtain ⟨message, messages, rfl⟩ := exists_cons_of_ne_nil nonempty
    simp [consumeDatagram, runMessages, require, completed, bind, Except.bind]
  · have opened : state.complete = false := by simpa using completed
    rw [consumeDatagram, require, if_pos ⟨present, opened⟩, ok_bind]
    exact consumeFrom_joined (Nat.le_refl _) (.inr opened)

theorem joined_of_consumeDatagram {datagram : Bytes} (consumed : consumeDatagram platform limits state budget datagram = .ok result) :
    ∃ messages : List (PaddedMessage platform), messages ≠ [] ∧ datagram = joined messages := by
  simp only [consumeDatagram, bind_eq_ok, require_eq_ok, exists_unit] at consumed
  obtain ⟨⟨nonempty, -⟩, consumed⟩ := consumed
  obtain ⟨messages, rfl⟩ := joined_of_consumeFrom consumed
  exact ⟨messages, mt joined_eq_nil.mpr nonempty, rfl⟩

theorem runMessages_append (state : ExchangeState) (budget : ExchangeBudget) (first second : List (PaddedMessage platform)) :
    runMessages limits state budget (first ++ second) = (do
      let (state, budget) ← runMessages limits state budget first
      runMessages limits state budget second) := by
  induction first generalizing state budget with
  | nil => rfl
  | cons message first ih => simp only [cons_append, runMessages, ih, bind_assoc]

theorem admitRecord_bytes (budget : ExchangeBudget) (bytes : Nat) :
    ExchangeBudget.admitRecord { budget with bytes } limits =
      (fun budget : ExchangeBudget => { budget with bytes }) <$> budget.admitRecord limits := by
  simp only [ExchangeBudget.admitRecord, map_bind, map_pure]

theorem consumeMessage_bytes (state : ExchangeState) (budget : ExchangeBudget) (bytes : Nat) (message : Bytes) :
    state.consumeMessage platform limits { budget with bytes } message =
      (fun (state, budget) => (state, { budget with bytes })) <$> state.consumeMessage platform limits budget message := by
  simp only [consumeMessage, consumeRecord, admitRecord_bytes, map_bind, map_pure, bind_map_left, apply_ite (Functor.map _)]
  rfl

theorem runMessages_bytes (state : ExchangeState) (budget : ExchangeBudget) (bytes : Nat) (messages : List (PaddedMessage platform)) :
    runMessages limits state { budget with bytes } messages =
      (fun (state, budget) => (state, { budget with bytes })) <$> runMessages limits state budget messages := by
  induction messages generalizing state budget with
  | nil => rfl
  | cons message messages ih => simp only [runMessages, consumeMessage_bytes, map_bind, bind_map_left, ih]

/-- An exchange over groups of messages within the byte budget is the run over all of them. -/
theorem exchange_joined {groups : List (List (PaddedMessage platform))} (nonempty : ∀ group ∈ groups, group ≠ []) (state : ExchangeState)
    (budget : ExchangeBudget) (within : budget.bytes + (joined groups.flatten).length ≤ limits.maximumSocketTableBytes.toNat) :
    exchange platform limits state budget (groups.map joined) =
      (fun (state, spent) => (state, { spent with bytes := budget.bytes + (joined groups.flatten).length })) <$>
        runMessages limits state budget groups.flatten := by
  induction groups generalizing state budget with
  | nil => rfl
  | cons group groups ih =>
    have split : (joined (group :: groups).flatten).length = (joined group).length + (joined groups.flatten).length := by
      simp [joined]
    have small := limits.maximumSocketTableBytes.toNat_lt
    have admitted : budget.admitDatagram (joined group).length limits = .ok { budget with bytes := budget.bytes + (joined group).length } := by
      rw [ExchangeBudget.admitDatagram, require, if_pos (by simp only [usizeLimit]; omega), ok_bind, require,
        if_pos (by omega)]
      rfl
    rw [map_cons, exchange, admitted, ok_bind, consumeDatagram_joined (nonempty group (by simp)), flatten_cons,
      runMessages_append, runMessages_bytes, bind_map_left, map_bind]
    refine congrArg (Except.bind (runMessages limits state budget group)) (funext ?_)
    rintro ⟨next, spent⟩
    have later := ih (fun other member => nonempty other (by simp [member])) next { spent with bytes := budget.bytes + (joined group).length }
      (by simp only; omega)
    rw [runMessages_bytes] at later
    simp only [Functor.map_map, Nat.add_assoc, ← split] at later ⊢
    exact later

/-- An exchange that gets through its datagrams has cut each of them into messages. -/
theorem joined_of_exchange {datagrams : List Bytes} (exchanged : exchange platform limits state budget datagrams = .ok result) :
    ∃ groups : List (List (PaddedMessage platform)), datagrams = groups.map joined ∧ (∀ group ∈ groups, group ≠ []) ∧
      (budget.bytes + (joined groups.flatten).length ≤ limits.maximumSocketTableBytes.toNat ∨ groups = []) := by
  induction datagrams generalizing state budget with
  | nil => exact ⟨[], rfl, by simp, .inr rfl⟩
  | cons datagram datagrams ih =>
    simp only [exchange, bind_eq_ok, Prod.exists] at exchanged
    obtain ⟨admitted, admits, next, spent, consumed, rest⟩ := exchanged
    simp only [ExchangeBudget.admitDatagram, bind_eq_ok, require_eq_ok, exists_unit, pure, Except.pure, Except.ok.injEq] at admits
    obtain ⟨-, within, rfl⟩ := admits
    obtain ⟨group, nonempty, rfl⟩ := joined_of_consumeDatagram consumed
    obtain ⟨groups, rfl, others, bounded⟩ := ih rest
    rw [consumeDatagram_joined nonempty, runMessages_bytes] at consumed
    refine ⟨group :: groups, rfl, by simpa using ⟨nonempty, others⟩, .inl ?_⟩
    have kept : spent.bytes = budget.bytes + (joined group).length := by
      cases ran : runMessages limits state budget group with
      | error fault => rw [ran] at consumed; cases consumed
      | ok result => rw [ran] at consumed; cases consumed; rfl
    have split : (joined (group :: groups).flatten).length = (joined group).length + (joined groups.flatten).length := by
      simp [joined]
    rcases bounded with bounded | rfl
    · omega
    · simpa [joined] using within

end ExchangeState

variable (platform)

def hasType (messageType : UInt16) (message : Bytes) : Bool := readU16 platform message 4 == .ok messageType

/-- A message for this request and this receiver. -/
structure Addressed (sequence portId : UInt32) (message : Bytes) : Prop where
  sequence : readU32 platform message 8 = .ok sequence
  portId : readU32 platform message 12 = .ok portId

def payload (message : Bytes) : Bytes := message.drop nlmsgHeaderBytes

/-- An acknowledgement: no error, and exactly the header of the request. -/
structure Acknowledges (request : Vector UInt8 requestBytes) (message : Bytes) : Prop where
  type : hasType platform nlmsgError message = true
  exact : (payload message).length = 20
  echoed : ((payload message).drop 4).take 16 = request.toList.take nlmsgHeaderBytes
  status : readI32 platform (payload message) 0 = .ok 0

/-- The end of a dump that went well. -/
structure EndsDump (message : Bytes) : Prop where
  type : hasType platform nlmsgDone message = true
  exact : (payload message).length = 4
  status : readI32 platform (payload message) 0 = .ok 0

variable {platform} {limits : AttachedProcessWitnessLimits}

theorem tail_eq_ok {rest : Bytes} : tail bytes offset = .ok rest ↔ offset ≤ bytes.length ∧ bytes.drop offset = rest := by
  simp [tail, bind_eq_ok, pure, Except.pure]

/-- What a message that was consumed can have been. -/
inductive Consumed (platform : Platform) (limits : AttachedProcessWitnessLimits) (state : ExchangeState) (budget : ExchangeBudget) (message : Bytes) :
    ExchangeState → ExchangeBudget → Prop
  | record {record : InetDiagRecord} (type : hasType platform sockDiagByFamily message = true)
      (decoded : decodeRecord platform (payload message) = .ok record)
      (attributes : validateAttributes platform ((payload message).drop inetDiagMessageBytes) = .ok ())
      (room : budget.records + 1 ≤ limits.maximumSocketTableEntries.toNat) :
      Consumed platform limits state budget message { state with records := state.records ++ [record] } { budget with records := budget.records + 1 }
  | ack (kind : state.kind = .point) (first : state.ack = false) (acknowledges : Acknowledges platform state.request message) :
      Consumed platform limits state budget message { state with ack := true } budget
  | done (kind : state.kind = .dump) (first : state.done = false) (ends : EndsDump platform message) :
      Consumed platform limits state budget message { state with done := true } budget


variable {state next : ExchangeState} {budget spent : ExchangeBudget} {message : Bytes} {flags : UInt16}

theorem consumed_of_consumeRecord (type : hasType platform sockDiagByFamily message = true)
    (consumed : state.consumeRecord platform limits budget message flags = .ok (next, spent)) :
    Consumed platform limits state budget message next spent := by
  simp only [ExchangeState.consumeRecord, ExchangeBudget.admitRecord, bind_eq_ok, require_eq_ok, exists_unit, tail_eq_ok,
    pure, Except.pure, Except.ok.injEq, Prod.mk.injEq] at consumed
  obtain ⟨-, _, ⟨-, rfl⟩, record, decoded, _, ⟨-, rfl⟩, attributes, _, ⟨-, room, rfl⟩, rfl, rfl⟩ := consumed
  exact .record type decoded attributes room

theorem consumed_of_consumeError
    (type : hasType platform nlmsgError message = true) (consumed : state.consumeError platform message flags = .ok next) :
    Consumed platform limits state budget message next budget := by
  simp only [ExchangeState.consumeError, validateEchoedHeader, bind_eq_ok, require_eq_ok, exists_unit, tail_eq_ok] at consumed
  obtain ⟨⟨-, first, -⟩, _, ⟨-, rfl⟩, -, echoed, error, status, rest⟩ := consumed
  split at rest
  next zero =>
    simp only [bind_eq_ok, require_eq_ok, exists_unit, pure, Except.pure, Except.ok.injEq] at rest
    obtain ⟨⟨kind, exact⟩, rfl⟩ := rest
    exact .ack kind first ⟨type, exact, echoed, zero ▸ status⟩
  next =>
    split at rest
    · cases rest
    · simp [bind_eq_ok] at rest

theorem consumed_of_consumeDone
    (type : hasType platform nlmsgDone message = true) (consumed : state.consumeDone platform message flags = .ok next) :
    Consumed platform limits state budget message next budget := by
  simp only [ExchangeState.consumeDone, bind_eq_ok, require_eq_ok, exists_unit, tail_eq_ok] at consumed
  obtain ⟨⟨kind, first, -⟩, _, ⟨-, rfl⟩, exact, status, read, rest⟩ := consumed
  split at rest
  · cases rest
  · simp only [bind_eq_ok, require_eq_ok, exists_unit, pure, Except.pure, Except.ok.injEq] at rest
    obtain ⟨zero, rfl⟩ := rest
    exact .done kind first ⟨type, exact, zero ▸ read⟩

theorem consumed_of_consumeMessage (consumed : state.consumeMessage platform limits budget message = .ok (next, spent)) :
    Addressed platform state.sequence state.portId message ∧ Consumed platform limits state budget message next spent := by
  simp only [ExchangeState.consumeMessage, bind_eq_ok, require_eq_ok, exists_unit] at consumed
  obtain ⟨type, read, flags, -, sequence, sequenced, rfl, portId, ported, rfl, -, -, rest⟩ := consumed
  refine ⟨⟨sequenced, ported⟩, ?_⟩
  have typed : ∀ {messageType}, type = messageType → hasType platform messageType message = true := fun same => by
    simp [hasType, read, same]
  split at rest
  next record => exact consumed_of_consumeRecord (typed record) rest
  split at rest
  next error =>
    simp only [bind_eq_ok, pure, Except.pure, Except.ok.injEq, Prod.mk.injEq] at rest
    obtain ⟨_, consumed, rfl, rfl⟩ := rest
    exact consumed_of_consumeError (typed error) consumed
  split at rest
  next done =>
    simp only [bind_eq_ok, pure, Except.pure, Except.ok.injEq, Prod.mk.injEq] at rest
    obtain ⟨_, consumed, rfl, rfl⟩ := rest
    exact consumed_of_consumeDone (typed done) consumed
  split at rest <;> cases rest

theorem hasType_unique {messageType other : UInt16} (type : hasType platform messageType message = true)
    (differs : messageType ≠ other) : hasType platform other message = false := by
  simp only [hasType, beq_iff_eq] at type
  simp [hasType, type, differs]

/-- The messages that complete an exchange of the kind. -/
def Completed (platform : Platform) (kind : RequestKind) (messages : List Bytes) : Prop :=
  match kind with
  | .point => (∃ message ∈ messages, hasType platform nlmsgError message = true) ∧
      ∃ message ∈ messages, hasType platform sockDiagByFamily message = true
  | .dump => ∃ message ∈ messages, hasType platform nlmsgDone message = true

/-- What the state of an exchange says about the messages it has heard. -/
structure Heard (platform : Platform) (limits : AttachedProcessWitnessLimits) (opening : ExchangeState) (start : ExchangeBudget)
    (messages : List Bytes) (state : ExchangeState) (spent : ExchangeBudget) : Prop where
  kind : state.kind = opening.kind
  sequence : state.sequence = opening.sequence
  portId : state.portId = opening.portId
  request : state.request = opening.request
  addressed : ∀ message ∈ messages, Addressed platform opening.sequence opening.portId message
  records : (messages.filter (hasType platform sockDiagByFamily)).map (fun message => decodeRecord platform (payload message)) =
    state.records.map .ok
  attributes : ∀ message ∈ messages, hasType platform sockDiagByFamily message = true →
    validateAttributes platform ((payload message).drop inetDiagMessageBytes) = .ok ()
  acked : state.ack = true ↔ ∃ message ∈ messages, hasType platform nlmsgError message = true
  acks : ∀ message ∈ messages, hasType platform nlmsgError message = true → Acknowledges platform opening.request message
  ended : state.done = true ↔ ∃ message ∈ messages, hasType platform nlmsgDone message = true
  ends : ∀ message ∈ messages, hasType platform nlmsgDone message = true → EndsDump platform message
  counted : spent.records = start.records + state.records.length
  bounded : state.records = [] ∨ spent.records ≤ limits.maximumSocketTableEntries.toNat
  opened : ∀ front rest, messages = front ++ rest → rest ≠ [] → ¬Completed platform opening.kind front

namespace Heard

variable {opening state next : ExchangeState} {start spent after : ExchangeBudget} {messages : List Bytes} {message : Bytes}

theorem new (kind : RequestKind) (sequence portId : UInt32) (request : Vector UInt8 requestBytes) :
    Heard platform limits (.new kind sequence portId request) start [] (.new kind sequence portId request) start := by
  constructor <;> simp [ExchangeState.new]

section
variable (heard : Heard platform limits opening start messages state spent)
include heard

theorem complete_iff : state.complete = true ↔ Completed platform opening.kind messages := by
  have recorded : state.records ≠ [] ↔ ∃ message ∈ messages, hasType platform sockDiagByFamily message = true := by
    have empty := congrArg (· = []) heard.records
    simp only [map_eq_nil_iff, filter_eq_nil_iff, eq_iff_iff] at empty
    rw [ne_eq, ← empty]
    simp
  cases kind : opening.kind with
  | point => simp [ExchangeState.complete, Completed, heard.kind, kind, heard.acked, ← recorded]
  | dump => simp [ExchangeState.complete, Completed, heard.kind, kind, heard.ended]

theorem opened_snoc (opened : state.complete = false)
    (front rest : List Bytes) (split : messages ++ [message] = front ++ rest) (more : rest ≠ []) : ¬Completed platform opening.kind front := by
  rcases eq_nil_or_concat rest with rfl | ⟨between, last, rfl⟩
  · exact absurd rfl more
  rw [concat_eq_append, ← append_assoc] at split
  obtain ⟨split, -⟩ := append_inj' split rfl
  by_cases here : between = []
  · rw [here, append_nil] at split
    rw [← split, ← heard.complete_iff, opened]
    simp
  · exact heard.opened front between split here

theorem step (opened : state.complete = false) (consumed : state.consumeMessage platform limits spent message = .ok (next, after)) :
    Heard platform limits opening start (messages ++ [message]) next after := by
  obtain ⟨address, consumed⟩ := consumed_of_consumeMessage consumed
  have addressed : ∀ other ∈ messages ++ [message], Addressed platform opening.sequence opening.portId other :=
    forall_mem_append.mpr ⟨heard.addressed, by simpa using heard.sequence ▸ heard.portId ▸ address⟩
  cases consumed with
  | @record record type decoded attributes room =>
    have notError := hasType_unique type (by decide : sockDiagByFamily ≠ nlmsgError)
    have notDone := hasType_unique type (by decide : sockDiagByFamily ≠ nlmsgDone)
    exact { heard with
      addressed
      records := by simp [filter_append, type, heard.records, decoded]
      attributes := forall_mem_append.mpr ⟨heard.attributes, by simpa using fun _ => attributes⟩
      acked := by simp [heard.acked, or_and_right, exists_or, notError]
      acks := forall_mem_append.mpr ⟨heard.acks, by simp [notError]⟩
      ended := by simp [heard.ended, or_and_right, exists_or, notDone]
      ends := forall_mem_append.mpr ⟨heard.ends, by simp [notDone]⟩
      counted := by simp [heard.counted, Nat.add_assoc]
      bounded := .inr room
      opened := heard.opened_snoc opened }
  | ack kind first acknowledges =>
    have notRecord := hasType_unique acknowledges.type (by decide : nlmsgError ≠ sockDiagByFamily)
    have notDone := hasType_unique acknowledges.type (by decide : nlmsgError ≠ nlmsgDone)
    exact { heard with
      addressed
      records := by simp [filter_append, notRecord, heard.records]
      attributes := forall_mem_append.mpr ⟨heard.attributes, by simp [notRecord]⟩
      acked := by simp [acknowledges.type]
      acks := forall_mem_append.mpr ⟨heard.acks, by simpa using fun _ => heard.request ▸ acknowledges⟩
      ended := by simp [heard.ended, or_and_right, exists_or, notDone]
      ends := forall_mem_append.mpr ⟨heard.ends, by simp [notDone]⟩
      opened := heard.opened_snoc opened }
  | done kind first ends =>
    have notRecord := hasType_unique ends.type (by decide : nlmsgDone ≠ sockDiagByFamily)
    have notError := hasType_unique ends.type (by decide : nlmsgDone ≠ nlmsgError)
    exact { heard with
      addressed
      records := by simp [filter_append, notRecord, heard.records]
      attributes := forall_mem_append.mpr ⟨heard.attributes, by simp [notRecord]⟩
      acked := by simp [heard.acked, or_and_right, exists_or, notError]
      acks := forall_mem_append.mpr ⟨heard.acks, by simp [notError]⟩
      ended := by simp [ends.type]
      ends := forall_mem_append.mpr ⟨heard.ends, by simpa using fun _ => ends⟩
      opened := heard.opened_snoc opened }

theorem run {more : List (PaddedMessage platform)} (ran : state.runMessages limits spent more = .ok (next, after)) :
    Heard platform limits opening start (messages ++ more.map (·.text)) next after := by
  induction more generalizing messages state spent with
  | nil =>
    cases ran
    simpa using heard
  | cons message more ih =>
    simp only [ExchangeState.runMessages, bind_eq_ok, require_eq_ok, exists_unit, Prod.exists] at ran
    obtain ⟨opened, between, left, consumed, rest⟩ := ran
    simpa using ih (heard.step opened consumed) rest

end

end Heard

/-- What an exchange gives once all its datagrams are in. -/
def outcome (platform : Platform) (limits : AttachedProcessWitnessLimits) (state : ExchangeState) (budget : ExchangeBudget)
    (datagrams : List Bytes) : Except DiagError (List InetDiagRecord) := do
  let (state, _) ← state.exchange platform limits budget datagrams
  state.finish

/-- The records of an exchange are those of its messages, and the messages end where the exchange
is complete. -/
structure Answered (platform : Platform) (limits : AttachedProcessWitnessLimits) (opening : ExchangeState) (messages : List Bytes)
    (records : List InetDiagRecord) : Prop where
  decoded : (messages.filter (hasType platform sockDiagByFamily)).map (fun message => decodeRecord platform (payload message)) =
    records.map .ok
  addressed : ∀ message ∈ messages, Addressed platform opening.sequence opening.portId message
  attributes : ∀ message ∈ messages, hasType platform sockDiagByFamily message = true →
    validateAttributes platform ((payload message).drop inetDiagMessageBytes) = .ok ()
  limit : records.length ≤ limits.maximumSocketTableEntries.toNat
  dump : opening.kind = .dump → ∃ front last, messages = front ++ [last] ∧ EndsDump platform last ∧
    ∀ message ∈ front, hasType platform nlmsgDone message = false
  point : opening.kind = .point → (∃ message ∈ messages, Acknowledges platform opening.request message) ∧ records ≠ []
  nothingAfter : ∀ front rest, messages = front ++ rest → rest ≠ [] → ¬Completed platform opening.kind front

theorem Heard.answered {opening : ExchangeState} {start : ExchangeBudget} {messages : List Bytes}
    (heard : Heard platform limits opening start messages state spent) (complete : state.complete = true) :
    Answered platform limits opening messages state.records where
  decoded := heard.records
  addressed := heard.addressed
  attributes := heard.attributes
  limit := by
    rcases heard.bounded with empty | bounded
    · simp [empty]
    · have counted := heard.counted
      omega
  dump kind := by
    have completed := heard.complete_iff.mp complete
    simp only [Completed, kind] at completed
    obtain ⟨last, member, type⟩ := completed
    obtain ⟨front, rest, split⟩ := append_of_mem member
    -- Nothing follows the message that ends the dump.
    obtain rfl : rest = [] := by
      by_contra more
      refine heard.opened (front ++ [last]) rest (by simp [split]) more ?_
      simpa only [Completed, kind] using ⟨last, by simp, type⟩
    refine ⟨front, last, split, heard.ends last member type, fun message earlier => ?_⟩
    by_contra other
    refine heard.opened front [last] split (by simp) ?_
    simpa only [Completed, kind] using ⟨message, earlier, by simpa using other⟩
  point kind := by
    have kept := heard.kind.trans kind
    simp only [ExchangeState.complete, kept, Bool.and_eq_true, Bool.not_eq_true', isEmpty_eq_false_iff] at complete
    obtain ⟨message, member, type⟩ := heard.acked.mp complete.1
    exact ⟨⟨message, member, heard.acks message member type⟩, complete.2⟩
  nothingAfter := heard.opened

theorem outcome_answered {kind : RequestKind} {sequence portId : UInt32} {request : Vector UInt8 requestBytes}
    {datagrams : List Bytes} {records : List InetDiagRecord}
    (finished : outcome platform limits (.new kind sequence portId request) budget datagrams = .ok records) :
    ∃ groups : List (List (PaddedMessage platform)), datagrams = groups.map ExchangeState.joined ∧ (∀ group ∈ groups, group ≠ []) ∧
      Answered platform limits (.new kind sequence portId request) (groups.flatten.map (·.text)) records := by
  simp only [outcome, bind_eq_ok, Prod.exists] at finished
  obtain ⟨state, spent, exchanged, finished⟩ := finished
  obtain ⟨groups, rfl, nonempty, within⟩ := ExchangeState.joined_of_exchange exchanged
  refine ⟨groups, rfl, nonempty, ?_⟩
  simp only [ExchangeState.finish] at finished
  split at finished
  next complete =>
    cases finished
    rcases within with within | rfl
    · rw [ExchangeState.exchange_joined nonempty _ _ within] at exchanged
      obtain ⟨⟨last, left⟩, ran, same⟩ := map_eq_ok.mp exchanged
      cases same
      exact ((Heard.new kind sequence portId request).run ran).answered complete
    · cases exchanged
      have heard : Heard platform limits (.new kind sequence portId request) budget [] _ budget := .new kind sequence portId request
      exact heard.answered complete
  · cases finished

theorem outcome_joined {groups others : List (List (PaddedMessage platform))} (state : ExchangeState) (budget : ExchangeBudget)
    (nonempty : ∀ group ∈ groups, group ≠ []) (alsoNonempty : ∀ group ∈ others, group ≠ []) (same : groups.flatten = others.flatten)
    (within : budget.bytes + (ExchangeState.joined groups.flatten).length ≤ limits.maximumSocketTableBytes.toNat) :
    outcome platform limits state budget (groups.map ExchangeState.joined) =
      outcome platform limits state budget (others.map ExchangeState.joined) := by
  rw [outcome, outcome, ExchangeState.exchange_joined nonempty _ _ within, ExchangeState.exchange_joined alsoNonempty _ _ (same ▸ within), same]

def littlePlatform : Platform := ⟨.little, fun _ => .other⟩

def recordMessage : PaddedMessage littlePlatform :=
  ⟨[88, 0, 0, 0, 20, 0, 2, 0, 7, 0, 0, 0, 9, 0, 0, 0, 2, 10] ++ List.replicate 70 0, 88, by decide, by decide, by decide⟩

def doneMessage : PaddedMessage littlePlatform := ⟨[20, 0, 0, 0, 3, 0, 2, 0, 7, 0, 0, 0, 9, 0, 0, 0, 0, 0, 0, 0], 20, by decide, by decide, by decide⟩

end Retonr.SockDiag
