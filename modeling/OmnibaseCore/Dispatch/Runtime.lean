import Mathlib.Data.String.Basic
import OmnibaseCore.Python.Sorted

/-!
# The transport in memory

`InMemoryBroker`: a log for every partition of every topic, to which records are only added, and
the committed offset of every group. `InMemoryTransport`: a consumer of a group, with its own
fetch positions, and a producer.

Of SHA-256, which spreads keys over partitions, the broker has the number read from the digest.
-/

namespace OmnibaseCore.Dispatch

abbrev Bytes := List UInt8

abbrev TopicPartition := String × ℕ

/-- The arguments of `send`. -/
structure Send where
  topic : String
  key : Option Bytes
  value : Bytes
  headers : List (String × Bytes) := []
deriving DecidableEq

/-- `ModelTransportMessage`. Its `ack_token` is its topic, partition and offset. -/
structure ModelTransportMessage where
  topic : String
  partition : ℕ
  offset : ℕ
  key : Option Bytes
  value : Bytes
  headers : List (String × Bytes)
deriving DecidableEq

def ModelTransportMessage.place (m : ModelTransportMessage) : TopicPartition :=
  (m.topic, m.partition)

/-! ## The broker -/

instance neZero_one : NeZero 1 := ⟨Nat.one_ne_zero⟩

structure InMemoryBroker where
  numPartitions : ℕ+
  /-- the first eight bytes of the SHA-256 of a key, as a number -/
  keyDigest : Bytes → ℕ
  logs : TopicPartition → List ModelTransportMessage := fun _ => []
  /-- the offsets committed for a topic, a group and a partition -/
  committed : String × String × ℕ → ℤ := fun _ => -1
  roundRobin : String → ℕ := fun _ => 0

namespace InMemoryBroker

def selectPartition (b : InMemoryBroker) (topic : String) (key : Option Bytes) :
    ℕ × InMemoryBroker :=
  if b.numPartitions = 1 then (0, b)
  else
    match key with
    | none =>
      let counter := b.roundRobin topic
      (counter % b.numPartitions,
        { b with roundRobin := Function.update b.roundRobin topic (counter + 1) })
    | some key => (b.keyDigest key % b.numPartitions, b)

def append (b : InMemoryBroker) (send : Send) : InMemoryBroker :=
  let (partition, b) := b.selectPartition send.topic send.key
  let log := b.logs (send.topic, partition)
  let message : ModelTransportMessage :=
    { topic := send.topic
      partition
      offset := log.length
      key := send.key
      value := send.value
      headers := send.headers }
  { b with logs := Function.update b.logs (send.topic, partition) (log ++ [message]) }

/-- Several messages one after the other. -/
def appendAll (b : InMemoryBroker) (sends : List Send) : InMemoryBroker :=
  sends.foldl append b

def recordAt (b : InMemoryBroker) (place : TopicPartition) (offset : ℕ) :
    Option ModelTransportMessage :=
  (b.logs place)[offset]?

def committedOffset (b : InMemoryBroker) (group : String) (place : TopicPartition) : ℤ :=
  b.committed (place.1, group, place.2)

def commitOffset (b : InMemoryBroker) (group : String) (place : TopicPartition) (offset : ℕ) :
    InMemoryBroker :=
  if b.committedOffset group place < offset then
    { b with committed := Function.update b.committed (place.1, group, place.2) offset }
  else b

end InMemoryBroker

/-! ## The transport -/

/-- What an operation of the runtime raises. -/
inductive DispatchError
  /-- a consumer used before `start()` -/
  | notStarted
  /-- `max_messages` is not positive -/
  | maxMessages (n : ℤ)
  /-- the resolver of dead-letter topics, or the send to one -/
  | deadLetter (message : String)
deriving DecidableEq

structure InMemoryTransport where
  group : String
  topics : List String
  chaosDuplicate : Bool
  started : Bool := false
  positions : TopicPartition → Option ℕ := fun _ => none
  chaosPending : List ModelTransportMessage := []
  chaosSeen : List (TopicPartition × ℕ) := []

namespace InMemoryTransport

/-- `_position`: where nothing has been fetched, the one after the committed offset. -/
def position (t : InMemoryTransport) (b : InMemoryBroker) (place : TopicPartition) : ℕ :=
  (t.positions place).getD (b.committedOffset t.group place + 1).toNat

/-- The turn of the loop of `poll` over the partitions. -/
def pollPartition (b : InMemoryBroker) (maxMessages : ℕ) :
    List ModelTransportMessage × InMemoryTransport → TopicPartition →
      List ModelTransportMessage × InMemoryTransport
  | (batch, t), place =>
    if maxMessages ≤ batch.length then (batch, t)
    else
      let position := t.position b place
      let fetched := ((b.logs place).drop position).take (maxMessages - batch.length)
      (batch ++ fetched,
        { t with positions := Function.update t.positions place (some (position + fetched.length)) })

/-- The assigned partitions, in the order in which they are read. -/
def places (t : InMemoryTransport) (b : InMemoryBroker) : List TopicPartition :=
  (sortedAsc id t.topics).flatMap fun topic =>
    (List.range b.numPartitions).map fun partition => (topic, partition)

def poll (t : InMemoryTransport) (b : InMemoryBroker) (maxMessages : ℤ) :
    Except DispatchError (List ModelTransportMessage × InMemoryTransport) :=
  if ¬ t.started then .error .notStarted
  else if maxMessages < 1 then .error (.maxMessages maxMessages)
  else
    let duplicates := t.chaosPending.take maxMessages.toNat
    let t' := { t with chaosPending := t.chaosPending.drop maxMessages.toNat }
    .ok ((t.places b).foldl (pollPartition b maxMessages.toNat) (duplicates, t'))

/-- `commit`, of a started consumer. -/
def commit (t : InMemoryTransport) (b : InMemoryBroker) (m : ModelTransportMessage) :
    InMemoryTransport × InMemoryBroker :=
  let b := b.commitOffset t.group m.place m.offset
  if t.chaosDuplicate ∧ (m.place, m.offset) ∉ t.chaosSeen then
    ({ t with
        chaosSeen := (m.place, m.offset) :: t.chaosSeen
        chaosPending := t.chaosPending ++ (b.recordAt m.place m.offset).toList }, b)
  else (t, b)

/-- `nack`, of a started consumer. -/
def nack (t : InMemoryTransport) (b : InMemoryBroker) (m : ModelTransportMessage) :
    InMemoryTransport :=
  { t with
    positions := Function.update t.positions m.place (some (min (t.position b m.place) m.offset)) }

end InMemoryTransport

/-!
## The dispatch loop

`RuntimeDispatch` over a transport in memory. How a message is handled, from the decoding of its
bytes to the wrapping of what is to be sent, is an `Outcome`, and so is what others send in the
meantime. A `System` has one consumer of the group at a time; a restart replaces it.

What is done with messages is recorded as outputs, in order.
-/

inductive EnumDeliveryDisposition
  | commit
  | redeliver
  | dlq
deriving DecidableEq

/-- The configuration of a `RuntimeDispatch`. -/
structure Config where
  maxMessages : ℤ := 64
  maxRetries : ℤ := 3
  dlqTopicResolver : String → Except String String := fun topic => .ok (topic ++ ".dlq")

/-- What happens while a message is handled. -/
structure Outcome where
  /-- what others send -/
  external : List Send := []
  /-- the events to be sent, if all goes well from decoding to wrapping -/
  outbound : Option (List Send) := some []
  /-- the event whose send raises -/
  sendFails : Option ℕ := none
  /-- what the send to the dead-letter topic raises -/
  deadLetterFails : Option String := none

inductive Output
  /-- it is dispatched with disposition `COMMIT`, and its events have been appended -/
  | committed (m : ModelTransportMessage) (outbound : List Send)
  /-- its original bytes have been appended to a dead-letter topic -/
  | deadLettered (m : ModelTransportMessage) (topic : String)
deriving DecidableEq

structure Runtime where
  broker : InMemoryBroker
  transport : InMemoryTransport
  /-- consecutive failures of a message -/
  attempts : TopicPartition × ℕ → ℕ := fun _ => 0

namespace Runtime

/-- Messages are appended. -/
def sendAll (s : Runtime) (sends : List Send) : Runtime :=
  { s with broker := s.broker.appendAll sends }

/-- The `except` clause of `_dispatch_one`. -/
def failed (cfg : Config) (s : Runtime) (m : ModelTransportMessage) :
    EnumDeliveryDisposition × Runtime :=
  let key := (m.place, m.offset)
  let attempts := s.attempts key + 1
  if cfg.maxRetries < attempts then
    (.dlq, { s with attempts := Function.update s.attempts key 0 })
  else
    (.redeliver, { s with attempts := Function.update s.attempts key attempts })

def dispatchOne (cfg : Config) (s : Runtime) (outcome : Outcome) (m : ModelTransportMessage) :
    EnumDeliveryDisposition × Runtime :=
  let s := s.sendAll outcome.external
  match outcome.outbound with
  | none => s.failed cfg m
  | some outbound =>
    match outcome.sendFails.filter fun i => i < outbound.length with
    | some i => (s.sendAll (outbound.take i)).failed cfg m
    | none =>
      let s := s.sendAll outbound
      (.commit, { s with attempts := Function.update s.attempts (m.place, m.offset) 0 })

def deadLetter (m : ModelTransportMessage) (topic : String) : Send :=
  { topic, key := m.key, value := m.value, headers := m.headers }

/-- `_send_to_dlq`, with the topic that is used. -/
def sendToDlq (cfg : Config) (s : Runtime) (outcome : Outcome) (m : ModelTransportMessage) :
    Except DispatchError (String × Runtime) :=
  match cfg.dlqTopicResolver m.topic with
  | .error e => .error (.deadLetter e)
  | .ok topic =>
    match outcome.deadLetterFails with
    | some e => .error (.deadLetter e)
    | none => .ok (topic, s.sendAll [deadLetter m topic])

/-! ## A cycle -/

inductive GroupEnd
  | finished
  | redeliver (m : ModelTransportMessage)
  | raised (e : DispatchError)

/-- What the loop over the messages of a partition leaves. -/
structure GroupRun where
  state : Runtime
  processed : ℕ
  lastCommittable : Option ModelTransportMessage
  ending : GroupEnd
  outputs : List Output := []

/-- The loop over the messages of a partition. The outcomes are numbered by `processed`. -/
def dispatchGroup (cfg : Config) (outcomes : ℕ → Outcome) :
    List ModelTransportMessage → ℕ → Option ModelTransportMessage → Runtime → GroupRun
  | [], processed, lastCommittable, s =>
    { state := s, processed, lastCommittable, ending := .finished }
  | m :: rest, processed, lastCommittable, s =>
    match s.dispatchOne cfg (outcomes processed) m with
    | (.commit, s) =>
      let run := dispatchGroup cfg outcomes rest (processed + 1) (some m) s
      { run with
        outputs := .committed m ((outcomes processed).outbound.getD []) :: run.outputs }
    | (.dlq, s) =>
      match s.sendToDlq cfg (outcomes processed) m with
      | .error e => { state := s, processed := processed + 1, lastCommittable, ending := .raised e }
      | .ok (topic, s) =>
        let run := dispatchGroup cfg outcomes rest (processed + 1) (some m) s
        { run with outputs := .deadLettered m topic :: run.outputs }
    -- the prefix of the partition ends here
    | (.redeliver, s) =>
      { state := s, processed := processed + 1, lastCommittable, ending := .redeliver m }

def settle (run : GroupRun) : Runtime :=
  let s := run.state
  let s :=
    match run.lastCommittable with
    | none => s
    | some m =>
      let (transport, broker) := s.transport.commit s.broker m
      { s with transport, broker }
  match run.ending with
  | .redeliver m => { s with transport := s.transport.nack s.broker m }
  | _ => s

def groupLoop (cfg : Config) (outcomes : ℕ → Outcome) :
    List (TopicPartition × List ModelTransportMessage) → ℕ → Runtime →
      Except DispatchError ℕ × Runtime × List Output
  | [], processed, s => (.ok processed, s, [])
  | (_, messages) :: rest, processed, s =>
    let run := s.dispatchGroup cfg outcomes (sortedAsc (·.offset) messages) processed none
    match run.ending with
    | .raised e => (.error e, run.state, run.outputs)
    | _ =>
      let (result, s, outputs) := groupLoop cfg outcomes rest run.processed (settle run)
      (result, s, run.outputs ++ outputs)

/-- `groups[(message.topic, message.partition)].append(message)`. -/
def addToGroup :
    List (TopicPartition × List ModelTransportMessage) → ModelTransportMessage →
      List (TopicPartition × List ModelTransportMessage)
  | [], m => [(m.place, [m])]
  | (place, messages) :: rest, m =>
    if place = m.place then (place, messages ++ [m]) :: rest
    else (place, messages) :: addToGroup rest m

def groups (batch : List ModelTransportMessage) :
    List (TopicPartition × List ModelTransportMessage) :=
  batch.foldl addToGroup []

def runOnce (cfg : Config) (s : Runtime) (outcomes : ℕ → Outcome) :
    Except DispatchError ℕ × Runtime × List Output :=
  match s.transport.poll s.broker cfg.maxMessages with
  | .error e => (.error e, s, [])
  | .ok (batch, transport) => groupLoop cfg outcomes (groups batch) 0 { s with transport }

end Runtime

/-! ## Runs -/

/-- A runtime with its configuration, and all that has been done with messages. -/
structure System where
  config : Config
  runtime : Runtime
  outputs : List Output := []

/-- What happens to a system. -/
inductive Step
  /-- someone sends a message -/
  | send (send : Send)
  | start
  | close
  | runOnce (outcomes : ℕ → Outcome)
  /-- a new runtime with a new consumer of the same group -/
  | restart (config : Config) (topics : List String) (chaosDuplicate : Bool)

namespace System

def initial (numPartitions : ℕ+) (keyDigest : Bytes → ℕ) (group : String) (config : Config)
    (topics : List String) (chaosDuplicate : Bool) : System where
  config := config
  runtime :=
    { broker := { numPartitions, keyDigest }
      transport := { group, topics, chaosDuplicate } }

def cycle (s : System) (outcomes : ℕ → Outcome) : Except DispatchError ℕ :=
  (s.runtime.runOnce s.config outcomes).1

def step (s : System) : Step → System
  | .send send => { s with runtime := s.runtime.sendAll [send] }
  | .start =>
    { s with runtime.transport.started := true }
  | .close =>
    { s with runtime.transport.started := false }
  | .runOnce outcomes =>
    let (_, runtime, outputs) := s.runtime.runOnce s.config outcomes
    { s with runtime, outputs := s.outputs ++ outputs }
  | .restart config topics chaosDuplicate =>
    { s with
      config
      runtime :=
        { broker := s.runtime.broker
          transport := { group := s.runtime.transport.group, topics, chaosDuplicate } } }

def run (s : System) (steps : List Step) : System := steps.foldl step s

end System

end OmnibaseCore.Dispatch
