/-
The ZeroMQ layer (`src/include/actors/remote/ZmqSender.hpp`, `ZmqReceiver.hpp`). `send_to`
serializes on the caller's thread into a `RemoteSendRequest`, `on_send_request` wraps it in an
envelope, and the receiving side's `handle_remote_message` routes the envelope to a registered
actor or answers a named sender with a `Reject`. For a well-formed envelope, whenever the decoder
does not throw, exactly one of dispatch, `Reject` or nothing happens, and a message sent through
`send_to` reaches the actor registered under its receiver name unchanged, as long as every string
it carries is UTF-8: a string field that is not makes `send_to` throw `type_error` 316 instead. A
decoder that throws never reaches the `Reject`: `on_continue` catches the
`nlohmann::json::exception` and drops the frame, named sender or not. `ZmqReceiver.hpp` as written
does not compile (its `RemoteReplyProxy` marks the non-virtual `Actor::send` `override`); the
receiver's own functions are modelled as their text reads.
-/
import Actors.Remote.Serialization

namespace Actors

/-! ## The sending side -/

/-- `RemoteSendRequest`; the pre-serialized `message_json` is kept as the value it prints, which
`json::parse` gives back. -/
structure RemoteSendRequest where
  endpoint : StdString
  actorName : StdString
  senderName : StdString
  senderEndpoint : StdString
  messageType : StdString
  messageJson : Json

/-- An exception that leaves `send_to`. -/
inductive SendToError where
  /-- The `std::runtime_error` of `serialize`, with its text. -/
  | runtimeError (what : String)
  /-- A `nlohmann::json::exception` of `dump()`. -/
  | json (e : JsonFault)

/-- `ZmqSender::send_to(endpoint, actor_name, msg, sender)` of a `ZmqSender` whose
`local_endpoint_` is `localEndpoint`, `sender` being the sending actor's `get_name()`: the request
it queues to its own mailbox, or the exception it throws; `msg_json.dump()` throws `type_error`
316 on a string field that is not UTF-8. `none` for an unregistered type: `send_to` deletes `msg`
and then reads `msg->get_message_id()` for the exception's text, which is undefined. -/
def sendTo (reg : MessageRegistry) (localEndpoint endpoint actorName : StdString) (msg : Msg)
    (sender : Option StdString) : Option (Except SendToError RemoteSendRequest) :=
  let typeName := reg.getTypeName msg.id
  if typeName.empty then none
  else
    match reg.serialize msg with
    | .error e => some (.error (.runtimeError e))
    | .ok msgJson =>
      if msgJson.dumpable then
        some (.ok ⟨endpoint, actorName, sender.getD "", if sender.isSome then localEndpoint else "",
          typeName, msgJson⟩)
      else some (.error (.json (.typeError 316)))

/-- The envelope `on_send_request` builds. -/
def envelope (req : RemoteSendRequest) : Json :=
  .obj ((if req.senderName.empty then [("sender_actor", .null), ("sender_endpoint", .null)]
      else [("sender_actor", .str req.senderName), ("sender_endpoint", .str req.senderEndpoint)]) ++
    [("receiver", .str req.actorName), ("message_type", .str req.messageType),
      ("message", req.messageJson)])

/-- `on_send_request`: the frame `send_raw` pushes to the request's endpoint, the text
`envelope.dump()`, which the receiver's `json::parse` reads back as the envelope. `none` where
`dump()` throws, on a name that is not UTF-8, inside the `noexcept` handler: the process ends. -/
def onSendRequest (req : RemoteSendRequest) : Option Json :=
  if (envelope req).dumpable then some (envelope req) else none

/-- What `on_send_request` pushes is the envelope. -/
theorem frame_of_onSendRequest {req : RemoteSendRequest} {frame : Json}
    (h : onSendRequest req = some frame) : frame = envelope req := by
  unfold onSendRequest at h
  split at h
  · exact (Option.some.inj h).symm
  · cases h

/-! ## The receiving side -/

/-- The routing state of a `ZmqReceiver`: `registry_`, from the names local actors are registered
under to the actors, and `running_`. -/
structure ZmqReceiver where
  registry : StdString → Option Nat
  running : Bool

namespace ZmqReceiver

/-- A receiver as its constructor leaves it: no actors, not running. -/
def create : ZmqReceiver := ⟨fun _ => none, false⟩

/-- `register_actor`. -/
def registerActor (z : ZmqReceiver) (name : StdString) (actor : Nat) : ZmqReceiver :=
  { z with registry := Function.update z.registry name (some actor) }

/-- `on_start` sets `running_`. -/
def onStart (z : ZmqReceiver) : ZmqReceiver := { z with running := true }

end ZmqReceiver

/-- What `handle_remote_message` does when it does not throw: `target->send(msg, reply_actor)`,
where `replyTo` is the remote sender (actor, endpoint) a `RemoteReplyProxy` is made for;
`send_reject(endpoint, actor, ...)`, which hands `msg` to `ZmqSender::send_to`; or nothing. -/
inductive Routed where
  | dispatch (target : Nat) (msg : Msg) (replyTo : Option (StdString × StdString))
  | reject (endpoint actor : StdString) (msg : Msg)
  | nothing
  deriving DecidableEq, Repr

/-- `send_reject` when the envelope names a sender, nothing when it is anonymous. -/
def rejectTo (sender : Option (StdString × StdString)) (msgType reason rejectedBy : StdString) : Routed :=
  match sender with
  | some (actor, endpoint) => .reject endpoint actor (reject msgType reason rejectedBy)
  | none => .nothing

/-- The sender fields `handle_remote_message` reads: none when `sender_actor` is null. -/
def readSender (envelope : Json) : Except JsonFault (Option (StdString × StdString)) := do
  let senderActor ← envelope.index "sender_actor"
  if senderActor.isNull then pure none
  else do
    let actor ← senderActor.getString
    let endpoint ← (← envelope.index "sender_endpoint").getString
    pure (some (actor, endpoint))

/-- `ZmqReceiver::handle_remote_message`, with the message registry and the receiver's
`registry_`. -/
def handleRemoteMessage (reg : MessageRegistry) (registry : StdString → Option Nat)
    (envelope : Json) : Except JsonFault Routed := do
  let receiverName ← (← envelope.index "receiver").getString
  let msgType ← (← envelope.index "message_type").getString
  let sender ← readSender envelope
  match registry receiverName with
  | none => pure (rejectTo sender msgType ("Actor \x27" ++ receiverName ++ "\x27 not found") receiverName)
  | some target =>
    match ← reg.deserialize msgType (← envelope.index "message") with
    | none => pure (rejectTo sender msgType ("Unknown message type: " ++ msgType) receiverName)
    | some msg => pure (.dispatch target msg sender)

/-- `ZmqReceiver::on_continue` on one frame, `none` when `recv` timed out or the frame does not
parse as JSON: both are dropped, and so is a frame on which `handle_remote_message` throws a
`nlohmann::json::exception`, which is caught. The result is `none` where the handler reads a
member that is not there, which is undefined. -/
def onContinue (reg : MessageRegistry) (z : ZmqReceiver) (frame : Option Json) : Option Routed :=
  if z.running then
    match frame with
    | none => some .nothing
    | some envelope =>
      match handleRemoteMessage reg z.registry envelope with
      | .ok r => some r
      | .error (.typeError _) => some .nothing
      | .error (.missingMember _) => none
  else some .nothing

/-! ## Well-formed envelopes -/

/-- The sender members of an envelope: a null `sender_actor`, or a string one with a string
`sender_endpoint`. -/
def SenderFields (envelope : Json) : Option (StdString × StdString) → Prop
  | none => envelope.index "sender_actor" = .ok .null
  | some (actor, endpoint) => envelope.index "sender_actor" = .ok (.str actor) ∧
      envelope.index "sender_endpoint" = .ok (.str endpoint)

/-- A well-formed envelope: a string `receiver` and `message_type`, a null or named sender, and a
`message` member. -/
structure WellFormed (envelope : Json) (receiver messageType : StdString)
    (sender : Option (StdString × StdString)) (payload : Json) : Prop where
  receiver : envelope.index "receiver" = .ok (.str receiver)
  messageType : envelope.index "message_type" = .ok (.str messageType)
  sender : SenderFields envelope sender
  message : envelope.index "message" = .ok payload

theorem readSender_of_fields {envelope : Json} :
    ∀ {sender : Option (StdString × StdString)}, SenderFields envelope sender → readSender envelope = .ok sender
  | none, (h : envelope.index "sender_actor" = .ok .null) => by
    simp only [readSender, h, Except.ok_bind]; rfl
  | some _, ⟨h1, h2⟩ => by simp only [readSender, h1, h2, Except.ok_bind]; rfl

/-- On a well-formed envelope, `handle_remote_message` rejects an unknown receiver without reading
the payload, and otherwise decodes the payload and dispatches it or rejects its type. -/
theorem handleRemoteMessage_of_wellFormed (reg : MessageRegistry) (registry : StdString → Option Nat)
    {envelope payload : Json} {r t : StdString} {sender : Option (StdString × StdString)}
    (h : WellFormed envelope r t sender payload) :
    handleRemoteMessage reg registry envelope =
      match registry r with
      | none => .ok (rejectTo sender t ("Actor \x27" ++ r ++ "\x27 not found") r)
      | some target => (reg.deserialize t payload).map fun
        | none => rejectTo sender t ("Unknown message type: " ++ t) r
        | some msg => .dispatch target msg sender := by
  simp only [handleRemoteMessage, h.receiver, h.messageType, readSender_of_fields h.sender,
    Except.ok_bind, Json.getString]
  cases registry r with
  | none => rfl
  | some target =>
    simp only [h.message, Except.ok_bind]
    cases reg.deserialize t payload with
    | error e => rfl
    | ok d => cases d <;> rfl

/-- `on_continue` of a running receiver on a well-formed envelope: a `Reject` for an unknown
receiver, and otherwise what decoding the payload gives. -/
theorem onContinue_of_wellFormed (reg : MessageRegistry) {z : ZmqReceiver} (hrun : z.running = true)
    {envelope payload : Json} {r t : StdString} {sender : Option (StdString × StdString)}
    (h : WellFormed envelope r t sender payload) :
    onContinue reg z (some envelope) =
      match z.registry r, reg.deserialize t payload with
      | none, _ => some (rejectTo sender t ("Actor \x27" ++ r ++ "\x27 not found") r)
      | some _, .ok none => some (rejectTo sender t ("Unknown message type: " ++ t) r)
      | some target, .ok (some msg) => some (.dispatch target msg sender)
      | some _, .error (.typeError _) => some .nothing
      | some _, .error (.missingMember _) => none := by
  rw [onContinue, if_pos hrun, handleRemoteMessage_of_wellFormed reg z.registry h]
  rcases z.registry r with _ | target
  · rfl
  · rcases reg.deserialize t payload with (_ | _) | (_ | _) <;> rfl

/-- On a well-formed envelope, when the receiver is unknown or the decoder does not throw,
`on_continue` does exactly one thing: it dispatches the decoded message to the registered
receiver; or, when either is missing, it sends a `Reject` naming the envelope's type and receiver
to a named sender; or nothing, to an anonymous one. -/
theorem onContinue_routes (reg : MessageRegistry) {z : ZmqReceiver} (hrun : z.running = true)
    {envelope payload : Json} {r t : StdString} {sender : Option (StdString × StdString)}
    (h : WellFormed envelope r t sender payload) {d : Option Msg}
    (hd : z.registry r ≠ none → reg.deserialize t payload = .ok d) :
    (∀ target msg, z.registry r = some target → d = some msg →
      onContinue reg z (some envelope) = some (.dispatch target msg sender)) ∧
    (z.registry r = none ∨ d = none → ∀ actor endpoint, sender = some (actor, endpoint) →
      ∃ reason, onContinue reg z (some envelope) = some (.reject endpoint actor (reject t reason r))) ∧
    (z.registry r = none ∨ d = none → sender = none → onContinue reg z (some envelope) = some .nothing) := by
  have hc := onContinue_of_wellFormed reg hrun h
  cases hr : z.registry r with
  | none =>
    rw [hr] at hc
    exact ⟨(fun _ _ h' => nomatch h'), (fun _ _ _ hs => ⟨_, by rw [hc, hs]; rfl⟩),
      (fun _ hs => by rw [hc, hs]; rfl)⟩
  | some target =>
    rw [hr, hd (by simp [hr])] at hc
    cases d with
    | none =>
      exact ⟨(fun _ _ _ h' => nomatch h'), (fun _ _ _ hs => ⟨_, by rw [hc, hs]; rfl⟩),
        (fun _ hs => by rw [hc, hs]; rfl)⟩
    | some msg =>
      refine ⟨fun _ _ ht hm => ?_, fun hn => ?_, fun hn => ?_⟩
      · cases ht; cases hm; exact hc
      all_goals simp at hn

/-! ## A message sent through `send_to` -/

/-- The envelope `on_send_request` builds for a named sender is well formed: it names the
receiver, the registered wire name, the sender and its endpoint, and carries the serialized
message. -/
theorem envelope_wellFormed (req : RemoteSendRequest) (h : req.senderName.empty = false) :
    WellFormed (envelope req) req.actorName req.messageType
      (some (req.senderName, req.senderEndpoint)) req.messageJson where
  receiver := by simp [envelope, h, Json.index, List.lookup_cons]
  messageType := by simp [envelope, h, Json.index, List.lookup_cons]
  sender := by simp [SenderFields, envelope, h, Json.index, List.lookup_cons]
  message := by simp [envelope, h, Json.index, List.lookup_cons]

/-- A message of a registered type with distinct field names, sent through `send_to` by a named
actor, to a running receiver whose process decodes the wire name with the same type. When every
string it carries is UTF-8 (its string fields, the sender's name and endpoint, the receiver name;
a wire name is an identifier), `send_to` queues a request for the endpoint, `on_send_request`
pushes its envelope, and the receiver dispatches exactly the message to the actor registered under
the receiver name, with the sender's name and the sending process's endpoint to reply to. When a
string field is not UTF-8, `send_to` throws `type_error` 316 instead. -/
theorem sendTo_delivers {regB regA : MessageRegistry} {τ : MessageType} {m : Msg}
    (hB : regB.idToEntry m.id = some τ.entry) (hA : regA.nameToEntry τ.name = some τ.entry)
    (hm : τ.Fits m) (hnd : (τ.fields.map Prod.fst).Nodup) {sender : StdString}
    (hs : sender.empty = false) (localEndpoint endpoint n : StdString) {z : ZmqReceiver}
    {target : Nat} (hrun : z.running = true) (ht : z.registry n = some target) :
    ((∀ v ∈ m.vals, v.isUtf8 = true) → sender.isUtf8 = true → localEndpoint.isUtf8 = true →
        n.isUtf8 = true → τ.name.isUtf8 = true →
      ∃ req frame, sendTo regB localEndpoint endpoint n m (some sender) = some (.ok req) ∧
        req.endpoint = endpoint ∧ onSendRequest req = some frame ∧
        onContinue regA z (some frame) = some (.dispatch target m (some (sender, localEndpoint)))) ∧
    ((∃ v ∈ m.vals, v.isUtf8 = false) →
      sendTo regB localEndpoint endpoint n m (some sender) = some (.error (.json (.typeError 316)))) := by
  have hname : regB.getTypeName m.id = τ.name := by simp [MessageRegistry.getTypeName, hB, MessageType.entry]
  have hser : regB.serialize m = .ok (τ.serialize m) := by
    simp [MessageRegistry.serialize, hB, MessageType.entry]
  have hd := τ.dumpable_serialize hm
  refine ⟨fun hv hsu hle hn hτ => ?_, fun hv => ?_⟩
  · rw [List.all_eq_true.2 hv] at hd
    let req : RemoteSendRequest := ⟨endpoint, n, sender, localEndpoint, τ.name, τ.serialize m⟩
    have he : (envelope req).dumpable = true := by
      simp [req, envelope, hs, hsu, hle, hn, hτ, hd]
    refine ⟨req, envelope req, ?_, rfl, if_pos he, ?_⟩
    · simp only [sendTo, hname, τ.name_ne, if_false, hser, hd, if_true, Option.getD_some,
        Option.isSome_some]
      rfl
    · have hdec : regA.deserialize τ.name (τ.serialize m) = .ok (some m) := by
        simp only [MessageRegistry.deserialize, hA, MessageType.entry]
        exact τ.deserialize_serialize hm hnd
      exact (onContinue_routes regA hrun (envelope_wellFormed req hs) fun _ => hdec).1 target m ht rfl
  · have hf : m.vals.all Value.isUtf8 = false := by simpa [List.all_eq_false] using hv
    rw [hf] at hd
    simp only [sendTo, hname, τ.name_ne, if_false, hser, hd]
    rfl

/-! ## A payload the decoder rejects -/

/-- The messages the remote examples register, with `Reject`. -/
def exampleRegistry : MessageRegistry := registerAll [rejectType, pingType, pongType] .empty

/-- The receiver of `examples/remote_pong.cpp`, started, with `pong` registered as actor 1. -/
def pongReceiver : ZmqReceiver := (ZmqReceiver.create.registerActor "pong" 1).onStart

/-- A `Ping` for `pong` from the named actor `ping`, whose `count` is a string. -/
def stringCountPing : Json :=
  .obj [("sender_actor", .str "ping"), ("sender_endpoint", .str "tcp://localhost:5002"),
    ("receiver", .str "pong"), ("message_type", .str "Ping"), ("message", .obj [("count", .str "x")])]

/-- The envelope is well formed, names a sender, a registered receiver and a registered type, and
the registered decoder throws on its payload; `on_continue` then drops the frame and sends no
`Reject`. -/
theorem undecodable_payload_unrejected :
    WellFormed stringCountPing "pong" "Ping" (some ("ping", "tcp://localhost:5002"))
      (.obj [("count", .str "x")]) ∧
    pongReceiver.registry "pong" = some 1 ∧ exampleRegistry.isRegistered "Ping" = true ∧
    exampleRegistry.deserialize "Ping" (.obj [("count", .str "x")]) = .error (.typeError 302) ∧
    onContinue exampleRegistry pongReceiver (some stringCountPing) = some .nothing :=
  ⟨⟨rfl, rfl, ⟨rfl, rfl⟩, rfl⟩, rfl, rfl, rfl, rfl⟩

/-- A `Ping` of count 1 for `pong` from the named actor `ping`. -/
def countPing : Json :=
  .obj [("sender_actor", .str "ping"), ("sender_endpoint", .str "tcp://localhost:5002"),
    ("receiver", .str "pong"), ("message_type", .str "Ping"), ("message", .obj [("count", .num 1)])]

theorem onContinue_routes_ping :
    pongReceiver.running = true ∧
    WellFormed countPing "pong" "Ping" (some ("ping", "tcp://localhost:5002")) (.obj [("count", .num 1)]) ∧
    (pongReceiver.registry "pong" ≠ none →
      exampleRegistry.deserialize "Ping" (.obj [("count", .num 1)]) = .ok (some ⟨100, [.int 1]⟩)) ∧
    ((∀ target msg, pongReceiver.registry "pong" = some target → some ⟨100, [.int 1]⟩ = some msg →
        onContinue exampleRegistry pongReceiver (some countPing) =
          some (.dispatch target msg (some ("ping", "tcp://localhost:5002")))) ∧
      (pongReceiver.registry "pong" = none ∨ some ⟨100, [.int 1]⟩ = (none : Option Msg) →
        ∀ actor endpoint : StdString,
          some (StdString.ofString "ping", StdString.ofString "tcp://localhost:5002") = some (actor, endpoint) →
          ∃ reason, onContinue exampleRegistry pongReceiver (some countPing) =
            some (.reject endpoint actor (reject "Ping" reason "pong"))) ∧
      (pongReceiver.registry "pong" = none ∨ some ⟨100, [.int 1]⟩ = (none : Option Msg) →
        some (StdString.ofString "ping", StdString.ofString "tcp://localhost:5002") = none →
          onContinue exampleRegistry pongReceiver (some countPing) = some .nothing)) :=
  have hw : WellFormed countPing "pong" "Ping" (some ("ping", "tcp://localhost:5002"))
      (.obj [("count", .num 1)]) := ⟨rfl, rfl, ⟨rfl, rfl⟩, rfl⟩
  have hd : pongReceiver.registry "pong" ≠ none →
      exampleRegistry.deserialize "Ping" (.obj [("count", .num 1)]) = .ok (some ⟨100, [.int 1]⟩) :=
    fun _ => rfl
  ⟨rfl, hw, hd, onContinue_routes exampleRegistry rfl hw hd⟩

theorem sendTo_delivers_ping :
    exampleRegistry.idToEntry 100 = some pingType.entry ∧
    exampleRegistry.nameToEntry pingType.name = some pingType.entry ∧
    pingType.Fits ⟨100, [.int 3]⟩ ∧ (pingType.fields.map Prod.fst).Nodup ∧
    (StdString.ofString "ping").empty = false ∧
    pongReceiver.running = true ∧ pongReceiver.registry "pong" = some 1 ∧
    (((∀ v ∈ [Value.int 3], v.isUtf8 = true) → (StdString.ofString "ping").isUtf8 = true →
        (StdString.ofString "tcp://localhost:5002").isUtf8 = true →
        (StdString.ofString "pong").isUtf8 = true → pingType.name.isUtf8 = true →
      ∃ req frame, sendTo exampleRegistry "tcp://localhost:5002" "tcp://localhost:5001" "pong"
          ⟨100, [.int 3]⟩ (some "ping") = some (.ok req) ∧ req.endpoint = "tcp://localhost:5001" ∧
        onSendRequest req = some frame ∧
        onContinue exampleRegistry pongReceiver (some frame) =
          some (.dispatch 1 ⟨100, [.int 3]⟩ (some ("ping", "tcp://localhost:5002")))) ∧
    ((∃ v ∈ [Value.int 3], v.isUtf8 = false) →
      sendTo exampleRegistry "tcp://localhost:5002" "tcp://localhost:5001" "pong" ⟨100, [.int 3]⟩
        (some "ping") = some (.error (.json (.typeError 316))))) :=
  have hB : exampleRegistry.idToEntry 100 = some pingType.entry := rfl
  have hA : exampleRegistry.nameToEntry pingType.name = some pingType.entry := rfl
  have hm : pingType.Fits ⟨100, [.int 3]⟩ := ⟨rfl, rfl⟩
  have hnd : (pingType.fields.map Prod.fst).Nodup := by decide
  have hs : (StdString.ofString "ping").empty = false := by decide
  ⟨hB, hA, hm, hnd, hs, rfl, rfl,
    sendTo_delivers hB hA hm hnd hs "tcp://localhost:5002" "tcp://localhost:5001" "pong" rfl rfl⟩

/-- A `Reject` whose reason holds the byte 0xFF: `send_to` throws `type_error` 316. -/
example : sendTo exampleRegistry "tcp://localhost:5002" "tcp://localhost:5001" "ping"
    (reject "Ping" ⟨[0xFF]⟩ "pong") none = some (.error (.json (.typeError 316))) :=
  rfl

end Actors
