/-
Processes that talk through ZeroMQ (`src/include/actors/remote/ZmqSender.hpp`, `ZmqReceiver.hpp`),
over every interleaving of their threads. A handler's `send_to` queues a request in its process's
`ZmqSender` mailbox; the `ZmqSender`'s worker takes the requests in order (`on_send_request`) and
pushes each envelope to its endpoint's socket; the receiver bound there takes the frames in order
(`on_continue`), and a `Reject` it answers with is queued through its own process's `ZmqSender`.
The wires are ZeroMQ PUSH/PULL connections, taken lossless and in order. Then, at every moment, the
frames an endpoint has handled from one process are a prefix of the envelopes of what that process
sent there, in order: nothing ahead of them is lost, and none is duplicated or reordered.

A `ZmqSender`'s mailbox is an actor mailbox like any other: `send_to` ends with
`this->Actor::send(req, nullptr)` into its `BQueue`, and its worker pops in order. The outbox here
is that mailbox as the list it refines (`bqueue_refines_fifo`), with pushes at the end and the
worker's turns at the head, as `mailbox_delivery` shows of every mailbox of the local runtime.
-/
import Actors.Remote.Zmq

namespace Actors

/-- A process: its message registry (its static initializers), its `ZmqSender`'s
`local_endpoint_`, and its receiver. -/
structure Process where
  registry : MessageRegistry
  localEndpoint : StdString
  receiver : ZmqReceiver

/-- The processes, numbered, and the process whose receiver is bound at each endpoint as a
`ZmqSender` connects to it. -/
structure Cluster where
  proc : Nat → Process
  boundAt : StdString → Option Nat

/-- The network: each process's `ZmqSender` mailbox of requests, and each endpoint's wire of frames,
each tagged with the process that pushed it. Ghost: the requests each process queued and those its
`ZmqSender` has sent, and per endpoint the frames its receiver handled, with their sender process
and what `on_continue` did. -/
structure Net where
  outbox : Nat → List RemoteSendRequest
  wire : StdString → List (Nat × Json)
  sent : Nat → List RemoteSendRequest
  flushed : Nat → List RemoteSendRequest
  handled : StdString → List (Nat × Json × Routed)

/-- The atomic steps: a handler of process `p` calls `send_to`; `p`'s `ZmqSender` worker runs
`on_send_request` on its oldest request; the receiver bound at `e` runs `on_continue` on the
oldest frame there. -/
inductive NetAction where
  | sendTo (p : Nat) (endpoint actorName : StdString) (msg : Msg) (sender : Option StdString)
  | flush (p : Nat)
  | recv (e : StdString)

namespace Net

/-- Nothing queued, nothing on the wires. -/
def initial : Net := ⟨fun _ => [], fun _ => [], fun _ => [], fun _ => [], fun _ => []⟩

/-- `this->Actor::send(req, nullptr)` at the end of process `p`'s `send_to`. -/
def queue (N : Net) (p : Nat) (req : RemoteSendRequest) : Net :=
  { N with outbox := Function.update N.outbox p (N.outbox p ++ [req])
           sent := Function.update N.sent p (N.sent p ++ [req]) }

/-- `on_send_request` on process `p`'s oldest request: `send_raw` of the frame to its endpoint. -/
def flushOne (N : Net) (p : Nat) (req : RemoteSendRequest) (frame : Json)
    (rest : List RemoteSendRequest) : Net :=
  { N with outbox := Function.update N.outbox p rest
           flushed := Function.update N.flushed p (N.flushed p ++ [req])
           wire := Function.update N.wire req.endpoint (N.wire req.endpoint ++ [(p, frame)]) }

/-- The receiver at `e` takes the oldest frame, pushed by `p`, and does `r` with it. -/
def take (N : Net) (e : StdString) (p : Nat) (frame : Json) (rest : List (Nat × Json)) (r : Routed) :
    Net :=
  { N with wire := Function.update N.wire e rest
           handled := Function.update N.handled e (N.handled e ++ [(p, frame, r)]) }

/-- One step; `none` where it cannot be taken: an empty mailbox or wire, an exception that escapes
`send_to` into the `noexcept` handler that called it, a `dump()` that throws in `on_send_request`,
or undefined behaviour. -/
def step (C : Cluster) (N : Net) : NetAction → Option Net
  | .sendTo p endpoint actorName msg sender =>
    match Actors.sendTo (C.proc p).registry (C.proc p).localEndpoint endpoint actorName msg sender with
    | some (.ok req) => some (N.queue p req)
    | _ => none
  | .flush p =>
    match N.outbox p with
    | req :: rest =>
      match onSendRequest req with
      | some frame => some (N.flushOne p req frame rest)
      | none => none
    | [] => none
  | .recv e =>
    match C.boundAt e, N.wire e with
    | some q, (p, frame) :: rest =>
      match onContinue (C.proc q).registry (C.proc q).receiver (some frame) with
      | some (.reject endpoint actor msg) =>
        match Actors.sendTo (C.proc q).registry (C.proc q).localEndpoint endpoint actor msg none with
        | some (.ok req) => some ((N.take e p frame rest (.reject endpoint actor msg)).queue q req)
        | _ => none
      | some r => some (N.take e p frame rest r)
      | none => none
    | _, _ => none

/-- Runs steps in order; `none` as soon as one cannot be taken. -/
def run (C : Cluster) : Net → List NetAction → Option Net
  | N, [] => some N
  | N, a :: as => match step C N a with
    | none => none
    | some N' => run C N' as

end Net

/-- The networks some interleaving of steps reaches from the start. -/
inductive NetReachable (C : Cluster) : Net → Prop where
  | initial : NetReachable C Net.initial
  | step {N N' : Net} (a : NetAction) : NetReachable C N → Net.step C N a = some N' → NetReachable C N'

theorem NetReachable.of_run {C : Cluster} {N : Net} (hN : NetReachable C N) :
    ∀ (acts : List NetAction) {N' : Net}, Net.run C N acts = some N' → NetReachable C N'
  | [], _, h => by cases h; exact hN
  | a :: as, N', h => by
    simp only [Net.run] at h
    split at h
    · cases h
    · exact NetReachable.of_run (.step a hN ‹_›) as h

/-! ## Per-sender order -/

/-- The frames process `p` pushed, among tagged frames. -/
def framesFrom (p : Nat) (l : List (Nat × Json)) : List Json := (l.filter (·.1 == p)).map (·.2)

/-- The frames from process `p` among handled ones. -/
def handledFrom (p : Nat) (l : List (Nat × Json × Routed)) : List Json :=
  (l.filter (·.1 == p)).map (·.2.1)

/-- The envelopes of the requests for endpoint `e`. -/
def envelopesTo (e : StdString) (l : List RemoteSendRequest) : List Json :=
  (l.filter (·.endpoint == e)).map envelope

@[simp] theorem framesFrom_append (p : Nat) (l l' : List (Nat × Json)) :
    framesFrom p (l ++ l') = framesFrom p l ++ framesFrom p l' := by
  simp [framesFrom, List.filter_append]

@[simp] theorem handledFrom_append (p : Nat) (l l' : List (Nat × Json × Routed)) :
    handledFrom p (l ++ l') = handledFrom p l ++ handledFrom p l' := by
  simp [handledFrom, List.filter_append]

@[simp] theorem envelopesTo_append (e : StdString) (l l' : List RemoteSendRequest) :
    envelopesTo e (l ++ l') = envelopesTo e l ++ envelopesTo e l' := by
  simp [envelopesTo, List.filter_append]

@[simp] theorem framesFrom_singleton (p p' : Nat) (j : Json) :
    framesFrom p [(p', j)] = if p' = p then [j] else [] := by
  by_cases h : p' = p <;> simp [framesFrom, h]

@[simp] theorem envelopesTo_singleton (e : StdString) (req : RemoteSendRequest) :
    envelopesTo e [req] = if req.endpoint = e then [envelope req] else [] := by
  by_cases h : req.endpoint = e <;> simp [envelopesTo, h]

/-- What every reachable network satisfies: each process's sent requests are those its
`ZmqSender` has sent, then those it still holds; per process and endpoint, the frames handled
then those on the wire are the envelopes of what the process sent there, in order; and each
handled frame was handled as the receiver bound there handles it. -/
structure Net.Inv (C : Cluster) (N : Net) : Prop where
  outbox : ∀ p, N.sent p = N.flushed p ++ N.outbox p
  fifo : ∀ p e, handledFrom p (N.handled e) ++ framesFrom p (N.wire e) = envelopesTo e (N.flushed p)
  routed : ∀ e x, x ∈ N.handled e → ∃ q, C.boundAt e = some q ∧
    onContinue (C.proc q).registry (C.proc q).receiver (some x.2.1) = some x.2.2

namespace Net.Inv

variable {C : Cluster} {N : Net}

theorem initial : Net.Inv C Net.initial :=
  ⟨fun _ => rfl, fun _ _ => rfl, fun _ _ h => nomatch h⟩

theorem queue (hi : Net.Inv C N) (p : Nat) (req : RemoteSendRequest) : Net.Inv C (N.queue p req) where
  outbox p' := by
    by_cases hp : p' = p
    · subst hp; simp [Net.queue, hi.outbox p']
    · simp [Net.queue, Function.update_noteq hp, hi.outbox p']
  fifo := hi.fifo
  routed := hi.routed

theorem flushOne (hi : Net.Inv C N) {p : Nat} {req : RemoteSendRequest} {rest : List RemoteSendRequest}
    (ho : N.outbox p = req :: rest) : Net.Inv C (N.flushOne p req (envelope req) rest) where
  outbox p' := by
    by_cases hp : p' = p
    · subst hp; simp [Net.flushOne, hi.outbox p', ho]
    · simp [Net.flushOne, Function.update_noteq hp, hi.outbox p']
  fifo p' e := by
    have h := hi.fifo p' e
    simp only [Net.flushOne, Function.update_apply]
    by_cases he : e = req.endpoint <;> by_cases hp : p' = p
    · subst he hp; simp [← h]
    · subst he; simp [hp, h, Ne.symm hp]
    · subst hp; simp [he, h, Ne.symm he]
    · simp [he, hp, h]
  routed := hi.routed

theorem take (hi : Net.Inv C N) {e : StdString} {p q : Nat} {frame : Json} {rest : List (Nat × Json)}
    {r : Routed} (hw : N.wire e = (p, frame) :: rest) (hq : C.boundAt e = some q)
    (hr : onContinue (C.proc q).registry (C.proc q).receiver (some frame) = some r) :
    Net.Inv C (N.take e p frame rest r) where
  outbox := hi.outbox
  fifo p' e' := by
    have h := hi.fifo p' e'
    simp only [Net.take, Function.update_apply]
    by_cases he : e' = e
    · subst he
      rw [hw] at h
      by_cases hp : p = p' <;> simp [hp, handledFrom, framesFrom] at h ⊢ <;> exact h
    · simp [he, h]
  routed e' x hx := by
    simp only [Net.take, Function.update_apply] at hx
    split_ifs at hx with he
    · subst he
      rcases List.mem_append.1 hx with hx | hx
      · exact hi.routed e' x hx
      · rw [List.mem_singleton.1 hx]; exact ⟨q, hq, hr⟩
    · exact hi.routed e' x hx

/-- Every step keeps the invariant. -/
theorem step (hi : Net.Inv C N) {a : NetAction} {N' : Net} (h : Net.step C N a = some N') :
    Net.Inv C N' := by
  cases a with
  | sendTo p endpoint actorName msg sender =>
    simp only [Net.step] at h
    split at h
    · cases h; exact hi.queue p _
    · cases h
  | flush p =>
    simp only [Net.step] at h
    split at h
    · rename_i req rest ho
      split at h
      · rename_i frame hf
        cases h
        rw [frame_of_onSendRequest hf]
        exact hi.flushOne ho
      · cases h
    · cases h
  | recv e =>
    simp only [Net.step] at h
    split at h
    · rename_i q p frame rest hq hw
      split at h
      · rename_i hr
        split at h
        · cases h; exact (hi.take hw hq hr).queue q _
        · cases h
      · cases h; exact hi.take hw hq ‹_›
      · cases h
    · cases h

end Net.Inv

theorem NetReachable.inv {C : Cluster} {N : Net} (h : NetReachable C N) : Net.Inv C N := by
  induction h with
  | initial => exact Net.Inv.initial
  | step _ _ hstep ih => exact ih.step hstep

/-- Over every interleaving of `send_to`, `on_send_request` and `on_continue` in any number of
processes, with lossless in-order wires: the frames the receiver at an endpoint has handled from a
process are a prefix of the envelopes of the requests that process queued for that endpoint, in
order, each handled once; and each was handled as `on_continue` of the receiver bound there
handles that envelope. -/
theorem net_delivers_in_order {C : Cluster} {N : Net} (h : NetReachable C N) (p : Nat) (e : StdString) :
    handledFrom p (N.handled e) <+: envelopesTo e (N.sent p) ∧
    ∀ x ∈ N.handled e, ∃ q, C.boundAt e = some q ∧
      onContinue (C.proc q).registry (C.proc q).receiver (some x.2.1) = some x.2.2 := by
  have hi := h.inv
  have h1 : handledFrom p (N.handled e) <+: envelopesTo e (N.flushed p) :=
    hi.fifo p e ▸ List.prefix_append _ _
  have h2 : envelopesTo e (N.flushed p) <+: envelopesTo e (N.sent p) := by
    rw [hi.outbox p, envelopesTo_append]; exact List.prefix_append _ _
  exact ⟨h1.trans h2, hi.routed e⟩

/-- The receiver of `examples/remote_ping.cpp`, started, with `ping` registered as actor 1. -/
def pingReceiver : ZmqReceiver := (ZmqReceiver.create.registerActor "ping" 1).onStart

/-- The ping process 0 and the pong process 1 of the remote examples, bound at ports 5002 and
5001. -/
def pingPongCluster : Cluster where
  proc p := if p = 0 then ⟨exampleRegistry, "tcp://localhost:5002", pingReceiver⟩
    else ⟨exampleRegistry, "tcp://localhost:5001", pongReceiver⟩
  boundAt e := if e = "tcp://localhost:5001" then some 1
    else if e = "tcp://localhost:5002" then some 0 else none

/-- `PingActor::on_start` sends `Ping(1)` to the remote `pong`, the ping process's `ZmqSender`
pushes it, and the pong process's receiver handles it. -/
def pingRun : List NetAction :=
  [.sendTo 0 "tcp://localhost:5001" "pong" ⟨100, [.int 1]⟩ (some "ping"), .flush 0,
   .recv "tcp://localhost:5001"]

/-- The network `pingRun` reaches. -/
def pingNet : Net := (Net.run pingPongCluster Net.initial pingRun).getD Net.initial

theorem net_delivers_in_order_ping :
    NetReachable pingPongCluster pingNet ∧
    (handledFrom 0 (pingNet.handled "tcp://localhost:5001") <+:
        envelopesTo "tcp://localhost:5001" (pingNet.sent 0) ∧
      ∀ x ∈ pingNet.handled "tcp://localhost:5001", ∃ q,
        pingPongCluster.boundAt "tcp://localhost:5001" = some q ∧
        onContinue (pingPongCluster.proc q).registry (pingPongCluster.proc q).receiver (some x.2.1) =
          some x.2.2) :=
  have h : NetReachable pingPongCluster pingNet := NetReachable.of_run .initial pingRun rfl
  ⟨h, net_delivers_in_order h 0 "tcp://localhost:5001"⟩

/-- The pong process dispatched the `Ping` to `pong`, with the ping actor's endpoint to reply to. -/
example : (pingNet.handled "tcp://localhost:5001").map (·.2.2) =
    [.dispatch 1 ⟨100, [.int 1]⟩ (some ("ping", "tcp://localhost:5002"))] := by decide

end Actors
