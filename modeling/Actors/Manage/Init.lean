/-
The first loop of `Manager::init` (`src/src/Manager.cpp`): `actor->fast_send(new msg::Start(),
nullptr)` to each managed actor in turn, on the calling thread, before any worker runs; on a
Group this runs `start_handler` (`src/src/Group.cpp`), which `fast_send`s a Start to each member
in turn with the Group as sender. When each Start handler returns at once, this completes from the
initial state for every topology whose managed Groups have members and no Group among them:
every managed actor and every member of a managed Group gets exactly as many Starts as it occurs
among them (so one each, as `Manager::manage` keeps them distinct), every mutex is free again, and
no mailbox is touched.
-/
import Actors.Runtime.Calls

namespace Actors

variable {T : Topology}

/-- The steps of `actor->fast_send(new msg, nullptr)` of a Start or a Shutdown (identity `id`) on
thread `t`, the new message being `n`, when every handler it reaches returns at once: on a Group,
the fan-out of `start_handler` or `shutdown_handler` to each member and its end, before the
return. -/
def fastSendSteps (T : Topology) (t : ThreadId) (id : Int) (n a : Nat) : List Action :=
  .alloc t id :: .fastSend t a n none ::
    if T.isGroup a then (T.members a).flatMap (fun _ => [.group t, .ret t]) ++ [.group t, .ret t]
    else [.ret t]

/-- The steps of `actor->fast_send(new msg::Start(), nullptr)` on thread `t`. -/
def startSteps (T : Topology) (t : ThreadId) (n a : Nat) : List Action :=
  fastSendSteps T t startId n a

/-- The first loop of `Manager::init` on thread `t`: the start of each managed actor in turn. -/
def initStarts (T : Topology) (t : ThreadId) : State → List Nat → Option State
  | s, [] => some s
  | s, a :: as => (run T s (startSteps T t s.nextUid a)).bind (initStarts T t · as)

/-- The actors the first loop of `Manager::init` hands a Start to: each managed actor, and after a
Group the members it fans out to. -/
def startedBy (T : Topology) (as : List Nat) : List Nat :=
  as.flatMap fun a => a :: if T.isGroup a then T.members a else []

/-- What `Manager::init` asks of a managed actor for its start to complete: a Group has members,
none of them a Group or the Group itself. -/
def StartsCleanly (T : Topology) (a : Nat) : Prop :=
  T.isGroup a = true → T.members a ≠ [] ∧ ∀ x ∈ T.members a, T.isGroup x = false ∧ x ≠ a

instance (T : Topology) (a : Nat) : Decidable (StartsCleanly T a) :=
  inferInstanceAs (Decidable (_ → _))

theorem initStarts_reachable {t : ThreadId} :
    ∀ (as : List Nat) {s s' : State}, Reachable T s → initStarts T t s as = some s' → Reachable T s'
  | [], _, _, hs, h => by cases h; exact hs
  | a :: as, s, s', hs, h => by
    simp only [initStarts, Option.bind_eq_some] at h
    obtain ⟨s₁, h1, h2⟩ := h
    exact initStarts_reachable as (reachable_run hs _ h1) h2

/-- A Start or a Shutdown `fast_send` from application code to a managed actor that, with the
members it fans out to, is live with its mutex free. -/
theorem fastSend_run {s : State} {t : ThreadId} {id : Int} {a : Nat}
    (hid : id = startId ∨ id = shutdownId) (hu : s.userCode t = true) (ha : StartsCleanly T a)
    (hfree : ∀ x ∈ a :: (if T.isGroup a then T.members a else []),
      s.lock x = none ∧ s.terminated x = false) :
    ∃ s', run T s (fastSendSteps T t id s.nextUid a) = some s' ∧ s'.stack t = s.stack t ∧
      Counted s s' (a :: if T.isGroup a then T.members a else []) := by
  have h0 : Counted s (s.alloc t id) [] := Counted.of_eq rfl rfl rfl rfl rfl
  have hm : (s.alloc t id).heap s.nextUid = some (Message.fresh id) := by simp [State.alloc]
  have hpre : ∀ {s₁ : State} (rest : List Action),
      (s.alloc t id).fastSend T t a s.nextUid none = some s₁ →
      run T s (.alloc t id :: .fastSend t a s.nextUid none :: rest) = run T s₁ rest := by
    intro s₁ rest h1
    have hu' : (s.alloc t id).userCode t = true := hu
    have ho : (s.alloc t id).owner s.nextUid = some t := by simp [State.alloc]
    simp [run, step, hu, hu', ho, h1]
  obtain ⟨hla, hta⟩ := hfree a (List.mem_cons_self _ _)
  cases hg : T.isGroup a
  · obtain ⟨s₁, s₂, h1, h2, hst, hc⟩ :=
      State.fastSend_ret_leaf t hm hla hta (by simp : (none : Option Nat) ≠ some a) hg
    refine ⟨s₂, ?_, hst, by simpa [hg] using h0.trans hc⟩
    simp only [fastSendSteps, hg, Bool.false_eq_true, ite_false, hpre _ h1]
    simp [run, step, h2]
  · obtain ⟨hne, hleaf⟩ := ha hg
    obtain ⟨s₁, s₂, h1, h2, hst, hc⟩ := State.fastSend_ret_group t hm hid hg hne hleaf
      fun x hx => hfree x (by simpa [hg] using hx)
    refine ⟨s₂, ?_, hst, by simpa [hg] using h0.trans hc⟩
    simp only [fastSendSteps, hg, ite_true, hpre _ h1]
    exact h2

/-- The whole first loop, from a quiet state on a thread other than a worker, outside any
handler. -/
theorem initStarts_run {n : Nat} :
    ∀ (as : List Nat) {s : State}, Quiet s → s.stack (.other n) = [] →
      (∀ a ∈ as, StartsCleanly T a) → ∃ s', initStarts T (.other n) s as = some s' ∧ s'.stack (.other n) = [] ∧
        Counted s s' (startedBy T as)
  | [], s, _, hs, _ => ⟨s, rfl, hs, Counted.refl s⟩
  | a :: as, s, hq, hs, ha => by
    obtain ⟨s₁, h1, hs₁, hc₁⟩ := fastSend_run (.inl rfl)
      (show s.userCode (.other n) = true by simp [State.userCode, hs])
      (ha a (List.mem_cons_self _ _)) fun x _ => ⟨hq.free x, hq.live x⟩
    obtain ⟨s₂, h2, hs₂, hc₂⟩ :=
      initStarts_run as (hc₁.quiet hq) (hs₁.trans hs) fun x hx => ha x (List.mem_cons_of_mem _ hx)
    refine ⟨s₂, by simp [initStarts, startSteps, h1, h2], hs₂, ?_⟩
    simpa [startedBy] using hc₁.trans hc₂

example : startedBy groupTopology [0, 3] = [0, 1, 2, 3] := rfl

end Actors
