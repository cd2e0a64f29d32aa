/-
Synchronous calls whose handlers return at once. `Actor::fast_send` on a live actor whose mutex is
free calls the handler, and the handler's return releases the mutex again; a Group's
`start_handler` and `shutdown_handler` make one such call per member. `Counted` records what a run
of such calls leaves: the mutexes and `terminated` as they were, the mailboxes untouched, and
`msg_cnt` counted once per call.
-/
import Actors.Runtime.Delivery

namespace Actors

variable {T : Topology}

/-- No thread holds an actor's mutex and no actor is terminated. -/
structure Quiet (s : State) : Prop where
  free : ∀ x, s.lock x = none
  live : ∀ x, s.terminated x = false

/-- What a run of synchronous calls to the actors of `l` leaves behind it: the mutexes as they
were, no actor newly terminated, the mailboxes and the worker loops untouched, and `msg_cnt`
counted once per call. -/
structure Counted (s s' : State) (l : List Nat) : Prop where
  lock : s'.lock = s.lock
  terminated : s'.terminated = s.terminated
  msgq : s'.msgq = s.msgq
  loop : s'.loop = s.loop
  msgCnt : ∀ x, s'.msgCnt x = s.msgCnt x + l.count x

theorem Counted.refl (s : State) : Counted s s [] := ⟨rfl, rfl, rfl, rfl, fun _ => rfl⟩

/-- A step that writes none of the five fields counts nothing. -/
theorem Counted.of_eq {s s' : State} (h₁ : s'.lock = s.lock) (h₂ : s'.terminated = s.terminated)
    (h₃ : s'.msgq = s.msgq) (h₄ : s'.loop = s.loop) (h₅ : s'.msgCnt = s.msgCnt) :
    Counted s s' [] :=
  ⟨h₁, h₂, h₃, h₄, fun x => by rw [h₅]; rfl⟩

theorem Counted.trans {s₁ s₂ s₃ : State} {l₁ l₂ : List Nat} (h₁ : Counted s₁ s₂ l₁)
    (h₂ : Counted s₂ s₃ l₂) : Counted s₁ s₃ (l₁ ++ l₂) :=
  ⟨h₂.lock.trans h₁.lock, h₂.terminated.trans h₁.terminated, h₂.msgq.trans h₁.msgq,
    h₂.loop.trans h₁.loop, fun x => by rw [h₂.msgCnt, h₁.msgCnt, List.count_append]; omega⟩

theorem Counted.quiet {s s' : State} {l : List Nat} (hq : Quiet s) (h : Counted s s' l) : Quiet s' :=
  ⟨fun x => h.lock ▸ hq.free x, fun x => h.terminated ▸ hq.live x⟩

namespace State

/-- `r->fast_send(m, snd)` on a live actor whose mutex is free calls its handler. -/
theorem fastSend_of_free {s : State} {t : ThreadId} {r m : Nat} {snd : Option Nat} {msg : Message}
    (hm : s.heap m = some msg) (hl : s.lock r = none) (ht : s.terminated r = false)
    (hsnd : snd ≠ some r) :
    s.fastSend T t r m snd = some ((s.stampFast r m snd msg).call T t r m
      { msg with sender := snd, isFast := true, last := true } .fast) := by
  simp [fastSend, hm, hl, ht, beq_false_of_ne hsnd]

/-- A `fast_send` invocation whose handler has finished returns, releasing the mutex. -/
theorem ret_of_fast {s : State} {t : ThreadId} {f : Frame} {rest : List Frame}
    (hs : s.stack t = f :: rest) (hmode : f.mode = .fast) (hpc : f.pc = .user ∨ f.pc = .done) :
    s.ret t =
      some { s.unlock t f rest with result := Function.update s.result t (s.replyMessage f.actor) } := by
  simp [ret, hs, hmode, hpc]

/-- A whole synchronous call: after `fast_send`, a run of the handler that counts `l` and ends
where the handler returns, then the return, which releases the mutex. -/
theorem fastSend_bracket {s s₂ : State} {t : ThreadId} {r m : Nat} {snd : Option Nat}
    {msg : Message} {l : List Nat} {p : Pc} (hl : s.lock r = none)
    (hc : Counted ((s.stampFast r m snd msg).call T t r m
      { msg with sender := snd, isFast := true, last := true } .fast) s₂ l)
    (hs : s₂.stack t = ⟨r, m, .fast, p, none⟩ :: s.stack t) (hp : p = .user ∨ p = .done) :
    ∃ s₃, s₂.ret t = some s₃ ∧ s₃.stack t = s.stack t ∧ Counted s s₃ (r :: l) := by
  refine ⟨_, ret_of_fast hs rfl hp, by simp [unlock],
    ⟨?_, hc.terminated, hc.msgq, hc.loop, fun x => ?_⟩⟩
  · simp only [unlock, hc.lock, call, stampFast, Function.update_idem]
    exact Function.update_eq_self_iff.2 hl.symm
  · show s₂.msgCnt x = _
    rw [hc.msgCnt, List.count_cons]
    by_cases hx : x = r
    · subst hx; simp [call, stampFast]; omega
    · simp [call, stampFast, hx, Ne.symm hx]

/-- `r->fast_send(m, snd)` on an application actor whose handler returns at once. -/
theorem fastSend_ret_leaf {s : State} (t : ThreadId) {r m : Nat} {snd : Option Nat}
    {msg : Message} (hm : s.heap m = some msg) (hl : s.lock r = none)
    (ht : s.terminated r = false) (hsnd : snd ≠ some r) (hr : T.isGroup r = false) :
    ∃ s₁ s₂, s.fastSend T t r m snd = some s₁ ∧ s₁.ret t = some s₂ ∧ s₂.stack t = s.stack t ∧
      Counted s s₂ [r] := by
  have hs : ((s.stampFast r m snd msg).call T t r m
      { msg with sender := snd, isFast := true, last := true } .fast).stack t =
      ⟨r, m, .fast, .user, none⟩ :: s.stack t := by
    simp [call, stampFast, Topology.entryPc, hr]
  obtain ⟨s₂, h2, hst, hc⟩ := fastSend_bracket hl (Counted.refl _) hs (.inl rfl)
  exact ⟨_, s₂, fastSend_of_free hm hl ht hsnd, h2, hst, hc⟩

/-- The fan-out of `start_handler` or `shutdown_handler` over the members still to be reached,
each a live application actor, not the Group, with its mutex free and a handler that returns at
once: a `group` step and a return per member. -/
theorem fanOut_run (t : ThreadId) {g : Nat} {id : Int} {rest : List Frame} :
    ∀ (todo : List Nat) {s : State} {f : Frame}, s.stack t = f :: rest → f.actor = g →
      f.pc = .fanOut id todo →
      (∀ x ∈ todo, T.isGroup x = false ∧ x ≠ g ∧ s.lock x = none ∧ s.terminated x = false) →
      ∃ s', run T s (todo.flatMap fun _ => [.group t, .ret t]) = some s' ∧
        s'.stack t = { f with pc := .fanOut id [] } :: rest ∧ Counted s s' todo
  | [], s, f, hs, _, hpc, _ => by
    have hf : ({ f with pc := .fanOut id [] } : Frame) = f := by rw [← hpc]
    exact ⟨s, rfl, by rw [hf, hs], Counted.refl s⟩
  | a :: todo, s, f, hs, hfa, hpc, hleaf => by
    obtain ⟨ha, hag, hla, hta⟩ := hleaf a (List.mem_cons_self _ _)
    have hm : ((s.setPc t f rest (.fanOut id todo)).alloc t id).heap s.nextUid =
        some (Message.fresh id) := by
      simp [alloc, setPc]
    have hsnd : some f.actor ≠ some a := by rw [hfa]; exact fun h => hag (Option.some.inj h).symm
    obtain ⟨s₁, s₂, h1, h2, hst, hc⟩ := fastSend_ret_leaf t hm hla hta hsnd ha
    have h0 : Counted s ((s.setPc t f rest (.fanOut id todo)).alloc t id) [] :=
      Counted.of_eq rfl rfl rfl rfl rfl
    have hs₂ : s₂.stack t = { f with pc := .fanOut id todo } :: rest := by
      simp [hst, alloc, setPc]
    obtain ⟨s', h3, hst', hc'⟩ := fanOut_run t todo hs₂ hfa rfl fun x hx => by
      rw [hc.lock, hc.terminated]; exact hleaf x (List.mem_cons_of_mem _ hx)
    refine ⟨s', ?_, by rw [hst'], (h0.trans hc).trans hc'⟩
    rw [List.flatMap_cons, run_append]
    simp only [run, step, groupStep, hs, hpc]
    rw [h1]
    simp only [h2, Option.some_bind]
    exact h3

/-- A Start or a Shutdown `fast_send` to a Group with members, none of them a Group or the Group
itself, all live with their mutexes free, whose handlers return at once: the call, the fan-out of
`start_handler` or `shutdown_handler` to the members, its end, and the return. -/
theorem fastSend_ret_group {s : State} (t : ThreadId) {g m : Nat} {msg : Message}
    (hm : s.heap m = some msg) (hid : msg.id = startId ∨ msg.id = shutdownId)
    (hg : T.isGroup g = true) (hne : T.members g ≠ [])
    (hleaf : ∀ x ∈ T.members g, T.isGroup x = false ∧ x ≠ g)
    (hfree : ∀ x ∈ g :: T.members g, s.lock x = none ∧ s.terminated x = false) :
    ∃ s₁ s₂, s.fastSend T t g m none = some s₁ ∧
      run T s₁ ((T.members g).flatMap (fun _ => [.group t, .ret t]) ++ [.group t, .ret t]) =
        some s₂ ∧ s₂.stack t = s.stack t ∧ Counted s s₂ (g :: T.members g) := by
  obtain ⟨hlg, htg⟩ := hfree g (List.mem_cons_self _ _)
  have hpc : T.entryPc g { msg with sender := none, isFast := true, last := true } =
      .fanOut msg.id (T.members g) := by
    simp [Topology.entryPc, hg, hid, hne]
  have hs₁ : ((s.stampFast g m none msg).call T t g m
      { msg with sender := none, isFast := true, last := true } .fast).stack t =
      ⟨g, m, .fast, .fanOut msg.id (T.members g), none⟩ :: s.stack t := by
    simp [call, stampFast, hpc]
  obtain ⟨s₂, hrun, hst₂, hc₂⟩ := fanOut_run t (T.members g) hs₁ rfl rfl fun x hx =>
    have hx' := hfree x (List.mem_cons_of_mem _ hx)
    ⟨(hleaf x hx).1, (hleaf x hx).2, by simp [call, stampFast, (hleaf x hx).2, hx'.1],
      by simp [call, stampFast, hx'.2]⟩
  -- the end of `start_handler` or `shutdown_handler`
  have hgroup : s₂.groupStep T t =
      some (s₂.setPc t ⟨g, m, .fast, .fanOut msg.id [], none⟩ (s.stack t) .done) := by
    simp [groupStep, hst₂]
  have hc₂' : Counted _ (s₂.setPc t ⟨g, m, .fast, .fanOut msg.id [], none⟩ (s.stack t) .done) _ :=
    ⟨hc₂.lock, hc₂.terminated, hc₂.msgq, hc₂.loop, hc₂.msgCnt⟩
  obtain ⟨s₃, hret, hst₃, hc₃⟩ := fastSend_bracket hlg hc₂' (by simp [setPc]) (.inr rfl)
  refine ⟨_, s₃, fastSend_of_free hm hlg htg (by simp), ?_, hst₃, hc₃⟩
  rw [run_append, hrun]
  simp only [Option.some_bind, run, step, hgroup, hret]

end State

end Actors
