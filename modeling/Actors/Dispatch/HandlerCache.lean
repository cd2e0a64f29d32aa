/-
`Actor::call_handler` of `src/src/Actor.cpp`: dispatch through the handler table `handlers`, keyed
by the message's runtime type, fronted by the vectors `handler_cache` and `dont_have_handler` of
`ACTOR_HANDLER_CACHE_SIZE` entries indexed by `get_message_id()`. Over every dispatch history in
which each identity in `[0, 512)` belongs to one type, the memoised positive and negative entries
agree with a direct lookup of the type. An identity outside that range is read from
`handler_cache` out of range: nothing routes it around the cache.
-/
import Mathlib.Data.List.Basic

namespace Actors

/-- `ACTOR_HANDLER_CACHE_SIZE`. -/
def actorHandlerCacheSize : Nat := 512

/-- `std::vector::operator[]` for reading: `none` off the end, where C++ has undefined
behaviour. -/
def vectorAt? {β : Type} (v : List β) (i : Int) : Option β :=
  if 0 ≤ i then v[i.toNat]? else none

/-- `std::vector::operator[]` for writing; `none` off the end. -/
def vectorSet? {β : Type} (v : List β) (i : Int) (b : β) : Option (List β) :=
  if 0 ≤ i ∧ i.toNat < v.length then some (v.set i.toNat b) else none

theorem vectorAt?_natCast {β : Type} (v : List β) (n : Nat) : vectorAt? v n = v[n]? := by
  rw [vectorAt?, if_pos (by omega), Int.toNat_ofNat]

theorem vectorSet?_natCast {β : Type} {v : List β} {n : Nat} (h : n < v.length) (b : β) :
    vectorSet? v n b = some (v.set n b) := by
  rw [vectorSet?, if_pos (by omega), Int.toNat_ofNat]

theorem vectorAt?_eq_some {β : Type} {v : List β} {i : Int} {b : β} (h : vectorAt? v i = some b) :
    ∃ n : Nat, i = n ∧ v[n]? = some b := by
  unfold vectorAt? at h
  split at h
  · exact ⟨i.toNat, by omega, h⟩
  · cases h

theorem vectorSet?_eq_some {β : Type} {v v' : List β} {i : Int} {b : β}
    (h : vectorSet? v i b = some v') : ∃ n : Nat, i = n ∧ n < v.length ∧ v' = v.set n b := by
  unfold vectorSet? at h
  split at h
  · rename_i hi; cases h; exact ⟨i.toNat, by omega, hi.2, rfl⟩
  · cases h

/-- What dispatch reads of a message: `typeid(*m)` and `get_message_id()`. -/
structure MsgKey (τ : Type) where
  type : τ
  id : Int

/-- The outcome of `call_handler`: it invoked a handler and returned `true`, or it returned
`false` and `process_message` runs. -/
inductive Dispatch (η : Type) where
  | handled (f : η)
  | fallThrough
  deriving DecidableEq

/-- An actor's two cache vectors. -/
structure HandlerCache (η : Type) where
  handlerCache : List (Option η)
  dontHaveHandler : List Bool

namespace HandlerCache

variable {τ η : Type}

/-- As `Actor::Actor` sizes them: 512 null handlers and 512 cleared flags. -/
def init : HandlerCache η :=
  ⟨List.replicate actorHandlerCacheSize none, List.replicate actorHandlerCacheSize false⟩

/-- `Actor::call_handler`; `none` is an out-of-range access of either vector. -/
def callHandler (handlers : τ → Option η) (c : HandlerCache η) (m : MsgKey τ) :
    Option (Dispatch η × HandlerCache η) :=
  match vectorAt? c.handlerCache m.id with
  | none => none
  | some (some f) => some (.handled f, c)
  | some none =>
    match vectorAt? c.dontHaveHandler m.id with
    | none => none
    | some true => some (.fallThrough, c)
    | some false =>
      match handlers m.type with
      | none => (vectorSet? c.dontHaveHandler m.id true).map
          fun d => (.fallThrough, { c with dontHaveHandler := d })
      | some f => (vectorSet? c.handlerCache m.id (some f)).map
          fun h => (.handled f, { c with handlerCache := h })

/-- Dispatching messages one after another, the cache threaded through. -/
def callHandlers (handlers : τ → Option η) :
    HandlerCache η → List (MsgKey τ) → Option (List (Dispatch η) × HandlerCache η)
  | c, [] => some ([], c)
  | c, m :: ms => match callHandler handlers c m with
    | none => none
    | some (d, c') => (callHandlers handlers c' ms).map fun (ds, c'') => (d :: ds, c'')

end HandlerCache

/-- The direct lookup of the message's runtime type in `handlers`. -/
def lookupHandler {τ η : Type} (handlers : τ → Option η) (m : MsgKey τ) : Dispatch η :=
  match handlers m.type with
  | some f => .handled f
  | none => .fallThrough

/-! ## Agreement with the table -/

section Agreement

variable {τ η : Type} (handlers : τ → Option η) (typeOf : Int → τ)

/-- The cache agrees with the table when identity `i` belongs to type `typeOf i`: both vectors
keep their 512 entries, a memoised handler is the table's, and a negative flag marks a type the
table lacks. -/
structure CacheAgrees (c : HandlerCache η) : Prop where
  length_handlerCache : c.handlerCache.length = actorHandlerCacheSize
  length_dontHaveHandler : c.dontHaveHandler.length = actorHandlerCacheSize
  positive : ∀ (i : Nat) f, c.handlerCache[i]? = some (some f) → handlers (typeOf i) = some f
  negative : ∀ i : Nat, c.dontHaveHandler[i]? = some true → handlers (typeOf i) = none

theorem init_agrees : CacheAgrees handlers typeOf HandlerCache.init := by
  refine ⟨by simp [HandlerCache.init], by simp [HandlerCache.init], fun i f h => ?_, fun i h => ?_⟩ <;>
    simp [HandlerCache.init, List.getElem?_replicate] at h

/-- One dispatch of an identity in range: the outcome is the direct lookup, and the cache still
agrees. -/
theorem callHandler_agrees {c : HandlerCache η} (hc : CacheAgrees handlers typeOf c)
    (m : MsgKey τ) (h0 : 0 ≤ m.id) (h1 : m.id < actorHandlerCacheSize)
    (hty : m.type = typeOf m.id) :
    ∃ c', HandlerCache.callHandler handlers c m = some (lookupHandler handlers m, c') ∧
      CacheAgrees handlers typeOf c' := by
  obtain ⟨n, hn⟩ := Int.eq_ofNat_of_zero_le h0
  have hlt : n < actorHandlerCacheSize := by omega
  have hh : n < c.handlerCache.length := hc.length_handlerCache ▸ hlt
  have hd : n < c.dontHaveHandler.length := hc.length_dontHaveHandler ▸ hlt
  rw [hn] at hty
  unfold HandlerCache.callHandler lookupHandler
  rw [hn, vectorAt?_natCast, List.getElem?_eq_getElem hh]
  rcases hf : c.handlerCache[n] with _ | f
  · rw [vectorAt?_natCast, List.getElem?_eq_getElem hd]
    rcases hb : c.dontHaveHandler[n] with _ | _
    · rcases ht : handlers m.type with _ | f
      · refine ⟨{ c with dontHaveHandler := c.dontHaveHandler.set n true },
          by rw [vectorSet?_natCast hd]; rfl, hc.1, by simpa using hc.2, hc.3, fun i hi => ?_⟩
        by_cases e : n = i
        · subst e; rw [← hty]; exact ht
        · exact hc.4 i (by simpa [List.getElem?_set_ne e] using hi)
      · refine ⟨{ c with handlerCache := c.handlerCache.set n (some f) },
          by simp [vectorSet?_natCast hh], by simpa using hc.1, hc.2, fun i g hi => ?_, hc.4⟩
        by_cases e : n = i
        · subst e
          simp only [List.getElem?_set_self hh, Option.some.injEq] at hi
          rw [← hty, ht, hi]
        · exact hc.3 i g (by simpa [List.getElem?_set_ne e] using hi)
    · have := hc.4 n (by rw [List.getElem?_eq_getElem hd, hb])
      rw [← hty] at this
      rw [this]
      exact ⟨c, rfl, hc⟩
  · have := hc.3 n f (by rw [List.getElem?_eq_getElem hh, hf])
    rw [← hty] at this
    rw [this]
    exact ⟨c, rfl, hc⟩

/-- Over every dispatch history whose identities are in range and belong to one type each, the
cached dispatch answers as the direct lookup, message by message. -/
theorem callHandlers_agree (ms : List (MsgKey τ))
    (hid : ∀ m ∈ ms, 0 ≤ m.id ∧ m.id < actorHandlerCacheSize)
    (hty : ∀ m ∈ ms, m.type = typeOf m.id) :
    ∀ c, CacheAgrees handlers typeOf c →
      ∃ c', HandlerCache.callHandlers handlers c ms = some (ms.map (lookupHandler handlers), c') ∧
        CacheAgrees handlers typeOf c' := by
  induction ms with
  | nil => exact fun c hc => ⟨c, rfl, hc⟩
  | cons m ms ih =>
    intro c hc
    obtain ⟨c1, h1, hc1⟩ := callHandler_agrees handlers typeOf hc m (hid m (.head _)).1
      (hid m (.head _)).2 (hty m (.head _))
    obtain ⟨c2, h2, hc2⟩ := ih (fun m hm => hid m (.tail _ hm)) (fun m hm => hty m (.tail _ hm)) c1 hc1
    refine ⟨c2, ?_, hc2⟩
    simp [HandlerCache.callHandlers, h1, h2]

/-- From a freshly constructed actor, every dispatch history of in-range identities, each
belonging to one type, is answered as the direct lookup answers it. -/
theorem callHandlers_init_eq_lookup (ms : List (MsgKey τ))
    (hid : ∀ m ∈ ms, 0 ≤ m.id ∧ m.id < actorHandlerCacheSize)
    (hty : ∀ m ∈ ms, m.type = typeOf m.id) :
    (HandlerCache.callHandlers handlers HandlerCache.init ms).map Prod.fst =
      some (ms.map (lookupHandler handlers)) := by
  obtain ⟨c, h, -⟩ := callHandlers_agree handlers typeOf ms hid hty _ (init_agrees handlers typeOf)
  rw [h]; rfl

end Agreement

/-- A table with one handler, for type 0, dispatched identities 0, 7 and 0 again: the second
dispatch of 0 is served by the memoised entry, and 7 by the negative flag's first setting. -/
theorem callHandlers_init_eq_lookup_example :
    (HandlerCache.callHandlers (fun t : Nat => if t = 0 then some 1 else none) HandlerCache.init
        [⟨0, 0⟩, ⟨7, 7⟩, ⟨0, 0⟩]).map Prod.fst =
      some ([⟨0, 0⟩, ⟨7, 7⟩, ⟨0, 0⟩].map (lookupHandler fun t : Nat => if t = 0 then some 1 else none)) :=
  callHandlers_init_eq_lookup (fun t : Nat => if t = 0 then some 1 else none) Int.toNat _
    (by decide) (by decide)

/-! ## Identities outside the cache -/

/-- An identity below 0 or at least 512 is looked up in `handler_cache` out of range. -/
theorem callHandler_out_of_range {τ η : Type} (handlers : τ → Option η) {c : HandlerCache η}
    (hc : c.handlerCache.length = actorHandlerCacheSize) (m : MsgKey τ)
    (h : m.id < 0 ∨ actorHandlerCacheSize ≤ m.id) :
    HandlerCache.callHandler handlers c m = none := by
  have hv : vectorAt? c.handlerCache m.id = none := by
    unfold vectorAt?
    split
    · rw [List.getElem?_eq_none]; omega
    · rfl
  simp [HandlerCache.callHandler, hv]

/-- Identity 512, which the spec lets bypass the cache, is read from `handler_cache[512]`, one past
the end of the vector, whatever the table and the message's type. -/
theorem callHandler_id_512 {τ η : Type} (handlers : τ → Option η) (ty : τ) :
    HandlerCache.callHandler handlers HandlerCache.init ⟨ty, 512⟩ = none :=
  callHandler_out_of_range handlers (by simp [HandlerCache.init]) ⟨ty, 512⟩ (.inr (by simp [actorHandlerCacheSize]))

/-! ## An identity's first dispatch fixes its outcome -/

namespace HandlerCache

variable {τ η : Type}

/-- What the cache answers for identity `n` without reading the table: the memoised handler, or
the negative flag. -/
def settled (c : HandlerCache η) (n : Nat) : Option (Dispatch η) :=
  match c.handlerCache[n]?, c.dontHaveHandler[n]? with
  | some (some f), _ => some (.handled f)
  | some none, some true => some .fallThrough
  | _, _ => none

/-- A settled identity is answered from the cache, whatever the table and the message's type, and
the cache is left as it is. -/
theorem callHandler_of_settled (handlers : τ → Option η) {c : HandlerCache η} {m : MsgKey τ}
    {n : Nat} {d : Dispatch η} (hn : m.id = n) (hs : c.settled n = some d) :
    callHandler handlers c m = some (d, c) := by
  unfold settled at hs
  unfold callHandler
  rw [hn, vectorAt?_natCast, vectorAt?_natCast]
  rcases h1 : c.handlerCache[n]? with _ | _ | f <;> rcases h2 : c.dontHaveHandler[n]? with _ | _ | _ <;>
    simp only [h1, h2, reduceCtorEq, Option.some.injEq] at hs ⊢ <;> rw [hs]

/-- A dispatch settles the identity it reads, on the outcome it returns. -/
theorem settled_of_callHandler {handlers : τ → Option η} {c c' : HandlerCache η} {m : MsgKey τ}
    {d : Dispatch η} (h : callHandler handlers c m = some (d, c')) :
    ∃ n : Nat, m.id = n ∧ c'.settled n = some d := by
  unfold callHandler at h
  rcases h1 : vectorAt? c.handlerCache m.id with _ | _ | f <;> rw [h1] at h
  · cases h
  · obtain ⟨n, hn, hc⟩ := vectorAt?_eq_some h1
    refine ⟨n, hn, ?_⟩
    rw [hn, vectorAt?_natCast] at h
    rcases h2 : c.dontHaveHandler[n]? with _ | _ | _ <;> rw [h2] at h
    · cases h
    · -- the table is read, and its answer memoised at `n`
      cases ht : handlers m.type <;> rw [ht] at h <;>
        obtain ⟨v, hv, he⟩ := Option.map_eq_some'.1 h <;> cases he <;>
        obtain ⟨n', hn', hlt, rfl⟩ := vectorSet?_eq_some hv <;> obtain rfl : n = n' := by omega
      all_goals simp [settled, hc, List.getElem?_set_self hlt]
    · cases h; simp [settled, hc, h2]
  · cases h
    obtain ⟨n, hn, hc⟩ := vectorAt?_eq_some h1
    exact ⟨n, hn, by simp [settled, hc]⟩

/-- A dispatch writes the cache at the identity it reads only. -/
theorem settled_callHandler {handlers : τ → Option η} {c c' : HandlerCache η} {m : MsgKey τ}
    {d : Dispatch η} (h : callHandler handlers c m = some (d, c')) {j : Nat} {e : Dispatch η}
    (hs : c.settled j = some e) : c'.settled j = some e := by
  by_cases hj : m.id = j
  · rw [callHandler_of_settled handlers hj hs] at h
    cases h; exact hs
  · unfold callHandler at h
    rcases h1 : vectorAt? c.handlerCache m.id with _ | _ | f <;> rw [h1] at h
    · cases h
    · rcases h2 : vectorAt? c.dontHaveHandler m.id with _ | _ | _ <;> rw [h2] at h
      · cases h
      · have hnj : ∀ n : Nat, m.id = n → n ≠ j := fun n hn (e : n = j) => hj (by rw [hn, e])
        cases ht : handlers m.type <;> rw [ht] at h <;> obtain ⟨v, hv, he⟩ := Option.map_eq_some'.1 h <;>
          cases he <;> obtain ⟨n, hn, -, rfl⟩ := vectorSet?_eq_some hv <;>
          simpa [settled, List.getElem?_set_ne (hnj n hn)] using hs
      · cases h; exact hs
    · cases h; exact hs

/-- Once identity `n` is settled on `d`, every later dispatch of a message of identity `n`, of
whatever type and with whatever table, answers `d`. -/
theorem callHandlers_of_settled (handlers : τ → Option η) {n : Nat} {d : Dispatch η} :
    ∀ (ms : List (MsgKey τ)) {c c₂ : HandlerCache η} {ds : List (Dispatch η)},
      c.settled n = some d → callHandlers handlers c ms = some (ds, c₂) →
      ∀ p ∈ ms.zip ds, p.1.id = n → p.2 = d
  | [], _, _, _, _, h => by cases h; simp
  | m :: ms, c, c₂, ds, hs, h => by
    simp only [callHandlers] at h
    rcases h1 : callHandler handlers c m with _ | ⟨d', c'⟩ <;> rw [h1] at h
    · cases h
    · obtain ⟨⟨ds', c₂'⟩, h2, he⟩ := Option.map_eq_some'.1 h
      cases he
      intro p hp hpn
      rcases List.mem_cons.1 hp with rfl | hp
      · rw [callHandler_of_settled handlers hpn hs] at h1
        cases h1; rfl
      · exact callHandlers_of_settled handlers ms (settled_callHandler h1 hs) h2 p hp hpn

end HandlerCache

/-- `call_handler` memoises by identity what it looked up by type, and nothing ever clears the
two vectors: once an actor has dispatched a message of some identity, every later dispatch of a
message of that identity, whatever its type and whatever handlers were registered since, has the
same outcome, the same handler or the fall-through to `process_message`. -/
theorem dispatch_fixed_by_first {τ η : Type} (handlers handlers' : τ → Option η)
    {c c₁ : HandlerCache η} {m : MsgKey τ} {d : Dispatch η}
    (h : HandlerCache.callHandler handlers c m = some (d, c₁)) (ms : List (MsgKey τ))
    {ds : List (Dispatch η)} {c₂ : HandlerCache η}
    (hs : HandlerCache.callHandlers handlers' c₁ ms = some (ds, c₂)) :
    ∀ p ∈ ms.zip ds, p.1.id = m.id → p.2 = d := by
  obtain ⟨n, hn, hsn⟩ := HandlerCache.settled_of_callHandler h
  intro p hp hpid
  exact HandlerCache.callHandlers_of_settled handlers' ms hsn hs p hp (hpid.trans hn)

/-- A table with a handler for the type 0, and a table registered later with one for the type 5
only. -/
def firstTable (t : Nat) : Option Nat := if t = 0 then some 1 else none

def laterTable (t : Nat) : Option Nat := if t = 5 then some 2 else none

/-- A cache of ten entries. `Actor::Actor` always sizes the cache `ACTOR_HANDLER_CACHE_SIZE`, 512
entries; `dispatch_fixed_by_first` holds for a cache of any size, and ten keep the example
small. -/
def smallCache : HandlerCache Nat := ⟨List.replicate 10 none, List.replicate 10 false⟩

/-- The cache after a message of type 0 and identity 7: the handler memoised at 7. -/
def firstCache : HandlerCache Nat := ⟨smallCache.handlerCache.set 7 (some 1), smallCache.dontHaveHandler⟩

/-- Then after a message of type 5 and identity 8, with the later table. -/
def laterCache : HandlerCache Nat := ⟨firstCache.handlerCache.set 8 (some 2), smallCache.dontHaveHandler⟩

/-- A message of type 5 and identity 7 gets the handler of the type 0, which first used 7; one of
identity 8 gets its own. -/
theorem dispatch_fixed_by_first_seven :
    HandlerCache.callHandler firstTable smallCache ⟨0, 7⟩ = some (.handled 1, firstCache) ∧
    HandlerCache.callHandlers laterTable firstCache [⟨5, 7⟩, ⟨5, 8⟩] =
      some ([.handled 1, .handled 2], laterCache) ∧
    ∀ p ∈ ([⟨5, 7⟩, ⟨5, 8⟩] : List (MsgKey Nat)).zip ([.handled 1, .handled 2] : List (Dispatch Nat)),
      p.1.id = (⟨0, 7⟩ : MsgKey Nat).id → p.2 = .handled 1 :=
  have h : HandlerCache.callHandler firstTable smallCache ⟨0, 7⟩ =
      some (.handled 1, firstCache) := rfl
  have hs : HandlerCache.callHandlers laterTable firstCache [⟨5, 7⟩, ⟨5, 8⟩] =
      some ([.handled 1, .handled 2], laterCache) := rfl
  ⟨h, hs, dispatch_fixed_by_first firstTable laterTable h _ hs⟩

end Actors
