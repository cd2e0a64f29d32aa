/-
Naming under a `Manager` (`src/src/Manager.cpp`, `src/src/Group.cpp`): `Group::add`, the checks
`Manager::manage` makes before it registers an actor, `get_actor_by_name` and `get_name_map`.
Over every sequence of calls in which each Group gets its members before it is managed, never
two of one name, the managed actors and the members of managed Groups carry distinct names and
the linear search of `get_actor_by_name` answers as the flattened map does. `Group::add` does
not check names: its `name_to_actor` keeps the last of two members of one name, which then
passes every assertion of `manage`.
-/
import Mathlib.Logic.Function.Basic

namespace Actors

/-! ## `std::map<std::string, actor_ptr>` -/

/-- `m[n] = a` on a map given by its entries, one per key. -/
def NameMap.insert (m : List (String × Nat)) (n : String) (a : Nat) : List (String × Nat) :=
  (n, a) :: m.filter (fun p => p.1 != n)

theorem NameMap.lookup_cons (n k : String) (b : Nat) (es : List (String × Nat)) :
    ((k, b) :: es).lookup n = if n = k then some b else es.lookup n := by
  rw [List.lookup_cons]; split <;> simp_all

theorem NameMap.lookup_filter_ne (m : List (String × Nat)) (n n' : String) :
    (m.filter (fun p => p.1 != n)).lookup n' = if n' = n then none else m.lookup n' := by
  induction m with
  | nil => split_ifs <;> rfl
  | cons p m ih =>
    obtain ⟨k, b⟩ := p
    by_cases hk : k = n
    · rw [List.filter_cons_of_neg (by simp [hk]), ih, NameMap.lookup_cons]
      split_ifs <;> simp_all
    · rw [List.filter_cons_of_pos (by simpa using hk), NameMap.lookup_cons, NameMap.lookup_cons, ih]
      split_ifs <;> simp_all

@[simp] theorem NameMap.lookup_insert (m : List (String × Nat)) (n n' : String) (a : Nat) :
    (NameMap.insert m n a).lookup n' = if n' = n then some a else m.lookup n' := by
  rw [NameMap.insert, NameMap.lookup_cons, NameMap.lookup_filter_ne]
  split_ifs <;> rfl

theorem NameMap.exists_mem_of_lookup {l : List (String × Nat)} {n : String} {a : Nat}
    (h : l.lookup n = some a) : ∃ p ∈ l, p.1 = n := by
  induction l with
  | nil => cases h
  | cons p l ih =>
    obtain ⟨k, b⟩ := p
    rw [NameMap.lookup_cons] at h
    split_ifs at h with hp
    · exact ⟨(k, b), .head _, hp.symm⟩
    · obtain ⟨q, hq, he⟩ := ih h
      exact ⟨q, .tail _ hq, he⟩

/-! ## The Manager's and the Groups' naming state -/

/-- What naming reads and writes: each Group's `members` and `name_to_actor`, each actor's
`is_managed`, and the Manager's `managed_name_map`, `expanded_name_map` and `actor_list`. The
two maps of the Manager are only looked up and assigned, so they are functions. -/
structure Naming where
  members : Nat → List Nat
  nameToActor : Nat → List (String × Nat)
  isManaged : Nat → Bool
  managedNameMap : String → Option Nat
  expandedNameMap : String → Option Nat
  actorList : List Nat

/-- No Group has members, no actor is managed. -/
def Naming.empty : Naming := ⟨fun _ => [], fun _ => [], fun _ => false, fun _ => none, fun _ => none, []⟩

section Calls

-- each actor's `get_name()`, which actors are Groups, and `sysconf(_SC_NPROCESSORS_ONLN)`
variable (name : Nat → String) (isGroup : Nat → Bool) (cores : Int)

/-- `Group::add(a)` on Group `g`. -/
def Naming.add (st : Naming) (g a : Nat) : Naming :=
  { st with members := Function.update st.members g (st.members g ++ [a])
            nameToActor := Function.update st.nameToActor g (NameMap.insert (st.nameToActor g) (name a) a) }

/-- The loop of `manage` over a Group's `name_to_actor`: each name must be new to
`expanded_name_map`, which then maps it to the member. -/
def expandMembers : List (String × Nat) → (String → Option Nat) → Option (String → Option Nat)
  | [], e => some e
  | (n, m) :: rest, e => if (e n).isSome then none else expandMembers rest (Function.update e n (some m))

/-- `Manager::manage(a, affinity, ...)`; `none` where an assertion fails. -/
def Naming.manage (st : Naming) (a : Nat) (affinity : List Int) : Option Naming :=
  if st.isManaged a || (st.managedNameMap (name a)).isSome then none
  else if (st.expandedNameMap (name a)).isSome then none
  else if affinity.any (fun c => c < 0 || cores ≤ c) then none
  else
    let st1 : Naming := { st with
      managedNameMap := Function.update st.managedNameMap (name a) (some a)
      expandedNameMap := Function.update st.expandedNameMap (name a) (some a)
      actorList := st.actorList ++ [a] }
    if isGroup a then
      if st.nameToActor a = [] then none
      else (expandMembers (st.nameToActor a) st1.expandedNameMap).map fun e =>
        { st1 with expandedNameMap := e, isManaged := Function.update st.isManaged a true }
    else some { st1 with isManaged := Function.update st.isManaged a true }

/-- The loop of `get_actor_by_name` over `actor_list`. -/
def searchActors (members : Nat → List Nat) (n : String) : List Nat → Option Nat
  | [] => none
  | a :: rest =>
    if name a = n then some a
    else if isGroup a then
      match (members a).find? (fun m => name m == n) with
      | some m => some m
      | none => searchActors members n rest
    else searchActors members n rest

/-- `Manager::get_actor_by_name(n)`: the first managed actor named `n` or, inside a managed Group,
the first member named `n`, in the order they were managed. -/
def Naming.getActorByName (st : Naming) (n : String) : Option Nat :=
  searchActors name isGroup st.members n st.actorList

/-- `Manager::get_name_map()`. -/
def Naming.getNameMap (st : Naming) : String → Option Nat := st.expandedNameMap

/-- The calls: `Group::add` on a Group, and `Manager::manage`. -/
inductive NamingCall where
  | add (g a : Nat)
  | manage (a : Nat) (affinity : List Int)

def Naming.call (st : Naming) : NamingCall → Option Naming
  | .add g a => if isGroup g then some (st.add name g a) else none
  | .manage a affinity => st.manage name isGroup cores a affinity

/-- Runs calls in order; `none` as soon as an assertion fails. -/
def Naming.run : Naming → List NamingCall → Option Naming
  | st, [] => some st
  | st, c :: cs => (st.call name isGroup cores c).bind fun st' => Naming.run st' cs

/-! ## Expanding a Group's names -/

theorem expandMembers_spec {l : List (String × Nat)} {e e' : String → Option Nat}
    (h : expandMembers l e = some e') :
    (∀ n, e' n = (e n).or (l.lookup n)) ∧ ∀ p ∈ l, e p.1 = none := by
  induction l generalizing e with
  | nil =>
    simp only [expandMembers, Option.some.injEq] at h
    subst h
    exact ⟨fun n => by cases e n <;> rfl, fun _ h => (List.not_mem_nil _ h).elim⟩
  | cons p l ih =>
    obtain ⟨n0, m0⟩ := p
    simp only [expandMembers] at h
    split_ifs at h with h0
    obtain ⟨h1, h2⟩ := ih h
    simp only [Option.not_isSome_iff_eq_none] at h0
    refine ⟨fun n => ?_, fun q hq => ?_⟩
    · rw [h1, Function.update_apply]
      rw [NameMap.lookup_cons]
      by_cases hn : n = n0
      · subst hn; simp [h0]
      · simp [hn]
    · rcases List.mem_cons.1 hq with rfl | hq
      · exact h0
      · have := h2 q hq
        rw [Function.update_apply] at this
        split_ifs at this
        exact this

/-! ## The naming invariant -/

/-- Managed, or a member of a managed Group. -/
def Naming.Managed (st : Naming) (a : Nat) : Prop :=
  a ∈ st.actorList ∨ ∃ g ∈ st.actorList, isGroup g = true ∧ a ∈ st.members g

/-- What holds after every disciplined sequence of calls: `is_managed` marks `actor_list`; a
Group's `name_to_actor` maps exactly its members' names to them; `expanded_name_map` maps exactly
the names of the managed actors and members to them; and those names are distinct. -/
structure NamesOk (st : Naming) : Prop where
  flag : ∀ a, st.isManaged a = true ↔ a ∈ st.actorList
  groups : ∀ g n a, (st.nameToActor g).lookup n = some a ↔ a ∈ st.members g ∧ name a = n
  names : ∀ n a, st.expandedNameMap n = some a ↔ st.Managed isGroup a ∧ name a = n
  unique : ∀ a b, st.Managed isGroup a → st.Managed isGroup b → name a = name b → a = b

/-- Runs in which every Group gets its members before it is managed, never two of one name. -/
inductive Disciplined : Naming → Prop
  | empty : Disciplined Naming.empty
  | add {st : Naming} {g a : Nat} : Disciplined st → isGroup g = true → st.isManaged g = false →
      (∀ b ∈ st.members g, name b = name a → b = a) → Disciplined (st.add name g a)
  | manage {st st' : Naming} {a : Nat} {affinity : List Int} : Disciplined st →
      st.manage name isGroup cores a affinity = some st' → Disciplined st'

theorem namesOk_empty : NamesOk name isGroup Naming.empty where
  flag _ := by simp [Naming.empty]
  groups _ _ _ := by simp [Naming.empty]
  names _ _ := by simp [Naming.empty, Naming.Managed]
  unique _ _ h := by simp [Naming.Managed, Naming.empty] at h

theorem NamesOk.add {st : Naming} (hi : NamesOk name isGroup st) {g a : Nat} (hm : st.isManaged g = false)
    (hn : ∀ b ∈ st.members g, name b = name a → b = a) : NamesOk name isGroup (st.add name g a) := by
  have hg : g ∉ st.actorList := fun h => by rw [← hi.flag g, hm] at h; cases h
  have hM : ∀ b, (st.add name g a).Managed isGroup b ↔ st.Managed isGroup b := fun b => by
    simp only [Naming.Managed, Naming.add]
    refine or_congr Iff.rfl ⟨fun ⟨g', h1, h2, h3⟩ => ⟨g', h1, h2, ?_⟩, fun ⟨g', h1, h2, h3⟩ => ⟨g', h1, h2, ?_⟩⟩
    · rwa [Function.update_noteq (show g' ≠ g from fun e => hg (e ▸ h1))] at h3
    · rwa [Function.update_noteq (show g' ≠ g from fun e => hg (e ▸ h1))]
  refine ⟨hi.flag, fun g' n b => ?_, fun n b => (hi.names n b).trans (and_congr (hM b).symm Iff.rfl),
    fun b c hb hc => hi.unique b c ((hM b).1 hb) ((hM c).1 hc)⟩
  simp only [Naming.add, Function.update_apply]
  split_ifs with h
  · subst h
    rw [NameMap.lookup_insert, List.mem_append, List.mem_singleton]
    split_ifs with hna
    · subst hna
      constructor
      · rintro ⟨⟩; exact ⟨.inr rfl, rfl⟩
      · rintro ⟨hb | rfl, hnb⟩
        · rw [hn b hb hnb]
        · rfl
    · rw [hi.groups]
      constructor
      · rintro ⟨hb, rfl⟩; exact ⟨.inl hb, rfl⟩
      · rintro ⟨hb | rfl, rfl⟩
        · exact ⟨hb, rfl⟩
        · exact absurd rfl hna
  · exact hi.groups g' n b

/-- What a `manage` that passes its assertions checked and did. -/
theorem Naming.manage_eq_some {st st' : Naming} {a : Nat} {affinity : List Int}
    (h : st.manage name isGroup cores a affinity = some st') :
    st.expandedNameMap (name a) = none ∧
    (isGroup a = true → ∀ p ∈ st.nameToActor a, st.expandedNameMap p.1 = none ∧ p.1 ≠ name a) ∧
    st'.members = st.members ∧ st'.nameToActor = st.nameToActor ∧ st'.actorList = st.actorList ++ [a] ∧
    st'.isManaged = Function.update st.isManaged a true ∧
    ∀ n, st'.expandedNameMap n = (Function.update st.expandedNameMap (name a) (some a) n).or
      (if isGroup a then (st.nameToActor a).lookup n else none) := by
  unfold Naming.manage at h
  split_ifs at h with h1 h2 h3 hga hne
  · obtain ⟨e, he, rfl⟩ := Option.map_eq_some'.1 h
    obtain ⟨he1, he2⟩ := expandMembers_spec he
    refine ⟨by simpa using h2, fun _ p hp => ?_, rfl, rfl, rfl, rfl, fun n => by simp [he1, hga]⟩
    have := he2 p hp
    simp only [Function.update_apply] at this
    split_ifs at this with hpa
    exact ⟨this, hpa⟩
  · cases h
    refine ⟨by simpa using h2, fun h => absurd h hga, rfl, rfl, rfl, rfl, fun n => ?_⟩
    simp only [hga, if_false, Bool.false_eq_true]
    cases Function.update st.expandedNameMap (name a) (some a) n <;> rfl

theorem Naming.managed_append {st st' : Naming} {a : Nat} (hl : st'.actorList = st.actorList ++ [a])
    (hm : st'.members = st.members) (b : Nat) :
    st'.Managed isGroup b ↔ st.Managed isGroup b ∨ b = a ∨ (isGroup a = true ∧ b ∈ st.members a) := by
  simp only [Naming.Managed, hl, hm, List.mem_append, List.mem_singleton]
  constructor
  · rintro ((hb | rfl) | ⟨g, hg | rfl, hgg, hb⟩)
    · exact .inl (.inl hb)
    · exact .inr (.inl rfl)
    · exact .inl (.inr ⟨g, hg, hgg, hb⟩)
    · exact .inr (.inr ⟨hgg, hb⟩)
  · rintro ((hb | ⟨g, hg, hgg, hb⟩) | rfl | ⟨hgg, hb⟩)
    · exact .inl (.inl hb)
    · exact .inr ⟨g, .inl hg, hgg, hb⟩
    · exact .inl (.inr rfl)
    · exact .inr ⟨a, .inr rfl, hgg, hb⟩

theorem NamesOk.manage {st st' : Naming} (hi : NamesOk name isGroup st) {a : Nat} {affinity : List Int}
    (h : st.manage name isGroup cores a affinity = some st') : NamesOk name isGroup st' := by
  obtain ⟨hfa, hga, hm, hnta, hl, hflag, hexp⟩ := Naming.manage_eq_some name isGroup cores h
  have hM := Naming.managed_append isGroup hl hm
  -- no actor already managed carries the new name
  have hfree : ∀ b, st.Managed isGroup b → name b ≠ name a := fun b hb he => by
    rw [(hi.names (name a) b).2 ⟨hb, he⟩] at hfa; cases hfa
  -- a member of the Group carries a name new to the map, and not the Group's
  have hmem : ∀ b, isGroup a = true → b ∈ st.members a →
      st.expandedNameMap (name b) = none ∧ name b ≠ name a := fun b hg hb => by
    obtain ⟨p, hp, hpn⟩ := NameMap.exists_mem_of_lookup ((hi.groups a (name b) b).2 ⟨hb, rfl⟩)
    rw [← hpn]; exact hga hg p hp
  refine ⟨fun b => ?_, fun g n b => by rw [hm, hnta]; exact hi.groups g n b, fun n b => ?_,
    fun b c hb hc hbc => ?_⟩
  · rw [hflag, hl, Function.update_apply, List.mem_append, List.mem_singleton]
    split_ifs with hb
    · simp [hb]
    · simp [hb, hi.flag]
  · rw [hexp, hM, Function.update_apply]
    by_cases hn : n = name a
    · subst hn
      rw [if_pos rfl, Option.or_some]
      constructor
      · rintro ⟨⟩; exact ⟨.inr (.inl rfl), rfl⟩
      · rintro ⟨hb | rfl | ⟨hg, hb⟩, hnb⟩
        · exact absurd hnb (hfree b hb)
        · rfl
        · exact absurd hnb (hmem b hg hb).2
    · rw [if_neg hn]
      cases hx : st.expandedNameMap n with
      | some c =>
        have hc := (hi.names n c).1 hx
        rw [Option.or_some, Option.some.injEq]
        constructor
        · rintro rfl; exact ⟨.inl hc.1, hc.2⟩
        · rintro ⟨hb | rfl | ⟨hg, hb⟩, rfl⟩
          · exact hi.unique c b hc.1 hb hc.2
          · exact absurd rfl hn
          · rw [(hmem b hg hb).1] at hx; cases hx
      | none =>
        rw [Option.none_or]
        constructor
        · intro hb
          split_ifs at hb with hg
          obtain ⟨hb', rfl⟩ := (hi.groups a n b).1 hb
          exact ⟨.inr (.inr ⟨hg, hb'⟩), rfl⟩
        · rintro ⟨hb | rfl | ⟨hg, hb⟩, rfl⟩
          · rw [(hi.names _ b).2 ⟨hb, rfl⟩] at hx; cases hx
          · exact absurd rfl hn
          · rw [if_pos hg]; exact (hi.groups a _ b).2 ⟨hb, rfl⟩
  · rcases (hM b).1 hb with hb | rfl | ⟨hg, hb⟩ <;> rcases (hM c).1 hc with hc | rfl | ⟨hg', hc⟩
    · exact hi.unique b c hb hc hbc
    · exact absurd hbc (hfree b hb)
    · have := (hmem c hg' hc).1
      rw [← hbc, (hi.names _ b).2 ⟨hb, rfl⟩] at this; cases this
    · exact absurd hbc.symm (hfree c hc)
    · rfl
    · exact absurd hbc.symm (hmem c hg' hc).2
    · have := (hmem b hg hb).1
      rw [hbc, (hi.names _ c).2 ⟨hc, rfl⟩] at this; cases this
    · exact absurd hbc (hmem b hg hb).2
    · have h1 := (hi.groups a (name b) b).2 ⟨hb, rfl⟩
      rw [hbc, (hi.groups a (name c) c).2 ⟨hc, rfl⟩] at h1
      exact (Option.some.inj h1).symm

theorem Disciplined.namesOk {st : Naming} (h : Disciplined name isGroup cores st) : NamesOk name isGroup st := by
  induction h with
  | empty => exact namesOk_empty name isGroup
  | add _ _ hm hn ih => exact ih.add name isGroup hm hn
  | manage _ h ih => exact ih.manage name isGroup cores h

/-! ## The linear search -/

theorem searchActors_some (members : Nat → List Nat) (n : String) :
    ∀ {l : List Nat} {b : Nat}, searchActors name isGroup members n l = some b →
      (b ∈ l ∨ ∃ g ∈ l, isGroup g = true ∧ b ∈ members g) ∧ name b = n
  | [], _, h => by cases h
  | a :: l, b, h => by
    unfold searchActors at h
    split_ifs at h with ha hg
    · cases h; exact ⟨.inl (.head _), ha⟩
    · split at h
      · rename_i m hm
        cases h
        exact ⟨.inr ⟨a, .head _, hg, List.mem_of_find?_eq_some hm⟩, by simpa using List.find?_some hm⟩
      · obtain ⟨hb, hn⟩ := searchActors_some members n h
        refine ⟨?_, hn⟩
        rcases hb with hb | ⟨g, hg, hgg, hb⟩
        · exact .inl (.tail _ hb)
        · exact .inr ⟨g, .tail _ hg, hgg, hb⟩
    · obtain ⟨hb, hn⟩ := searchActors_some members n h
      refine ⟨?_, hn⟩
      rcases hb with hb | ⟨g, hg, hgg, hb⟩
      · exact .inl (.tail _ hb)
      · exact .inr ⟨g, .tail _ hg, hgg, hb⟩

theorem searchActors_none (members : Nat → List Nat) (n : String) :
    ∀ {l : List Nat}, searchActors name isGroup members n l = none →
      ∀ b, (b ∈ l ∨ ∃ g ∈ l, isGroup g = true ∧ b ∈ members g) → name b ≠ n
  | [], _, _, hb => by simp at hb
  | a :: l, h, b, hb => by
    unfold searchActors at h
    split_ifs at h with ha hg
    · split at h
      · cases h
      · rename_i hm
        rcases hb with hb | ⟨g, hg', hgg, hb⟩
        · rcases List.mem_cons.1 hb with rfl | hb
          · exact ha
          · exact searchActors_none members n h b (.inl hb)
        · rcases List.mem_cons.1 hg' with rfl | hg'
          · simpa using List.find?_eq_none.1 hm b hb
          · exact searchActors_none members n h b (.inr ⟨g, hg', hgg, hb⟩)
    · rcases hb with hb | ⟨g, hg', hgg, hb⟩
      · rcases List.mem_cons.1 hb with rfl | hb
        · exact ha
        · exact searchActors_none members n h b (.inl hb)
      · rcases List.mem_cons.1 hg' with rfl | hg'
        · exact absurd hgg hg
        · exact searchActors_none members n h b (.inr ⟨g, hg', hgg, hb⟩)

/-- Under the naming invariant the linear search finds what the flattened map holds. -/
theorem NamesOk.getActorByName {st : Naming} (hi : NamesOk name isGroup st) (n : String) :
    st.getActorByName name isGroup n = st.getNameMap n := by
  unfold Naming.getActorByName Naming.getNameMap
  cases hs : searchActors name isGroup st.members n st.actorList with
  | some b => exact ((hi.names n b).2 (searchActors_some name isGroup _ n hs)).symm
  | none =>
    cases hx : st.expandedNameMap n with
    | none => rfl
    | some c =>
      obtain ⟨hc, rfl⟩ := (hi.names _ c).1 hx
      exact absurd rfl (searchActors_none name isGroup _ _ hs c hc)

/-- Over every sequence of `Group::add` and `Manager::manage` calls in which each Group gets its
members before it is managed and never two members of one name, and no assertion fails: the
managed actors and the members of managed Groups carry distinct names, `get_name_map()` maps
exactly those names, each to its actor, and `get_actor_by_name` answers as `get_name_map()`. -/
theorem disciplined_names_agree {st : Naming} (h : Disciplined name isGroup cores st) :
    (∀ a b, st.Managed isGroup a → st.Managed isGroup b → name a = name b → a = b) ∧
    (∀ n a, st.getNameMap n = some a ↔ st.Managed isGroup a ∧ name a = n) ∧
    (∀ n, st.getActorByName name isGroup n = st.getNameMap n) :=
  have hi := Disciplined.namesOk name isGroup cores h
  ⟨hi.unique, hi.names, hi.getActorByName name isGroup⟩

end Calls

/-! ## Two members of one name -/

/-- A Group named `g` whose members are all named `x`. -/
def sameNames : Nat → String
  | 0 => "g"
  | _ => "x"

/-- Group 0 gets members 1 and 2, both named `x`, then is managed: no assertion fails, yet the
flattened map holds member 2 under `x` and the linear search finds member 1. -/
theorem manage_same_named_members :
    (Naming.run sameNames (· == 0) 1 Naming.empty [.add 0 1, .add 0 2, .manage 0 []]).map
      (fun st => (st.getActorByName sameNames (· == 0) "x", st.getNameMap "x")) =
      some (some 1, some 2) := by
  decide

/-- Names for a Group 0 of members `a` and `b`, and an actor `c`. -/
def distinctNames : Nat → String
  | 0 => "g"
  | 1 => "a"
  | 2 => "b"
  | _ => "c"

/-- Group 0 with members 1 and 2, managed with affinity to core 0 of 4. -/
def distinctState : Naming :=
  (((Naming.empty.add distinctNames 0 1).add distinctNames 0 2).manage distinctNames (· == 0) 4 0 [0]).getD
    Naming.empty

theorem distinctState_manage :
    ((Naming.empty.add distinctNames 0 1).add distinctNames 0 2).manage distinctNames (· == 0) 4 0 [0] =
      some distinctState := rfl

theorem disciplined_names_agree_example :
    Disciplined distinctNames (· == 0) 4 distinctState ∧
    ((∀ a b, distinctState.Managed (· == 0) a → distinctState.Managed (· == 0) b →
        distinctNames a = distinctNames b → a = b) ∧
      (∀ n a, distinctState.getNameMap n = some a ↔
        distinctState.Managed (· == 0) a ∧ distinctNames a = n) ∧
      (∀ n, distinctState.getActorByName distinctNames (· == 0) n = distinctState.getNameMap n)) :=
  have h1 : Disciplined distinctNames (· == 0) 4 (Naming.empty.add distinctNames 0 1) :=
    .add .empty rfl rfl (by simp [Naming.empty])
  have h2 : Disciplined distinctNames (· == 0) 4 ((Naming.empty.add distinctNames 0 1).add distinctNames 0 2) :=
    .add h1 rfl rfl (by decide)
  have h : Disciplined distinctNames (· == 0) 4 distinctState := .manage h2 distinctState_manage
  ⟨h, disciplined_names_agree distinctNames (· == 0) 4 h⟩

end Actors
