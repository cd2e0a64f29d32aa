/-
The message registry of `actors::serialization` (`src/include/actors/remote/Serialization.hpp`,
`src/include/actors/remote/Reject.hpp`) and the JSON values it writes and reads. A `std::string`
is its bytes, UTF-8 or not, and so is every JSON string `nlohmann::json` holds; `dump()` checks
each against RFC 3629 and throws `type_error` 316 on one that is not UTF-8. Registration writes
the identity map and the wire-name map each on its own, and the last write to each wins. Over a
sequence of registrations in which equal identities go with equal wire names, both maps point at
one entry per registered type, and a message of a `REGISTER_REMOTE_MESSAGE_N` type with distinct
field names comes back from `deserialize(get_type_name(id), serialize(m))` unchanged. Two
identities under one wire name break this: the name then decodes to the later one only.
-/
import Mathlib.Logic.Function.Basic

namespace Actors

/-! ## Strings -/

/-- A `std::string`: its bytes, which need not be UTF-8. -/
structure StdString where
  bytes : List UInt8
  deriving DecidableEq, Repr

namespace StdString

/-- A string literal of the source: its UTF-8 encoding. -/
def ofString (s : String) : StdString := ⟨s.toUTF8.data.toList⟩

instance : Coe String StdString := ⟨ofString⟩

/-- `operator+` of two `std::string`s. -/
instance : Append StdString := ⟨fun a b => ⟨a.bytes ++ b.bytes⟩⟩

/-- `std::string::empty()`. -/
def empty (s : StdString) : Bool := s.bytes.isEmpty

end StdString

/-- The continuation octets a UTF-8 character whose first octet is `a` has, and the range its
second octet lies in (RFC 3629 §4); `none` when no character starts with `a`. -/
def utf8Lead (a : UInt8) : Option (Nat × UInt8 × UInt8) :=
  if a ≤ 0x7F then some (0, 0x80, 0xBF)
  else if 0xC2 ≤ a ∧ a ≤ 0xDF then some (1, 0x80, 0xBF)
  else if a = 0xE0 then some (2, 0xA0, 0xBF)
  else if 0xE1 ≤ a ∧ a ≤ 0xEC then some (2, 0x80, 0xBF)
  else if a = 0xED then some (2, 0x80, 0x9F)
  else if 0xEE ≤ a ∧ a ≤ 0xEF then some (2, 0x80, 0xBF)
  else if a = 0xF0 then some (3, 0x90, 0xBF)
  else if 0xF1 ≤ a ∧ a ≤ 0xF3 then some (3, 0x80, 0xBF)
  else if a = 0xF4 then some (3, 0x80, 0x8F)
  else none

/-- Reads octets with `owed` continuation octets still owed, the next one within `lo`..`hi`:
whether the sequence ends between characters. -/
def utf8Run : List UInt8 → Nat → UInt8 → UInt8 → Bool
  | [], owed, _, _ => owed == 0
  | b :: l, 0, _, _ =>
    match utf8Lead b with
    | some (n, lo, hi) => utf8Run l n lo hi
    | none => false
  | b :: l, n + 1, lo, hi => lo ≤ b && b ≤ hi && utf8Run l n 0x80 0xBF

/-- Whether a string is UTF-8 (RFC 3629 `UTF8-octets`), as `dump()` checks it. -/
def StdString.isUtf8 (s : StdString) : Bool := utf8Run s.bytes 0 0x80 0xBF

/-! ## JSON values and the `nlohmann::json` accessors the registry uses -/

/-- A JSON value as `nlohmann::json` holds it; numbers are integers, a string is a `std::string`,
and an object is its members in insertion order, of which the first of a key is the one read. Its
keys are the source's identifiers or text `json::parse` read, so they are UTF-8. -/
inductive Json where
  | null
  | bool (b : Bool)
  | num (n : Int)
  | str (s : StdString)
  | arr (xs : List Json)
  | obj (kvs : List (String × Json))
  deriving Repr

mutual

/-- Whether `dump()` returns: with the default `error_handler_t::strict`, it throws `type_error`
316 at the first string that is not UTF-8. -/
def Json.dumpable : Json → Bool
  | .str s => s.isUtf8
  | .arr xs => Json.dumpableList xs
  | .obj kvs => Json.dumpableMembers kvs
  | _ => true

/-- `dumpable` of every element. -/
def Json.dumpableList : List Json → Bool
  | [] => true
  | x :: xs => x.dumpable && Json.dumpableList xs

/-- `dumpable` of every member's value. -/
def Json.dumpableMembers : List (String × Json) → Bool
  | [] => true
  | (_, v) :: kvs => v.dumpable && Json.dumpableMembers kvs

end

@[simp] theorem Json.dumpable_null : Json.null.dumpable = true := rfl
@[simp] theorem Json.dumpable_str (s : StdString) : (Json.str s).dumpable = s.isUtf8 := rfl
@[simp] theorem Json.dumpable_obj (kvs : List (String × Json)) :
    (Json.obj kvs).dumpable = Json.dumpableMembers kvs := rfl
@[simp] theorem Json.dumpableMembers_nil : Json.dumpableMembers [] = true := rfl
@[simp] theorem Json.dumpableMembers_cons (k : String) (v : Json) (kvs : List (String × Json)) :
    Json.dumpableMembers ((k, v) :: kvs) = (v.dumpable && Json.dumpableMembers kvs) := rfl

/-- How an access to a `nlohmann::json` fails: `type_error` thrown by `get<T>()` (302) or by
`operator[]` on a value that is not an object (305), or a read of a member that is not there,
which `operator[]` on a `const json` leaves undefined. -/
inductive JsonFault where
  | typeError (id : Nat)
  | missingMember (key : String)
  deriving DecidableEq, Repr

/-- Binding a value that was returned runs the rest on it. -/
@[simp] theorem Except.ok_bind {ε α β : Type} (a : α) (f : α → Except ε β) :
    (Except.ok a >>= f) = f a := rfl

namespace Json

/-- `j[key]` on a `const json&`. -/
def index : Json → String → Except JsonFault Json
  | .obj kvs, key => match kvs.lookup key with
    | some v => .ok v
    | none => .error (.missingMember key)
  | _, _ => .error (.typeError 305)

/-- `j.is_null()`. -/
def isNull : Json → Bool
  | .null => true
  | _ => false

/-- `j.get<std::string>()`. -/
def getString : Json → Except JsonFault StdString
  | .str s => .ok s
  | _ => .error (.typeError 302)

theorem index_obj_of_lookup {kvs : List (String × Json)} {key : String} {v : Json}
    (h : kvs.lookup key = some v) : (Json.obj kvs).index key = .ok v := by
  simp [index, h]

end Json

/-! ## Registered message types -/

/-- The C++ type of a field a `REGISTER_REMOTE_MESSAGE_N` names: `int`, `bool` or `std::string`. -/
inductive FieldType where
  | int
  | bool
  | string
  deriving DecidableEq, Repr

/-- The value of such a field; an `int` is 32 bits wide, a `std::string` any bytes. -/
inductive Value where
  | int (n : BitVec 32)
  | bool (b : Bool)
  | str (s : StdString)
  deriving DecidableEq, Repr

/-- The type of the field a value is held in. -/
def Value.type : Value → FieldType
  | .int _ => .int
  | .bool _ => .bool
  | .str _ => .string

/-- The JSON value `nlohmann::json` makes of a field (`{#f, msg->f}`). -/
def Value.toJson : Value → Json
  | .int n => .num n.toInt
  | .bool b => .bool b
  | .str s => .str s

/-- Whether `dump()` prints a field's value: a string one must be UTF-8. -/
def Value.isUtf8 : Value → Bool
  | .str s => s.isUtf8
  | _ => true

@[simp] theorem Value.dumpable_toJson (v : Value) : v.toJson.dumpable = v.isUtf8 := by
  cases v <;> rfl

/-- `j.get<T>()` for a field type `T`. nlohmann converts numbers and booleans to `int`, wrapping
to 32 bits, and takes only a boolean as a `bool` and only a string as a `std::string`. -/
def Json.get : FieldType → Json → Except JsonFault Value
  | .int, .num n => .ok (.int (BitVec.ofInt 32 n))
  | .int, .bool b => .ok (.int (if b then 1 else 0))
  | .bool, .bool b => .ok (.bool b)
  | .string, .str s => .ok (.str s)
  | _, _ => .error (.typeError 302)

@[simp] theorem Json.get_toJson (v : Value) : Json.get v.type v.toJson = .ok v := by
  cases v with
  | int n =>
    have hn : BitVec.ofInt 32 n.toInt = n :=
      BitVec.eq_of_toInt_eq (by rw [BitVec.toInt_ofInt, BitVec.toInt_eq_toNat_bmod, Int.bmod_bmod])
    show Except.ok (Value.int (BitVec.ofInt 32 n.toInt)) = _
    rw [hn]
  | bool b => rfl
  | str s => rfl

/-- A message of a registered type: its identity (`get_message_id()`) and the values of the fields
its registration names, in that order. -/
structure Msg where
  id : Int
  vals : List Value
  deriving DecidableEq, Repr

/-- `REGISTER_REMOTE_MESSAGE_N(Type, f1, t1, ..., fN, tN)`: the wire name `#Type`, an identifier
and so never empty, the identity `Type().get_message_id()`, and the fields. -/
structure MessageType where
  name : StdString
  id : Int
  fields : List (String × FieldType)
  name_ne : name.empty = false

/-- `m` is a message of type `τ`: its identity, and one value of the right type per field. -/
def MessageType.Fits (τ : MessageType) (m : Msg) : Prop :=
  m.id = τ.id ∧ m.vals.map Value.type = τ.fields.map Prod.snd

namespace MessageType

variable (τ : MessageType)

/-- The serializer the macro registers: `nlohmann::json{{#f1, msg->f1}, ..., {#fN, msg->fN}}`,
and `json::object()` for no fields. -/
def serialize (m : Msg) : Json :=
  .obj ((τ.fields.map Prod.fst).zip (m.vals.map Value.toJson))

theorem dumpableMembers_zip : ∀ (ks : List String) (vs : List Value), ks.length = vs.length →
    Json.dumpableMembers (ks.zip (vs.map Value.toJson)) = vs.all Value.isUtf8
  | [], [], _ => rfl
  | _ :: ks, v :: vs, hl => by
    simp only [List.map_cons, List.zip_cons_cons, Json.dumpableMembers_cons, Value.dumpable_toJson,
      List.all_cons, dumpableMembers_zip ks vs (Nat.succ.inj hl)]

/-- What the serializer writes for a message of the type prints exactly when every string field
is UTF-8. -/
theorem dumpable_serialize {m : Msg} (hm : τ.Fits m) :
    (τ.serialize m).dumpable = m.vals.all Value.isUtf8 := by
  have hlen : (τ.fields.map Prod.fst).length = m.vals.length := by
    rw [List.length_map, ← List.length_map m.vals Value.type, hm.2, List.length_map]
  rw [serialize, Json.dumpable_obj, dumpableMembers_zip _ _ hlen]

/-- Reads every field of `j` as the macro's deserializer does. -/
def getFields (j : Json) : List (String × FieldType) → Except JsonFault (List Value) :=
  List.mapM fun f => do Json.get f.2 (← j.index f.1)

/-- The deserializer the macro registers: `new Type(j[#f1].get<t1>(), ..., j[#fN].get<tN>())`,
which is never null. -/
def deserialize (j : Json) : Except JsonFault (Option Msg) := do
  let vals ← getFields j τ.fields
  pure (some ⟨τ.id, vals⟩)

/-- Reading the fields from an object whose members are `pre` then the fields' values: `pre`
holds none of the fields, so each is read at its own value. -/
theorem getFields_zip (kvs : List (String × Json)) :
    ∀ (fs : List (String × FieldType)) (vs : List Value) (pre : List (String × Json)),
      kvs = pre ++ (fs.map Prod.fst).zip (vs.map Value.toJson) →
      (fs.map Prod.fst).Nodup → vs.map Value.type = fs.map Prod.snd →
      (∀ f ∈ fs, pre.lookup f.1 = none) → getFields (.obj kvs) fs = .ok vs
  | [], [], _, _, _, _, _ => rfl
  | [], _ :: _, _, _, _, h, _ => by cases h
  | _ :: _, [], _, _, _, h, _ => by cases h
  | f :: fs, v :: vs, pre, hk, hnd, hty, hpre => by
    simp only [List.map_cons, List.cons.injEq, List.nodup_cons] at hty hnd
    have hlook : kvs.lookup f.1 = some v.toJson := by
      simp [hk, List.lookup_append, hpre f (List.mem_cons_self _ _)]
    have hrest : getFields (.obj kvs) fs = .ok vs := by
      refine getFields_zip kvs fs vs (pre ++ [(f.1, v.toJson)]) (by simp [hk]) hnd.2 hty.2 ?_
      intro g hg
      have hne : (g.1 == f.1) = false :=
        beq_false_of_ne fun he => hnd.1 (he ▸ List.mem_map_of_mem Prod.fst hg)
      simp [List.lookup_append, hpre g (List.mem_cons_of_mem _ hg), List.lookup_cons, hne]
    have hv : Json.get f.2 v.toJson = .ok v := by rw [← hty.1, Json.get_toJson]
    simp only [getFields, List.mapM_cons] at hrest ⊢
    simp only [Json.index_obj_of_lookup hlook, Except.ok_bind, hv, hrest]
    rfl

/-- The macro's deserializer reads back what its serializer wrote, when the field names are
distinct. -/
theorem deserialize_serialize {m : Msg} (hm : τ.Fits m) (hnd : (τ.fields.map Prod.fst).Nodup) :
    τ.deserialize (τ.serialize m) = .ok (some m) := by
  have hf := getFields_zip _ τ.fields m.vals [] rfl hnd hm.2 (by simp)
  rw [List.nil_append] at hf
  simp only [deserialize, serialize, hf, ← hm.1]
  rfl

/-- What the macro's deserializer builds has the type's identity. -/
theorem id_of_deserialize {j : Json} {m : Msg} (h : τ.deserialize j = .ok (some m)) : m.id = τ.id := by
  simp only [deserialize] at h
  cases hg : getFields j τ.fields with
  | error e => rw [hg] at h; cases h
  | ok vs => rw [hg] at h; cases h; rfl

end MessageType

/-! ## The registry -/

/-- `RegistryEntry`: the wire name and the two functions registered for an identity. -/
structure RegistryEntry where
  typeName : StdString
  serialize : Msg → Json
  deserialize : Json → Except JsonFault (Option Msg)

/-- `MessageRegistry`: `id_to_entry_` and `name_to_entry_`. -/
structure MessageRegistry where
  idToEntry : Int → Option RegistryEntry
  nameToEntry : StdString → Option RegistryEntry

namespace MessageRegistry

/-- The registry before the first static initializer runs. -/
def empty : MessageRegistry := ⟨fun _ => none, fun _ => none⟩

/-- `register_message`, the registry's only mutator. -/
def registerMessage (r : MessageRegistry) (msgId : Int) (typeName : StdString)
    (serialize : Msg → Json) (deserialize : Json → Except JsonFault (Option Msg)) :
    MessageRegistry :=
  let entry : RegistryEntry := ⟨typeName, serialize, deserialize⟩
  ⟨Function.update r.idToEntry msgId (some entry), Function.update r.nameToEntry typeName (some entry)⟩

/-- `get_type_name`; empty for an identity with no entry. -/
def getTypeName (r : MessageRegistry) (msgId : Int) : StdString :=
  match r.idToEntry msgId with
  | some e => e.typeName
  | none => ""

/-- `serialize`; the `std::runtime_error` it throws for an identity with no entry. -/
def serialize (r : MessageRegistry) (msg : Msg) : Except String Json :=
  match r.idToEntry msg.id with
  | some e => .ok (e.serialize msg)
  | none => .error ("Message type not registered: " ++ toString msg.id)

/-- `deserialize`; `none` is the null pointer returned for an unknown wire name. -/
def deserialize (r : MessageRegistry) (typeName : StdString) (data : Json) :
    Except JsonFault (Option Msg) :=
  match r.nameToEntry typeName with
  | some e => e.deserialize data
  | none => .ok none

/-- `is_registered`. -/
def isRegistered (r : MessageRegistry) (typeName : StdString) : Bool :=
  (r.nameToEntry typeName).isSome

end MessageRegistry

/-- The entry a `REGISTER_REMOTE_MESSAGE_N` registration writes. -/
def MessageType.entry (τ : MessageType) : RegistryEntry := ⟨τ.name, τ.serialize, τ.deserialize⟩

/-- The static initializer `REGISTER_REMOTE_MESSAGE_N(Type, ...)` expands to. -/
def MessageType.register (τ : MessageType) (r : MessageRegistry) : MessageRegistry :=
  r.registerMessage τ.id τ.name τ.serialize τ.deserialize

/-- Static initializers, run in order. -/
def registerAll : List MessageType → MessageRegistry → MessageRegistry
  | [], r => r
  | τ :: ts, r => registerAll ts (τ.register r)

/-- `msg::Reject` (identity 9), registered by hand in `Reject.hpp` with the serializer and the
deserializer the macro writes for its three string fields. -/
def rejectType : MessageType :=
  ⟨"Reject", 9, [("message_type", .string), ("reason", .string), ("rejected_by", .string)],
    by decide⟩

/-- `msg::Reject(msg_type, reason, rejected_by)`. -/
def reject (msgType reason rejectedBy : StdString) : Msg :=
  ⟨9, [.str msgType, .str reason, .str rejectedBy]⟩

/-! ## Consistency of the two maps -/

namespace MessageRegistry

/-- Each entry of either map is the entry of a type of `ts`, found both under its identity and
under its wire name. -/
structure Consistent (ts : List MessageType) (r : MessageRegistry) : Prop where
  byId : ∀ i e, r.idToEntry i = some e →
    ∃ τ ∈ ts, τ.id = i ∧ e = τ.entry ∧ r.nameToEntry τ.name = some e
  byName : ∀ n e, r.nameToEntry n = some e →
    ∃ τ ∈ ts, τ.name = n ∧ e = τ.entry ∧ r.idToEntry τ.id = some e

theorem consistent_empty : Consistent [] empty :=
  ⟨(fun _ _ h => by cases h), (fun _ _ h => by cases h)⟩

theorem Consistent.mono {ts ts' : List MessageType} {r : MessageRegistry} (h : Consistent ts r)
    (hs : ts ⊆ ts') : Consistent ts' r := by
  refine ⟨fun i e he => ?_, fun n e he => ?_⟩
  · obtain ⟨τ, hτ, h'⟩ := h.byId i e he; exact ⟨τ, hs hτ, h'⟩
  · obtain ⟨τ, hτ, h'⟩ := h.byName n e he; exact ⟨τ, hs hτ, h'⟩

/-- A registration whose identity and wire name go together, for every type registered before,
keeps the maps consistent. -/
theorem Consistent.register {ts : List MessageType} {r : MessageRegistry} (h : Consistent ts r)
    {τ : MessageType} (hc : ∀ τ' ∈ ts, τ.id = τ'.id ↔ τ.name = τ'.name) :
    Consistent (τ :: ts) (τ.register r) := by
  refine ⟨fun i e he => ?_, fun n e he => ?_⟩
  · by_cases hi : i = τ.id
    · subst hi
      simp only [MessageType.register, registerMessage, Function.update_same,
        Option.some.injEq] at he ⊢
      exact ⟨τ, List.mem_cons_self _ _, rfl, he.symm, by rw [← he]; exact Function.update_same _ _ _⟩
    · simp only [MessageType.register, registerMessage, Function.update_noteq hi] at he ⊢
      obtain ⟨τ', hτ', rfl, rfl, hn⟩ := h.byId _ e he
      have hn' : τ'.name ≠ τ.name := fun hn' => hi ((hc τ' hτ').2 hn'.symm).symm
      exact ⟨τ', List.mem_cons_of_mem _ hτ', rfl, rfl, by rw [Function.update_noteq hn', hn]⟩
  · by_cases hn : n = τ.name
    · subst hn
      simp only [MessageType.register, registerMessage, Function.update_same,
        Option.some.injEq] at he ⊢
      exact ⟨τ, List.mem_cons_self _ _, rfl, he.symm, by rw [← he]; exact Function.update_same _ _ _⟩
    · simp only [MessageType.register, registerMessage, Function.update_noteq hn] at he ⊢
      obtain ⟨τ', hτ', rfl, rfl, hi⟩ := h.byName _ e he
      have hi' : τ'.id ≠ τ.id := fun hi' => hn ((hc τ' hτ').1 hi'.symm).symm
      exact ⟨τ', List.mem_cons_of_mem _ hτ', rfl, rfl, by rw [Function.update_noteq hi', hi]⟩

/-- Registering the types of `ts` in order after those of `acc` keeps the maps consistent, when
equal identities go with equal wire names throughout. -/
theorem Consistent.registerAll :
    ∀ (ts : List MessageType) {acc : List MessageType} {r : MessageRegistry}, Consistent acc r →
      (∀ τ ∈ ts, ∀ τ' ∈ acc ++ ts, τ.id = τ'.id ↔ τ.name = τ'.name) →
      Consistent (acc ++ ts) (Actors.registerAll ts r)
  | [], _, _, h, _ => by simpa using h
  | τ :: ts, acc, r, h, hc => by
    have hsub : τ :: acc ++ ts ⊆ acc ++ τ :: ts := List.perm_middle.symm.subset
    have h1 := h.register fun τ' hτ' => hc τ (List.mem_cons_self _ _) τ' (List.mem_append_left _ hτ')
    exact (Consistent.registerAll ts h1 fun σ hσ σ' hσ' =>
      hc σ (List.mem_cons_of_mem _ hσ) σ' (hsub hσ')).mono hsub

/-- Registration never removes an identity: after the types of `ts` are registered, every
identity that had an entry, and every identity of `ts`, has one. -/
theorem isSome_registerAll :
    ∀ (ts : List MessageType) {r : MessageRegistry} {i : Int},
      (r.idToEntry i).isSome ∨ (∃ τ ∈ ts, τ.id = i) → ((Actors.registerAll ts r).idToEntry i).isSome
  | [], _, _, h => h.resolve_right (by simp)
  | τ :: ts, r, i, h => isSome_registerAll ts <| by
    by_cases hi : i = τ.id
    · left; simp [hi, MessageType.register, registerMessage]
    · rcases h with h | ⟨σ, hσ, rfl⟩
      · left; simpa [MessageType.register, registerMessage, Function.update_noteq hi] using h
      · rcases List.mem_cons.1 hσ with rfl | hσ
        · exact absurd rfl hi
        · exact .inr ⟨σ, hσ, rfl⟩

/-- In a consistent registry, a registered identity's wire name is registered, and a message of
its type, with distinct field names, comes back from the wire name and the serialized JSON. -/
theorem Consistent.round_trip {ts : List MessageType} {r : MessageRegistry} (h : Consistent ts r)
    {i : Int} {e : RegistryEntry} (he : r.idToEntry i = some e) :
    ∃ τ ∈ ts, τ.id = i ∧ r.getTypeName i = τ.name ∧ r.isRegistered τ.name ∧
      ∀ m, τ.Fits m → (τ.fields.map Prod.fst).Nodup →
        r.serialize m = .ok (τ.serialize m) ∧ r.deserialize τ.name (τ.serialize m) = .ok (some m) := by
  obtain ⟨τ, hτ, rfl, rfl, hn⟩ := h.byId i e he
  refine ⟨τ, hτ, rfl, by simp [getTypeName, he, MessageType.entry], by simp [isRegistered, hn],
    fun m hm hnd => ⟨?_, ?_⟩⟩
  · simp [serialize, hm.1, he, MessageType.entry]
  · simp only [deserialize, hn, MessageType.entry]
    exact τ.deserialize_serialize hm hnd

/-- In a consistent registry, what a wire name decodes to has an identity of that wire name. -/
theorem Consistent.getTypeName_of_deserialize {ts : List MessageType} {r : MessageRegistry}
    (h : Consistent ts r) {n : StdString} {j : Json} {m : Msg}
    (hd : r.deserialize n j = .ok (some m)) : r.getTypeName m.id = n := by
  unfold deserialize at hd
  cases hn : r.nameToEntry n with
  | none => rw [hn] at hd; cases hd
  | some e =>
    rw [hn] at hd
    obtain ⟨τ, -, rfl, rfl, hi⟩ := h.byName _ e hn
    rw [τ.id_of_deserialize hd]
    simp [getTypeName, hi, MessageType.entry]

end MessageRegistry

/-! ## The types of the remote examples, and two types of one wire name -/

/-- `Ping` of `examples/remote_ping.cpp`: `REGISTER_REMOTE_MESSAGE_1(Ping, count, int)` on a
`Message_N<100>`. -/
def pingType : MessageType := ⟨"Ping", 100, [("count", .int)], by decide⟩

/-- `Pong`: `REGISTER_REMOTE_MESSAGE_1(Pong, count, int)` on a `Message_N<101>`. -/
def pongType : MessageType := ⟨"Pong", 101, [("count", .int)], by decide⟩

/-- A second `Ping`, a `Message_N<101>` declared in another namespace: the macro gives it the same
wire name, since `#Type` is the unqualified name. -/
def otherPingType : MessageType := ⟨"Ping", 101, [("count", .int)], by decide⟩

/-- After static initializers in which equal identities go with equal wire names, the identity of
every registered type is in the identity map, under that type's own wire name; each registered
identity has a non-empty wire name, registered, under which a message of its type with distinct
field names comes back unchanged from its serialized JSON; and what a wire name decodes to has an
identity of that wire name. -/
theorem registry_round_trip (ts : List MessageType)
    (hc : ∀ τ ∈ ts, ∀ τ' ∈ ts, τ.id = τ'.id ↔ τ.name = τ'.name) :
    (∀ τ ∈ ts, ((registerAll ts .empty).idToEntry τ.id).isSome ∧
      (registerAll ts .empty).getTypeName τ.id = τ.name) ∧
    (∀ i, ((registerAll ts .empty).idToEntry i).isSome →
      ∃ τ ∈ ts, τ.id = i ∧ (registerAll ts .empty).getTypeName i = τ.name ∧ τ.name.empty = false ∧
        (registerAll ts .empty).isRegistered τ.name ∧
        ∀ m, τ.Fits m → (τ.fields.map Prod.fst).Nodup →
          ∃ j, (registerAll ts .empty).serialize m = .ok j ∧
            (registerAll ts .empty).deserialize τ.name j = .ok (some m)) ∧
    (∀ n j m, (registerAll ts .empty).deserialize n j = .ok (some m) →
      (registerAll ts .empty).getTypeName m.id = n) := by
  have h : MessageRegistry.Consistent ts (registerAll ts .empty) :=
    MessageRegistry.consistent_empty.registerAll ts hc
  refine ⟨fun τ hτ => ?_, fun i hi => ?_, fun n j m hd => h.getTypeName_of_deserialize hd⟩
  · have hs : ((registerAll ts .empty).idToEntry τ.id).isSome :=
      MessageRegistry.isSome_registerAll ts (.inr ⟨τ, hτ, rfl⟩)
    obtain ⟨e, he⟩ := Option.isSome_iff_exists.1 hs
    -- the entry under `τ.id` is that of a type of the same identity, hence of the same name
    obtain ⟨τ', hτ', hid, hn, -⟩ := h.round_trip he
    exact ⟨hs, hn.trans ((hc τ' hτ' τ hτ).1 hid)⟩
  · obtain ⟨e, he⟩ := Option.isSome_iff_exists.1 hi
    obtain ⟨τ, hτ, rfl, hn, hr, hrt⟩ := h.round_trip he
    exact ⟨τ, hτ, rfl, hn, τ.name_ne, hr, fun m hm hnd => ⟨_, hrt m hm hnd⟩⟩

theorem registry_round_trip_examples :
    (∀ τ ∈ [rejectType, pingType, pongType], ∀ τ' ∈ [rejectType, pingType, pongType],
      τ.id = τ'.id ↔ τ.name = τ'.name) ∧
    (∀ τ ∈ [rejectType, pingType, pongType],
      ((registerAll [rejectType, pingType, pongType] .empty).idToEntry τ.id).isSome ∧
      (registerAll [rejectType, pingType, pongType] .empty).getTypeName τ.id = τ.name) ∧
    (∀ i, ((registerAll [rejectType, pingType, pongType] .empty).idToEntry i).isSome →
      ∃ τ ∈ [rejectType, pingType, pongType], τ.id = i ∧
        (registerAll [rejectType, pingType, pongType] .empty).getTypeName i = τ.name ∧
        τ.name.empty = false ∧ (registerAll [rejectType, pingType, pongType] .empty).isRegistered τ.name ∧
        ∀ m, τ.Fits m → (τ.fields.map Prod.fst).Nodup →
          ∃ j, (registerAll [rejectType, pingType, pongType] .empty).serialize m = .ok j ∧
            (registerAll [rejectType, pingType, pongType] .empty).deserialize τ.name j = .ok (some m)) ∧
    (∀ n j m, (registerAll [rejectType, pingType, pongType] .empty).deserialize n j = .ok (some m) →
      (registerAll [rejectType, pingType, pongType] .empty).getTypeName m.id = n) :=
  have hc : ∀ τ ∈ [rejectType, pingType, pongType], ∀ τ' ∈ [rejectType, pingType, pongType],
      τ.id = τ'.id ↔ τ.name = τ'.name := by decide
  ⟨hc, registry_round_trip _ hc⟩

/-- Two identities under the wire name `Ping`: a `Ping` of identity 100 is sent under `Ping`, and
`Ping` decodes it as a message of identity 101. -/
theorem registry_shared_name :
    (registerAll [pingType, otherPingType] .empty).getTypeName 100 = "Ping" ∧
    (registerAll [pingType, otherPingType] .empty).serialize ⟨100, [.int 1]⟩ =
      .ok (.obj [("count", .num 1)]) ∧
    (registerAll [pingType, otherPingType] .empty).deserialize "Ping" (.obj [("count", .num 1)]) =
      .ok (some ⟨101, [.int 1]⟩) :=
  ⟨rfl, rfl, rfl⟩

end Actors
