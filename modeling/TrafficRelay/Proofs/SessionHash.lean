import Mathlib.Data.List.Forall2
import Mathlib.Data.Nat.Bitwise
import Mathlib.Data.Nat.ModEq
import TrafficRelay.Proofs.SessionPlacement

/-!
# The session hash

Each round of the hash is one-to-one in the state and in the byte, because its factor is
odd and so has an inverse.  Hence two keys that differ in a single byte never have the
same hash.  On the other hand a round carries nothing from higher bits to lower ones.
Among a power of two of outputs, the low bits of the bytes of a key alone decide which
output it is bound to.
-/

namespace TrafficRelay

namespace SessionKey

/-- The inverse of the factor of the hash. -/
def hashFactorInverse : UInt64 := 0xce965057aff6957b

theorem hashFactor_mul_inverse : hashFactor * hashFactorInverse = 1 := by decide

theorem hashFrom_cons (state : UInt64) (byte : UInt8) (bytes : Bytes) :
    hashFrom state (byte :: bytes) = hashFrom (hashStep state byte) bytes := rfl

theorem hashFrom_append (state : UInt64) (front back : Bytes) :
    hashFrom state (front ++ back) = hashFrom (hashFrom state front) back :=
  List.foldl_append

theorem mul_hashFactor_injective : Function.Injective fun word => word * hashFactor := by
  intro word other same
  have restored := congrArg (fun product => product * hashFactorInverse) same
  simpa only [UInt64.mul_assoc, hashFactor_mul_inverse, UInt64.mul_one] using restored

/-- Different states stay different when they take in the same byte. -/
theorem hashStep_injective_state (byte : UInt8) :
    Function.Injective fun state => hashStep state byte := by
  intro state other same
  exact (UInt64.xor_left_inj byte.toUInt64).mp (mul_hashFactor_injective same)

/-- Different bytes make the same state into different ones. -/
theorem hashStep_injective_byte (state : UInt64) : Function.Injective (hashStep state) := by
  intro byte other same
  have words := (UInt64.xor_right_inj state).mp (mul_hashFactor_injective same)
  exact UInt8.toUInt64_inj.mp words

theorem hashFrom_injective_state (bytes : Bytes) :
    Function.Injective fun state => hashFrom state bytes := by
  induction bytes with
  | nil => exact Function.injective_id
  | cons byte bytes induction => exact induction.comp (hashStep_injective_state byte)

/-- The byte between two byte strings can be told from the hash. -/
theorem hashFrom_injective_byte (state : UInt64) (front back : Bytes) :
    Function.Injective fun byte => hashFrom state (front ++ byte :: back) := by
  intro byte other same
  simp only [hashFrom_append, hashFrom_cons] at same
  exact hashStep_injective_byte _ (hashFrom_injective_state back same)

end SessionKey

/-- Byte strings that agree except in one place have the same front and the same back. -/
theorem Bytes.exists_split {bytes other : Bytes} {place : Nat}
    (differ : bytes[place]? ≠ other[place]?)
    (agree : ∀ elsewhere, elsewhere ≠ place → bytes[elsewhere]? = other[elsewhere]?)
    (length_eq : bytes.length = other.length) :
    ∃ front byte otherByte back, byte ≠ otherByte ∧
      bytes = front ++ byte :: back ∧ other = front ++ otherByte :: back := by
  have inRange : place < bytes.length := by
    by_contra beyond
    apply differ
    rw [List.getElem?_eq_none (Nat.le_of_not_lt beyond),
      List.getElem?_eq_none (length_eq ▸ Nat.le_of_not_lt beyond)]
  have otherInRange : place < other.length := length_eq ▸ inRange
  have replaced : other = bytes.set place other[place] := by
    apply List.ext_getElem?
    intro elsewhere
    by_cases same : elsewhere = place
    · subst same
      rw [List.getElem?_set_self inRange, List.getElem?_eq_getElem otherInRange]
    · rw [List.getElem?_set_ne (Ne.symm same), agree elsewhere same]
  refine ⟨bytes.take place, bytes[place], other[place], bytes.drop (place + 1), ?_, ?_, ?_⟩
  · intro same
    apply differ
    rw [List.getElem?_eq_getElem inRange, List.getElem?_eq_getElem otherInRange, same]
  · rw [List.getElem_cons_drop, List.take_append_drop]
  · conv_lhs => rw [replaced, List.set_eq_take_append_cons_drop, if_pos inRange]

/-- Keys that differ in one byte, wherever it is, have different hashes; whatever stands
before and after a byte, the hash tells which one it is. -/
theorem SessionKey.hash_separates_one_byte :
    (∀ (session other : SessionKey) (place : Nat),
      session.bytes[place]? ≠ other.bytes[place]? →
      (∀ elsewhere, elsewhere ≠ place → session.bytes[elsewhere]? = other.bytes[elsewhere]?) →
      session.hash ≠ other.hash) ∧
    ∀ front back : Bytes,
      Function.Injective fun byte => hashFrom hashBasis (front ++ byte :: back) := by
  constructor
  · intro session other place differ agree same
    have lengths := session.length_eq.trans other.length_eq.symm
    obtain ⟨front, byte, otherByte, back, different, left, right⟩ :=
      Bytes.exists_split differ agree lengths
    rw [hash, hash, left, right] at same
    exact different (hashFrom_injective_byte hashBasis front back same)
  · intro front back
    exact hashFrom_injective_byte hashBasis front back

/-- Two keys that differ in the lowest bit of their tenth byte. -/
theorem SessionKey.hash_separates_one_byte_lowest_bit :
    let session : SessionKey := ⟨List.replicate 20 97, rfl⟩
    let other : SessionKey := ⟨(List.replicate 20 97).set 9 96, rfl⟩
    session.bytes[9]? ≠ other.bytes[9]? ∧ session.hash ≠ other.hash := by
  intro session other
  have differ : session.bytes[9]? ≠ other.bytes[9]? := by decide
  have agree (elsewhere : Nat) (apart : elsewhere ≠ 9) :
      session.bytes[elsewhere]? = other.bytes[elsewhere]? :=
    (List.getElem?_set_ne apart.symm).symm
  exact ⟨differ, SessionKey.hash_separates_one_byte.1 session other 9 differ agree⟩

namespace SessionKey

/-- Two keys agree in so many of the lowest bits of each byte. -/
def AgreesBelow (bits : Nat) (session other : SessionKey) : Prop :=
  List.Forall₂ (fun byte otherByte => byte.toNat ≡ otherByte.toNat [MOD 2 ^ bits])
    session.bytes other.bytes

instance (bits : Nat) (session other : SessionKey) :
    Decidable (session.AgreesBelow bits other) :=
  inferInstanceAs (Decidable (List.Forall₂ _ _ _))

/-- A byte has eight bits only, so that those that agree in them are equal. -/
theorem modEq_of_min {bits : Nat} {byte other : UInt8}
    (agree : byte.toNat ≡ other.toNat [MOD 2 ^ min bits 8]) :
    byte.toNat ≡ other.toNat [MOD 2 ^ bits] := by
  rcases Nat.le_total bits 8 with few | many
  · rwa [Nat.min_eq_left few] at agree
  · rw [Nat.min_eq_right many] at agree
    rw [agree.eq_of_lt_of_lt byte.toNat_lt other.toNat_lt]

/-- The low bits of a state after a round come from the low bits before it and those of
the byte. -/
theorem hashStep_modEq {bits : Nat} (few : bits ≤ 64) {state other : UInt64}
    {byte otherByte : UInt8} (states : state.toNat ≡ other.toNat [MOD 2 ^ bits])
    (agree : byte.toNat ≡ otherByte.toNat [MOD 2 ^ bits]) :
    (hashStep state byte).toNat ≡ (hashStep other otherByte).toNat [MOD 2 ^ bits] := by
  have divides : 2 ^ bits ∣ 2 ^ 64 := Nat.pow_dvd_pow 2 few
  have wrapped (product : Nat) : product % 2 ^ 64 ≡ product [MOD 2 ^ bits] :=
    (Nat.mod_modEq product (2 ^ 64)).of_dvd divides
  have mixed : state.toNat ^^^ byte.toNat ≡ other.toNat ^^^ otherByte.toNat
      [MOD 2 ^ bits] := by
    rw [Nat.ModEq, Nat.xor_mod_two_pow, Nat.xor_mod_two_pow, states, agree]
  rw [toNat_hashStep, toNat_hashStep]
  exact (wrapped _).trans ((mixed.mul_right _).trans (wrapped _).symm)

theorem hashFrom_modEq {bits : Nat} (few : bits ≤ 64) {state other : UInt64}
    {bytes otherBytes : Bytes} (states : state.toNat ≡ other.toNat [MOD 2 ^ bits])
    (agree : List.Forall₂ (fun byte otherByte => byte.toNat ≡ otherByte.toNat [MOD 2 ^ bits])
      bytes otherBytes) :
    (hashFrom state bytes).toNat ≡ (hashFrom other otherBytes).toNat [MOD 2 ^ bits] := by
  induction agree generalizing state other with
  | nil => exact states
  | cons byte bytes induction => exact induction (hashStep_modEq few states byte)

namespace AgreesBelow

variable {bits : Nat} {session other : SessionKey}

theorem hash_modEq (agrees : session.AgreesBelow (min bits 8) other) (few : bits ≤ 64) :
    session.hash.toNat ≡ other.hash.toNat [MOD 2 ^ bits] :=
  hashFrom_modEq few rfl (agrees.imp fun _ _ => modEq_of_min)

theorem boundOutput_eq (agrees : session.AgreesBelow (min bits 8) other) (few : bits ≤ 64) :
    session.boundOutput (2 ^ bits) = other.boundOutput (2 ^ bits) :=
  agrees.hash_modEq few

end AgreesBelow

/-- The parity of a state after some bytes is that of the sum of the state and the bytes. -/
theorem hashFrom_parity (state : UInt64) (bytes : Bytes) :
    (hashFrom state bytes).toNat % 2 =
      (state.toNat + (bytes.map UInt8.toNat).sum) % 2 := by
  induction bytes generalizing state with
  | nil => rfl
  | cons byte bytes induction =>
      have mixed : (state.toNat ^^^ byte.toNat) % 2 = (state.toNat + byte.toNat) % 2 :=
        Nat.xor_mod_two_eq
      rw [hashFrom_cons, induction, toNat_hashStep, List.map_cons, List.sum_cons]
      omega

theorem boundOutput_two (session : SessionKey) :
    session.boundOutput 2 = (1 + (session.bytes.map UInt8.toNat).sum) % 2 := by
  have odd : hashBasis.toNat % 2 = 1 := by decide
  rw [boundOutput, hash, hashFrom_parity, Nat.add_mod, odd, Nat.add_mod_mod]

end SessionKey

/-- Under session affinity a router looks at a session for its bound output only. -/
theorem Router.select_congr_session {α : Type} {router : Router}
    (affinity : router.policy = .sessionAffinity) {outputs : List α}
    {session other : SessionKey}
    (same : session.boundOutput outputs.length = other.boundOutput outputs.length) :
    router.select session outputs = router.select other outputs := by
  simp only [select, affinity, same]

namespace Assembly

variable {assembly : Assembly} {signal : Signal} {now : Instant} {events : List Event}
  {last : Relay}

theorem placement_eq_boundOutput {frame : Bytes} {record : Record}
    (decoded : Record.decode frame = .ok record) (outputs : Nat) :
    placement outputs frame = record.session.boundOutput outputs := by
  rw [placement, ← Record.session_of_decode decoded, ← SessionKey.toNat_hash,
    SessionKey.boundOutput]

section

variable (steps : Relay.Steps (assembly.launch signal now) events last)
  (affinity : assembly.stages.router.policy = .sessionAffinity)
  (present : assembly.outputs ≠ [])

include steps affinity present

/-- A frame that is passed on goes to the output that its session is bound to. -/
theorem selected_eq_boundOutput {handling : Handling} {record : Record} {selected : List Nat}
    (handled : .handled handling ∈ (assembly.launch signal now).history events)
    (decoded : Record.decode handling.frame = .ok record)
    (routed : handling.decision = .routed selected) :
    selected = [record.session.boundOutput assembly.outputs.length] := by
  have passed : handling.passed? = some (handling.frame, selected) := by
    rw [Handling.passed?, routed]
  have taken : handling ∈ ((assembly.launch signal now).history events).filterMap
      Occurrence.handling? := List.mem_filterMap.mpr ⟨_, handled, rfl⟩
  have listed := List.mem_filterMap.mpr ⟨handling, taken, passed⟩
  rw [passed_of_affinity steps affinity present] at listed
  obtain ⟨⟨session, frame⟩, -, same⟩ := List.mem_map.mp listed
  obtain ⟨rfl, rfl⟩ := Prod.mk.inj same
  rw [placement_eq_boundOutput decoded]

/-- An output is offered a frame if the session of the frame is bound to it. -/
theorem offered_eq_boundOutput {reader output : Nat} {frame : Bytes} {record : Record}
    {refusal : Option IoError}
    (offered : .offered reader output frame refusal ∈
      (assembly.launch signal now).history events)
    (decoded : Record.decode frame = .ok record) :
    output = record.session.boundOutput assembly.outputs.length := by
  obtain ⟨-, -, -, placed⟩ := decoded_of_offered steps affinity present offered
  rw [placed, placement_eq_boundOutput decoded]

end

end Assembly

/-- Among a power of two of outputs, keys that agree in the low bits of each byte are bound
to the same one; between two outputs the parity of the bytes decides.  In a run under
session affinity, frames of such keys are never passed on or offered to different
outputs. -/
theorem SessionKey.low_bits_bind {bits : Nat} (few : bits ≤ 64) :
    (∀ session other : SessionKey, session.AgreesBelow (min bits 8) other →
      session.hash.toNat ≡ other.hash.toNat [MOD 2 ^ bits] ∧
      session.boundOutput (2 ^ bits) = other.boundOutput (2 ^ bits) ∧
      ∀ {α : Type} (router : Router) (outputs : List α),
        router.policy = .sessionAffinity → outputs.length = 2 ^ bits →
        router.select session outputs = router.select other outputs) ∧
    (∀ session : SessionKey,
      session.boundOutput 2 = (1 + (session.bytes.map UInt8.toNat).sum) % 2) ∧
    ∀ (assembly : Assembly) (signal : Signal) (now : Instant) {events : List Event}
      {last : Relay},
      (assembly.launch signal now).run? events = some last →
      assembly.stages.router.policy = .sessionAffinity →
      assembly.outputs.length = 2 ^ bits →
      let happened := (assembly.launch signal now).history events
      ∀ {frame otherFrame : Bytes} {record otherRecord : Record},
        Record.decode frame = .ok record → Record.decode otherFrame = .ok otherRecord →
        record.session.AgreesBelow (min bits 8) otherRecord.session →
        (∀ {reader instant selected otherReader otherInstant otherSelected},
          .handled ⟨reader, instant, frame, .routed selected⟩ ∈ happened →
          .handled ⟨otherReader, otherInstant, otherFrame, .routed otherSelected⟩ ∈ happened →
          selected = otherSelected) ∧
        ∀ {reader output refusal otherReader otherOutput otherRefusal},
          .offered reader output frame refusal ∈ happened →
          .offered otherReader otherOutput otherFrame otherRefusal ∈ happened →
          output = otherOutput := by
  refine ⟨?_, boundOutput_two, ?_⟩
  · intro session other agrees
    refine ⟨agrees.hash_modEq few, agrees.boundOutput_eq few, ?_⟩
    intro α router outputs affinity count
    apply Router.select_congr_session affinity
    rw [count]
    exact agrees.boundOutput_eq few
  · intro assembly signal now events last ran affinity count happened frame otherFrame record
      otherRecord decoded otherDecoded agrees
    have steps := Relay.run?_eq_some_iff.mp ran
    have present : assembly.outputs ≠ [] := by
      apply List.ne_nil_of_length_pos
      rw [count]
      exact Nat.two_pow_pos bits
    have same : record.session.boundOutput assembly.outputs.length =
        otherRecord.session.boundOutput assembly.outputs.length := by
      rw [count]
      exact agrees.boundOutput_eq few
    constructor
    · intro reader instant selected otherReader otherInstant otherSelected handled otherHandled
      have here := Assembly.selected_eq_boundOutput steps affinity present handled decoded rfl
      have there := Assembly.selected_eq_boundOutput steps affinity present otherHandled
        otherDecoded rfl
      rw [here, there, same]
    · intro reader output refusal otherReader otherOutput otherRefusal offered otherOffered
      have here := Assembly.offered_eq_boundOutput steps affinity present offered decoded
      have there := Assembly.offered_eq_boundOutput steps affinity present otherOffered
        otherDecoded
      rw [here, there, same]

/-- Two requests whose keys differ in the second bit of every byte come in at two inputs.
Once one of them has been offered to the second of two outputs, the other one can only be
offered there. -/
theorem SessionKey.low_bits_bind_second_bit :
    let get : Bytes := [71, 69, 84, 32]
    let ident : Ident := ⟨List.replicate 20 97 ++ [48, 48, 48, 48], by decide, by decide⟩
    let otherIdent : Ident := ⟨List.replicate 20 99 ++ [48, 48, 48, 48], by decide, by decide⟩
    let request : Record := ⟨⟨.request, ident, .full ⟨1⟩ 1⟩, get⟩
    let other : Record := ⟨⟨.request, otherIdent, .full ⟨1⟩ 1⟩, get⟩
    let stages : Stages := ⟨⟨⟨[]⟩, .empty 5 1 0⟩, .ofPolicy .sessionAffinity⟩
    let assembly : Assembly :=
      ⟨stages, [("a", .ofItems [.frame request.encode]), ("b", .ofItems [.frame other.encode])],
        ["x", "y"], false⟩
    let launched := assembly.launch .lowered 0
    let events : List Event := [.take 1, .take 0, .write 0 1 none, .write 1 1 none]
    1 ≤ 64 ∧ request.session.AgreesBelow (min 1 8) other.session ∧
      request.session.boundOutput 2 = 1 ∧ other.session.boundOutput 2 = 1 ∧
      ∃ last, launched.run? events = some last ∧
        ∀ {output refusal}, .offered 1 output other.encode refusal ∈ launched.history events →
          1 = output := by
  intro get ident otherIdent request other stages assembly launched events
  have runs : (launched.run? events).isSome = true := by decide +kernel
  obtain ⟨last, ran⟩ := Option.isSome_iff_exists.mp runs
  have agrees : request.session.AgreesBelow (min 1 8) other.session := by decide
  have offered : .offered 0 1 request.encode none ∈ launched.history events := by
    decide +kernel
  have few : 1 ≤ 64 := by decide
  obtain ⟨bound, parity, placed⟩ := SessionKey.low_bits_bind few
  have odd : request.session.boundOutput 2 = 1 := (parity request.session).trans (by decide)
  obtain ⟨-, same, -⟩ := bound request.session other.session agrees
  refine ⟨few, agrees, odd, same.symm.trans odd, last, ran, ?_⟩
  intro output refusal otherOffered
  exact (placed assembly .lowered 0 ran rfl rfl request.decode_encode other.decode_encode
    agrees).2 offered otherOffered

end TrafficRelay
