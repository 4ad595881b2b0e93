import TrafficRelay.Proofs.HeaderGrammar
import TrafficRelay.Proofs.OfferedFrames

/-!
# The placement of sessions

Under session affinity the output for a frame is computed from 20 of its bytes and from
the number of outputs.  Nothing else has a part in it: neither the rest of the frame,
nor the other frames, nor the turns that a router has taken.
-/

namespace TrafficRelay

namespace Bytes

/-- The 64-bit hash of Fowler, Noll and Vo that takes in each byte before it
multiplies. -/
def fnv1a (bytes : Bytes) : Nat :=
  bytes.foldl (fun state byte => (state ^^^ byte.toNat) * 1099511628211 % 2 ^ 64)
    14695981039346656037

/-- The bytes of a frame where its session key stands, after the kind and a space. -/
def sessionField (frame : Bytes) : Bytes := (frame.drop 2).take 20

end Bytes

theorem SessionKey.toNat_hashStep (state : UInt64) (byte : UInt8) :
    (hashStep state byte).toNat = (state.toNat ^^^ byte.toNat) * 1099511628211 % 2 ^ 64 := by
  rw [hashStep, UInt64.toNat_mul, UInt64.toNat_xor, UInt8.toNat_toUInt64]
  rfl

theorem SessionKey.toNat_hashFrom (state : UInt64) (bytes : Bytes) :
    (hashFrom state bytes).toNat =
      bytes.foldl (fun state byte => (state ^^^ byte.toNat) * 1099511628211 % 2 ^ 64)
        state.toNat := by
  induction bytes generalizing state with
  | nil => rfl
  | cons byte bytes induction =>
      rw [List.foldl_cons, ← toNat_hashStep, ← induction]
      rfl

theorem SessionKey.toNat_hash (session : SessionKey) :
    session.hash.toNat = Bytes.fnv1a session.bytes :=
  toNat_hashFrom hashBasis session.bytes

/-- In either form of a header the identity is the second of at least three fields. -/
theorem Header.Classifies.exists_fields {fields : List Bytes} {header : Header}
    (classifies : Classifies fields (.ok header)) :
    ∃ third others, fields = [header.kind.code] :: header.ident.bytes :: third :: others := by
  cases classifies with
  | capture => exact ⟨_, _, rfl⟩
  | full timestamp latency => exact ⟨_, _, rfl⟩

theorem Header.sessionField_of_ofLine {line : Bytes} {header : Header}
    (read : ofLine line = .ok header) (rest : Bytes) :
    header.ident.session.bytes = (line ++ rest).sessionField := by
  have pieces : Bytes.splitOn Bytes.space line = Bytes.splitOn Bytes.space line := rfl
  obtain ⟨nonempty, -, joined⟩ := Bytes.splitOn_eq_iff.mp pieces
  obtain ⟨third, others, fields⟩ := ((ofFields_eq_iff nonempty).mp read).exists_fields
  rw [fields, List.intercalate_cons_cons, List.intercalate_cons_cons] at joined
  have enough : 20 ≤ header.ident.bytes.length := by
    rw [header.ident.length_eq]
    decide
  rw [← joined, Bytes.sessionField]
  simp [Ident.session, List.take_append_of_le_length enough]

/-- Where a frame decodes, the key of its session is in its place. -/
theorem Record.session_of_decode {frame : Bytes} {record : Record}
    (decoded : decode frame = .ok record) : record.session.bytes = frame.sessionField := by
  by_cases present : Bytes.newline ∈ frame
  · obtain ⟨line, body, absent, rfl⟩ := Bytes.exists_line_of_newline_mem present
    rw [decode_line absent] at decoded
    cases read : Header.ofLine line with
    | error error =>
        rw [read] at decoded
        cases decoded
    | ok header =>
        rw [read] at decoded
        cases decoded
        exact Header.sessionField_of_ofLine read _
  · rw [decode, Bytes.cutLine?_eq_none present] at decoded
    cases decoded

/-- What the filter allows has been decoded. -/
theorem Filter.session_of_mem_allowed {filter : Filter} {frames : List (Instant × Bytes)}
    {session : SessionKey} {frame : Bytes} (member : (session, frame) ∈ filter.allowed frames) :
    ∃ record, Record.decode frame = .ok record ∧ record.session = session := by
  induction frames generalizing filter with
  | nil => cases member
  | cons entry frames induction =>
      obtain ⟨now, first⟩ := entry
      unfold allowed at member
      split at member
      · exact induction member
      · rename_i record decoded
        split at member
        · exact induction member
        · rcases List.mem_cons.mp member with same | later
          · cases same
            exact ⟨record, decoded, rfl⟩
          · exact induction later

/-- The output for a frame among so many. -/
def placement (outputs : Nat) (frame : Bytes) : Nat := frame.sessionField.fnv1a % outputs

namespace Assembly

variable {assembly : Assembly} {signal : Signal} {now : Instant} {events : List Event}
  {last : Relay}

theorem mem_allowed {happened : List Occurrence} {session : SessionKey} {frame : Bytes}
    (member : (session, frame) ∈ assembly.allowed happened) :
    ∃ record, Record.decode frame = .ok record ∧
      record.session.bytes = frame.sessionField ∧ session.bytes = frame.sessionField := by
  obtain ⟨record, decoded, rfl⟩ := Filter.session_of_mem_allowed member
  have field := Record.session_of_decode decoded
  exact ⟨record, decoded, field, field⟩

section

variable (steps : Relay.Steps (assembly.launch signal now) events last)
  (affinity : assembly.stages.router.policy = .sessionAffinity)
  (present : assembly.outputs ≠ [])

include steps affinity present

theorem passed_of_affinity :
    let happened := (assembly.launch signal now).history events
    (happened.filterMap Occurrence.handling?).filterMap Handling.passed? =
      (assembly.allowed happened).map fun (_, frame) =>
        (frame, [placement assembly.outputs.length frame]) := by
  intro happened
  have processes : assembly.stages.Processes assembly.outputs.length _ last.stages :=
    steps.processes
  have positive := List.length_pos_iff.mpr present
  rw [processes.passed fun _ _ => assembly.stages.router.turns.reading_toNat, affinity]
  conv_rhs => rw [← List.zipIdx_map_fst assembly.stages.router.turns.toNat
    (assembly.allowed happened), List.map_map]
  apply List.map_congr_left
  rintro ⟨⟨session, frame⟩, place⟩ member
  obtain ⟨-, -, -, field⟩ := mem_allowed (List.fst_mem_of_mem_zipIdx member)
  have chosen : Policy.sessionAffinity.choice assembly.outputs.length
      (Counter.reading place) session = [placement assembly.outputs.length frame] := by
    calc Policy.sessionAffinity.choice assembly.outputs.length (Counter.reading place) session
        = [session.hash.toNat % assembly.outputs.length] := pick_of_pos positive _
      _ = [placement assembly.outputs.length frame] := by
          rw [SessionKey.toNat_hash, field, placement]
  exact congrArg (Prod.mk frame) chosen

theorem offered_of_affinity (output : Nat) :
    let happened := (assembly.launch signal now).history events
    ((happened.filterMap (Occurrence.offer? output) ++ last.awaiting output).map Prod.snd).Perm
      (((assembly.allowed happened).map Prod.snd).filter
        fun frame => placement assembly.outputs.length frame = output) := by
  intro happened
  have offered := steps.offered_perm (Relay.launch_quiet assembly signal now) output
  rw [passed_of_affinity steps affinity present, List.filterMap_map] at offered
  rw [← List.filterMap_eq_filter, List.filterMap_map]
  refine offered.trans (.of_eq (List.filterMap_congr ?_))
  rintro ⟨session, frame⟩ -
  simp [Relay.passedTo?, Option.guard, eq_comm]

theorem decoded_of_offered {reader output : Nat} {frame : Bytes} {refusal : Option IoError}
    (offered : .offered reader output frame refusal ∈
      (assembly.launch signal now).history events) :
    ∃ record, Record.decode frame = .ok record ∧
      record.session.bytes = frame.sessionField ∧
      output = placement assembly.outputs.length frame := by
  have listed : (reader, frame) ∈ ((assembly.launch signal now).history events).filterMap
      (Occurrence.offer? output) :=
    List.mem_filterMap.mpr ⟨_, offered, if_pos rfl⟩
  have passed := (offered_of_affinity steps affinity present output).mem_iff.mp
    (List.mem_map_of_mem (List.mem_append_left _ listed))
  obtain ⟨allowed, placed⟩ := List.mem_filter.mp passed
  obtain ⟨⟨session, _⟩, member, rfl⟩ := List.mem_map.mp allowed
  obtain ⟨record, decoded, field, -⟩ := mem_allowed member
  exact ⟨record, decoded, field, (of_decide_eq_true placed).symm⟩

end

end Assembly

/-- Under session affinity every frame that is allowed is offered once, at the output
that its session key and the number of outputs determine; no turn is ever taken, and
another relay with as many outputs agrees. -/
theorem Assembly.run_keeps_sessions_together (assembly : Assembly) (signal : Signal)
    (now : Instant) {events : List Event} {last : Relay}
    (ran : (assembly.launch signal now).run? events = some last)
    (affinity : assembly.stages.router.policy = .sessionAffinity)
    (present : assembly.outputs ≠ []) :
    let happened := (assembly.launch signal now).history events
    let outputs := assembly.outputs.length
    (∀ {reader output frame refusal}, .offered reader output frame refusal ∈ happened →
      ∃ record, Record.decode frame = .ok record ∧
        record.session.bytes = frame.sessionField ∧ output = placement outputs frame) ∧
    (happened.filterMap Occurrence.handling?).filterMap Handling.passed? =
      (assembly.allowed happened).map (fun (_, frame) => (frame, [placement outputs frame])) ∧
    (∀ output, ((happened.filterMap (Occurrence.offer? output) ++
        last.awaiting output).map Prod.snd).Perm
      (((assembly.allowed happened).map Prod.snd).filter
        fun frame => placement outputs frame = output)) ∧
    last.stages.router = assembly.stages.router ∧
    ∀ (other : Assembly) {otherSignal otherNow otherEvents otherLast},
      (other.launch otherSignal otherNow).run? otherEvents = some otherLast →
      other.stages.router.policy = .sessionAffinity → other.outputs.length = outputs →
      ∀ {reader output frame refusal otherReader otherOutput otherFrame otherRefusal},
        .offered reader output frame refusal ∈ happened →
        .offered otherReader otherOutput otherFrame otherRefusal ∈
          (other.launch otherSignal otherNow).history otherEvents →
        frame.sessionField = otherFrame.sessionField → output = otherOutput := by
  intro happened outputs
  have steps := Relay.run?_eq_some_iff.mp ran
  have processes : assembly.stages.Processes outputs _ last.stages := steps.processes
  refine ⟨?_, passed_of_affinity steps affinity present,
    offered_of_affinity steps affinity present, processes.router_eq affinity, ?_⟩
  · intro reader output frame refusal offered
    exact decoded_of_offered steps affinity present offered
  · intro other otherSignal otherNow otherEvents otherLast otherRan otherAffinity same
      reader output frame refusal otherReader otherOutput otherFrame otherRefusal offered
      otherOffered sameKey
    have otherPresent : other.outputs ≠ [] := by
      rintro absent
      rw [absent] at same
      exact present (List.length_eq_zero_iff.mp same.symm)
    obtain ⟨-, -, -, here⟩ := decoded_of_offered steps affinity present offered
    obtain ⟨-, -, -, there⟩ := decoded_of_offered (Relay.run?_eq_some_iff.mp otherRan)
      otherAffinity otherPresent otherOffered
    rw [here, there, same, placement, placement, sameKey]

/-- A request in full form and its answer in capture form, with another variant, come in
at two inputs and go to the same output, by a router that has taken turns before. -/
theorem Assembly.run_keeps_sessions_together_forms :
    let get : Bytes := [71, 69, 84, 32]
    let key : Bytes := List.replicate 20 97
    let request : Bytes :=
      [49, 32] ++ key ++ [97, 97, 97, 97] ++ [32, 43, 48, 32, 45, 48, 10] ++ get
    let answer : Bytes := [50, 32] ++ key ++ [98, 98, 98, 98] ++ [32, 33, 10]
    let first : Inlet := .ofItems [.frame request, .frame [33]]
    let second : Inlet := .ofItems [.frame answer]
    let router : Router := ⟨.sessionAffinity, ⟨7⟩⟩
    let assembly : Assembly :=
      ⟨⟨Sample.filter, router⟩, [("a", first), ("b", second)], ["x", "y", "z"], true⟩
    let launched := assembly.launch .lowered 0
    let events : List Event :=
      [.take 0, .take 1, .write 1 2 none, .write 0 2 (some .rejectedWrite), .land 0, .take 0]
    ∃ last, launched.run? events = some last ∧ last.stages.router = router ∧
      2 = placement 3 request ∧ 2 = placement 3 answer := by
  intro get key request answer first second router assembly launched events
  have runs : (launched.run? events).isSome = true := by decide +kernel
  obtain ⟨last, ran⟩ := Option.isSome_iff_exists.mp runs
  have answered : .offered 1 2 answer none ∈ launched.history events :=
    by decide +kernel
  have requested : .offered 0 2 request (some .rejectedWrite) ∈ launched.history events :=
    by decide +kernel
  obtain ⟨placed, -, -, still, -⟩ := Assembly.run_keeps_sessions_together assembly .lowered 0
    ran rfl (List.cons_ne_nil _ _)
  obtain ⟨-, -, -, requestPlaced⟩ := placed requested
  obtain ⟨-, -, -, answerPlaced⟩ := placed answered
  exact ⟨last, ran, still, requestPlaced, answerPlaced⟩

end TrafficRelay
