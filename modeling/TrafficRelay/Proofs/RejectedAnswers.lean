import Mathlib.Data.List.Induction
import TrafficRelay.Proofs.AnswerVerdict

/-!
# Answers to rejected requests

Which requests are on record can be told from the judgements alone: a request is
recorded if every earlier one that was recorded has expired by then or has been
answered.  The entry of a session is the last recorded request, as long as no
answer has come since.  A request that is sent again while its first copy is on
record adds nothing and prolongs nothing, so of the answers to the two copies
only the first is rejected, and only while the first copy is young.
-/

namespace TrafficRelay

/-- A request of the session that is put on record after these judgements. -/
def Recorded (timeToLive : Duration) (session : SessionKey)
    (before : List Judgement) (request : Judgement) : Prop :=
  request.IsRequestOf session ∧
    ∀ earlier old rest, before = earlier ++ old :: rest →
      Recorded timeToLive session earlier old →
      timeToLive ≤ request.instant - old.instant ∨
        ∃ judgement ∈ rest, judgement.IsAnswerOf session
termination_by before.length
decreasing_by subst before; simp

/-- The last request that was put on record is this one, and no answer has come
since. -/
def AwaitsAnswer (timeToLive : Duration) (session : SessionKey)
    (entry : VerdictEntry) (log : List Judgement) : Prop :=
  ∃ before request between, log = before ++ request :: between ∧
    Recorded timeToLive session before request ∧
    request.instant = entry.since ∧ request.verdict = entry.verdict ∧
    ∀ judgement ∈ between, ¬judgement.IsAnswerOf session

section

variable {timeToLive : Duration} {session : SessionKey} {entry : VerdictEntry}
  {before between log : List Judgement} {request last : Judgement}

theorem Recorded.isRequestOf
    (recorded : Recorded timeToLive session before request) :
    request.IsRequestOf session := by
  rw [Recorded] at recorded
  exact recorded.1

/-- No recorded request awaits an answer while another one is put on record. -/
theorem Recorded.settled
    (recorded : Recorded timeToLive session before request)
    (awaits : AwaitsAnswer timeToLive session entry before) :
    timeToLive ≤ request.instant - entry.since := by
  obtain ⟨earlier, old, rest, split, oldRecorded, since, -, noAnswer⟩ := awaits
  rw [Recorded] at recorded
  rcases recorded.2 earlier old rest split oldRecorded with expired | answered
  · exact since ▸ expired
  · obtain ⟨judgement, member, isAnswer⟩ := answered
    exact (noAnswer judgement member isAnswer).elim

theorem AwaitsAnswer.of_recorded
    (recorded : Recorded timeToLive session log last) :
    AwaitsAnswer timeToLive session ⟨last.verdict, last.instant⟩
      (log ++ [last]) :=
  ⟨log, last, [], rfl, recorded, rfl, rfl, by simp⟩

theorem AwaitsAnswer.append (awaits : AwaitsAnswer timeToLive session entry log)
    (notAnswer : ¬last.IsAnswerOf session) :
    AwaitsAnswer timeToLive session entry (log ++ [last]) := by
  obtain ⟨before, request, between, rfl, recorded, since, verdict, noAnswer⟩ :=
    awaits
  refine ⟨before, request, between ++ [last], by simp, recorded, since, verdict, ?_⟩
  intro judgement member
  rcases List.mem_append.mp member with earlier | isLast
  · exact noAnswer judgement earlier
  · exact List.mem_singleton.mp isLast ▸ notAnswer

namespace VerdictSlot

/-- A recorded request fills the slot, and what comes before it is too old or too
early to answer keeps it there. -/
theorem fold_of_recorded
    (awaited : ∀ entry, fold timeToLive session none before = some entry →
      AwaitsAnswer timeToLive session entry before)
    (recorded : Recorded timeToLive session before request)
    (noAnswer : ∀ judgement ∈ between, ¬judgement.IsAnswerOf session)
    (young : ∀ judgement ∈ between, judgement.instant - request.instant < timeToLive) :
    fold timeToLive session none (before ++ request :: between) =
      some ⟨request.verdict, request.instant⟩ := by
  have filled : fold timeToLive session none (before ++ [request]) =
      some ⟨request.verdict, request.instant⟩ := by
    rw [fold_append, fold_request _ recorded.isRequestOf]
    cases found : fold timeToLive session none before with
    | none => rfl
    | some entry => rw [remember, if_pos (recorded.settled (awaited entry found))]
  rw [← List.singleton_append, ← List.append_assoc, fold_append, filled]
  exact fold_some_of_young noAnswer fun judgement member _ => young judgement member

/-- A request that takes the place of what the slot had is recorded. -/
theorem recorded_of_replaced
    (awaited : ∀ earlier rest, log = earlier ++ rest → ∀ entry,
      fold timeToLive session none earlier = some entry →
      AwaitsAnswer timeToLive session entry earlier)
    (ordered : ∀ judgement ∈ log, judgement.instant ≤ last.instant)
    (isRequest : last.IsRequestOf session)
    (settled : ∀ entry, fold timeToLive session none log = some entry →
      timeToLive ≤ last.instant - entry.since) :
    Recorded timeToLive session log last := by
  rw [Recorded]
  refine ⟨isRequest, ?_⟩
  rintro earlier old rest rfl oldRecorded
  by_cases answered : ∃ judgement ∈ rest, judgement.IsAnswerOf session
  · exact Or.inr answered
  · refine Or.inl (Nat.le_of_not_lt fun young => ?_)
    have kept : fold timeToLive session none (earlier ++ old :: rest) =
        some ⟨old.verdict, old.instant⟩ := fold_of_recorded
      (awaited earlier _ rfl) oldRecorded
      (fun judgement member isAnswer => answered ⟨judgement, member, isAnswer⟩)
      (fun judgement member => Nat.lt_of_le_of_lt
        (Nat.sub_le_sub_right (ordered judgement (by simp [member])) old.instant)
        young)
    exact Nat.not_le_of_lt young (settled _ kept)

/-- What the slot has after judgements in the order of their times is the verdict
of the last recorded request. -/
theorem awaitsAnswer_of_fold
    (ordered : log.Pairwise fun earlier later => earlier.instant ≤ later.instant)
    (found : fold timeToLive session none log = some entry) :
    AwaitsAnswer timeToLive session entry log := by
  -- On the length, because whether a request is recorded depends on every earlier prefix.
  induction length : log.length using Nat.strongRecOn generalizing log entry with
  | ind size induction =>
      subst length
      rcases List.eq_nil_or_concat log with rfl | ⟨log, last, rfl⟩
      · cases found
      · rw [List.concat_eq_append] at *
        obtain ⟨orderedLog, -, beforeLast⟩ := List.pairwise_append.mp ordered
        have awaited : ∀ earlier rest, log = earlier ++ rest → ∀ entry,
            fold timeToLive session none earlier = some entry →
            AwaitsAnswer timeToLive session entry earlier := by
          rintro earlier rest rfl entry found
          exact induction earlier.length (by simp)
            (List.pairwise_append.mp orderedLog).1 found rfl
        have awaitedLog := awaited log [] (List.append_nil log).symm
        rw [fold_append] at found
        by_cases own : last.record.session = session
        · subst session
          rcases last.isRequestOf_or_isAnswerOf with isRequest | isAnswer
          · rw [fold_request _ isRequest] at found
            have recorded := recorded_of_replaced awaited
              (fun judgement member => beforeLast judgement member last (by simp))
              isRequest
            cases earlier : fold timeToLive last.record.session none log with
            | none =>
                rw [earlier] at found recorded
                obtain rfl := Option.some.inj found
                exact .of_recorded (recorded (by simp))
            | some old =>
                rw [earlier, remember] at found
                split at found
                · rename_i expired
                  obtain rfl := Option.some.inj found
                  rw [earlier] at recorded
                  refine .of_recorded (recorded fun entry same => ?_)
                  exact Option.some.inj same ▸ expired
                · have kept := awaitedLog entry (earlier.trans found)
                  exact kept.append isRequest.not_isAnswerOf
          · rw [fold_answer _ isAnswer] at found
            cases found
        · rw [fold_of_other _ own] at found
          exact (awaitedLog entry found).append fun isAnswer => own isAnswer.1

end VerdictSlot

end

/-- While every request of a session is rejected, an answer is rejected exactly if
it is the first one since the last recorded request and comes before the time to
live of that request has passed. -/
theorem Filter.answer_dropped_iff_awaited (whitelist : Whitelist)
    (timeToLive sweepInterval : Duration) (start : Instant)
    (ops : List (ClockOp Record)) (past : ClockOp.SweepsPast start ops)
    (session : SessionKey) (before after : List Judgement) (answer : Judgement)
    (split : (TimedFilter.new whitelist timeToLive sweepInterval start).log ops =
      before ++ answer :: after)
    (isAnswer : answer.IsAnswerOf session)
    (rejected : ∀ judgement ∈ before, judgement.IsRequestOf session →
      judgement.verdict = .drop) :
    answer.verdict = .drop ↔
      ∃ earlier request between, before = earlier ++ request :: between ∧
        Recorded timeToLive session earlier request ∧
        answer.instant - request.instant < timeToLive ∧
        ∀ judgement ∈ between, ¬judgement.IsAnswerOf session := by
  have due := TimedFilter.log_new_verdict whitelist timeToLive sweepInterval
    start past split
  rw [Filter.dueVerdict_answer _ _ _ isAnswer] at due
  have pairwise := (TimedFilter.log_ordered
    (TimedFilter.new whitelist timeToLive sweepInterval start) ops).1
  rw [split] at pairwise
  obtain ⟨ordered, -, beforeAnswer⟩ := List.pairwise_append.mp pairwise
  constructor
  · intro dropped
    rw [due] at dropped
    cases found : VerdictSlot.fold timeToLive session none before with
    | none =>
        rw [found] at dropped
        cases dropped
    | some entry =>
        rw [found, VerdictSlot.redeem] at dropped
        split at dropped
        · rename_i young
          obtain ⟨earlier, request, between, same, recorded, since, -, noAnswer⟩ :=
            VerdictSlot.awaitsAnswer_of_fold ordered found
          exact ⟨earlier, request, between, same, recorded, since ▸ young, noAnswer⟩
        · cases dropped
  · rintro ⟨earlier, request, between, rfl, recorded, young, noAnswer⟩
    obtain ⟨orderedEarlier, -, -⟩ := List.pairwise_append.mp ordered
    have kept := VerdictSlot.fold_of_recorded
      (fun entry => VerdictSlot.awaitsAnswer_of_fold orderedEarlier)
      recorded noAnswer fun judgement member => Nat.lt_of_le_of_lt
        (Nat.sub_le_sub_right
          (beforeAnswer judgement (by simp [member]) answer (by simp)) request.instant)
        young
    rw [kept, VerdictSlot.redeem, if_pos young] at due
    exact due.trans (rejected request (by simp) recorded.isRequestOf)

/-- A rejected request is sent again with another suffix; the first answer to
either copy is rejected on account of the first copy. -/
theorem Filter.answer_dropped_iff_awaited_resent :
    let first : Ident := ⟨List.replicate 24 97, by decide, by decide⟩
    let again : Ident :=
      ⟨List.replicate 20 97 ++ List.replicate 4 98, by decide, by decide⟩
    let record (kind : Kind) (ident : Ident) (body : Bytes) : Record :=
      ⟨⟨kind, ident, .full ⟨0⟩ 0⟩, body⟩
    let put : Bytes := [80, 85, 84, 32]
    let ops : List (ClockOp Record) :=
      [.act (record .request first put), .advance 3,
        .act (record .request again put), .advance 1,
        .act (record .response again [])]
    let request : Judgement := ⟨0, record .request first put, .drop⟩
    let copy : Judgement := ⟨3, record .request again put, .drop⟩
    let answer : Judgement := ⟨4, record .response again [], .drop⟩
    (TimedFilter.new ⟨[[71, 69, 84]]⟩ 5 1 0).log ops =
        [request, copy] ++ answer :: [] ∧
      Recorded 5 first.session [] request ∧ answer.verdict = .drop := by
  intro first again record put ops request copy answer
  have split : (TimedFilter.new ⟨[[71, 69, 84]]⟩ 5 1 0).log ops =
      [request, copy] ++ answer :: [] := by decide
  have recorded : Recorded 5 first.session [] request := by
    rw [Recorded]
    exact ⟨by decide, by simp⟩
  refine ⟨split, recorded, ?_⟩
  exact (Filter.answer_dropped_iff_awaited ⟨[[71, 69, 84]]⟩ 5 1 0 ops
    (by simp [ops, ClockOp.SweepsPast, ClockOp.timeAfter]) first.session
    [request, copy] [] answer split (by decide) (by decide)).mpr
    ⟨[], request, [copy], rfl, recorded, by decide, by decide⟩

/-- The second of two answers to a rejected request that was sent twice passes, and
so does the first one if the first copy has expired by then, however young the
second copy is. -/
theorem Filter.resent_answer_passes :
    let first : Ident := ⟨List.replicate 24 97, by decide, by decide⟩
    let again : Ident :=
      ⟨List.replicate 20 97 ++ List.replicate 4 98, by decide, by decide⟩
    let record (kind : Kind) (ident : Ident) (body : Bytes) : Record :=
      ⟨⟨kind, ident, .full ⟨0⟩ 0⟩, body⟩
    let put : Bytes := [80, 85, 84, 32]
    let spent : List (ClockOp Record) :=
      [.act (record .request first put), .act (record .request again put),
        .act (record .response first []), .act (record .response again [])]
    let aged : List (ClockOp Record) :=
      [.act (record .request first put), .advance 4,
        .act (record .request again put), .advance 2,
        .act (record .response again [])]
    let Rejects (ops : List (ClockOp Record)) : Prop :=
      ∀ before request between answer after,
        (TimedFilter.new ⟨[[71, 69, 84]]⟩ 5 1 0).log ops =
          (before ++ request :: between) ++ answer :: after →
        request.IsRequestOf first.session →
        (∀ judgement ∈ between, ¬judgement.IsRequestOf first.session) →
        answer.IsAnswerOf first.session →
        (∀ judgement ∈ before ++ request :: between,
          judgement.IsRequestOf first.session → judgement.verdict = .drop) →
        answer.instant - request.instant < 5 →
        (before ++ request :: between).countP (·.IsAnswerOf first.session) <
          (before ++ request :: between).countP (·.IsRequestOf first.session) →
        answer.verdict = .drop
    ¬Rejects spent ∧ ¬Rejects aged := by
  intro first again record put spent aged Rejects
  constructor
  · intro rejects
    have dropped := rejects [⟨0, record .request first put, .drop⟩]
      ⟨0, record .request again put, .drop⟩
      [⟨0, record .response first [], .drop⟩]
      ⟨0, record .response again [], .allow⟩ [] (by decide) (by decide)
      (by decide) (by decide) (by decide) (by decide) (by decide)
    cases dropped
  · intro rejects
    have dropped := rejects [⟨0, record .request first put, .drop⟩]
      ⟨4, record .request again put, .drop⟩ []
      ⟨6, record .response again [], .allow⟩ [] (by decide) (by decide)
      (by decide) (by decide) (by decide) (by decide) (by decide)
    cases dropped

end TrafficRelay
