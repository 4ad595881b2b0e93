import Mathlib.Data.List.Induction
import TrafficRelay.Proofs.FilterRun

/-!
# The verdict of an answer

An entry on record stems from the last request that could be put there, and no
answer has come since.  A request that finds nothing live on record therefore
determines what its first answer is told; whatever answers come after that one
find nothing until the next request.
-/

namespace TrafficRelay

namespace VerdictSlot

variable {timeToLive : Duration} {session : SessionKey}

/-- What is on record was put there by a request that has not been answered. -/
theorem fold_eq_some {log : List Judgement} {entry : VerdictEntry}
    (found : fold timeToLive session none log = some entry) :
    Unanswered session entry log := by
  -- From the end: the last judgement of the session is the one that left the slot so.
  induction log using List.reverseRecOn with
  | nil => simp at found
  | append_singleton log last induction =>
      rw [fold_append] at found
      by_cases own : last.record.session = session
      · subst session
        rcases last.isRequestOf_or_isAnswerOf with isRequest | isAnswer
        · rw [fold_request _ isRequest] at found
          cases earlier : fold timeToLive last.record.session none log with
          | none =>
              rw [earlier] at found
              obtain rfl := Option.some.inj found
              exact .of_isRequestOf log isRequest
          | some old =>
              rw [earlier, remember] at found
              split at found
              · obtain rfl := Option.some.inj found
                exact .of_isRequestOf log isRequest
              · have kept := induction (earlier.trans found)
                exact kept.append isRequest.not_isAnswerOf
        · rw [fold_answer _ isAnswer] at found
          cases found
      · rw [fold_of_other _ own] at found
        exact (induction found).append fun isAnswer => own isAnswer.1

/-- An entry stays while there is no answer and every request is too early to
replace it. -/
theorem fold_some_of_young {entry : VerdictEntry} {log : List Judgement}
    (noAnswer : ∀ judgement ∈ log, ¬judgement.IsAnswerOf session)
    (young : ∀ judgement ∈ log, judgement.IsRequestOf session →
      judgement.instant - entry.since < timeToLive) :
    fold timeToLive session (some entry) log = some entry := by
  induction log with
  | nil => rfl
  | cons first rest induction =>
      have tail := induction
        (fun judgement member => noAnswer judgement (List.mem_cons_of_mem _ member))
        (fun judgement member => young judgement (List.mem_cons_of_mem _ member))
      rw [← List.singleton_append, fold_append]
      by_cases own : first.record.session = session
      · subst session
        rcases first.isRequestOf_or_isAnswerOf with isRequest | isAnswer
        · have firstYoung := young first List.mem_cons_self isRequest
          rw [fold_request _ isRequest, remember,
            if_neg (Nat.not_le_of_lt firstYoung)]
          exact tail
        · exact (noAnswer first List.mem_cons_self isAnswer).elim
      · rw [fold_of_other _ own]
        exact tail

/-- An empty slot stays empty until the next request. -/
theorem fold_none_of_noRequest {log : List Judgement}
    (noRequest : ∀ judgement ∈ log, ¬judgement.IsRequestOf session) :
    fold timeToLive session none log = none := by
  cases found : fold timeToLive session none log with
  | none => rfl
  | some entry =>
      obtain ⟨before, request, after, rfl, isRequest, -⟩ := fold_eq_some found
      exact (noRequest request (by simp) isRequest).elim

/-- A request that finds nothing live on record is put there. -/
theorem fold_request_of_settled {before : List Judgement} {request : Judgement}
    (isRequest : request.IsRequestOf session)
    (settled : ∀ earlier old rest, before = earlier ++ old :: rest →
      old.IsRequestOf session →
      timeToLive ≤ request.instant - old.instant ∨
        ∃ judgement ∈ rest, judgement.IsAnswerOf session) :
    fold timeToLive session none (before ++ [request]) =
      some ⟨request.verdict, request.instant⟩ := by
  rw [fold_append, fold_request _ isRequest]
  cases found : fold timeToLive session none before with
  | none => rfl
  | some entry =>
      obtain ⟨earlier, old, rest, split, isOld, since, -, noAnswer⟩ :=
        fold_eq_some found
      have expired : timeToLive ≤ request.instant - entry.since := by
        rcases settled earlier old rest split isOld with expired | answered
        · exact since ▸ expired
        · obtain ⟨judgement, member, isAnswer⟩ := answered
          exact (noAnswer judgement member isAnswer).elim
      rw [remember, if_pos expired]

end VerdictSlot

namespace TimedFilter

theorem log_new_verdict (whitelist : Whitelist)
    (timeToLive sweepInterval : Duration) (start : Instant)
    {ops : List (ClockOp Record)} (past : ClockOp.SweepsPast start ops)
    {before after : List Judgement} {judgement : Judgement}
    (split : (TimedFilter.new whitelist timeToLive sweepInterval start).log ops =
      before ++ judgement :: after) :
    judgement.verdict =
      Filter.dueVerdict whitelist timeToLive before judgement.instant
        judgement.record :=
  (follows_new whitelist timeToLive sweepInterval start).log_verdict past split

end TimedFilter

theorem Filter.dueVerdict_request (whitelist : Whitelist) (timeToLive : Duration)
    (past : List Judgement) {session : SessionKey} {request : Judgement}
    (isRequest : request.IsRequestOf session) :
    Filter.dueVerdict whitelist timeToLive past request.instant request.record =
      whitelist.judge request.record.body := by
  rw [Filter.dueVerdict, isRequest.2]

theorem Filter.dueVerdict_answer (whitelist : Whitelist) (timeToLive : Duration)
    (past : List Judgement) {session : SessionKey} {answer : Judgement}
    (isAnswer : answer.IsAnswerOf session) :
    Filter.dueVerdict whitelist timeToLive past answer.instant answer.record =
      (VerdictSlot.redeem timeToLive answer.instant
        (VerdictSlot.fold timeToLive session none past)).1.getD .allow := by
  obtain ⟨rfl, kind⟩ := isAnswer
  unfold Filter.dueVerdict
  split
  · rename_i request
    rw [request] at kind
    cases kind
  · rfl
  · rfl

/-- The first answer to a request that finds nothing live on record takes the
verdict of that request if it comes before the time to live has passed, whatever
happens in between.  If it comes later and no other request of the session has,
it is allowed; and so is every further answer before the next request. -/
theorem Filter.answer_takes_verdict (whitelist : Whitelist)
    (timeToLive sweepInterval : Duration) (start : Instant)
    (ops : List (ClockOp Record)) (past : ClockOp.SweepsPast start ops)
    (session : SessionKey) (before between after : List Judgement)
    (request answer : Judgement)
    (split : (TimedFilter.new whitelist timeToLive sweepInterval start).log ops =
      before ++ request :: (between ++ answer :: after))
    (isRequest : request.IsRequestOf session)
    (settled : ∀ earlier old rest, before = earlier ++ old :: rest →
      old.IsRequestOf session →
      timeToLive ≤ request.instant - old.instant ∨
        ∃ judgement ∈ rest, judgement.IsAnswerOf session)
    (isAnswer : answer.IsAnswerOf session)
    (first : ∀ judgement ∈ between, ¬judgement.IsAnswerOf session) :
    request.verdict = whitelist.judge request.record.body ∧
      (answer.instant - request.instant < timeToLive →
        answer.verdict = request.verdict) ∧
      ((∀ judgement ∈ between, ¬judgement.IsRequestOf session) →
        timeToLive ≤ answer.instant - request.instant →
        answer.verdict = .allow) ∧
      ∀ middle further rest, after = middle ++ further :: rest →
        (∀ judgement ∈ middle, ¬judgement.IsRequestOf session) →
        further.IsAnswerOf session → further.verdict = .allow := by
  have requestDue := TimedFilter.log_new_verdict whitelist timeToLive
    sweepInterval start past split
  rw [Filter.dueVerdict_request _ _ _ isRequest] at requestDue
  have splitAtAnswer :
      (TimedFilter.new whitelist timeToLive sweepInterval start).log ops =
        (before ++ [request] ++ between) ++ answer :: after := by
    simp [split]
  have answerDue := TimedFilter.log_new_verdict whitelist timeToLive
    sweepInterval start past splitAtAnswer
  rw [Filter.dueVerdict_answer _ _ _ isAnswer, VerdictSlot.fold_append,
    VerdictSlot.fold_request_of_settled isRequest settled] at answerDue
  have ordered : ∀ judgement ∈ between, judgement.instant ≤ answer.instant := by
    have pairwise := (TimedFilter.log_ordered
      (TimedFilter.new whitelist timeToLive sweepInterval start) ops).1
    rw [splitAtAnswer] at pairwise
    intro judgement member
    exact (List.pairwise_append.mp pairwise).2.2 judgement
      (List.mem_append_right _ member) answer List.mem_cons_self
  refine ⟨requestDue, ?_, ?_, ?_⟩
  · intro young
    rw [VerdictSlot.fold_some_of_young first] at answerDue
    · rw [VerdictSlot.redeem, if_pos young] at answerDue
      exact answerDue
    · intro judgement member _
      exact Nat.lt_of_le_of_lt
        (Nat.sub_le_sub_right (ordered judgement member) request.instant) young
  · intro noRequest old
    rw [VerdictSlot.fold_some_of_young first] at answerDue
    · rw [VerdictSlot.redeem, if_neg (Nat.not_lt.mpr old)] at answerDue
      exact answerDue
    · intro judgement member other
      exact (noRequest judgement member other).elim
  · intro middle further rest afterSplit noRequest isFurther
    have splitAtFurther :
        (TimedFilter.new whitelist timeToLive sweepInterval start).log ops =
          (before ++ [request] ++ between ++ [answer] ++ middle) ++
            further :: rest := by
      simp [splitAtAnswer, afterSplit]
    have furtherDue := TimedFilter.log_new_verdict whitelist timeToLive
      sweepInterval start past splitAtFurther
    rw [Filter.dueVerdict_answer _ _ _ isFurther, VerdictSlot.fold_append,
      VerdictSlot.fold_append _ _ [answer], VerdictSlot.fold_answer _ isAnswer,
      VerdictSlot.fold_none_of_noRequest noRequest] at furtherDue
    exact furtherDue

/-- A rejected request is sent again with a method that may pass, and another
session is swept, before the first answer comes. -/
theorem Filter.answer_takes_verdict_resent :
    let first : Ident := ⟨List.replicate 24 97, by decide, by decide⟩
    let again : Ident :=
      ⟨List.replicate 20 97 ++ List.replicate 4 98, by decide, by decide⟩
    let other : Ident := ⟨List.replicate 24 99, by decide, by decide⟩
    let record (kind : Kind) (ident : Ident) (body : Bytes) : Record :=
      ⟨⟨kind, ident, .full ⟨0⟩ 0⟩, body⟩
    let get : Bytes := [71, 69, 84, 32]
    let put : Bytes := [80, 85, 84, 32]
    let ops : List (ClockOp Record) :=
      [.act (record .request other get), .advance 2,
        .act (record .request first put), .advance 3,
        .act (record .request again get), .sweep 5, .advance 1,
        .act (record .response again []), .act (record .replayReport first [])]
    let log := (TimedFilter.new ⟨[[71, 69, 84]]⟩ 5 1 0).log ops
    let request : Judgement := ⟨2, record .request first put, .drop⟩
    let answer : Judgement := ⟨6, record .response again [], .drop⟩
    let further : Judgement := ⟨6, record .replayReport first [], .allow⟩
    log = [⟨0, record .request other get, .allow⟩] ++ request ::
        ([⟨5, record .request again get, .allow⟩] ++ answer :: [further]) ∧
      answer.verdict = request.verdict ∧ further.verdict = .allow := by
  intro first again other record get put ops log request answer further
  have past : ClockOp.SweepsPast 0 ops := by
    simp [ops, ClockOp.SweepsPast, ClockOp.timeAfter]
  have split : log = [⟨0, record .request other get, .allow⟩] ++ request ::
      ([⟨5, record .request again get, .allow⟩] ++ answer :: [further]) := by
    decide
  have otherSession : other.session ≠ first.session := by decide
  obtain ⟨-, young, -, furtherAllowed⟩ :=
    Filter.answer_takes_verdict ⟨[[71, 69, 84]]⟩ 5 1 0 ops past first.session
      _ _ _ request answer split (by decide)
      (by
        intro earlier old rest shape isOld
        obtain ⟨rfl, rfl, rfl⟩ :
            earlier = [] ∧ old = ⟨0, record .request other get, .allow⟩ ∧
              rest = [] := by
          cases earlier <;> simp_all
        exact (otherSession isOld.1).elim)
      (by decide) (by decide)
  refine ⟨split, young (by decide), ?_⟩
  exact furtherAllowed [] further [] rfl (by simp) (by decide)

end TrafficRelay
