import Mathlib.Data.Fintype.Card
import Mathlib.Data.Fintype.Fin
import TrafficRelay.Proofs.FilterRun

/-!
# Dropped answers

An entry of a verdict table stems from a request that has not been answered
since, whatever has been swept in the meantime and for whatever instant.  An
answer that is dropped took such an entry off the record, so it can be traced
to a dropped request, and no other answer can be traced to the same one.
-/

namespace TrafficRelay

namespace VerdictTable

variable {table : VerdictTable}

/-- Every entry stems from a request that has not been answered. -/
def Backed (table : VerdictTable) (log : List Judgement) : Prop :=
  ∀ session entry, (session, entry) ∈ table.entries → Unanswered session entry log

theorem Backed.act {log : List Judgement} (backed : table.Backed log)
    (judgement : Judgement) :
    (table.act judgement.instant judgement.action).2.Backed (log ++ [judgement]) := by
  intro session entry member
  rcases judgement.isRequestOf_or_isAnswerOf with isRequest | isAnswer
  · rw [isRequest.action_eq] at member
    rcases mem_entries_of_remember member with ⟨rfl, rfl⟩ | old
    · exact .of_isRequestOf log isRequest
    · exact (backed session entry old).append isRequest.not_isAnswerOf
  · rw [isAnswer.action_eq] at member
    obtain ⟨different, old⟩ := mem_entries_of_erase member
    apply (backed session entry old).append
    intro answersSession
    exact different answersSession.1.symm

end VerdictTable

/-- An answer is dropped only on account of an entry that has not expired. -/
theorem Filter.judge_eq_drop_of_isAnswer {filter : Filter} {now : Instant}
    {record : Record} (isAnswer : record.header.kind.isAnswer = true)
    (dropped : (filter.judge now record).1 = .drop) :
    ∃ entry, (record.session, entry) ∈ filter.table.entries ∧
      entry.verdict = .drop ∧ now - entry.since < filter.table.timeToLive := by
  have redeemed : (filter.table.redeem now record.session).1.getD .allow = .drop := by
    rw [Filter.judge_verdict] at dropped
    cases kind : record.header.kind <;> simp_all [Kind.isAnswer]
  cases found : filter.table.live? now record.session with
  | none =>
      have nothing : (filter.table.redeem now record.session).1 = none :=
        congrArg (Option.map VerdictEntry.verdict) found
      rw [nothing] at redeemed
      cases redeemed
  | some entry =>
      have taken : (filter.table.redeem now record.session).1 = some entry.verdict :=
        congrArg (Option.map VerdictEntry.verdict) found
      rw [taken] at redeemed
      have present := (Option.filter_eq_some_iff.mp found).1
      exact ⟨entry, VerdictTable.mem_entries_of_get? present, redeemed,
        VerdictSlot.young_of_live_eq_some found⟩

namespace TimedFilter

variable {state : TimedFilter} {log : List Judgement}

theorem step_whitelist (state : TimedFilter) (op : ClockOp Record) :
    (state.step op).2.filter.whitelist = state.filter.whitelist := by
  cases op with
  | act record => rw [step_act]
  | sweep instant => rfl
  | advance elapsed => rfl

theorem step_timeToLive (state : TimedFilter) (op : ClockOp Record) :
    (state.step op).2.filter.table.timeToLive =
      state.filter.table.timeToLive := by
  cases op with
  | act record => rw [step_act, VerdictTable.act_timeToLive]
  | sweep instant => rfl
  | advance elapsed => rfl

theorem run_whitelist (state : TimedFilter) (ops : List (ClockOp Record)) :
    (state.run ops).filter.whitelist = state.filter.whitelist := by
  induction ops generalizing state with
  | nil => rfl
  | cons op ops induction => rw [run, induction, step_whitelist]

theorem run_timeToLive (state : TimedFilter) (ops : List (ClockOp Record)) :
    (state.run ops).filter.table.timeToLive =
      state.filter.table.timeToLive := by
  induction ops generalizing state with
  | nil => rfl
  | cons op ops induction => rw [run, induction, step_timeToLive]

theorem step_backed (backed : state.filter.table.Backed log)
    (op : ClockOp Record) :
    (state.step op).2.filter.table.Backed (log ++ (state.step op).1.toList) := by
  cases op with
  | act record =>
      rw [step_act]
      exact backed.act (state.judgement record)
  | sweep instant =>
      intro session entry member
      rw [step, Option.toList_none, List.append_nil]
      exact backed session entry (List.mem_of_mem_filter member)
  | advance elapsed =>
      rw [step, Option.toList_none, List.append_nil]
      exact backed

theorem run_backed (backed : state.filter.table.Backed log)
    (ops : List (ClockOp Record)) :
    (state.run ops).filter.table.Backed (log ++ state.log ops) := by
  induction ops generalizing state log with
  | nil =>
      rw [TimedFilter.log, List.append_nil]
      exact backed
  | cons op ops induction =>
      rw [TimedFilter.log, ← List.append_assoc]
      exact induction (step_backed backed op)

variable {whitelist : Whitelist} {timeToLive sweepInterval : Duration}
  {start : Instant} {ops : List (ClockOp Record)} {before after : List Judgement}
  {judgement : Judgement} {session : SessionKey}

/-- A dropped answer is preceded by the request whose verdict it took. -/
theorem unanswered_of_dropped
    (split : (new whitelist timeToLive sweepInterval start).log ops =
      before ++ judgement :: after)
    (isAnswer : judgement.IsAnswerOf session) (dropped : judgement.verdict = .drop) :
    ∃ entry, Unanswered session entry before ∧ entry.verdict = .drop ∧
      judgement.instant - entry.since < timeToLive := by
  obtain ⟨earlier, record, later, rfl, rfl, rfl⟩ := log_eq_append_cons split
  obtain ⟨entry, present, verdict, young⟩ :=
    Filter.judge_eq_drop_of_isAnswer isAnswer.2 dropped
  rw [run_timeToLive] at young
  have empty : (new whitelist timeToLive sweepInterval start).filter.table.Backed [] := by
    intro session entry member
    cases member
  have backed := run_backed empty earlier
  rw [List.nil_append] at backed
  obtain ⟨rfl, -⟩ := isAnswer
  exact ⟨entry, backed _ entry present, verdict, young⟩

/-- Requests have the verdict that the whitelist gives them. -/
theorem verdict_of_isRequestOf
    (split : (new whitelist timeToLive sweepInterval start).log ops =
      before ++ judgement :: after)
    (isRequest : judgement.IsRequestOf session) :
    judgement.verdict = whitelist.judge judgement.record.body := by
  obtain ⟨earlier, record, later, rfl, rfl, rfl⟩ := log_eq_append_cons split
  have kind : record.header.kind = .request := isRequest.2
  have judged := Filter.judge_verdict (run (new whitelist timeToLive sweepInterval
    start) earlier).filter (run (new whitelist timeToLive sweepInterval
    start) earlier).now record
  rw [kind, run_whitelist] at judged
  exact judged

end TimedFilter

section

variable (log : List Judgement)

def DroppedAnswer (position : Fin log.length) : Prop :=
  log[position].record.header.kind.isAnswer = true ∧ log[position].verdict = .drop

def DroppedRequest (position : Fin log.length) : Prop :=
  log[position].record.header.kind = .request ∧ log[position].verdict = .drop

/-- An answer follows a request of its session after less than the time to live,
and is the first to do so. -/
structure Answers (timeToLive : Duration) (request answer : Fin log.length) :
    Prop where
  later : request < answer
  sameSession : log[request].record.session = log[answer].record.session
  notBefore : log[request].instant ≤ log[answer].instant
  inTime : log[answer].instant < log[request].instant + timeToLive
  first : ∀ between, request < between → between < answer →
    ¬log[between].IsAnswerOf log[answer].record.session

end

/-- Two dropped answers do not answer the same request. -/
theorem Answers.unique {log : List Judgement} {timeToLive : Duration}
    {request answer other : Fin log.length}
    (answers : Answers log timeToLive request answer)
    (answersToo : Answers log timeToLive request other)
    (dropped : DroppedAnswer log answer) (droppedToo : DroppedAnswer log other) :
    answer = other := by
  have sameSession : log[answer].record.session = log[other].record.session :=
    answers.sameSession.symm.trans answersToo.sameSession
  rcases lt_trichotomy answer other with less | equal | greater
  · exact (answersToo.first answer answers.later less ⟨sameSession, dropped.1⟩).elim
  · exact equal
  · exact (answers.first other answersToo.later greater
      ⟨sameSession.symm, droppedToo.1⟩).elim

theorem take_append_getElem_drop {α : Type} (entries : List α)
    (position : Fin entries.length) :
    entries = entries.take position ++
      entries[position] :: entries.drop (position + 1) := by
  rw [Fin.getElem_fin, List.getElem_cons_drop, List.take_append_drop]

theorem TimedFilter.exists_answers {whitelist : Whitelist}
    {timeToLive sweepInterval : Duration} {start : Instant}
    {ops : List (ClockOp Record)} {log : List Judgement}
    (logged : (TimedFilter.new whitelist timeToLive sweepInterval start).log ops = log)
    {answer : Fin log.length} (dropped : DroppedAnswer log answer) :
    ∃ request, DroppedRequest log request ∧ Answers log timeToLive request answer := by
  obtain ⟨position, inRange⟩ := answer
  have ordered := (TimedFilter.log_ordered
    (TimedFilter.new whitelist timeToLive sweepInterval start) ops).1
  rw [logged] at ordered
  have split := take_append_getElem_drop log ⟨position, inRange⟩
  obtain ⟨entry, ⟨before, request, after, cut, isRequest, since, verdict, noAnswer⟩,
      isDrop, young⟩ :=
    TimedFilter.unanswered_of_dropped (logged.trans split) ⟨rfl, dropped.1⟩ dropped.2
  have requestBefore : before.length < position := by
    have lengths := congrArg List.length cut
    rw [List.length_take_of_le (Nat.le_of_lt inRange)] at lengths
    simp only [List.length_append, List.length_cons] at lengths
    omega
  have requestInRange : before.length < log.length := Nat.lt_trans requestBefore inRange
  have found : log[before.length] = request := by
    have inTake : before.length < (log.take position).length := by
      rw [List.length_take_of_le (Nat.le_of_lt inRange)]
      exact requestBefore
    rw [← List.getElem_take (h := inTake)]
    simp only [cut, List.getElem_append_right, Nat.le_refl, Nat.sub_self,
      List.getElem_cons_zero]
  have between : ∀ index (inLog : index < log.length), before.length < index →
      index < position → log[index] ∈ after := by
    intro index inLog above below
    have inTake : index < (log.take position).length := by
      rw [List.length_take_of_le (Nat.le_of_lt inRange)]
      exact below
    obtain ⟨offset, rfl⟩ := Nat.exists_eq_add_of_lt above
    rw [← List.getElem_take (h := inTake)]
    simp [cut, List.getElem_append_right, Nat.add_assoc]
  have notBefore : log[before.length].instant ≤ log[position].instant :=
    List.pairwise_iff_getElem.mp ordered _ _ _ _ requestBefore
  refine ⟨⟨before.length, requestInRange⟩, ⟨?_, ?_⟩, ?_⟩
  · exact found ▸ isRequest.2
  · exact found ▸ verdict.trans isDrop
  · constructor
    · exact requestBefore
    · exact found ▸ isRequest.1
    · exact notBefore
    · apply (Nat.sub_lt_iff_lt_add' notBefore).mp
      rw [found, since]
      exact young
    · intro middle above below
      exact noAnswer _ (between middle middle.isLt above below)

/-- A count over a list is a count over its positions. -/
theorem countP_eq_card {α : Type} (keep : α → Bool) (entries : List α) :
    entries.countP keep =
      Fintype.card { position : Fin entries.length // keep entries[position] = true } := by
  rw [Fintype.card_subtype]
  induction entries with
  | nil => rfl
  | cons first rest induction =>
      have counted := Fin.card_filter_univ_succ
        fun position => keep (first :: rest)[position] = true
      rw [List.countP_cons, induction]
      refine Eq.trans ?_ counted.symm
      by_cases here : keep first = true
      · rw [if_pos here]
        exact (if_pos here).symm
      · rw [if_neg here]
        exact (if_neg here).symm

/-- Whatever is swept in a run and for whatever instants, every dropped answer
answers a dropped request of its own.  So no session has more answers dropped than
requests, and nothing is dropped where the whitelist is empty. -/
theorem Filter.dropped_answers_have_requests (whitelist : Whitelist)
    (timeToLive sweepInterval : Duration) (start : Instant)
    (ops : List (ClockOp Record)) :
    let log := (TimedFilter.new whitelist timeToLive sweepInterval start).log ops
    (∃ request : { answer // DroppedAnswer log answer } →
          { request // DroppedRequest log request },
        Function.Injective request ∧
        ∀ answer, Answers log timeToLive (request answer) answer) ∧
      (∀ session,
        log.countP (fun judgement =>
            judgement.IsAnswerOf session ∧ judgement.verdict = .drop) ≤
          log.countP fun judgement =>
            judgement.IsRequestOf session ∧ judgement.verdict = .drop) ∧
      (whitelist.isEmpty = true → ∀ judgement ∈ log, judgement.verdict = .allow) := by
  intro log
  choose request dropped answers using fun answer : { answer // DroppedAnswer log answer } =>
    TimedFilter.exists_answers rfl answer.2
  have injective : Function.Injective request := by
    intro answer other same
    apply Subtype.ext
    apply (answers answer).unique _ answer.2 other.2
    rw [same]
    exact answers other
  refine ⟨⟨fun answer => ⟨request answer, dropped answer⟩, ?_, answers⟩, ?_, ?_⟩
  · intro answer other same
    exact injective (congrArg Subtype.val same)
  · intro session
    rw [countP_eq_card, countP_eq_card]
    have isDropped (answer : Fin log.length)
        (chosen : decide (log[answer].IsAnswerOf session ∧
          log[answer].verdict = .drop) = true) : DroppedAnswer log answer :=
      ⟨(of_decide_eq_true chosen).1.2, (of_decide_eq_true chosen).2⟩
    -- The requests of the answers of one session are of that session too.
    apply Fintype.card_le_of_injective fun answer =>
      ⟨request ⟨answer.1, isDropped answer.1 answer.2⟩, decide_eq_true
        ⟨⟨(answers _).sameSession.trans (of_decide_eq_true answer.2).1.1,
          (dropped _).1⟩, (dropped _).2⟩⟩
    intro answer other same
    have sameAnswer := injective (congrArg Subtype.val same)
    exact Subtype.ext (Subtype.mk.inj sameAnswer)
  · intro empty judgement member
    have allowed (position : Fin log.length)
        (isRequest : log[position].record.header.kind = .request) :
        log[position].verdict = .allow := by
      have judged := TimedFilter.verdict_of_isRequestOf
        (take_append_getElem_drop log position) ⟨rfl, isRequest⟩
      rw [judged, Whitelist.judge, if_pos empty]
    obtain ⟨position, inRange, rfl⟩ := List.getElem_of_mem member
    rcases log[position].isRequestOf_or_isAnswerOf with isRequest | isAnswer
    · exact allowed ⟨position, inRange⟩ isRequest.2
    · cases verdict : log[position].verdict with
      | allow => rfl
      | drop =>
          let answer : { answer // DroppedAnswer log answer } :=
            ⟨⟨position, inRange⟩, isAnswer.2, verdict⟩
          have isDrop := (dropped answer).2
          rw [allowed _ (dropped answer).1] at isDrop
          cases isDrop

/-- A rejected request is resent while its verdict is on record, and both are
answered; an entry is swept before its time and the answer to it is allowed. -/
theorem Filter.dropped_answers_have_requests_swept :
    let first : Ident := ⟨List.replicate 24 97, by decide, by decide⟩
    let other : Ident := ⟨List.replicate 24 99, by decide, by decide⟩
    let record (kind : Kind) (ident : Ident) : Record :=
      ⟨⟨kind, ident, .full ⟨0⟩ 0⟩, [80, 85, 84, 32]⟩
    let ops : List (ClockOp Record) :=
      [.act (record .request other), .sweep 9, .act (record .response other),
        .act (record .request first), .advance 4, .act (record .request first),
        .act (record .response first), .act (record .replayReport first)]
    let log := (TimedFilter.new ⟨[[71, 69, 84]]⟩ 5 1 0).log ops
    log.map Judgement.verdict = [.drop, .allow, .drop, .drop, .drop, .allow] ∧
      log.countP (fun judgement =>
          judgement.IsAnswerOf first.session ∧ judgement.verdict = .drop) ≤
        (log.countP fun judgement =>
          judgement.IsRequestOf first.session ∧ judgement.verdict = .drop) ∧
      ∀ judgement ∈ (TimedFilter.new ⟨[]⟩ 5 1 0).log ops, judgement.verdict = .allow := by
  intro first other record ops log
  have counted := (Filter.dropped_answers_have_requests ⟨[[71, 69, 84]]⟩ 5 1 0 ops).2.1
  have unfiltered := (Filter.dropped_answers_have_requests ⟨[]⟩ 5 1 0 ops).2.2
  exact ⟨by decide, counted first.session, unfiltered rfl⟩

end TrafficRelay
